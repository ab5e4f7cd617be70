import ShuangFa.Model.Ota
import ShuangFa.Proofs.HttpCoding

/-! # The steps of a download

`encode_signature` stays inside its arrays where what follows the signature does. The steps of
`Httpc_get` in front of the download leave `dl_status` alone, and the download writes the pieces of the
body one behind the other.
-/

namespace ShuangFa

open Memory Coding Machine

section Signature

variable {url : CString} {head : ℕ} {rest : List UInt8} {sslTx : FixedBuffer sizeofSslTx}

/-- The arrays of `encode_signature` have room: `len` bytes of the address come in front of what is
encoded. -/
structure SignatureFits (url : List UInt8) (len : ℕ) : Prop where
  followed : len ≤ url.length
  stays : ¬ FillsExactly (url.drop len) sizeofSignature
  room : ∀ front, front <+: url.drop len →
    (front.flatMap urlEncodeByte).length < sizeofSignature →
      len + (front.flatMap urlEncodeByte).length < sizeofSslTx

/-- What `URLEncode` leaves in `signature`: as much of the code as fits. -/
theorem signature_text (rest : List UInt8) (stays : ¬ FillsExactly rest sizeofSignature) :
    ∃ j signature front, urlEncode (some (rest ++ [0])) rest.length
        (some (FixedBuffer.zeros sizeofSignature)) sizeofSignature = some (j, some signature) ∧
      signature.text? = some (front.flatMap urlEncodeByte) ∧ front <+: rest ∧
      (front.flatMap urlEncodeByte).length < sizeofSignature ∧
      ∀ other, other <+: rest → (other.flatMap urlEncodeByte).length < sizeofSignature →
        (other.flatMap urlEncodeByte).length ≤ (front.flatMap urlEncodeByte).length := by
  rcases Nat.lt_or_ge (rest.flatMap urlEncodeByte).length sizeofSignature with fits | long
  · have longest (other : List UInt8) (within : other <+: rest)
        (_ : (other.flatMap urlEncodeByte).length < sizeofSignature) :=
      length_urlEncoded_mono within
    rcases eq_or_ne rest [] with rfl | some_character
    · exact ⟨0, .zeros sizeofSignature, [], rfl, rfl, List.prefix_rfl, fits, longest⟩
    · obtain ⟨encoded, last, ended, bytes⟩ :=
        urlEncode_fits (.zeros sizeofSignature) [0] some_character fits
      exact ⟨_, encoded, rest, ended,
        FixedBuffer.text?_of_split bytes (zero_notMem_urlEncoded rest), List.prefix_rfl, fits, longest⟩
  · obtain ⟨front, encoded, last, within, fits, ended, bytes, zeros, longest⟩ :=
      urlEncode_refused (.zeros sizeofSignature) long stays (by decide) [0]
    refine ⟨0, encoded, front, ended, ?_, within, fits, longest⟩
    have size := encoded.size_eq
    rw [bytes, List.length_append] at size
    obtain ⟨first, behind, rfl⟩ : ∃ first behind, last = first :: behind := by
      apply List.exists_cons_of_length_pos
      omega
    obtain rfl : first = 0 :=
      zeros (fun byte member => List.eq_of_mem_replicate member) first (List.mem_cons_self ..)
    exact FixedBuffer.text?_of_split bytes (zero_notMem_urlEncoded front)

theorem drop_memory (url : CString) {len : ℕ} (inside : len ≤ url.bytes.length) :
    url.memory.bytes.drop len = url.bytes.drop len ++ [0] := by
  rw [CString.memory_bytes, List.drop_append_of_le_length inside]

/-- The string behind a place in the address. -/
theorem stringFrom?_memory (url : CString) {len : ℕ} (inside : len ≤ url.bytes.length) :
    stringFrom? url.memory.bytes len = some (url.bytes.drop len) := by
  rw [stringFrom?, drop_memory url inside, if_pos (List.mem_append_right _ (List.mem_cons_self ..)),
    takeWhile_ne_zero_append fun member => url.nonzero (List.mem_of_mem_drop member)]

/-- A text copied to the start of an array of zeros. -/
theorem zeros_store? {n : ℕ} {source : List UInt8} (nonzero : 0 ∉ source) (room : source.length < n) :
    ∃ copied, (FixedBuffer.zeros n).store? 0 source = some copied ∧ copied.text? = some source ∧
      copied.bytes = source ++ List.replicate (n - source.length) 0 := by
  obtain ⟨copied, store, bytes⟩ := @FixedBuffer.store?_room n (.zeros n) [] (List.replicate n 0) source
    rfl (by rw [List.length_replicate]; exact room.le)
  rw [List.nil_append, List.drop_replicate] at bytes
  obtain ⟨left, more⟩ : ∃ left, n - source.length = left + 1 := ⟨n - source.length - 1, by omega⟩
  refine ⟨copied, store, ?_, bytes⟩
  rw [more, List.replicate_succ] at bytes
  exact FixedBuffer.text?_of_split bytes nonzero

/-- Two texts that do not fit into an array one behind the other. -/
theorem strcat?_refused {n : ℕ} {first second : List UInt8} {copied : FixedBuffer n}
    (nonzero : 0 ∉ first) (store : (FixedBuffer.zeros n).store? 0 first = some copied)
    (cramped : n ≤ first.length + second.length) : strcat? copied second = none := by
  rw [strcat?]
  rcases Nat.lt_or_ge first.length n with room | full
  · obtain ⟨other, store_other, text, -⟩ := zeros_store? nonzero room
    obtain rfl := Option.some.inj (store_other.symm.trans store)
    rw [text, Option.bind_some, FixedBuffer.store?, if_neg]
    rw [terminated, List.length_append, List.length_singleton]
    omega
  · have fits : 0 + first.length ≤ n := by
      by_contra longer
      rw [FixedBuffer.store?, if_neg longer] at store
      cases store
    have bytes : copied.bytes = first := by
      rw [FixedBuffer.store?, if_pos fits] at store
      rw [← Option.some.inj store, FixedBuffer.overlay_bytes _ _ _ fits, List.take_zero,
        List.nil_append, List.drop_eq_nil_of_le, List.append_nil]
      rw [(FixedBuffer.zeros n).size_eq]
      omega
    rw [FixedBuffer.text?, bytes, if_neg nonzero, Option.bind_none]

/-- The length of what is copied to `ssl_tx`. -/
theorem length_copied (url : CString) {len : ℕ} (inside : len ≤ url.bytes.length) :
    url.memory.bytes.take len = url.bytes.take len ∧ (url.bytes.take len).length = len ∧
      0 ∉ url.bytes.take len := by
  refine ⟨?_, List.length_take_of_le inside, fun member => url.nonzero (List.mem_of_mem_take member)⟩
  rw [CString.memory_bytes, List.take_append_of_le_length inside]

/-- `encode_signature` builds the address up to the character behind the signature, and as much of the
code of the rest as fits. -/
theorem encodeSignature_fits (found : strstr signatureKey url.bytes = some head)
    (fits : SignatureFits url.bytes (head + 10)) (sslTx : FixedBuffer sizeofSslTx) :
    ∃ joined front, encodeSignature url sslTx = some (1, joined) ∧
      joined.text? = some (url.bytes.take (head + 10) ++ front.flatMap urlEncodeByte) ∧
      front <+: url.bytes.drop (head + 10) ∧
      ∀ other, other <+: url.bytes.drop (head + 10) →
        (other.flatMap urlEncodeByte).length < sizeofSignature →
          (other.flatMap urlEncodeByte).length ≤ (front.flatMap urlEncodeByte).length := by
  obtain ⟨same, length, nonzero⟩ := length_copied url fits.followed
  obtain ⟨j, signature, front, ended, text, within, short, longest⟩ :=
    signature_text (url.bytes.drop (head + 10)) fits.stays
  have room := fits.room front within short
  obtain ⟨copied, store, copied_text, bytes⟩ :=
    @zeros_store? sizeofSslTx (url.bytes.take (head + 10)) nonzero (by omega)
  obtain ⟨joined, joins, joined_bytes⟩ := @FixedBuffer.store?_room sizeofSslTx copied _ _
    (terminated (front.flatMap urlEncodeByte)) bytes (by
      rw [terminated, List.length_append, List.length_replicate, List.length_singleton]
      omega)
  refine ⟨joined, front, ?_, ?_, within, longest⟩
  · rw [encodeSignature, found]
    dsimp only
    rw [same, store, stringFrom?_memory url fits.followed, drop_memory url fits.followed]
    simp only [Option.bind_eq_bind, Option.bind_some, ended, text, strcat?, copied_text, joins]
  · rw [terminated, List.append_assoc, ← List.append_assoc] at joined_bytes
    apply FixedBuffer.text?_of_split joined_bytes
    rw [List.mem_append, not_or]
    exact ⟨nonzero, zero_notMem_urlEncoded front⟩

/-- Where the signature does not fit, `encode_signature` reads or stores outside. -/
theorem encodeSignature_outside (found : strstr signatureKey url.bytes = some head)
    (outside : ¬ SignatureFits url.bytes (head + 10)) (sslTx : FixedBuffer sizeofSslTx) :
    encodeSignature url sslTx = none := by
  rw [encodeSignature, found]
  dsimp only
  rcases Nat.lt_or_ge url.bytes.length (head + 10) with at_end | followed
  · have nothing : stringFrom? url.memory.bytes (head + 10) = none := by
      rw [stringFrom?, List.drop_eq_nil_of_le (by rw [url.memory.size_eq]; omega)]
      rfl
    rw [nothing]
    exact Option.bind_fun_none _
  · obtain ⟨same, length, nonzero⟩ := length_copied url followed
    rw [same, stringFrom?_memory url followed, drop_memory url followed]
    apply Option.bind_eq_none_iff.mpr
    intro copied store
    by_cases stays : FillsExactly (url.bytes.drop (head + 10)) sizeofSignature
    · rw [Option.bind_eq_bind, Option.bind_some, urlEncode_fillsExactly _ stays]
      rfl
    · obtain ⟨j, signature, front, ended, text, within, short, longest⟩ :=
        signature_text (url.bytes.drop (head + 10)) stays
      have cramped : sizeofSslTx ≤ head + 10 + (front.flatMap urlEncodeByte).length := by
        by_contra room
        apply outside ⟨followed, stays, fun other inside fits => ?_⟩
        have := longest other inside fits
        omega
      have refused : strcat? copied (front.flatMap urlEncodeByte) = none :=
        strcat?_refused nonzero store (by omega)
      simp only [Option.bind_eq_bind, Option.bind_some, ended, text, refused, Option.bind_none]

end Signature

/-- The address that a call is given. -/
def OtaCall.url? : OtaCall → Option (List UInt8)
  | hfhttpParseUrl url => some url
  | hfhttpOpenSession url => some url
  | _ => none

/-- The place and the bytes of a write to the update. -/
def OtaCall.write? : OtaCall → Option (ℕ × List UInt8)
  | hfupdateWriteFile offset data => some (offset, data)
  | _ => none

/-- The rounds that have read something. -/
def pieces (reads : List HttpRead) : List HttpRead := reads.takeWhile fun read => decide (0 < read.readSize)

/-- The bytes that have been read. -/
def bodyLength (reads : List HttpRead) : ℕ := ((pieces reads).map fun piece => piece.data.length).sum

/-- Pieces one behind the other, from a place on. -/
def placed : ℕ → List HttpRead → List (ℕ × List UInt8)
  | _, [] => []
  | offset, piece :: rest => (offset, piece.data) :: placed (offset + piece.data.length) rest

section Downloads

variable {read : HttpRead} {reads : List HttpRead} {total : ℕ}

theorem HttpRead.data_length (read : HttpRead) : read.data.length = read.readSize.toInt.toNat := by
  have bound := read.readSize_le
  rw [data, List.length_take, read.contentData.size_eq]
  omega

theorem pieces_cons_pos (more : 0 < read.readSize) : pieces (read :: reads) = read :: pieces reads :=
  List.takeWhile_cons_of_pos (decide_eq_true more)

theorem pieces_cons_neg (last : ¬ 0 < read.readSize) : pieces (read :: reads) = [] :=
  List.takeWhile_cons_of_neg fun more => last (of_decide_eq_true more)

theorem bodyLength_cons (more : 0 < read.readSize) :
    bodyLength (read :: reads) = read.data.length + bodyLength reads := by
  rw [bodyLength, pieces_cons_pos more, List.map_cons, List.sum_cons, bodyLength]

theorem exists_end_of_cons (ends : ∃ other ∈ read :: reads, other.readSize ≤ 0)
    (more : 0 < read.readSize) : ∃ other ∈ reads, other.readSize ≤ 0 := by
  obtain ⟨other, member, last⟩ := ends
  rcases List.mem_cons.mp member with rfl | behind
  · exact absurd more (Int32.not_lt.mpr last)
  · exact ⟨other, behind, last⟩

/-- The loop counts the bytes of the body, if there are less than an `int` can count. -/
theorem httpcLoop_result (ends : ∃ read ∈ reads, read.readSize ≤ 0) (small : total < 2 ^ 31) :
    (httpcLoop total reads).result =
      if total + bodyLength reads < 2 ^ 31 then some (total + bodyLength reads) else none := by
  induction reads generalizing total with
  | nil =>
    obtain ⟨read, absent, _⟩ := ends
    exact absurd absent List.not_mem_nil
  | cons read reads ih =>
    rw [httpcLoop, Attempt.result_emit_bind]
    by_cases more : 0 < read.readSize
    · have later := exists_end_of_cons ends more
      rw [if_pos more, Attempt.result_emit_bind, addSize?, ← read.data_length, bodyLength_cons more,
        ← Nat.add_assoc]
      rcases Nat.lt_or_ge (total + read.data.length) (2 ^ 31) with counted | full
      · rw [if_pos counted, Attempt.check_bind, ih later counted]
      · rw [if_neg (by omega), if_neg (by omega)]
        rfl
    · have nothing : bodyLength (read :: reads) = 0 := by
        rw [bodyLength, pieces_cons_neg more]
        rfl
      rw [if_neg more, nothing, Nat.add_zero, if_pos small]
      rfl

/-- The loop writes the pieces of the body one behind the other. -/
theorem httpcLoop_writes (ends : ∃ read ∈ reads, read.readSize ≤ 0)
    (whole : total + bodyLength reads < 2 ^ 31) :
    (httpcLoop total reads).effects.filterMap OtaCall.write? = placed total (pieces reads) := by
  induction reads generalizing total with
  | nil =>
    obtain ⟨read, absent, _⟩ := ends
    exact absurd absent List.not_mem_nil
  | cons read reads ih =>
    rw [httpcLoop, Attempt.effects_emit_bind]
    by_cases more : 0 < read.readSize
    · rw [bodyLength_cons more, ← Nat.add_assoc] at whole
      have counted : addSize? total read.readSize.toInt.toNat = some (total + read.data.length) := by
        rw [addSize?, ← read.data_length, if_pos (by omega)]
      rw [if_pos more, Attempt.effects_emit_bind, counted, Attempt.check_bind, pieces_cons_pos more,
        placed, ← ih (exists_end_of_cons ends more) whole]
      rfl
    · rw [if_neg more, pieces_cons_neg more]
      rfl

end Downloads

section Requests

variable {sdk : OtaSdk} {purl : CString} {head : ℕ} {testUrl : List UInt8}

/-- Everything in front of the download succeeds. -/
structure OtaSdk.SetUp (sdk : OtaSdk) : Prop where
  tempBuf : sdk.tempBuf = true
  parsed : sdk.parsed = hfSuccess
  opened : sdk.opened = hfSuccess
  sent : sdk.sent = hfSuccess
  contentData : sdk.contentData = true
  upgTimer : sdk.upgTimer = true

theorem httpcFails_result (tempBuf contentData hhttp : Bool) :
    (httpcFails tempBuf contentData hhttp).result = some (downloadFail, none) := by
  cases tempBuf <;> cases contentData <;> cases hhttp <;> rfl

/-- A failure in front of the download is returned, and `dl_status` is not assigned. -/
theorem httpcRequest_result_of_not_setUp (failure : ¬ sdk.SetUp) (testUrl : List UInt8) :
    (httpcRequest sdk testUrl).result = some (downloadFail, none) := by
  rw [httpcRequest, Attempt.result_emit_bind]
  split
  · exact httpcFails_result ..
  rename_i tempBuf
  rw [Attempt.result_emit_bind]
  split
  · exact httpcFails_result ..
  rename_i parsed
  rw [Attempt.result_emit_bind]
  split
  · exact httpcFails_result ..
  rename_i opened
  rw [httpcSend, Attempt.result_emit_bind, Attempt.result_emit_bind, Attempt.result_emit_bind,
    Attempt.result_emit_bind]
  split
  · exact httpcFails_result ..
  rename_i sent
  rw [Attempt.result_emit_bind]
  split
  · exact httpcFails_result ..
  rename_i contentData
  rw [Attempt.result_emit_bind]
  split
  · exact httpcFails_result ..
  rename_i upgTimer
  rw [Bool.not_eq_false] at tempBuf contentData upgTimer
  rw [not_not] at parsed opened sent
  exact absurd ⟨tempBuf, parsed, opened, sent, contentData, upgTimer⟩ failure

/-- Where everything in front of it succeeds, the download is reached. -/
theorem httpcRequest_of_setUp (setUp : sdk.SetUp) (testUrl : List UInt8) :
    (httpcRequest sdk testUrl).result = (httpcDownload sdk).result ∧
      (httpcRequest sdk testUrl).effects =
        [.hfmemMalloc 256, .hfhttpParseUrl testUrl, .hfhttpOpenSession testUrl,
          .hfsysDisableAllSoftWatchdogs, .hfupdateStart, .hfhttpPrepareReq, .hfhttpSendRequest,
          .hfmemMalloc 512, .hftimerCreate] ++ (httpcDownload sdk).effects := by
  obtain ⟨tempBuf, parsed, opened, sent, contentData, upgTimer⟩ := setUp
  rw [httpcRequest, httpcSend, tempBuf, parsed, opened, sent, contentData, upgTimer]
  exact ⟨rfl, rfl⟩

/-- The download without its loop. -/
theorem httpcDownload_result (sdk : OtaSdk) : (httpcDownload sdk).result =
    if bodyLength sdk.reads < 2 ^ 31 then
      some (if sdk.completed ≠ hfSuccess then upgradeFail else upgradeOk,
        some (if bodyLength sdk.reads ≤ 0 then downloadFail else downloadOk))
    else none := by
  have loop := @httpcLoop_result sdk.reads 0 sdk.reads_end (by decide)
  rw [Nat.zero_add] at loop
  rw [httpcDownload, Attempt.result_emit_bind]
  rcases Nat.lt_or_ge (bodyLength sdk.reads) (2 ^ 31) with counted | full
  · rw [if_pos counted] at loop ⊢
    rw [Attempt.result_bind loop, Attempt.result_emit_bind]
    cases sdk.hhttp with
    | false => rfl
    | true => rfl
  · rw [if_neg (Nat.not_lt.mpr full)] at loop ⊢
    show (httpcLoop 0 sdk.reads).result.bind _ = none
    rw [loop, Option.bind_none]

/-- The download writes the body from its start on, and then completes the update. -/
theorem httpcDownload_effects (counted : bodyLength sdk.reads < 2 ^ 31) :
    (httpcDownload sdk).effects.filterMap OtaCall.write? = placed 0 (pieces sdk.reads) ∧
      .hfupdateComplete (bodyLength sdk.reads) ∈ (httpcDownload sdk).effects := by
  have loop := @httpcLoop_result sdk.reads 0 sdk.reads_end (by decide)
  rw [Nat.zero_add, if_pos counted] at loop
  have writes := @httpcLoop_writes sdk.reads 0 sdk.reads_end (by rwa [Nat.zero_add])
  rw [httpcDownload, Attempt.effects_emit_bind, Attempt.effects_bind loop, Attempt.effects_emit_bind]
  constructor
  · rw [List.filterMap_cons_none rfl, List.filterMap_append, writes, List.filterMap_cons_none rfl]
    cases sdk.hhttp with
    | false => exact List.append_nil _
    | true => exact List.append_nil _
  · exact List.mem_cons_of_mem _ (List.mem_append_right _ (List.mem_cons_self ..))

end Requests

section Addresses

variable {sdk : OtaSdk} {purl : CString} {head : ℕ} {sslTx : FixedBuffer sizeofSslTx}

/-- `ssl_tx` holds no text when it has been cleared. -/
theorem cleared_text (sslTx : FixedBuffer sizeofSslTx) :
    (sslTx.overlay 0 (List.replicate sizeofSslTx 0)).text? = some [] := by
  have size := sslTx.size_eq
  have cleared : (sslTx.overlay 0 (List.replicate sizeofSslTx 0)).bytes =
      [] ++ 0 :: List.replicate 399 0 := by
    rw [FixedBuffer.overlay_bytes _ _ _ (by rw [List.length_replicate]; omega), List.take_zero,
      List.length_replicate, List.drop_eq_nil_of_le (by omega), List.append_nil]
    rfl
  exact FixedBuffer.text?_of_split cleared List.not_mem_nil

/-- An address without a signature is refused. -/
theorem httpcGet_unsigned (absent : strstr signatureKey purl.bytes = none)
    (sslTx : FixedBuffer sizeofSslTx) : httpcGet sdk purl sslTx = pure (-1, some downloadFail) := by
  rw [httpcGet, encodeSignature, absent, Attempt.check_bind]
  exact if_pos rfl

/-- An address with a signature that fits is built, and the empty one is opened. -/
theorem httpcGet_signed (found : strstr signatureKey purl.bytes = some head)
    (fits : SignatureFits purl.bytes (head + 10)) (sslTx : FixedBuffer sizeofSslTx) :
    httpcGet sdk purl sslTx = httpcRequest sdk [] := by
  obtain ⟨joined, front, encoded, -⟩ := encodeSignature_fits found fits sslTx
  rw [httpcGet, encoded, Attempt.check_bind, if_neg (show (1 : Int32) ≠ -1 by decide)]
  dsimp only
  rw [cleared_text, Attempt.check_bind]

theorem httpcGet_outside (found : strstr signatureKey purl.bytes = some head)
    (outside : ¬ SignatureFits purl.bytes (head + 10)) (sslTx : FixedBuffer sizeofSslTx) :
    (httpcGet sdk purl sslTx).result = none := by
  rw [httpcGet, encodeSignature_outside found outside]
  rfl

end Addresses

end ShuangFa
