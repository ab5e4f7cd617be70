import ShuangFa.Model.SecEngine

/-! # What a decryption writes and reports

CBC writes one plain block for each cipher block, and the byte that its padding check reads is a
byte of the last of them. The RSA loop writes the texts of the blocks in front of the first one that
does not open; the length it reports counts the last of them twice when there is such a block.
-/

namespace ShuangFa

open Memory

section Cbc

variable (decrypt : AesBlock → AesBlock) (cipher : View) (ivec : AesBlock)

/-- The block that CBC chains the block at `index` to. -/
def cbcChain : ℕ → AesBlock
  | 0 => ivec
  | index + 1 => .ofView cipher (16 * index) 16

/-- The plain block at `index`. -/
def cbcBlock (index : ℕ) : AesBlock :=
  (decrypt (.ofView cipher (16 * index) 16)).xor (cbcChain cipher ivec index)

/-- The byte that tells the length of the padding. -/
def paddingByte (length : ℕ) (before : UInt8) : UInt8 :=
  if length = 0 then before
  else (cbcBlock decrypt cipher ivec ((length - 1) / 16)).bytes.getD ((length - 1) % 16) 0

theorem ofView_shift (first offset : ℕ) : FixedBuffer.ofView (cipher.shift first) offset 16 =
    FixedBuffer.ofView cipher (first + offset) 16 :=
  FixedBuffer.ext (cipher.read_shift offset 16 first)

theorem cbcChain_shift (index : ℕ) : cbcChain (cipher.shift 16) (.ofView cipher 0 16) index =
    cbcChain cipher ivec (index + 1) := by
  cases index with
  | zero => rfl
  | succ index =>
    rw [cbcChain, ofView_shift, cbcChain]
    congr 1
    ring

theorem cbcBlock_shift (index : ℕ) : cbcBlock decrypt (cipher.shift 16) (.ofView cipher 0 16) index =
    cbcBlock decrypt cipher ivec (index + 1) := by
  rw [cbcBlock, cbcBlock, cbcChain_shift cipher ivec, ofView_shift]
  congr 3
  ring

/-- The full blocks. -/
theorem aesCbcDecryptLoop_eq (blocks : ℕ) : aesCbcDecryptLoop decrypt blocks cipher ivec =
    ((List.range blocks).flatMap fun index => (cbcBlock decrypt cipher ivec index).bytes,
      cipher.shift (16 * blocks), cbcChain cipher ivec blocks) := by
  induction blocks generalizing cipher ivec with
  | zero =>
    simp only [aesCbcDecryptLoop, List.range_zero, List.flatMap_nil, cbcChain, Nat.mul_zero]
    congr
    funext index
    rw [View.shift, Nat.zero_add]
  | succ blocks ih =>
    have rest : (cipher.shift 16).shift (16 * blocks) = cipher.shift (16 * (blocks + 1)) := by
      funext index
      simp only [View.shift]
      congr 1
      ring
    simp only [aesCbcDecryptLoop, ih, cbcBlock_shift decrypt cipher ivec,
      cbcChain_shift cipher ivec, rest, List.range_succ_eq_map, List.flatMap_cons,
      List.flatMap_map]
    rfl

/-- The byte that `AES_cbc_core` reads its padding from. -/
theorem aesCbcCoreDecrypt_padding (length : ℕ) (before : UInt8) :
    (aesCbcCoreDecrypt decrypt cipher length ivec before).1.getLastD before =
      paddingByte decrypt cipher ivec length before := by
  have size (index : ℕ) : (cbcBlock decrypt cipher ivec index).bytes.length = 16 :=
    (cbcBlock decrypt cipher ivec index).size_eq
  have partial' : (decrypt (.ofView (cipher.shift (16 * (length / 16))) 0 16)).xor
      (cbcChain cipher ivec (length / 16)) = cbcBlock decrypt cipher ivec (length / 16) := by
    rw [ofView_shift]
    rfl
  simp only [aesCbcCoreDecrypt, aesCbcDecryptLoop_eq, partial']
  rw [paddingByte]
  rcases Nat.eq_zero_or_pos (length % 16) with whole | rest
  · rw [whole, List.take_zero, List.append_nil]
    rcases blocks : length / 16 with _ | last
    · rw [if_pos (by omega)]
      rfl
    · rw [if_neg (by omega), show (length - 1) / 16 = last by omega,
        show (length - 1) % 16 = 15 by omega, List.range_succ, List.flatMap_append,
        List.flatMap_singleton, List.getLastD_eq_getLast?, List.getLast?_append,
        List.getLast?_eq_getElem?, size, List.getD_eq_getElem?_getD, List.getElem?_eq_getElem
        (by rw [size]; omega)]
      rfl
  · rw [if_neg (by omega), show (length - 1) / 16 = length / 16 by omega,
      show (length - 1) % 16 = length % 16 - 1 by omega, List.getLastD_eq_getLast?,
      List.getLast?_append, List.getLast?_eq_getElem?, List.length_take, size,
      Nat.min_eq_left (by omega), List.getElem?_take_of_lt (by omega),
      List.getD_eq_getElem?_getD, List.getElem?_eq_getElem (by rw [size]; omega)]
    rfl

/-- As many bytes are written as the text has. -/
theorem aesCbcCoreDecrypt_size (length : ℕ) (before : UInt8) :
    (aesCbcCoreDecrypt decrypt cipher length ivec before).1.length = length := by
  have size (index : ℕ) : (cbcBlock decrypt cipher ivec index).bytes.length = 16 :=
    (cbcBlock decrypt cipher ivec index).size_eq
  simp only [aesCbcCoreDecrypt, aesCbcDecryptLoop_eq, List.length_append, List.length_flatMap, size,
    List.map_const', List.length_range, List.sum_replicate_nat, List.length_take,
    FixedBuffer.size_eq]
  omega

/-- The length that `AES_cbc_core` reports. -/
theorem aesCbcCoreDecrypt_length (length : ℕ) (before : UInt8) :
    (aesCbcCoreDecrypt decrypt cipher length ivec before).2 =
      subU32 length (paddingByte decrypt cipher ivec length before).toNat := by
  rw [← aesCbcCoreDecrypt_padding]
  rfl

/-- The length is not above the text's exactly when the padding is not longer than the text. -/
theorem aesCbcCoreDecrypt_length_le {length : ℕ} (bound : length < 2 ^ 15) (before : UInt8) :
    (aesCbcCoreDecrypt decrypt cipher length ivec before).2 % 2 ^ 16 ≤ length ↔
      (paddingByte decrypt cipher ivec length before).toNat ≤ length := by
  have byte := (paddingByte decrypt cipher ivec length before).toNat_lt
  rw [aesCbcCoreDecrypt_length, subU32]
  omega

end Cbc

section Rsa

/-- A block has two bytes in front of its pad bytes and one behind them. -/
theorem rsaPkcs1Decrypt_length_le {rsaPrivate : RsaBlock → Option RsaBlock} {outputMaxLen : ℕ}
    {input : View} {text : List UInt8}
    (opened : rsaPkcs1Decrypt rsaPrivate outputMaxLen input = some text) : text.length ≤ 29 := by
  obtain ⟨buf, _, opened⟩ := Option.bind_eq_some_iff.mp opened
  have size := buf.size_eq
  have fewer := (List.dropWhile_suffix (p := (· ≠ 0)) (l := buf.bytes.drop 2)).length_le
  rw [List.length_drop] at fewer
  split at opened
  · cases opened
  · split at opened
    · cases opened
    · next found =>
      rw [found, List.length_cons] at fewer
      split at opened
      · cases opened
      · cases opened
        omega

variable {decrypt : ℕ → Option (List UInt8)}

/-- The texts of the blocks in front of the first one that does not open. -/
def rsaTexts (decrypt : ℕ → Option (List UInt8)) : ℕ → ℕ → List (List UInt8)
  | 0, _ => []
  | blocks + 1, place =>
    match decrypt place with
    | none => []
    | some text => text :: rsaTexts decrypt blocks (place + zcSecRsaKeyBytes)

/-- The blocks of a text; an empty one is read as one, too. -/
def rsaBlocks (u16Len : ℕ) : ℕ :=
  if zcSecRsaKeyBytes < u16Len then (u16Len + zcSecRsaKeyBytes - 1) / zcSecRsaKeyBytes else 1

theorem rsaBlocks_le (u16Len : ℕ) : rsaBlocks u16Len ≤ u16Len / 32 + 1 := by
  by_cases long : zcSecRsaKeyBytes < u16Len
  · have blocks : rsaBlocks u16Len = (u16Len + 32 - 1) / 32 := if_pos long
    omega
  · have one : rsaBlocks u16Len = 1 := if_neg long
    omega

/-- The length of the last text, or what its variable holds before there is one. -/
def lastLength (texts : List (List UInt8)) (s32len : ℕ) : ℕ :=
  (texts.getLast?.map List.length).getD s32len

theorem rsaTexts_closed {place : ℕ} (blocks : ℕ) (closed : decrypt place = none) :
    rsaTexts decrypt (blocks + 1) place = [] := by
  rw [rsaTexts, closed]

theorem rsaTexts_opened {place : ℕ} {text : List UInt8} (blocks : ℕ)
    (opened : decrypt place = some text) : rsaTexts decrypt (blocks + 1) place =
      text :: rsaTexts decrypt blocks (place + zcSecRsaKeyBytes) := by
  rw [rsaTexts, opened]

theorem rsaTexts_length_le (blocks place : ℕ) : (rsaTexts decrypt blocks place).length ≤ blocks := by
  induction blocks generalizing place with
  | zero => exact Nat.zero_le _
  | succ blocks ih =>
    cases opened : decrypt place with
    | none =>
      rw [rsaTexts_closed blocks opened]
      exact Nat.zero_le _
    | some text =>
      rw [rsaTexts_opened blocks opened]
      exact Nat.succ_le_succ (ih _)

/-- The block behind the texts does not open. -/
theorem rsaTexts_stops {blocks place : ℕ} (stopped : (rsaTexts decrypt blocks place).length ≠ blocks) :
    decrypt (place + zcSecRsaKeyBytes * (rsaTexts decrypt blocks place).length) = none := by
  induction blocks generalizing place with
  | zero => exact absurd rfl stopped
  | succ blocks ih =>
    cases opened : decrypt place with
    | none => rwa [rsaTexts_closed blocks opened]
    | some text =>
      rw [rsaTexts_opened blocks opened, List.length_cons] at stopped ⊢
      have rest := ih fun all => stopped (congrArg (· + 1) all)
      rwa [Nat.add_assoc, Nat.add_comm zcSecRsaKeyBytes, ← Nat.mul_succ] at rest

/-- The texts of one block more. -/
theorem rsaTexts_succ (decrypt : ℕ → Option (List UInt8)) (blocks place : ℕ) :
    rsaTexts decrypt (blocks + 1) place =
    if (rsaTexts decrypt blocks place).length = blocks then
      rsaTexts decrypt blocks place ++ (decrypt (place + zcSecRsaKeyBytes * blocks)).toList
    else rsaTexts decrypt blocks place := by
  induction blocks generalizing place with
  | zero =>
    simp only [rsaTexts, List.length_nil, if_true, List.nil_append, Nat.mul_zero, Nat.add_zero]
    cases decrypt place <;> rfl
  | succ blocks ih =>
    cases opened : decrypt place with
    | none => rw [rsaTexts_closed _ opened, rsaTexts_closed _ opened, if_neg (by simp)]
    | some text =>
      have next : place + zcSecRsaKeyBytes + zcSecRsaKeyBytes * blocks =
          place + zcSecRsaKeyBytes * (blocks + 1) := by ring
      rw [rsaTexts_opened _ opened, rsaTexts_opened _ opened, ih, next]
      simp only [List.length_cons, Nat.add_right_cancel_iff]
      split_ifs <;> rfl

/-- The texts are no longer than their blocks allow. -/
theorem rsaTexts_flatten_length_le {bound : ℕ}
    (bounded : ∀ place text, decrypt place = some text → text.length ≤ bound) (blocks place : ℕ) :
    (rsaTexts decrypt blocks place).flatten.length ≤ bound * blocks := by
  induction blocks generalizing place with
  | zero => exact Nat.zero_le _
  | succ blocks ih =>
    cases opened : decrypt place with
    | none =>
      rw [rsaTexts_closed blocks opened]
      exact Nat.zero_le _
    | some text =>
      rw [rsaTexts_opened blocks opened, List.flatten_cons, List.length_append, Nat.mul_succ,
        Nat.add_comm]
      exact Nat.add_le_add (ih _) (bounded place text opened)

theorem lastLength_cons (text : List UInt8) (texts : List (List UInt8)) (s32len : ℕ) :
    lastLength (text :: texts) s32len = lastLength texts text.length := by
  cases texts with
  | nil => rfl
  | cons next rest =>
    simp only [lastLength, List.getLast?_cons, Option.map_some,
      Option.getD_some]

namespace RsaDecryption

variable {state : RsaDecryption}

/-- The state when the texts of some blocks are written. -/
def wrote (state : RsaDecryption) (texts : List (List UInt8)) (ret : Ret) : RsaDecryption where
  u16ReadLen := state.u16ReadLen + zcSecRsaKeyBytes * texts.length
  u16PlainLen := (state.u16PlainLen + texts.flatten.length) % 2 ^ 16
  s32len := lastLength texts state.s32len
  ret := ret
  plain := state.plain ++ texts.flatten

theorem wrote_nil (bound : state.u16PlainLen < 2 ^ 16) (ret : Ret) :
    state.wrote [] ret = { state with ret := ret } := by
  simp only [wrote, List.length_nil, Nat.mul_zero, Nat.add_zero, List.flatten_nil,
    Nat.mod_eq_of_lt bound, List.append_nil]
  rfl

theorem wrote_cons (text : List UInt8) (texts : List (List UInt8)) (ret : Ret) :
    state.wrote (text :: texts) ret = (state.opened text).wrote texts ret := by
  simp only [wrote, opened, List.length_cons, List.flatten_cons, List.length_append,
    lastLength_cons, List.append_assoc, mk.injEq, and_true]
  exact ⟨by ring, by omega⟩

/-- The `while` loop. -/
theorem loop_eq (blocks : ℕ) (fresh : state.ret = .ok) (bound : state.u16PlainLen < 2 ^ 16) :
    loop decrypt blocks state = state.wrote (rsaTexts decrypt blocks state.u16ReadLen)
      (if (rsaTexts decrypt blocks state.u16ReadLen).length = blocks then .ok else .error) := by
  induction blocks generalizing state with
  | zero =>
    rw [rsaTexts, List.length_nil, if_pos rfl, wrote_nil bound, ← fresh]
    rfl
  | succ blocks ih =>
    rw [loop]
    cases opened : decrypt state.u16ReadLen with
    | none =>
      rw [rsaTexts_closed blocks opened, wrote_nil bound]
      rfl
    | some text =>
      rw [rsaTexts_opened blocks opened, wrote_cons]
      simp only [List.length_cons, Nat.add_right_cancel_iff]
      exact ih rfl (Nat.mod_lt _ (by decide))

end RsaDecryption

/-- What a decryption of a text by RSA returns. -/
theorem secDecryptTextByRsa_eq (rsaPrivate : RsaBlock → Option RsaBlock) (stale : Stale)
    (cipher : View) (u16Len : ℕ) {texts : List (List UInt8)}
    (same : rsaTexts (fun place => rsaPkcs1Decrypt rsaPrivate u16Len (cipher.shift place))
      (rsaBlocks u16Len) 0 = texts) :
    secDecryptTextByRsa rsaPrivate stale cipher u16Len =
      if texts.length = rsaBlocks u16Len then ⟨.ok, texts.flatten, texts.flatten.length % 2 ^ 16⟩
      else ⟨.error, texts.flatten,
        (texts.flatten.length + lastLength texts stale.s32len) % 2 ^ 16⟩ := by
  rw [secDecryptTextByRsa]
  generalize (fun place => rsaPkcs1Decrypt rsaPrivate u16Len (cipher.shift place)) = decrypt at same ⊢
  by_cases long : zcSecRsaKeyBytes < u16Len
  · obtain ⟨full, count⟩ : ∃ full, u16Len / zcSecRsaKeyBytes = full := ⟨_, rfl⟩
    obtain ⟨firsts, opens⟩ : ∃ firsts, rsaTexts decrypt full 0 = firsts := ⟨_, rfl⟩
    obtain ⟨start, fresh⟩ : ∃ start, (⟨0, 0, stale.s32len, .ok, []⟩ : RsaDecryption) = start :=
      ⟨_, rfl⟩
    have looped : RsaDecryption.loop decrypt full start =
        start.wrote firsts (if firsts.length = full then .ok else .error) := by
      have done : RsaDecryption.loop decrypt full start = start.wrote
          (rsaTexts decrypt full start.u16ReadLen)
          (if (rsaTexts decrypt full start.u16ReadLen).length = full then .ok else .error) :=
        RsaDecryption.loop_eq full (by rw [← fresh]) (by rw [← fresh]; exact Nat.two_pow_pos 16)
      rw [← fresh] at done ⊢
      rwa [opens] at done
    have read (ret : Ret) : (start.wrote firsts ret).u16ReadLen =
        zcSecRsaKeyBytes * firsts.length := by
      rw [← fresh]
      exact Nat.zero_add _
    have short : (rsaTexts decrypt full 0).length ≤ full := rsaTexts_length_le full 0
    have stops : (rsaTexts decrypt full 0).length ≠ full →
        decrypt (0 + zcSecRsaKeyBytes * (rsaTexts decrypt full 0).length) = none := rsaTexts_stops
    have more := rsaTexts_succ decrypt full 0
    rw [opens] at short stops more
    have blocks : rsaBlocks u16Len = (u16Len + 32 - 1) / 32 := if_pos long
    simp only [long, if_true, count, fresh, looped]
    simp only [zcSecRsaKeyBytes] at long count
    by_cases whole : firsts.length = full ∧ u16Len % 32 = 0
    · obtain ⟨all, rest⟩ := whole
      rw [show rsaBlocks u16Len = full by omega] at same ⊢
      obtain rfl := opens.symm.trans same
      have done : ¬ (start.wrote firsts .ok).u16ReadLen < u16Len := by
        rw [read]
        change ¬ 32 * firsts.length < u16Len
        omega
      rw [if_pos all, if_neg done, if_pos all, ← fresh]
      simp only [RsaDecryption.wrote, Nat.zero_add, List.nil_append]
    · have under (ret : Ret) : (start.wrote firsts ret).u16ReadLen < u16Len := by
        rw [read]
        change 32 * firsts.length < u16Len
        omega
      rw [if_pos (under _), RsaDecryption.tail, read]
      rw [Nat.zero_add] at stops more
      cases opened : decrypt (zcSecRsaKeyBytes * firsts.length) with
      | none =>
        have behind : rsaTexts decrypt (full + 1) 0 = firsts := by
          rw [more]
          split_ifs with all
          · rw [← all, opened, Option.toList_none, List.append_nil]
          · rfl
        obtain rfl : firsts = texts := by
          rcases show rsaBlocks u16Len = full ∨ rsaBlocks u16Len = full + 1 by omega with last | last
          · rw [← same, last, opens]
          · rw [← same, last, behind]
        have missing : ¬ firsts.length = rsaBlocks u16Len := by omega
        rw [if_neg missing, ← fresh]
        simp only [RsaDecryption.wrote, Nat.zero_add, List.nil_append, Nat.mod_add_mod]
      | some text =>
        have all : firsts.length = full := by
          by_contra part
          exact nomatch (stops part).symm.trans opened
        rw [if_pos all, ← all, opened, Option.toList_some, all] at more
        rw [show rsaBlocks u16Len = full + 1 by omega] at same ⊢
        obtain rfl := more.symm.trans same
        have complete : (firsts ++ [text]).length = full + 1 := by
          rw [List.length_append, List.length_singleton, all]
        rw [if_pos complete, ← fresh]
        simp only [RsaDecryption.wrote, RsaDecryption.opened, Nat.zero_add, List.nil_append,
          Nat.mod_add_mod, List.flatten_append, List.flatten_singleton, List.length_append]
  · have one : rsaBlocks u16Len = 1 := if_neg long
    simp only [long, if_false]
    rw [one] at same ⊢
    cases opened : decrypt 0 with
    | none =>
      rw [rsaTexts_closed 0 opened] at same
      subst same
      simp [lastLength]
    | some text =>
      rw [rsaTexts_opened 0 opened] at same
      subst same
      simp [rsaTexts]

/-- The texts of a frame fit a buffer that the frame fits. -/
theorem secDecryptTextByRsa_size (rsaPrivate : RsaBlock → Option RsaBlock) (stale : Stale)
    (cipher : View) {u16Len : ℕ} (bound : u16Len ≤ 420) :
    (secDecryptTextByRsa rsaPrivate stale cipher u16Len).plain.length ≤ 424 := by
  have blocks := rsaBlocks_le u16Len
  have short : (rsaTexts (fun place => rsaPkcs1Decrypt rsaPrivate u16Len (cipher.shift place))
      (rsaBlocks u16Len) 0).flatten.length ≤ 29 * rsaBlocks u16Len :=
    rsaTexts_flatten_length_le (fun _ _ => rsaPkcs1Decrypt_length_le) _ _
  rw [secDecryptTextByRsa_eq rsaPrivate stale cipher u16Len rfl]
  split_ifs <;> exact Nat.le_trans short (by omega)

end Rsa

section Encrypt

variable {crypto : Crypto} {context : SecContext} {pads : ℕ → ℕ → {byte : UInt8 // byte ≠ 0}}
  {head : ZcSecHead} {plain : View}

theorem secEncrypt_none
    (type : secEncryptType context.u32SecSwitch head.u8SecType = zcSecAlgNone) :
    secEncrypt crypto context pads head plain =
      ⟨.ok, plain.read 0 (zcHtons head.u16TotalMsg), zcHtons head.u16TotalMsg⟩ := by
  simp only [secEncrypt, type, ↓reduceIte]

theorem secEncrypt_rsa
    (type : secEncryptType context.u32SecSwitch head.u8SecType = zcSecAlgRsa) :
    secEncrypt crypto context pads head plain = secEncryptTextByRsa
      (fun _ => crypto.rsaPublic context.u8CloudKey) pads plain (zcHtons head.u16TotalMsg) := by
  have differs : zcSecAlgRsa ≠ zcSecAlgNone := by decide
  simp only [secEncrypt, type, differs, ↓reduceIte]

theorem secEncrypt_aes
    (type : secEncryptType context.u32SecSwitch head.u8SecType = zcSecAlgAes) :
    secEncrypt crypto context pads head plain =
      secAesEncrypt crypto context plain (zcHtons head.u16TotalMsg) := by
  have none : zcSecAlgAes ≠ zcSecAlgNone := by decide
  have rsa : zcSecAlgAes ≠ zcSecAlgRsa := by decide
  simp only [secEncrypt, type, none, rsa, ↓reduceIte]

/-- The receiver's choice is the sender's type, but for RSA with the switch at 2. -/
theorem secFlag_eq (u32SecSwitch : ℕ) (u8SecType : UInt8) : secFlag u32SecSwitch u8SecType =
    if u32SecSwitch = 2 ∧ secEncryptType u32SecSwitch u8SecType = zcSecAlgRsa then zcSecAlgNone
    else secEncryptType u32SecSwitch u8SecType := by
  rw [secFlag, secEncryptType]
  by_cases off : u32SecSwitch = 0
  · simp [off]
  · by_cases two : u32SecSwitch = 2
    · simp [two]
    · simp [off, two]

theorem secEncryptType_idem (u32SecSwitch : ℕ) (u8SecType : UInt8) :
    secEncryptType u32SecSwitch (secEncryptType u32SecSwitch u8SecType) =
      secEncryptType u32SecSwitch u8SecType := by
  simp only [secEncryptType]
  split_ifs <;> rfl

/-- An encryption that succeeds uses one of the three algorithms, AES only with a key. -/
theorem secEncrypt_cases (encrypts : (secEncrypt crypto context pads head plain).ret = .ok) :
    secEncryptType context.u32SecSwitch head.u8SecType = zcSecAlgNone ∨
      secEncryptType context.u32SecSwitch head.u8SecType = zcSecAlgAes ∧
        context.u8keyRecv = true ∨
      secEncryptType context.u32SecSwitch head.u8SecType = zcSecAlgRsa := by
  simp only [secEncrypt] at encrypts
  split_ifs at encrypts with none rsa aes
  · exact .inl none
  · exact .inr (.inr rsa)
  · rw [secAesEncrypt] at encrypts
    split_ifs at encrypts with keyed
    exact .inr (.inl ⟨aes, keyed⟩)

end Encrypt

section Decrypt

variable {crypto : Crypto} {context : SecContext} {stale : Stale} {head : ZcSecHead} {memory : View}

theorem secDecrypt_none (flag : secFlag context.u32SecSwitch head.u8SecType = zcSecAlgNone) :
    secDecrypt crypto context stale head memory =
      ⟨.ok, memory.read 0 (zcHtons head.u16TotalMsg), zcHtons head.u16TotalMsg⟩ := by
  simp only [secDecrypt, flag, if_true]

theorem secDecrypt_rsa (flag : secFlag context.u32SecSwitch head.u8SecType = zcSecAlgRsa) :
    secDecrypt crypto context stale head memory = secDecryptTextByRsa
      (crypto.rsaPrivate context.u8PrivateKey) stale memory (zcHtons head.u16TotalMsg) := by
  have differs : zcSecAlgRsa ≠ zcSecAlgNone := by decide
  simp only [secDecrypt, flag, differs, ↓reduceIte]

theorem secDecrypt_aes (flag : secFlag context.u32SecSwitch head.u8SecType = zcSecAlgAes) :
    secDecrypt crypto context stale head memory =
      secAesDecrypt crypto context stale memory (zcHtons head.u16TotalMsg) := by
  have none : zcSecAlgAes ≠ zcSecAlgNone := by decide
  have rsa : zcSecAlgAes ≠ zcSecAlgRsa := by decide
  simp only [secDecrypt, flag, none, rsa, ↓reduceIte]

end Decrypt

/-- Whatever the algorithm, the text of a frame fits a buffer that the frame fits. -/
theorem secDecrypt_size (crypto : Crypto) (context : SecContext) (stale : Stale) (head : ZcSecHead)
    (cipher : View) (bound : zcHtons head.u16TotalMsg ≤ 420) :
    (secDecrypt crypto context stale head cipher).plain.length ≤ 424 := by
  simp only [secDecrypt]
  split_ifs
  · rw [View.read_length]
    exact Nat.le_trans bound (by decide)
  · exact secDecryptTextByRsa_size _ _ _ bound
  · rw [secAesDecrypt]
    split_ifs
    · simp only [aesCbcCoreDecrypt_size]
      exact Nat.le_trans bound (by decide)
    · exact Nat.zero_le _
  · exact Nat.zero_le _

end ShuangFa
