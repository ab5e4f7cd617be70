import ShuangFa.Soundness.JdPackets

/-! # Datagrams judged by their own bytes

Behind a datagram lies in the receive buffer what earlier ones have left. `PacketAnalyse` reads the
heads whether they have been received or not, and the parser has no length. So the bytes received
decide the result if they rule out both forms, or if they hold the heads of a form and a document
that no byte behind them changes, or a sum that is wrong. A document that has been received with its
end is such a document.
-/

namespace ShuangFa

open Memory Coding Coding.Reading

/-- Two contents of the buffer with the same first bytes. -/
def AgreeOn (n : ℕ) (first second : View) : Prop := ∀ index < n, second index = first index

/-- What `PacketAnalyse` returns does not depend on the bytes behind the datagram. -/
def JudgedByOwnBytes (parse : View → Option CJson) (pBuf : View) (n : ℕ) : Prop :=
  ∀ other, AgreeOn n pBuf other → packetAnalyse parse other n = packetAnalyse parse pBuf n

/-- The first bytes of a text decide what the parser gives for it. -/
def Decided (parse : View → Option CJson) (n : ℕ) (text : View) : Prop :=
  ∀ other, AgreeOn n text other → parse other = parse text

/-- The bytes received do not rule out a digit and three zeros. -/
def AsciiPossible (pBuf : View) (n : ℕ) : Prop :=
  ∀ index, 1 ≤ index → index < 4 → index < n → pBuf index = 48

/-- The bytes received do not rule out a common header with the length that has been received. -/
def BinaryPossible (pBuf : View) (n : ℕ) : Prop :=
  ∀ index < 8, index < n →
    pBuf index = (commonHeader 0 (subU32 n sizeofCommonHeader)).getD index 0

/-- The heads of the form that is possible have been received, and the text behind them decides; or
the sum is wrong. -/
def HeadsDecide (parse : View → Option CJson) (pBuf : View) (n : ℕ) : Prop :=
  (AsciiPossible pBuf n → 4 ≤ n ∧ Decided parse (n - 4) (pBuf.shift 4)) ∧
    (BinaryPossible pBuf n → sizeofCommonHeader ≤ n ∧ (SumMatches pBuf →
      sizeofCommonHeader + sizeofCmdHeader ≤ n ∧
        Decided parse (n - (sizeofCommonHeader + sizeofCmdHeader))
          (pBuf.shift (sizeofCommonHeader + sizeofCmdHeader))))

section Possible

variable {pBuf other : View} {n : ℕ}

theorem AgreeOn.shift (agree : AgreeOn n pBuf other) (offset : ℕ) :
    AgreeOn (n - offset) (pBuf.shift offset) (other.shift offset) :=
  fun index inside => agree (offset + index) (by omega)

theorem AgreeOn.loadU32 (agree : AgreeOn n pBuf other) {offset : ℕ} (inside : offset + 4 ≤ n) :
    loadU32 other offset = loadU32 pBuf offset :=
  loadU32_congr fun index bound => agree (offset + index) (by omega)

theorem AgreeOn.asciiPossible (agree : AgreeOn n pBuf other) (form : AsciiForm other) :
    AsciiPossible pBuf n := by
  intro index after before inside
  rw [← agree index inside]
  obtain rfl | rfl | rfl : index = 1 ∨ index = 2 ∨ index = 3 := by omega
  · exact form.1
  · exact form.2.1
  · exact form.2.2

theorem AsciiPossible.form (possible : AsciiPossible pBuf n) (received : 4 ≤ n) : AsciiForm pBuf :=
  ⟨possible 1 (by omega) (by omega) (by omega), possible 2 (by omega) (by omega) (by omega),
    possible 3 (by omega) (by omega) (by omega)⟩

theorem AgreeOn.asciiForm (agree : AgreeOn n pBuf other) (received : 4 ≤ n) (form : AsciiForm pBuf) :
    AsciiForm other :=
  ⟨(agree 1 (by omega)).trans form.1, (agree 2 (by omega)).trans form.2.1,
    (agree 3 (by omega)).trans form.2.2⟩

/-- The length in the header is the one that has been received. -/
theorem binaryForm_iff (small : n < 2 ^ 31) : BinaryForm pBuf n ↔
    loadU32 pBuf 0 = 0x55AA ∧ loadU32 pBuf 4 = subU32 n sizeofCommonHeader := by
  have bound := loadU32_lt pBuf 4
  rw [BinaryForm, addU32, subU32, sizeofCommonHeader]
  apply and_congr_right
  intro _
  omega

theorem AgreeOn.binaryPossible (agree : AgreeOn n pBuf other) (small : n < 2 ^ 31)
    (form : BinaryForm other n) : BinaryPossible pBuf n := by
  obtain ⟨magic, len⟩ := (binaryForm_iff small).mp form
  intro index before inside
  rw [← agree index inside]
  simp only [commonHeader, List.append_assoc]
  rcases Nat.lt_or_ge index 4 with first | second
  · rw [List.getD_append _ _ _ _ first]
    have byte := bytes_of_loadU32 magic index first
    rwa [Nat.zero_add] at byte
  · obtain ⟨index, rfl⟩ := Nat.exists_eq_add_of_le second
    rw [List.getD_append_right _ _ _ _ second, bytesU32_length, Nat.add_sub_cancel_left,
      List.getD_append _ _ _ _ (show index < 4 by omega)]
    exact bytes_of_loadU32 len index (by omega)

/-- Contents that show a common header with the length. -/
theorem binaryForm_of_header (small : n < 2 ^ 31)
    (header : ∀ index < 8, pBuf index = (commonHeader 0 (subU32 n sizeofCommonHeader)).getD index 0) :
    BinaryForm pBuf n ∧ loadU32 pBuf 4 = subU32 n sizeofCommonHeader := by
  obtain ⟨magic, len⟩ := loadU32_commonHeader (Nat.mod_lt _ (by decide)) header
  exact ⟨(binaryForm_iff small).mpr ⟨magic, len⟩, len⟩

theorem BinaryPossible.form (possible : BinaryPossible pBuf n) (small : n < 2 ^ 31)
    (received : sizeofCommonHeader ≤ n) :
    BinaryForm pBuf n ∧ loadU32 pBuf 4 = n - sizeofCommonHeader := by
  have whole : 13 ≤ n := received
  obtain ⟨form, len⟩ := binaryForm_of_header small fun index before => possible index before (by omega)
  refine ⟨form, len.trans ?_⟩
  rw [subU32, sizeofCommonHeader]
  omega

/-- The binary form is seen in the bytes that have been received. -/
theorem BinaryPossible.form_of_agree (possible : BinaryPossible pBuf n) (small : n < 2 ^ 31)
    (received : sizeofCommonHeader ≤ n) (agree : AgreeOn n pBuf other) : BinaryForm other n := by
  have whole : 13 ≤ n := received
  rw [BinaryForm, agree.loadU32 (by omega), agree.loadU32 (by omega)]
  exact (possible.form small received).1

/-- The sum is over bytes that have been received. -/
theorem BinaryPossible.sumMatches_iff (possible : BinaryPossible pBuf n) (small : n < 2 ^ 31)
    (received : sizeofCommonHeader ≤ n) (agree : AgreeOn n pBuf other) :
    SumMatches other ↔ SumMatches pBuf := by
  have whole : 13 ≤ n := received
  have len := (possible.form small received).2
  have bytes : other.read sizeofCommonHeader (n - sizeofCommonHeader) =
      pBuf.read sizeofCommonHeader (n - sizeofCommonHeader) :=
    View.read_congr fun index inside => agree _ (by omega)
  rw [SumMatches, SumMatches, agree.loadU32 (by omega), len, agree 12 (by omega), bytes]

end Possible

section Results

variable {parse : View → Option CJson} {pBuf other : View} {n : ℕ}

/-- The result of a document does not hide what the parser gave. -/
theorem map_pair_injective {type : ℕ} {first second : Option CJson}
    (same : (first.map fun pRet => (type, pRet)) = second.map fun pRet => (type, pRet)) :
    first = second :=
  Option.map_injective (fun _ _ equal => (Prod.mk.inj equal).2) same

theorem HeadsDecide.judged (decide : HeadsDecide parse pBuf n) (small : n < 2 ^ 31) :
    JudgedByOwnBytes parse pBuf n := by
  intro other agree
  by_cases ascii : AsciiPossible pBuf n
  · obtain ⟨received, text⟩ := decide.1 ascii
    have form := ascii.form received
    rw [packetAnalyse_asciiForm _ form, packetAnalyse_asciiForm _ (agree.asciiForm received form),
      agree.loadU32 (by omega), text _ (agree.shift 4)]
  · by_cases binary : BinaryPossible pBuf n
    · obtain ⟨received, document⟩ := decide.2 binary
      have form := (binary.form small received).1
      have form_other := binary.form_of_agree small received agree
      have sums := binary.sumMatches_iff small received agree
      by_cases sum : SumMatches pBuf
      · obtain ⟨heads, text⟩ := document sum
        have heads : 19 ≤ n := heads
        rw [packetAnalyse_binaryForm _ form sum, packetAnalyse_binaryForm _ form_other (sums.mpr sum),
          agree.loadU32 (show sizeofCommonHeader + 4 ≤ n from le_trans (by decide) heads),
          text _ (agree.shift _)]
      · rw [packetAnalyse_wrongSum _ form sum,
          packetAnalyse_wrongSum _ form_other (mt sums.mp sum)]
    · have formless {view : View} (view_agrees : AgreeOn n pBuf view) :
          packetAnalyse parse view n = none :=
        packetAnalyse_formless _ (mt view_agrees.asciiPossible ascii)
          (mt (view_agrees.binaryPossible small) binary)
      rw [formless agree, formless fun _ _ => rfl]

/-- A datagram with a text behind its first bytes. -/
def continued (n : ℕ) (pBuf behind : View) : View := fun index =>
  if index < n then pBuf index else behind (index - n)

theorem continued_shift (n : ℕ) (pBuf behind : View) : (continued n pBuf behind).shift n = behind := by
  funext index
  rw [View.shift, continued, if_neg (by omega), Nat.add_sub_cancel_left]

theorem continued_agree {length : ℕ} (inside : n ≤ length) (pBuf behind : View) :
    AgreeOn n pBuf (continued length pBuf behind) :=
  fun _ bound => if_pos (Nat.lt_of_lt_of_le bound inside)

/-- A text that agrees with what is behind the heads. -/
theorem continued_agree_of_text {length : ℕ} {text : View}
    (agree : AgreeOn (n - length) (pBuf.shift length) text) :
    AgreeOn n pBuf (continued length pBuf text) := by
  intro index inside
  rw [continued]
  split_ifs with front
  · rfl
  · rw [agree _ (by omega), View.shift, Nat.add_sub_cancel' (by omega)]

/-- Two continuations of a datagram that are not judged alike. -/
theorem not_judged {first second : View} (agree_first : AgreeOn n pBuf first)
    (agree_second : AgreeOn n pBuf second)
    (differ : packetAnalyse parse first n ≠ packetAnalyse parse second n) :
    ¬ JudgedByOwnBytes parse pBuf n :=
  fun judged => differ ((judged first agree_first).trans (judged second agree_second).symm)

/-- A digit and three zeros have to be received, and the text behind them decides. -/
theorem JudgedByOwnBytes.ascii (judged : JudgedByOwnBytes parse pBuf n)
    (accepts : ∃ text pRet, parse text = some pRet) (possible : AsciiPossible pBuf n) :
    4 ≤ n ∧ Decided parse (n - 4) (pBuf.shift 4) := by
  have received : 4 ≤ n := by
    by_contra short
    obtain ⟨text, pRet, accepted⟩ := accepts
    have digits (index : ℕ) (after : 1 ≤ index) (before : index < 4) :
        continued 4 (continued n pBuf fun _ => 48) text index = 48 := by
      rw [continued, if_pos before, continued]
      split_ifs with inside
      · exact possible index after before inside
      · rfl
    have form : AsciiForm (continued 4 (continued n pBuf fun _ => 48) text) :=
      ⟨digits 1 (by decide) (by decide), digits 2 (by decide) (by decide),
        digits 3 (by decide) (by decide)⟩
    have last : continued n pBuf (fun _ => 255) 3 = 255 := by
      rw [continued, if_neg (by omega)]
    have ascii : ¬ AsciiForm (continued n pBuf fun _ => 255) := by
      intro form
      rw [AsciiForm, last] at form
      exact absurd form.2.2 (by decide)
    have binary : ¬ BinaryForm (continued n pBuf fun _ => 255) n := by
      intro form
      have byte := bytes_of_loadU32 form.1 3 (by decide)
      rw [Nat.zero_add, last] at byte
      exact absurd byte (by decide)
    have agree : AgreeOn n pBuf (continued 4 (continued n pBuf fun _ => 48) text) := by
      intro index inside
      rw [continued, if_pos (by omega), continued, if_pos inside]
    refine not_judged agree (continued_agree (Nat.le_refl n) pBuf fun _ => 255) ?_ judged
    rw [packetAnalyse_asciiForm _ form, packetAnalyse_formless _ ascii binary, continued_shift,
      accepted]
    exact Option.some_ne_none _
  refine ⟨received, fun text agree => ?_⟩
  have form := possible.form received
  have agree := continued_agree_of_text agree
  have same := judged _ agree
  rw [packetAnalyse_asciiForm _ form, packetAnalyse_asciiForm _ (agree.asciiForm received form),
    continued_shift, agree.loadU32 (by omega)] at same
  exact map_pair_injective same

/-- A datagram shorter than the common header, continued with one for its length and with any sum.
-/
def headed (n : ℕ) (pBuf : View) (sum : UInt8) (text : View) : View :=
  continued (sizeofCommonHeader + sizeofCmdHeader) (continued n pBuf (View.shift (fun index =>
    if index = 12 then sum else (commonHeader 0 (subU32 n sizeofCommonHeader)).getD index 0) n)) text

theorem headed_heads {index : ℕ} (heads : index < 19) (pBuf text : View) (sum : UInt8) :
    headed n pBuf sum text index = continued n pBuf (View.shift (fun index =>
      if index = 12 then sum else (commonHeader 0 (subU32 n sizeofCommonHeader)).getD index 0) n)
        index := if_pos heads

theorem headed_text {index : ℕ} (behind : ¬ index < 19) (pBuf text : View) (sum : UInt8) :
    headed n pBuf sum text index = text (index - 19) := if_neg behind

theorem headed_agree (short : n < sizeofCommonHeader) (pBuf text : View) (sum : UInt8) :
    AgreeOn n pBuf (headed n pBuf sum text) := by
  have bound : n < 13 := short
  intro index inside
  rw [headed_heads (by omega), continued, if_pos inside]

/-- The bytes that have not been received. -/
theorem headed_behind {index : ℕ} (behind : n ≤ index) (heads : index < 19) (pBuf text : View)
    (sum : UInt8) : headed n pBuf sum text index = if index = 12 then sum
      else (commonHeader 0 (subU32 n sizeofCommonHeader)).getD index 0 := by
  rw [headed_heads heads, continued, if_neg (by omega), View.shift, Nat.add_sub_cancel' behind]

theorem headed_binaryForm (possible : BinaryPossible pBuf n) (short : n < sizeofCommonHeader)
    (sum : UInt8) (text : View) : BinaryForm (headed n pBuf sum text) n ∧
      loadU32 (headed n pBuf sum text) 4 = subU32 n sizeofCommonHeader := by
  have bound : n < 13 := short
  apply binaryForm_of_header (by omega)
  intro index before
  rcases Nat.lt_or_ge index n with inside | behind
  · rw [headed_agree short pBuf text sum index inside]
    exact possible index before inside
  · rw [headed_behind behind (by omega), if_neg (by omega)]

/-- The sum is not one of the bytes it is taken of. -/
theorem headed_sumMatches (possible : BinaryPossible pBuf n) (short : n < sizeofCommonHeader)
    (sum : UInt8) (text : View) : SumMatches (headed n pBuf sum text) ↔
      sum = byteSum ((headed n pBuf 0 text).read sizeofCommonHeader
        (subU32 n sizeofCommonHeader)) := by
  have bound : n < 13 := short
  have bytes : (headed n pBuf sum text).read sizeofCommonHeader (subU32 n sizeofCommonHeader) =
      (headed n pBuf 0 text).read sizeofCommonHeader (subU32 n sizeofCommonHeader) := by
    apply View.read_congr
    intro index _
    rcases Nat.lt_or_ge (13 + index) 19 with inside | behind
    · show headed n pBuf sum text (13 + index) = headed n pBuf 0 text (13 + index)
      rw [headed_behind (by omega) inside, headed_behind (by omega) inside, if_neg (by omega),
        if_neg (by omega)]
    · show headed n pBuf sum text (13 + index) = headed n pBuf 0 text (13 + index)
      rw [headed_text (by omega), headed_text (by omega)]
  rw [SumMatches, (headed_binaryForm possible short sum text).2, bytes,
    headed_behind (by omega) (by decide), if_pos rfl]

/-- The common header has to be received, with a document if its sum is right. -/
theorem JudgedByOwnBytes.binary (judged : JudgedByOwnBytes parse pBuf n) (small : n < 2 ^ 31)
    (accepts : ∃ text pRet, parse text = some pRet) (rejects : ∃ text, parse text = none)
    (possible : BinaryPossible pBuf n) : sizeofCommonHeader ≤ n ∧ (SumMatches pBuf →
      sizeofCommonHeader + sizeofCmdHeader ≤ n ∧
        Decided parse (n - (sizeofCommonHeader + sizeofCmdHeader))
          (pBuf.shift (sizeofCommonHeader + sizeofCmdHeader))) := by
  obtain ⟨accepted_text, pRet, accepted⟩ := accepts
  have received : sizeofCommonHeader ≤ n := by
    by_contra short
    rw [Nat.not_le] at short
    obtain ⟨sum, sum_eq⟩ : ∃ sum, sum = byteSum ((headed n pBuf 0 accepted_text).read
      sizeofCommonHeader (subU32 n sizeofCommonHeader)) := ⟨_, rfl⟩
    have matches_sum := (headed_sumMatches possible short sum accepted_text).mpr sum_eq
    have wrong : ¬ SumMatches (headed n pBuf (sum + 1) accepted_text) := by
      rw [headed_sumMatches possible short, ← sum_eq]
      intro same
      have one : (1 : UInt8) = 0 := (UInt8.add_right_inj sum).mp (same.trans (UInt8.add_zero sum).symm)
      exact absurd one (by decide)
    refine not_judged (headed_agree short pBuf accepted_text sum)
      (headed_agree short pBuf accepted_text (sum + 1)) ?_ judged
    rw [packetAnalyse_binaryForm _ (headed_binaryForm possible short _ _).1 matches_sum,
      packetAnalyse_wrongSum _ (headed_binaryForm possible short _ _).1 wrong, headed, continued_shift,
      accepted]
    exact Option.some_ne_none _
  refine ⟨received, fun sum => ?_⟩
  have result {text : View} (agree : AgreeOn n pBuf
      (continued (sizeofCommonHeader + sizeofCmdHeader) pBuf text)) :
      packetAnalyse parse (continued (sizeofCommonHeader + sizeofCmdHeader) pBuf text) n =
        (parse text).map fun pRet => (loadU32 (continued (sizeofCommonHeader + sizeofCmdHeader)
          pBuf text) sizeofCommonHeader, pRet) := by
    rw [packetAnalyse_binaryForm _ (possible.form_of_agree small received agree)
      ((possible.sumMatches_iff small received agree).mpr sum), continued_shift]
  have heads : sizeofCommonHeader + sizeofCmdHeader ≤ n := by
    by_contra short
    have inside : n ≤ sizeofCommonHeader + sizeofCmdHeader := Nat.le_of_not_le short
    obtain ⟨rejected_text, rejected⟩ := rejects
    refine not_judged (continued_agree inside pBuf accepted_text)
      (continued_agree inside pBuf rejected_text) ?_ judged
    rw [result (continued_agree inside pBuf _), result (continued_agree inside pBuf _), accepted,
      rejected]
    exact Option.some_ne_none _
  refine ⟨heads, fun text agree => ?_⟩
  have heads : 19 ≤ n := heads
  have agree := continued_agree_of_text agree
  have same := judged _ agree
  rw [result agree, packetAnalyse_binaryForm _ (possible.form small received).1 sum,
    agree.loadU32 (show sizeofCommonHeader + 4 ≤ n from le_trans (by decide) heads)] at same
  exact map_pair_injective same

end Results

/-- Whatever a parser is, a datagram is judged by its own bytes if and only if they rule out both forms,
or hold the heads of a form and a document that the parser finds in them, or a wrong sum. -/
theorem judged_iff_headsDecide (parse : View → Option CJson)
    (accepts : ∃ text pRet, parse text = some pRet) (rejects : ∃ text, parse text = none)
    (pBuf : View) {n : ℕ} (small : n < 2 ^ 31) :
    JudgedByOwnBytes parse pBuf n ↔ HeadsDecide parse pBuf n :=
  ⟨fun judged => ⟨judged.ascii accepts, judged.binary small accepts rejects⟩,
    fun decide => decide.judged small⟩

section Library

variable {n : CJsonNumbers} {own : List UInt8} {length : ℕ}

/-- The bytes of a text that have been received settle its document: a zero ends them, or the document
is the same with any bytes behind them. -/
def Settled (n : CJsonNumbers) (own : List UInt8) : Prop :=
  0 ∈ own ∨ ∀ more, 0 ∉ more → own.length + more.length ≤ 2 ^ 32 →
    (cJsonParse n (own ++ more)).value? = (cJsonParse n own).value?

/-- The heads of the form that is possible have been received, and the bytes behind them settle the
document; or the sum is wrong. -/
def BytesDecide (n : CJsonNumbers) (pBuf : View) (length : ℕ) : Prop :=
  (AsciiPossible pBuf length → 4 ≤ length ∧ Settled n (pBuf.read 4 (length - 4))) ∧
    (BinaryPossible pBuf length → sizeofCommonHeader ≤ length ∧ (SumMatches pBuf →
      sizeofCommonHeader + sizeofCmdHeader ≤ length ∧
        Settled n (pBuf.read (sizeofCommonHeader + sizeofCmdHeader)
          (length - (sizeofCommonHeader + sizeofCmdHeader)))))

/-- The library reads the bytes received, and those behind them if there is no zero. -/
theorem cJsonLibrary_parse_split (text : View) (short : length ≤ 2 ^ 32) :
    (cJsonLibrary n).parse text = (cJsonParse n (if 0 ∈ text.read 0 length
      then (text.read 0 length).takeWhile (· ≠ 0)
      else text.read 0 length ++ (text.read length (2 ^ 32 - length)).takeWhile (· ≠ 0))).value? := by
  obtain ⟨more, split⟩ := Nat.exists_eq_add_of_le short
  rw [cJsonLibrary_parse_eq, split, View.read_add, Nat.zero_add, Nat.add_sub_cancel_left,
    List.takeWhile_append]
  congr 2
  split_ifs with whole zero zero
  · have front := List.takeWhile_prefix (fun byte => decide (byte ≠ 0)) (l := text.read 0 length)
    rw [← front.eq_of_length whole] at zero
    exact absurd zero (notMem_takeWhile_ne_zero _)
  · rfl
  · rfl
  · rw [List.takeWhile_eq_self_iff.mpr (ne_zero_of_notMem zero)] at whole
    exact absurd rfl whole

/-- A text in front of zeros. -/
theorem ofList_takeWhile {behind : List UInt8} (nonzero : 0 ∉ behind) {room : ℕ}
    (inside : behind.length ≤ room) :
    ((View.ofList behind).read 0 room).takeWhile (· ≠ 0) = behind := by
  obtain ⟨more, rfl⟩ := Nat.exists_eq_add_of_le inside
  rw [View.read_add, View.read_ofList _ (Nat.le_refl _), List.take_length,
    List.takeWhile_append_of_pos (ne_zero_of_notMem nonzero), Nat.zero_add, List.append_right_eq_self]
  cases more with
  | zero => rfl
  | succ more =>
    have zero : View.ofList behind (behind.length + 0) = 0 :=
      List.getD_eq_default _ _ (Nat.le_refl _)
    rw [Nat.add_comm more 1, View.read_add]
    exact List.takeWhile_cons_of_neg (fun other => of_decide_eq_true other zero)

/-- The bytes received settle the document if and only if the library finds it in them. -/
theorem decided_iff_settled (n : CJsonNumbers) (text : View) (short : length ≤ 2 ^ 32) :
    Decided (cJsonLibrary n).parse length text ↔ Settled n (text.read 0 length) := by
  have own {other : View} (agree : AgreeOn length text other) :
      other.read 0 length = text.read 0 length :=
    View.read_congr fun index inside => agree _ (by omega)
  constructor
  · intro decided
    by_cases zero : 0 ∈ text.read 0 length
    · exact .inl zero
    refine .inr fun more nonzero room => ?_
    have parsed (behind : List UInt8) (nonzero : 0 ∉ behind) (room : length + behind.length ≤ 2 ^ 32) :
        (cJsonLibrary n).parse text = (cJsonParse n (text.read 0 length ++ behind)).value? := by
      have agree := continued_agree (Nat.le_refl length) text (.ofList behind)
      rw [← decided _ agree, cJsonLibrary_parse_split _ short, own agree, if_neg zero,
        ← Nat.add_zero length, ← View.read_shift, Nat.add_zero, continued_shift,
        ofList_takeWhile nonzero (Nat.le_sub_of_add_le' room)]
    rw [View.read_length] at room
    have alone := parsed [] List.not_mem_nil (by simpa using short)
    rw [List.append_nil] at alone
    rw [← alone, parsed more nonzero room]
  · intro settled other agree
    rw [cJsonLibrary_parse_split other short, cJsonLibrary_parse_split text short, own agree]
    split_ifs with zero
    · rfl
    · have same {view : View} : (cJsonParse n (text.read 0 length ++
          (view.read length (2 ^ 32 - length)).takeWhile (· ≠ 0))).value? =
            (cJsonParse n (text.read 0 length)).value? := by
        refine settled.resolve_left zero _ (notMem_takeWhile_ne_zero _) ?_
        have part := (List.takeWhile_prefix (fun byte => decide (byte ≠ 0))
          (l := view.read length (2 ^ 32 - length))).length_le
        rw [View.read_length] at part ⊢
        omega
      rw [same, same]

/-- The library reads a text in front of zeros. -/
theorem cJsonLibrary_parse_ofList {text : List UInt8} (nonzero : 0 ∉ text)
    (short : text.length ≤ 2 ^ 32) :
    (cJsonLibrary n).parse (.ofList text) = (cJsonParse n text).value? := by
  rw [cJsonLibrary_parse_eq, ofList_takeWhile nonzero short]

/-- A document that has been received with its end is settled. -/
theorem settled_of_spelled {item : CJson} {before text rest : List UInt8}
    (blanks : ∀ byte ∈ before, isBlank byte) (spelled : Spells n item text)
    (closed : ∀ more, EndsBefore (rest ++ more) item) : Settled n (before ++ (text ++ rest)) := by
  have found (more : List UInt8) :
      (cJsonParse n (before ++ (text ++ (rest ++ more)))).value? = some item := by
    rw [cJsonParse_padded spelled blanks _ (closed more)]
    rfl
  refine .inr fun more _ _ => ?_
  have alone := found []
  rw [List.append_nil] at alone
  rw [alone, List.append_assoc, List.append_assoc, found more]

/-- `PacketAnalyse` over the library judges a datagram by its own bytes if and only if they rule out both
forms, or hold the heads of a form and bytes that settle the document, or a wrong sum. -/
theorem judgedByOwnBytes_iff (n : CJsonNumbers) (pBuf : View) {length : ℕ}
    (small : length < 2 ^ 31) : JudgedByOwnBytes (cJsonLibrary n).parse pBuf length ↔
      BytesDecide n pBuf length := by
  have accepts : ∃ text pRet, (cJsonLibrary n).parse text = some pRet :=
    ⟨.ofList (ascii "null".toList), .null,
      cJsonLibrary_parse_ofList (by decide) (by decide)⟩
  have rejects : ∃ text, (cJsonLibrary n).parse text = none :=
    ⟨.ofList [], cJsonLibrary_parse_ofList List.not_mem_nil (Nat.zero_le _)⟩
  have settled (offset : ℕ) :
      Decided (cJsonLibrary n).parse (length - offset) (pBuf.shift offset) ↔
        Settled n (pBuf.read offset (length - offset)) := by
    rw [decided_iff_settled n _ (by omega), View.read_shift, Nat.add_zero]
  rw [judged_iff_headsDecide _ accepts rejects _ small, HeadsDecide, BytesDecide, settled, settled]

end Library

/-- A document that ends in the datagram. -/
theorem judgedByOwnBytes_closed : JudgedByOwnBytes (cJsonLibrary wholePowers).parse
    (.ofList (ascii "1000\x7b\x7d".toList)) 6 := by
  apply (judgedByOwnBytes_iff wholePowers _ (by decide)).mpr
  refine ⟨fun _ => ⟨by decide, ?_⟩, fun possible => ?_⟩
  · have empty : Spells wholePowers (.object []) [123, 125] := by
      rw [Spells]
      exact ⟨[], rfl, .inl ⟨rfl, List.forall_mem_nil _⟩⟩
    exact @settled_of_spelled _ _ [] _ [] (List.forall_mem_nil _) empty fun _ => trivial
  · exact absurd (possible 0 (by decide) (by decide)) (by decide)

/-- A document whose closing bracket an earlier datagram has left. -/
theorem judgedByOwnBytes_fails : ¬ ∀ (pBuf : View) (length : ℕ), length < 2 ^ 31 →
    JudgedByOwnBytes (cJsonLibrary wholePowers).parse pBuf length := by
  intro all
  have result (behind : List UInt8) (nonzero : 0 ∉ behind) (short : behind.length ≤ 2 ^ 32) :
      (packetAnalyse (cJsonLibrary wholePowers).parse
        (.ofList (ascii "1000".toList ++ behind)) 5).isSome =
          (cJsonParse wholePowers behind).value?.isSome := by
    have text : (View.ofList (ascii "1000".toList ++ behind)).shift 4 = .ofList behind :=
      View.shift_ofList_append (ascii "1000".toList) behind
    rw [packetAnalyse_asciiForm _ (show AsciiForm _ from ⟨rfl, rfl, rfl⟩), text,
      cJsonLibrary_parse_ofList nonzero short, Option.isSome_map]
  have judged := all (.ofList (ascii "1000\x7b\x7d".toList)) 5 (by decide)
  have same := congrArg Option.isSome (judged (.ofList (ascii "1000\x7bx".toList))
    (by unfold AgreeOn; decide))
  have received := result (ascii "\x7b\x7d".toList) (by decide) (by decide)
  have stale := result (ascii "\x7bx".toList) (by decide) (by decide)
  exact absurd (stale.symm.trans (same.trans received)) (by decide)

end ShuangFa
