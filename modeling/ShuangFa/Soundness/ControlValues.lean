import Mathlib.Data.Int.ModEq
import Mathlib.Data.List.TakeWhile
import ShuangFa.Model.JdService

/-! # Control values on their way to the MCU

The value of a control item comes as a number or as a string. A string of decimal digits is read as
the number it stands for, cut off to a byte. A number is printed with the radix 25 and read as
decimal, so only the numbers up to nine arrive. A packet is sent for every value, also for one that
is no byte.
-/

namespace ShuangFa

open Memory Coding Machine

/-- The streams whose command carries a value. -/
def valueStreams : List (String × ControlCmdType) :=
  [("light", .downLight), ("mode", .downMode), ("power", .downPower), ("sound", .downSound),
    ("speed", .downSpeed)]

/-- An item that stands for an integer: a number, or a string with its digits. -/
inductive Denotes : CJson → ℤ → Prop where
  | number (valueint : Int32) (valuedouble : Float) :
    Denotes (.number valueint valuedouble) valueint.toInt
  | string (valuestring : CString) (v : ℤ) (digits : valuestring.bytes = decimalInt v) :
    Denotes (.string valuestring) v

/-- The packets that a call sends to the MCU. -/
def sentPackets {α : Type} (call : Attempt JdEffect α) : List (List UInt8) :=
  call.effects.filterMap JdEffect.packet?

/-- A command whose list of control items holds one for a stream, and the loop gets to it. -/
structure HasControlItem (env : JdEnvironment) (pBuf : View) (before after : List CJson)
    (type : ControlCmdType) (value : CJson) : Prop where
  command : ∃ pRoot pJCon item name, env.cJson.parse pBuf = some pRoot ∧
    pRoot.valueintAt "code" = some 1002 ∧ pRoot.getObjectItem "control" = some pJCon ∧
    pJCon.child = before ++ item :: after ∧ (name, type) ∈ valueStreams ∧
    item.valuestringAt "stream_id" = some (literal name) ∧
    item.getObjectItem "current_value" = some value
  reached : (Attempt.forEach (controlItem env.beforeTable) before).Completes

/-- A packet with one byte of data. -/
def HasValue (type : ControlCmdType) (value : UInt8) (packet : List UInt8) : Prop :=
  packet[1]? = some type.code ∧ packet[2]? = some 1 ∧ packet[3]? = some value

/-- Between the packets for the other items one is sent with the value, if it is a byte, and none
otherwise. -/
def ReachesMcu (env : JdEnvironment) (jdArgs : JdNVargs) (pBuf : View) (before after : List CJson)
    (type : ControlCmdType) (v : ℤ) : Prop :=
  ∃ sent, sentPackets (jdCmdProcess env jdArgs pBuf) =
      sentPackets (Attempt.forEach (controlItem env.beforeTable) before) ++ (sent ++
        sentPackets (Attempt.forEach (controlItem env.beforeTable) after)) ∧
    if 0 ≤ v ∧ v ≤ 255 then ∃ packet, sent = [packet] ∧ HasValue type (UInt8.ofNat v.toNat) packet
    else sent = []

/-- The largest value that is read as it was meant. -/
def largestValue : CJson → ℤ
  | .number _ _ => 9
  | _ => 255

section Reading

theorem bmod_modEq (x : ℤ) : x.bmod Int32.size ≡ x [ZMOD 2 ^ 8] :=
  Int.ModEq.of_dvd (show (2 : ℤ) ^ 8 ∣ Int32.size by decide) Int.bmod_emod

/-- The low byte of what is read depends on the low byte of the digits read before. -/
theorem foldl_modEq {digits : List UInt8} (all : ∀ digit ∈ digits, 48 ≤ digit.toNat) {n : Int32}
    {number : ℕ} (same : n.toInt ≡ number [ZMOD 2 ^ 8]) :
    (digits.foldl (fun n digit => n * 10 + (Int32.ofNat digit.toNat - 48)) n).toInt ≡
      (digits.foldl (fun number digit => number * 10 + (digit.toNat - 48)) number : ℕ)
        [ZMOD 2 ^ 8] := by
  induction digits generalizing n number with
  | nil => exact same
  | cons digit digits ih =>
    rw [List.foldl_cons, List.foldl_cons]
    apply ih fun other member => all other (List.mem_cons_of_mem _ member)
    have bound := all digit (List.mem_cons_self ..)
    have small := digit.toNat_lt
    have value : (Int32.ofNat digit.toNat - 48).toInt ≡ ((digit.toNat - 48 : ℕ) : ℤ) [ZMOD 2 ^ 8] := by
      rw [Int32.toInt_sub, Int32.toInt_ofNat_of_lt (by omega), Nat.cast_sub bound]
      exact bmod_modEq _
    have tenfold : (n * 10).toInt ≡ ((number * 10 : ℕ) : ℤ) [ZMOD 2 ^ 8] := by
      rw [Int32.toInt_mul, Nat.cast_mul]
      exact (bmod_modEq _).trans (same.mul_right _)
    rw [Int32.toInt_add, Nat.cast_add]
    exact (bmod_modEq _).trans (tenfold.add value)

/-- Decimal digits are read as the low byte of their number. -/
theorem charOfInt_myAtoi_decimal (number : ℕ) :
    charOfInt (myAtoi (decimal number)) = UInt8.ofNat number := by
  have all (digit : UInt8) (member : digit ∈ decimal number) : 48 ≤ digit.toNat :=
    (decimal_digits member).1
  have whole : (decimal number).takeWhile (· ≠ 0) = decimal number := by
    apply List.takeWhile_eq_self_iff.mpr
    intro digit member
    apply decide_eq_true
    rintro rfl
    exact absurd (all 0 member) (by decide)
  have read := foldl_modEq all
    (show (0 : Int32).toInt ≡ ((0 : ℕ) : ℤ) [ZMOD 2 ^ 8] from Int.ModEq.refl _)
  rw [show (decimal number).foldl (fun number digit => number * 10 + (digit.toNat - 48)) 0 = number
    from readDecimal_decimal number] at read
  apply UInt8.toNat_inj.mp
  rw [charOfInt, myAtoi, whole, read, UInt8.toNat_ofNat', UInt8.toNat_ofNat']
  omega

/-- Nothing in front of the table is read for a number that is not negative. -/
theorem itoaLoop_congr (first second : View) (radix : ℤ) (positive : 0 < radix) (rounds : ℕ) {num : ℤ}
    (sign : 0 ≤ num) : itoaLoop first radix rounds num = itoaLoop second radix rounds num := by
  induction rounds generalizing num with
  | zero => rfl
  | succ rounds ih =>
    have digit : ¬ num.tmod radix < 0 := Int.not_lt.mpr (Int.tmod_nonneg radix sign)
    rw [itoaLoop, itoaLoop, ih (Int.tdiv_nonneg sign positive.le), itoaTable, itoaTable,
      if_neg digit, if_neg digit]

theorem myItoa_congr (first second : View) {num : Int32} (sign : 0 ≤ num.toInt) :
    myItoa first num 25 = myItoa second num 25 := by
  have nonneg : ¬ num < 0 := by
    rw [Int32.lt_iff_toInt_lt]
    exact Int.not_lt.mpr sign
  rw [myItoa, myItoa, if_neg nonneg, if_neg nonneg, itoaLoop_congr first second 25 (by decide) 32 sign]

/-- A number that is a byte is read as it was meant if it has one decimal digit. -/
theorem charOfInt_myAtoi_myItoa (beforeTable : View) {num : Int32} (sign : 0 ≤ num.toInt)
    (byte : num.toInt ≤ 255) :
    charOfInt (myAtoi (myItoa beforeTable num 25)) = UInt8.ofNat num.toInt.toNat ↔
      num.toInt ≤ 9 := by
  have all : ∀ number < 256, charOfInt (myAtoi (myItoa (fun _ => 0) (.ofNat number) 25)) =
      UInt8.ofNat number ↔ number ≤ 9 := by decide +kernel
  have number := all num.toInt.toNat (by omega)
  have same : Int32.ofNat num.toInt.toNat = num := by
    apply Int32.toInt.inj
    rw [Int32.toInt_ofNat_of_lt (by omega), Int.toNat_of_nonneg sign]
  rw [same, ← myItoa_congr beforeTable _ sign] at number
  rw [number]
  omega

end Reading

section Sending

variable {env : JdEnvironment} {jdArgs : JdNVargs} {pBuf : View} {before after : List CJson}
  {type : ControlCmdType} {item value : CJson} {name : String} {v : ℤ} {text : List UInt8}

theorem downCmdType_valueStreams :
    ∀ stream ∈ valueStreams, downCmdType (literal stream.1) = some stream.2 := by decide

/-- The packet for a stream has the value as its data. -/
theorem buildMessage_valueStreams (known : (name, type) ∈ valueStreams) (value : UInt8) :
    ∃ packet, buildMessage type value = some packet ∧ HasValue type value packet := by
  simp only [valueStreams, List.mem_cons, Prod.mk.injEq, List.not_mem_nil, or_false] at known
  rcases known with ⟨_, rfl⟩ | ⟨_, rfl⟩ | ⟨_, rfl⟩ | ⟨_, rfl⟩ | ⟨_, rfl⟩
  all_goals exact ⟨_, rfl, rfl, rfl, rfl⟩

/-- One packet is sent for an item, with what `my_atoi` makes of its value. -/
theorem controlItem_sends (beforeTable : View) (known : (name, type) ∈ valueStreams)
    (stream : item.valuestringAt "stream_id" = some (literal name))
    (current : item.getObjectItem "current_value" = some value)
    (assigned : currentValue beforeTable value = some text) : ∃ packet,
      controlItem beforeTable item = Attempt.emit (.hfuartSend packet) ∧
        HasValue type (charOfInt (myAtoi text)) packet := by
  obtain ⟨packet, built, has⟩ := buildMessage_valueStreams known (charOfInt (myAtoi text))
  refine ⟨packet, ?_, has⟩
  rw [controlItem, stream, current, Attempt.check_bind, Attempt.check_bind, jsonToBinary,
    downCmdType_valueStreams _ known]
  dsimp only
  rw [assigned, Attempt.check_bind, built]

/-- The packets for a command with the code 1002 are those for its control items. -/
theorem sentPackets_controlCommand {pRoot pJCon : CJson} (parsed : env.cJson.parse pBuf = some pRoot)
    (code : pRoot.valueintAt "code" = some 1002)
    (control : pRoot.getObjectItem "control" = some pJCon) :
    sentPackets (jdCmdProcess env jdArgs pBuf) =
      sentPackets (Attempt.forEach (controlItem env.beforeTable) pJCon.child) := by
  rw [jdCmdProcess, parsed, Attempt.check_bind, code, Attempt.check_bind, jdCmdDispatch,
    if_neg (by decide), if_neg (by decide), if_neg (by decide), if_neg (by decide), if_pos rfl,
    controlCommand, control, Attempt.check_bind]
  cases result : (Attempt.forEach (controlItem env.beforeTable) pJCon.child).result with
  | none => rw [sentPackets, Attempt.effects_bind_stop result, sentPackets]
  | some done =>
    rw [sentPackets, Attempt.effects_bind result, List.filterMap_append, sentPackets]
    cases pRoot.getObjectItem "attribute" with
    | none => exact List.append_nil _
    | some pJatt =>
      rw [Attempt.check_bind]
      cases sslTx? (controlResponseText jdArgs (env.cJson.print pJatt)) with
      | none => exact List.append_nil _
      | some response => exact List.append_nil _

/-- The byte that arrives is the one that `my_atoi` makes of the value. -/
theorem reachesMcu_iff_byte (has : HasControlItem env pBuf before after type value)
    (assigned : currentValue env.beforeTable value = some text) :
    ReachesMcu env jdArgs pBuf before after type v ↔
      (0 ≤ v ∧ v ≤ 255) ∧ charOfInt (myAtoi text) = UInt8.ofNat v.toNat := by
  obtain ⟨⟨pRoot, pJCon, item, name, parsed, code, control, items, known, stream, current⟩,
    reached⟩ := has
  obtain ⟨packet, item_sends, sent_value⟩ := controlItem_sends env.beforeTable known stream current
    assigned
  have packets : sentPackets (jdCmdProcess env jdArgs pBuf) =
      sentPackets (Attempt.forEach (controlItem env.beforeTable) before) ++ ([packet] ++
        sentPackets (Attempt.forEach (controlItem env.beforeTable) after)) := by
    have complete : (controlItem env.beforeTable item).Completes := by
      rw [item_sends]
      exact Attempt.completes_emit _
    rw [sentPackets_controlCommand parsed code control, items, sentPackets,
      Attempt.effects_forEach_round reached complete, item_sends, List.filterMap_append,
      List.filterMap_append]
    rfl
  rw [ReachesMcu, packets]
  constructor
  · rintro ⟨sent, same, reaches⟩
    have one : sent = [packet] :=
      (List.append_cancel_right (List.append_cancel_left same)).symm
    split_ifs at reaches with byte
    · obtain ⟨other, sent_other, other_value⟩ := reaches
      obtain rfl := List.singleton_inj.mp (one.symm.trans sent_other)
      exact ⟨byte, Option.some.inj (sent_value.2.2.symm.trans other_value.2.2)⟩
    · cases one.symm.trans reaches
  · rintro ⟨byte, same⟩
    refine ⟨[packet], rfl, ?_⟩
    rw [if_pos byte, ← same]
    exact ⟨packet, rfl, sent_value⟩

end Sending

/-- A control value reaches the MCU unchanged if and only if it is a number from 0 to 9 or a string
with a number from 0 to 255. -/
theorem reachesMcu_iff {env : JdEnvironment} {pBuf : View} {before after : List CJson}
    {type : ControlCmdType} {value : CJson} {v : ℤ} (jdArgs : JdNVargs)
    (has : HasControlItem env pBuf before after type value) (denotes : Denotes value v) :
    ReachesMcu env jdArgs pBuf before after type v ↔ 0 ≤ v ∧ v ≤ largestValue value := by
  cases denotes with
  | number valueint valuedouble =>
    rw [reachesMcu_iff_byte has rfl, largestValue]
    constructor
    · rintro ⟨byte, same⟩
      exact ⟨byte.1, (charOfInt_myAtoi_myItoa env.beforeTable byte.1 byte.2).mp same⟩
    · rintro ⟨sign, digit⟩
      have byte : valueint.toInt ≤ 255 := digit.trans (by decide)
      exact ⟨⟨sign, byte⟩, (charOfInt_myAtoi_myItoa env.beforeTable sign byte).mpr digit⟩
  | string valuestring _ digits =>
    rw [reachesMcu_iff_byte has rfl, show largestValue (.string valuestring) = 255 from rfl,
      and_iff_left_of_imp]
    rintro ⟨sign, _⟩
    have magnitude : v.natAbs = v.toNat := by omega
    rw [digits, decimalInt, if_neg (Int.not_lt.mpr sign), charOfInt_myAtoi_decimal, magnitude]

/-- A command that sets the light. -/
def lightCommand (value : CJson) : CJson :=
  .object [(literal "code", .number 1002 1002), (literal "control", .array [.object
    [(literal "stream_id", .string (literal "light")), (literal "current_value", value)]])]

/-- A device that is given a command. -/
def commandEnvironment (command : CJson) : JdEnvironment :=
  ⟨⟨fun _ => some command, fun _ => literal "null"⟩, fun _ => (0, 0), fun _ => 1, fun _ => 0⟩

theorem lightCommand_item (value : CJson) (pBuf : View) :
    HasControlItem (commandEnvironment (lightCommand value)) pBuf [] [] .downLight value where
  command := ⟨lightCommand value, _, _, "light", rfl, rfl, rfl, rfl, .head _, rfl, rfl⟩
  reached := Attempt.completes_pure ()

/-- A light of nine. -/
theorem reachesMcu_nine : ReachesMcu (commandEnvironment (lightCommand (.number 9 9))) .zero
    (.ofList (ascii ("\x7b\"code\":1002,\"control\":[\x7b\"stream_id\":\"light\"," ++
      "\"current_value\":9\x7d]\x7d").toList)) [] [] .downLight 9 :=
  (reachesMcu_iff .zero (lightCommand_item (.number 9 9) _) (.number 9 9)).mpr (by decide)

/-- A light of ten. -/
theorem reachesMcu_fails : ¬ ∀ (env : JdEnvironment) (jdArgs : JdNVargs) (pBuf : View)
    (before after : List CJson) (type : ControlCmdType) (value : CJson) (v : ℤ),
    HasControlItem env pBuf before after type value → Denotes value v →
      ReachesMcu env jdArgs pBuf before after type v := by
  intro all
  have reaches := all _ .zero (.ofList (ascii
    ("\x7b\"code\":1002,\"control\":[\x7b\"stream_id\":\"light\"," ++
      "\"current_value\":10\x7d]\x7d").toList)) [] [] .downLight _ _
    (lightCommand_item (.number 10 10) _) (.number 10 10)
  have read := ((reachesMcu_iff_byte (lightCommand_item (.number 10 10) _) rfl).mp reaches).2
  exact absurd read (by decide +kernel)

end ShuangFa
