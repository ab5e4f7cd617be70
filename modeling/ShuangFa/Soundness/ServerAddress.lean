import Mathlib.Data.Rat.Floor
import ShuangFa.Model.JdServer
import ShuangFa.Proofs.ParseNumber

/-! # The server is the one of the entry where nothing is left over

Neither copy of an address ends with a zero, so an address is found again where a zero is there by
chance: behind the host in `jdserver_ip`, and behind the port in `ssl_server`, where a colon does too.
A longer address from before leaves its own bytes behind both.
-/

namespace ShuangFa

open Memory Coding ParseNumber

/-- `iplist[0]` is a host and a port. -/
structure IsEntry (jdArgs : JdNVargs) (host : List UInt8) (port : ℕ) : Prop where
  text : jdArgs.iplist.1.text? = some (host ++ 58 :: decimal port)
  some_byte : host ≠ []
  no_colon : 58 ∉ host
  short : host.length ≤ 19
  port_lt : port < 2 ^ 31

/-- The server is found, and it is the one of the entry. -/
def AddressStored (d : DoubleArithmetic) (jdArgs : JdNVargs)
    (sslServer : FixedBuffer sizeofSslServer) (server : JdServer) (host : List UInt8) (port : ℕ) :
    Prop :=
  ∃ found, serverAddress d jdArgs sslServer server = some (1, found) ∧
    found.jdserverIp.text? = some host ∧ found.jdserverPort = .ofNat port

/-- What `ssl_server` has behind the entry. -/
def leftOver (sslServer : FixedBuffer sizeofSslServer) (host : List UInt8) (port : ℕ) : List UInt8 :=
  sslServer.bytes.drop (host ++ 58 :: decimal port).length

/-- More digits go on with a port, but not a zero behind a zero. -/
inductive TakesDigits (port : ℕ) : List UInt8 → List UInt8 → List UInt8 → Prop where
  | digits {more rest : List UInt8} (all : ∀ digit ∈ more, isDigit digit)
    (ends : rest.head?.any isDigit = false) (leading : port = 0 → more.head? ≠ some 48) :
    TakesDigits port more (more ++ rest) rest
  | zero {rest : List UInt8} (none : port = 0) : TakesDigits port [] (48 :: rest) (48 :: rest)

/-- A point goes on with a number where a digit is behind it. -/
inductive TakesFraction : List UInt8 → List UInt8 → List UInt8 → Prop where
  | absent {rest : List UInt8} (ends : ¬(rest.head? = some 46 ∧ rest.tail.head?.any isDigit)) :
    TakesFraction [] rest rest
  | point {digits rest : List UInt8} (some_digit : digits ≠ [])
    (all : ∀ digit ∈ digits, isDigit digit) (ends : rest.head?.any isDigit = false) :
    TakesFraction digits (46 :: (digits ++ rest)) rest

/-- A letter goes on with a number, also where no digit is behind it; what it stands for is an `int`. -/
inductive TakesExponent : ℤ → List UInt8 → Prop where
  | absent {rest : List UInt8} (ends : ¬(rest.head? = some 101 ∨ rest.head? = some 69)) :
    TakesExponent 0 rest
  | unsigned {mark : UInt8} {digits rest : List UInt8} (letter : mark = 101 ∨ mark = 69)
    (all : ∀ digit ∈ digits, isDigit digit) (ends : rest.head?.any isDigit = false)
    (plus : (digits ++ rest).head? ≠ some 43) (minus : (digits ++ rest).head? ≠ some 45)
    (small : readDecimal digits < 2 ^ 31) :
    TakesExponent (readDecimal digits) (mark :: (digits ++ rest))
  | plus {mark : UInt8} {digits rest : List UInt8} (letter : mark = 101 ∨ mark = 69)
    (all : ∀ digit ∈ digits, isDigit digit) (ends : rest.head?.any isDigit = false)
    (small : readDecimal digits < 2 ^ 31) :
    TakesExponent (readDecimal digits) (mark :: 43 :: (digits ++ rest))
  | minus {mark : UInt8} {digits rest : List UInt8} (letter : mark = 101 ∨ mark = 69)
    (all : ∀ digit ∈ digits, isDigit digit) (ends : rest.head?.any isDigit = false)
    (small : readDecimal digits < 2 ^ 31) :
    TakesExponent (-(readDecimal digits : ℤ)) (mark :: 45 :: (digits ++ rest))

/-- The double of a port that more digits, a fraction and an exponent go on with. -/
def continuedDouble (d : DoubleArithmetic) (port : ℕ) (more fraction : List UInt8) (exponent : ℤ) :
    d.Double :=
  d.mul (d.mul (d.ofInt 1) ((more ++ fraction).foldl (nextDigit d) (d.ofInt port)))
    (d.pow (d.ofInt 10) (d.add
      ((fun scale => d.add scale (d.ofInt (-1)))^[fraction.length] (d.ofInt 0)) (d.ofInt exponent)))

/-- The bytes behind a port go on with it to a number that has the same `int`. -/
def KeepsPort (d : DoubleArithmetic) (port : ℕ) (behind : List UInt8) : Prop :=
  ∃ more fraction exponent middle last, TakesDigits port more behind middle ∧
    TakesFraction fraction middle last ∧ TakesExponent exponent last ∧
    d.toInt (continuedDouble d port more fraction exponent) = some (.ofNat port)

section Numbers

variable {d : DoubleArithmetic} {behind more middle digits last bytes rest : List UInt8} {port : ℕ}
  {exponent : ℤ}

/-- A digit other than zero is one that a number starts with. -/
theorem starts_number : bytes.head?.any (fun byte => 49 ≤ byte ∧ byte ≤ 57) = true ↔
    bytes.head?.any isDigit = true ∧ bytes.head? ≠ some 48 := by
  cases bytes with
  | nil => exact iff_of_false nofun fun both => Bool.false_ne_true both.1
  | cons byte rest =>
    rw [List.head?_cons, Option.any_some, Option.any_some, decide_eq_true_iff, isDigit,
      decide_eq_true_iff, Ne, Option.some.injEq, ← UInt8.toNat_inj, UInt8.le_iff_toNat_le,
      UInt8.le_iff_toNat_le, UInt8.le_iff_toNat_le]
    rw [show UInt8.toNat 48 = 48 from rfl, show UInt8.toNat 49 = 49 from rfl,
      show UInt8.toNat 57 = 57 from rfl]
    omega

/-- The digits in front are the ones of the port, and those that go on with it. -/
theorem TakesDigits.number_eq (takes : TakesDigits port more behind middle) (small : port < 2 ^ 31) :
    number d (if (decimal port ++ behind).head? = some 48 then (decimal port ++ behind).tail
      else decimal port ++ behind) = (more.foldl (nextDigit d) (d.ofInt port), middle) := by
  rcases Nat.eq_zero_or_pos port with rfl | positive
  · have passed : (if (decimal 0 ++ behind).head? = some 48 then (decimal 0 ++ behind).tail
        else decimal 0 ++ behind) = behind := if_pos rfl
    rw [passed, number]
    cases takes with
    | digits all ends leading =>
      cases more with
      | nil =>
        rw [List.nil_append, if_neg fun starts => ?_]
        · rfl
        · rw [(starts_number.mp starts).1] at ends
          cases ends
      | cons first others =>
        have starts := (@starts_number (first :: others ++ middle)).mpr
          ⟨all first (List.mem_cons_self ..), leading rfl⟩
        rw [if_pos starts, numberLoop_append all ends]
        rfl
    | zero none => rfl
  · obtain ⟨first, others, split, low, high⟩ := decimal_cons positive
    have starts : (decimal port ++ behind).head?.any (fun byte => 49 ≤ byte ∧ byte ≤ 57) = true := by
      rw [split, List.cons_append, List.head?_cons, Option.any_some]
      exact decide_eq_true ⟨low, high⟩
    rw [if_neg (starts_number.mp starts).2, number, if_pos starts]
    cases takes with
    | @digits more rest all ends leading =>
      have both : ∀ digit ∈ decimal port ++ more, isDigit digit := by
        intro digit member
        rcases List.mem_append.mp member with front | later
        · exact isDigit_decimal front
        · exact all digit later
      rw [← List.append_assoc, numberLoop_append both ends, List.foldl_append, foldl_decimal small]
    | zero none => exact absurd none positive.ne'

theorem TakesFraction.fraction_eq {fraction : List UInt8} (takes : TakesFraction fraction middle last)
    (before : d.Double) : ParseNumber.fraction d before middle =
      (fraction.foldl (nextDigit d) before,
        (fun scale => d.add scale (d.ofInt (-1)))^[fraction.length] (d.ofInt 0), last) := by
  cases takes with
  | absent ends => exact if_neg ends
  | @point digits rest some_digit all ends =>
    obtain ⟨first, others, rfl⟩ := List.exists_cons_of_ne_nil some_digit
    rw [ParseNumber.fraction, if_pos ⟨List.head?_cons, all first (List.mem_cons_self ..)⟩]
    exact fractionLoop_append all ends before (d.ofInt 0)

theorem exponent_marked {mark : UInt8} (letter : mark = 101 ∨ mark = 69) (more : List UInt8) :
    (mark :: more).head? = some 101 ∨ (mark :: more).head? = some 69 :=
  letter.imp (congrArg some) (congrArg some)

theorem exponent_unsigned (letter : bytes.head? = some 101 ∨ bytes.head? = some 69)
    (plus : bytes.tail.head? ≠ some 43) (minus : bytes.tail.head? ≠ some 45) :
    ParseNumber.exponent bytes = exponentLoop 0 bytes.tail := by
  rw [ParseNumber.exponent, if_pos letter]
  split
  · rename_i same
    exact absurd (congrArg List.head? same) plus
  · rename_i same
    exact absurd (congrArg List.head? same) minus
  · rfl

theorem TakesExponent.exponent_eq (takes : TakesExponent exponent last) :
    ∃ rest, ParseNumber.exponent last = some (exponent, rest) := by
  cases takes with
  | absent ends => exact ⟨last, if_neg ends⟩
  | @unsigned mark digits rest letter all ends plus minus small =>
    refine ⟨rest, ?_⟩
    rw [exponent_unsigned (exponent_marked letter _) plus minus, List.tail_cons, exponentLoop_digits all ends,
      if_pos small]
  | @plus mark digits rest letter all ends small =>
    refine ⟨rest, ?_⟩
    rw [ParseNumber.exponent, if_pos (exponent_marked letter _), List.tail_cons]
    change exponentLoop 0 (digits ++ rest) = _
    rw [exponentLoop_digits all ends, if_pos small]
  | @minus mark digits rest letter all ends small =>
    refine ⟨rest, ?_⟩
    rw [ParseNumber.exponent, if_pos (exponent_marked letter _), List.tail_cons]
    change (exponentLoop 0 (digits ++ rest)).map _ = _
    rw [exponentLoop_digits all ends, if_pos small, Option.map_some]
    dsimp only
    rw [mul_neg_one]

/-- Every exponent that is read is one of these. -/
theorem takesExponent_of_some (read : ParseNumber.exponent last = some (exponent, rest)) :
    TakesExponent exponent last := by
  rcases em (last.head? = some 101 ∨ last.head? = some 69) with letter | ends
  · cases last with
    | nil => simp at letter
    | cons mark tail =>
      have marks : mark = 101 ∨ mark = 69 := letter.imp Option.some.inj Option.some.inj
      rcases eq_or_ne tail.head? (some 43) with plus | noPlus
      · obtain ⟨more, rfl⟩ := List.head?_eq_some_iff.mp plus
        obtain ⟨digits, behind, rfl, all, stops⟩ := digits_split more
        rw [ParseNumber.exponent, if_pos letter] at read
        change exponentLoop 0 (digits ++ behind) = _ at read
        rw [exponentLoop_digits all stops] at read
        split_ifs at read with small
        cases read
        exact .plus marks all stops small
      · rcases eq_or_ne tail.head? (some 45) with minus | noMinus
        · obtain ⟨more, rfl⟩ := List.head?_eq_some_iff.mp minus
          obtain ⟨digits, behind, rfl, all, stops⟩ := digits_split more
          rw [ParseNumber.exponent, if_pos letter] at read
          change (exponentLoop 0 (digits ++ behind)).map _ = _ at read
          rw [exponentLoop_digits all stops] at read
          rcases em (readDecimal digits < 2 ^ 31) with small | large
          · rw [if_pos small] at read
            cases read
            rw [mul_neg_one]
            exact .minus marks all stops small
          · rw [if_neg large] at read
            cases read
        · rw [exponent_unsigned letter noPlus noMinus, List.tail_cons] at read
          obtain ⟨digits, behind, rfl, all, stops⟩ := digits_split tail
          rw [exponentLoop_digits all stops] at read
          split_ifs at read with small
          cases read
          exact .unsigned marks all stops noPlus noMinus small
  · rw [ParseNumber.exponent, if_neg ends] at read
    cases read
    exact .absent ends

theorem takesDigits_total (port : ℕ) (behind : List UInt8) :
    ∃ more middle, TakesDigits port more behind middle := by
  rcases em (port = 0 ∧ behind.head? = some 48) with ⟨none, zero⟩ | other
  · obtain ⟨rest, rfl⟩ := List.head?_eq_some_iff.mp zero
    exact ⟨_, _, .zero none⟩
  · obtain ⟨more, middle, rfl, all, ends⟩ := digits_split behind
    refine ⟨more, middle, .digits all ends fun none zero => other ⟨none, ?_⟩⟩
    rw [List.head?_append, zero]
    rfl

theorem takesFraction_total (middle : List UInt8) :
    ∃ fraction last, TakesFraction fraction middle last := by
  rcases em (middle.head? = some 46 ∧ middle.tail.head?.any isDigit) with ⟨point, digit⟩ | ends
  · obtain ⟨tail, rfl⟩ := List.head?_eq_some_iff.mp point
    obtain ⟨digits, last, rfl, all, stops⟩ := digits_split tail
    refine ⟨digits, last, .point ?_ all stops⟩
    rintro rfl
    rw [List.tail_cons, List.nil_append, stops] at digit
    cases digit
  · exact ⟨_, _, .absent ends⟩

/-- The port with the bytes behind it is read as the number that they go on to. -/
theorem str2int_takes {fraction : List UInt8} (small : port < 2 ^ 31)
    (digits : TakesDigits port more behind middle) (fractional : TakesFraction fraction middle last) :
    str2int d (decimal port ++ behind) = (ParseNumber.exponent last).bind fun (exponent, _) =>
      d.toInt (continuedDouble d port more fraction exponent) := by
  have unsigned : (decimal port ++ behind).head? ≠ some 45 := by
    obtain ⟨first, others, split⟩ := List.exists_cons_of_ne_nil (@decimal_ne_nil port)
    have digit : isDigit first :=
      @isDigit_decimal port _ (by rw [split]; exact List.mem_cons_self ..)
    rw [split]
    intro same
    obtain rfl := Option.some.inj same
    cases digit
  have front := @TakesDigits.number_eq d _ _ _ _ digits small
  have row := @List.foldl_append _ _ (nextDigit d) (d.ofInt port) more fraction
  rw [str2int, parseNumber, if_neg unsigned, if_neg unsigned]
  dsimp only
  rw [front]
  simp only [fractional.fraction_eq, continuedDouble, row]
  cases ParseNumber.exponent last with
  | none => rfl
  | some read =>
    obtain ⟨exponent, rest⟩ := read
    simp only [Option.bind_eq_bind, Option.bind_some]
    cases d.toInt _ with
    | none => rfl
    | some value => rfl

/-- The port is kept if and only if the number with the bytes behind it is the port. -/
theorem keepsPort_iff (small : port < 2 ^ 31) :
    KeepsPort d port behind ↔ str2int d (decimal port ++ behind) = some (.ofNat port) := by
  constructor
  · rintro ⟨more, fraction, exponent, middle, last, digits, fractional, scaled, same⟩
    obtain ⟨rest, read⟩ := scaled.exponent_eq
    rw [str2int_takes small digits fractional, read]
    exact same
  · intro same
    obtain ⟨more, middle, digits⟩ := takesDigits_total port behind
    obtain ⟨fraction, last, fractional⟩ := takesFraction_total middle
    rw [str2int_takes small digits fractional, Option.bind_eq_some_iff] at same
    obtain ⟨⟨exponent, rest⟩, read, int⟩ := same
    exact ⟨more, fraction, exponent, middle, last, digits, fractional, takesExponent_of_some read, int⟩

/-- A byte that does not go on with the number leaves the port. -/
theorem KeepsPort.of_ends (small : port < 2 ^ 31) (ends : behind.head?.any continuesNumber = false) :
    KeepsPort d port behind := by
  obtain ⟨digit, point, letter⟩ := number_ends ends
  have scale : d.add (d.ofInt 0) (d.ofInt 0) = d.ofInt 0 := d.add_ofInt 0 0 (by decide)
  have sign : d.mul (d.ofInt 1) (d.ofInt port) = d.ofInt port := by
    have exact := d.mul_ofInt 1 port (by omega)
    rwa [Nat.one_mul] at exact
  have power : d.mul (d.ofInt port) (d.ofInt 1) = d.ofInt port := by
    have exact := d.mul_ofInt port 1 (by omega)
    rwa [Nat.mul_one] at exact
  refine ⟨[], [], 0, behind, behind, .digits nofun digit nofun, .absent fun both => point both.1,
    .absent letter, ?_⟩
  rw [continuedDouble, List.append_nil, List.foldl_nil, List.length_nil, Function.iterate_zero_apply,
    scale, d.pow_zero, sign, power, d.toInt_ofInt port small]

end Numbers

section Servers

variable {d : DoubleArithmetic} {jdArgs : JdNVargs} {sslServer : FixedBuffer sizeofSslServer}
  {server : JdServer} {host : List UInt8} {port : ℕ}

/-- The bytes of a host are in its token. -/
theorem IsEntry.host_inToken (entry : IsEntry jdArgs host port) : ∀ byte ∈ host, inToken 58 byte := by
  intro byte member
  have nonzero := (FixedBuffer.of_text?_eq_some entry.text).1
  apply inToken_iff.mpr
  constructor
  · rintro rfl
    exact entry.no_colon member
  · rintro rfl
    exact nonzero (List.mem_append_left _ member)

theorem inToken_decimal {byte : UInt8} (member : byte ∈ decimal port) : inToken 58 byte := by
  have bounds := decimal_digits member
  apply inToken_iff.mpr
  constructor
  · rintro rfl
    exact absurd bounds.2 (by decide)
  · rintro rfl
    exact absurd bounds.1 (by decide)

/-- The entry is split with what is left over behind it. -/
theorem IsEntry.serverAddress_eq (entry : IsEntry jdArgs host port) :
    serverAddress d jdArgs sslServer server =
      getIpPort d (host ++ 58 :: (decimal port ++ leftOver sslServer host port)) server := by
  have room := (FixedBuffer.of_text?_eq_some entry.text).2
  have fits : 0 + (host ++ 58 :: decimal port).length ≤ sizeofSslServer := by
    rw [Nat.zero_add]
    exact (Nat.le_of_lt room).trans (by decide)
  have copied : (sslServer.overlay 0 (host ++ 58 :: decimal port)).bytes =
      host ++ 58 :: (decimal port ++ leftOver sslServer host port) := by
    rw [FixedBuffer.overlay_bytes _ _ _ fits, List.take_zero, List.nil_append, Nat.zero_add,
      List.append_assoc, List.cons_append]
    rfl
  rw [serverAddress, entry.text, Option.bind_eq_bind, Option.bind_some, FixedBuffer.store?,
    if_pos fits, Option.bind_eq_bind, Option.bind_some, copied]

/-- There is room for a host. -/
theorem IsEntry.host_stored (entry : IsEntry jdArgs host port)
    (jdserverIp : FixedBuffer sizeofJdserverIp) :
    jdserverIp.store? 0 host = some (jdserverIp.overlay 0 host) := by
  apply if_pos
  rw [Nat.zero_add]
  exact entry.short.trans (by decide)

/-- The host is stored, and the port with what the second token has behind it. -/
theorem IsEntry.getIpPort_token (entry : IsEntry jdArgs host port) {behind text next : List UInt8}
    (found : strtok? 58 behind = some (some (text, next))) :
    getIpPort d (host ++ 58 :: behind) server = (str2int d text).map fun value =>
      (1, ⟨server.jdserverIp.overlay 0 host, value.toUInt32⟩) := by
  rw [getIpPort, strtok?_token entry.some_byte entry.host_inToken (by decide), if_neg (by decide)]
  simp only [Option.bind_eq_bind, Option.bind_some, entry.host_stored, found]
  cases str2int d text with
  | none => rfl
  | some value => rfl

/-- A second token that does not end is read behind the array. -/
theorem IsEntry.getIpPort_endless (entry : IsEntry jdArgs host port) {behind : List UInt8}
    (endless : strtok? 58 behind = none) : getIpPort d (host ++ 58 :: behind) server = none := by
  rw [getIpPort, strtok?_token entry.some_byte entry.host_inToken (by decide), if_neg (by decide)]
  simp only [Option.bind_eq_bind, Option.bind_some, entry.host_stored, endless, Option.bind_none]

/-- A server is found if and only if the port ends somewhere and has a number. -/
theorem IsEntry.serverAddress_eq_some (entry : IsEntry jdArgs host port) {found : JdServer} :
    serverAddress d jdArgs sslServer server = some (1, found) ↔
      (∃ stop ∈ leftOver sslServer host port, ¬ inToken 58 stop) ∧
      ∃ value,
        str2int d (decimal port ++ (leftOver sslServer host port).takeWhile (inToken 58)) =
          some value ∧
        ⟨server.jdserverIp.overlay 0 host, value.toUInt32⟩ = found := by
  rw [entry.serverAddress_eq]
  rcases em (∃ stop ∈ leftOver sslServer host port, ¬ inToken 58 stop) with ended | endless
  · obtain ⟨next, token⟩ :=
      strtok?_append (@decimal_ne_nil port) (fun _ => inToken_decimal) ended
    rw [entry.getIpPort_token token, Option.map_eq_some_iff, and_iff_right ended]
    simp only [Prod.mk.injEq, true_and]
  · have all : ∀ byte ∈ decimal port ++ leftOver sslServer host port, inToken 58 byte := by
      intro byte member
      rcases List.mem_append.mp member with front | later
      · exact inToken_decimal front
      · exact of_not_not fun ends => endless ⟨byte, later, ends⟩
    rw [entry.getIpPort_endless (strtok?_endless all)]
    constructor
    · intro found
      cases found
    · rintro ⟨ended, _⟩
      exact absurd ended endless

/-- The host is the string of `jdserver_ip` if there is a zero behind its place. -/
theorem IsEntry.host_text (entry : IsEntry jdArgs host port)
    (jdserverIp : FixedBuffer sizeofJdserverIp) :
    (jdserverIp.overlay 0 host).text? = some host ↔ jdserverIp.bytes[host.length]? = some 0 := by
  have nonzero := (FixedBuffer.of_text?_eq_some entry.text).1
  apply FixedBuffer.text?_overlay_iff
  · exact fun member => nonzero (List.mem_append_left _ member)
  · exact Nat.lt_succ_of_le entry.short

/-- The server of an entry is found, whatever `jdserver_ip` and `ssl_server` hold, if and only if
the zero behind the host is there, and the bytes behind the port end and keep it. -/
theorem addressStored_iff (entry : IsEntry jdArgs host port) :
    AddressStored d jdArgs sslServer server host port ↔
      server.jdserverIp.bytes[host.length]? = some 0 ∧
      (∃ stop ∈ leftOver sslServer host port, ¬ inToken 58 stop) ∧
      KeepsPort d port ((leftOver sslServer host port).takeWhile (inToken 58)) := by
  rw [keepsPort_iff entry.port_lt, ← entry.host_text]
  constructor
  · rintro ⟨found, same, ip, number⟩
    obtain ⟨ended, value, read, rfl⟩ := entry.serverAddress_eq_some.mp same
    refine ⟨ip, ended, read.trans (congrArg some ?_)⟩
    exact congrArg Int32.ofUInt32 number
  · rintro ⟨ip, ended, read⟩
    exact ⟨_, entry.serverAddress_eq_some.mpr ⟨ended, _, read, rfl⟩, ip, rfl⟩

/-- A host is never found after a longer one. -/
theorem IsEntry.not_addressStored_after {before : JdNVargs} {stale : FixedBuffer sizeofSslServer}
    {longer : List UInt8} {other : ℕ} {found : JdServer} (entry : IsEntry jdArgs host port)
    (first : IsEntry before longer other) (shorter : host.length < longer.length)
    (stored : serverAddress d before stale server = some (1, found)) :
    ¬ AddressStored d jdArgs sslServer found host port := by
  rintro ⟨again, same, ip, _⟩
  obtain ⟨_, _, _, rfl⟩ := first.serverAddress_eq_some.mp stored
  obtain ⟨_, _, _, rfl⟩ := entry.serverAddress_eq_some.mp same
  have zero := (entry.host_text _).mp ip
  have fits : 0 + longer.length ≤ sizeofJdserverIp := by
    rw [Nat.zero_add]
    exact first.short.trans (by decide)
  rw [FixedBuffer.overlay_bytes _ _ _ fits, List.take_zero, List.nil_append,
    List.getElem?_append_left shorter] at zero
  have nonzero := (FixedBuffer.of_text?_eq_some first.text).1
  exact nonzero (List.mem_append_left _ (List.mem_of_getElem? zero))

end Servers

section Examples

/-- Arithmetic without rounding. -/
def exactArithmetic : DoubleArithmetic where
  Double := ℚ
  ofInt number := number
  add first second := first + second
  mul first second := first * second
  pow base exponent := base ^ exponent.num
  toInt number :=
    let whole := if 0 ≤ number then ⌊number⌋ else ⌈number⌉
    if -2 ^ 31 ≤ whole ∧ whole < 2 ^ 31 then some (.ofInt whole) else none
  add_ofInt first second _ := (Nat.cast_add first second).symm
  mul_ofInt first second _ := (Nat.cast_mul first second).symm
  pow_zero base := zpow_zero base
  toInt_ofInt number small := by
    have whole : (⌊((number : ℤ) : ℚ)⌋) = number := Int.floor_intCast _
    have positive : (0 : ℚ) ≤ ((number : ℤ) : ℚ) := Int.cast_nonneg (Int.natCast_nonneg _)
    dsimp only
    rw [if_pos positive, whole, if_pos (by omega)]
    rfl

def localHost : List UInt8 := ascii "10.0.0.1".toList

/-- The arguments with the address `10.0.0.1:80`. -/
def localArgs : JdNVargs :=
  { JdNVargs.zero with
    iplist := ((FixedBuffer.zeros _).overlay 0 (localHost ++ 58 :: decimal 80), .zeros _) }

theorem isEntry_localArgs : IsEntry localArgs localHost 80 where
  text := by decide
  some_byte := by decide
  no_colon := by decide
  short := by decide
  port_lt := by decide

/-- The first address is found. -/
theorem addressStored_first :
    AddressStored exactArithmetic localArgs (.zeros _) ⟨.zeros _, 0⟩ localHost 80 :=
  (addressStored_iff isEntry_localArgs).mpr
    ⟨by decide, ⟨0, by decide, by decide⟩, .of_ends (by decide) (by decide)⟩

/-- `jdserver_ip` after the address `10.0.0.100`. -/
def longerIp : FixedBuffer sizeofJdserverIp :=
  (FixedBuffer.zeros _).overlay 0 (ascii "10.0.0.100".toList)

/-- `10.0.0.1` after `10.0.0.100` is still `10.0.0.100`. -/
theorem addressStored_fails : ¬ ∀ (d : DoubleArithmetic) (jdArgs : JdNVargs)
    (sslServer : FixedBuffer sizeofSslServer) (server : JdServer) (host : List UInt8) (port : ℕ),
    IsEntry jdArgs host port → AddressStored d jdArgs sslServer server host port := by
  intro all
  obtain ⟨found, same, ip, _⟩ :=
    all exactArithmetic localArgs (.zeros _) ⟨longerIp, 80⟩ localHost 80 isEntry_localArgs
  obtain ⟨_, _, _, rfl⟩ := isEntry_localArgs.serverAddress_eq_some.mp same
  exact absurd ((isEntry_localArgs.host_text _).mp ip) (by decide)

end Examples

end ShuangFa
