import ShuangFa.Memory.Access

/-! # URL coding

`URLEncode` writes a string for a URL, and `httpdecode` reads what the server sends, in place. `char`
is unsigned.
-/

namespace ShuangFa

open Memory

/-- The characters that `URLEncode` writes as they are, a space apart. -/
def urlKeeps (ch : UInt8) : Bool :=
  (65 ≤ ch && ch < 90) || (97 ≤ ch && ch < 122) || (48 ≤ ch && ch < 57) ||
    ch = 46 || ch = 45 || ch = 95 || ch = 42

/-- A digit of `%02X`. -/
def hexDigit (value : UInt8) : UInt8 := if value < 10 then 48 + value else 55 + value

/-- `%%%02X`. -/
def urlEscape (ch : UInt8) : List UInt8 := [37, hexDigit (ch / 16), hexDigit (ch % 16)]

/-- The loop of `URLEncode` and what follows it; `count` characters are left. The result is what
`URLEncode` returns, and the array. -/
def urlEncodeLoop {n : ℕ} (str : List UInt8) (resultSize : ℤ) :
    ℕ → ℕ → ℕ → FixedBuffer n → Option (ℕ × FixedBuffer n)
  | 0, _, j, result => (result.store? j [0]).map (j, ·)
  | count + 1, i, j, result =>
    if (j : ℤ) < resultSize then
      str[i]?.bind fun ch =>
        if urlKeeps ch then
          (result.store? j [ch]).bind (urlEncodeLoop str resultSize count (i + 1) (j + 1))
        else if ch = 32 then
          (result.store? j [43]).bind (urlEncodeLoop str resultSize count (i + 1) (j + 1))
        else if (j : ℤ) + 3 < resultSize then
          (result.store? j (terminated (urlEscape ch))).bind
            (urlEncodeLoop str resultSize count (i + 1) (j + 3))
        else some (0, result)
    else (result.store? j [0]).map (j, ·)

/-- `URLEncode`; `str` and `result` are `none` where the pointer is `NULL`. -/
def urlEncode {n : ℕ} (str : Option (List UInt8)) (strSize : ℤ) (result : Option (FixedBuffer n))
    (resultSize : ℤ) : Option (ℕ × Option (FixedBuffer n)) :=
  match str, result with
  | some str, some result =>
    if strSize ≤ 0 ∨ resultSize ≤ 0 then some (0, result)
    else (urlEncodeLoop str resultSize strSize.toNat 0 0 result).map fun encoded =>
      (encoded.1, some encoded.2)
  | _, result => some (0, result)

/-- The locals of `httpdecode`, and the array behind its first pointer. -/
structure HttpDecode (n : ℕ) where
  text : FixedBuffer n
  p : ℕ
  i : ℕ
  isLine : Bool

/-- What `httpdecode` takes a character behind a percent sign for. -/
def httpDigit (ch : UInt8) : UInt8 := if 65 ≤ ch then (ch &&& 0xDF) - 65 + 10 else ch - 48

namespace HttpDecode

variable {n : ℕ} (s : HttpDecode n)

/-- The loop's body before the blank line is found. -/
def skip (ch : UInt8) : Option (HttpDecode n) :=
  if ch = 10 then
    (s.text.load? (s.p + s.i + 2)).map fun ahead =>
      if ahead = 10 then { s with i := s.i + 2, isLine := true } else { s with i := s.i + 1 }
  else some { s with i := s.i + 1 }

/-- The loop's body behind the blank line. -/
def convert (ch : UInt8) : Option (HttpDecode n) :=
  (s.text.store? s.p [ch]).bind fun text =>
    if ch = 37 then
      (text.load? (s.p + s.i + 1)).bind fun upper =>
      (text.load? (s.p + s.i + 2)).bind fun lower =>
      (text.store? s.p [httpDigit upper * 16 + httpDigit lower]).map fun text =>
        { s with text := text, p := s.p + 1, i := s.i + 2 }
    else
      (text.load? (s.p + s.i)).bind fun other =>
      (if other = 43 then text.store? s.p [32] else some text).map fun text =>
        { s with text := text, p := s.p + 1 }

end HttpDecode

/-- The loop of `httpdecode`. Every round reads a byte that lies behind the last one, so as many rounds
as the array has bytes and one more are enough. -/
def httpdecodeLoop {n : ℕ} : ℕ → HttpDecode n → Option (HttpDecode n)
  | 0, _ => none
  | rounds + 1, s =>
    (s.text.load? (s.p + s.i)).bind fun ch =>
      if ch = 0 then some s
      else (if s.isLine then s.convert ch else s.skip ch).bind (httpdecodeLoop rounds)

/-- `httpdecode`: the array it leaves. -/
def httpdecode {n : ℕ} (text : FixedBuffer n) (isFind : ℤ) : Option (FixedBuffer n) :=
  (httpdecodeLoop (n + 1) ⟨text, 0, 0, decide (isFind = 0)⟩).bind fun s => s.text.store? s.p [0]

end ShuangFa
