import ShuangFa.Memory.Reversal
import ShuangFa.Model.JdService

/-! # `my_itoa` in place

`my_itoa` stores the digits as it takes them off, from `str` or behind the minus sign on, and then
exchanges them from both ends. The model keeps the indices that `table` is read at.
-/

namespace ShuangFa

open Memory

/-- The locals of `my_itoa` with the memory behind `str`, and the indices into `table` so far. -/
structure Itoa where
  str : View
  ptr : ℕ
  num : Int32
  indices : List ℤ

namespace Itoa

variable (beforeTable : View) (radix : Int32)

/-- The loop that takes the digits off, for at most so many rounds. -/
def digits : ℕ → Itoa → Option Itoa
  | 0, s => if s.num = 0 then some s else none
  | rounds + 1, s =>
    if s.num = 0 then some s
    else
      let index := (s.num % radix).toInt
      digits rounds {
        str := s.str.store s.ptr [itoaTable beforeTable index]
        ptr := s.ptr + 1
        num := s.num / radix
        indices := s.indices ++ [index] }

/-- What comes in front of the loop. -/
def start (num : Int32) (str : View) : Itoa :=
  if num < 0 then ⟨str.store 0 [45], 1, num * -1, []⟩ else ⟨str, 0, num, []⟩

/-- `my_itoa`: the memory it leaves, and the indices; an `int` has at most 32 digits. -/
def run (num : Int32) (str : View) : Option (View × List ℤ) :=
  if num = 0 then some ((str.store 0 [48]).store 1 [0], [])
  else (digits beforeTable radix 32 (start num str)).map fun s =>
    ((s.str.store s.ptr [0]).reverseLoop (if num < 0 then 1 else 0) (s.ptr - 1), s.indices)

end Itoa

end ShuangFa
