import Mathlib.Data.List.TakeWhile
import ShuangFa.Memory.Access

/-! # Tokens of a string in memory

`strtok` passes the delimiters in front of a token and stops at the first delimiter or zero behind it.
The memory from a pointer on is a list, and a call that gets to its end is undefined. The next call
starts behind a delimiter, but a zero stays where it is.
-/

namespace Coding

/-- A byte of a token. -/
def inToken (delimiter byte : UInt8) : Bool := byte ≠ delimiter ∧ byte ≠ 0

/-- `strtok` with one delimiter: `NULL`, or the token and the memory that the next call starts at. -/
def strtok? (delimiter : UInt8) (memory : List UInt8) : Option (Option (List UInt8 × List UInt8)) :=
  match memory.dropWhile (· = delimiter) with
  | [] => none
  | first :: rest =>
    if first = 0 then some none
    else match rest.dropWhile (inToken delimiter) with
      | [] => none
      | stop :: behind => some (some (first :: rest.takeWhile (inToken delimiter),
          if stop = 0 then 0 :: behind else behind))

variable {delimiter stop : UInt8} {token memory behind : List UInt8}

theorem inToken_iff {byte : UInt8} : inToken delimiter byte ↔ byte ≠ delimiter ∧ byte ≠ 0 :=
  decide_eq_true_iff

/-- A byte of a token is no delimiter in front of it. -/
theorem dropWhile_delimiter {first : UInt8} (inside : inToken delimiter first)
    (rest : List UInt8) : (first :: rest).dropWhile (· = delimiter) = first :: rest := by
  apply List.dropWhile_cons_of_neg
  rw [decide_eq_true_iff]
  exact (inToken_iff.mp inside).1

/-- A token with a byte behind it that ends it. -/
theorem strtok?_token (some_byte : token ≠ []) (inside : ∀ byte ∈ token, inToken delimiter byte)
    (ends : ¬ inToken delimiter stop) :
    strtok? delimiter (token ++ stop :: behind) =
      some (some (token, if stop = 0 then 0 :: behind else behind)) := by
  obtain ⟨first, rest, rfl⟩ := List.exists_cons_of_ne_nil some_byte
  obtain ⟨head, later⟩ := List.forall_mem_cons.mp inside
  rw [strtok?, List.cons_append, dropWhile_delimiter head]
  dsimp only
  rw [if_neg (inToken_iff.mp head).2, List.dropWhile_append_of_pos later,
    List.dropWhile_cons_of_neg ends, List.takeWhile_append_of_pos later,
    List.takeWhile_cons_of_neg ends, List.append_nil]

/-- A token that nothing ends. -/
theorem strtok?_endless (inside : ∀ byte ∈ memory, inToken delimiter byte) :
    strtok? delimiter memory = none := by
  cases memory with
  | nil => rfl
  | cons first rest =>
    obtain ⟨head, later⟩ := List.forall_mem_cons.mp inside
    rw [strtok?, dropWhile_delimiter head]
    dsimp only
    rw [if_neg (inToken_iff.mp head).2, List.dropWhile_eq_nil_iff.mpr later]

/-- A token goes on in what lies behind it, up to the first byte there that ends it. -/
theorem strtok?_append (some_byte : token ≠ []) (inside : ∀ byte ∈ token, inToken delimiter byte)
    (ended : ∃ stop ∈ behind, ¬ inToken delimiter stop) :
    ∃ next, strtok? delimiter (token ++ behind) =
      some (some (token ++ behind.takeWhile (inToken delimiter), next)) := by
  cases found : behind.dropWhile (inToken delimiter) with
  | nil =>
    obtain ⟨stop, member, ends⟩ := ended
    exact absurd (List.dropWhile_eq_nil_iff.mp found stop member) ends
  | cons stop rest =>
    have split : token ++ behind =
        token ++ behind.takeWhile (inToken delimiter) ++ stop :: rest := by
      rw [List.append_assoc, ← found, List.takeWhile_append_dropWhile]
    have ends : ¬ inToken delimiter stop := by
      have last := List.head?_dropWhile_not (inToken delimiter) behind
      rw [found] at last
      exact Bool.not_eq_true _ ▸ last
    have longer : ∀ byte ∈ token ++ behind.takeWhile (inToken delimiter), inToken delimiter byte := by
      intro byte member
      rcases List.mem_append.mp member with front | later
      · exact inside byte front
      · exact List.mem_takeWhile_imp later
    rw [split]
    exact ⟨_, strtok?_token (List.append_ne_nil_of_left_ne_nil some_byte _) longer ends⟩

end Coding
