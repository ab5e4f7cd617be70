import ShuangFa.Proofs.AesCore

/-! # The key schedules

The encryption schedule is written word after word: a word is known once the words in front of it
are, and no other word changes. The decryption schedule exchanges the round keys from both ends and
unmixes those that are neither the first nor the last.
-/

namespace ShuangFa

open Memory Cipher Cipher.Rijndael

@[simp] theorem Words.set_apply (words : Words) (index place : ℕ) (value : UInt32) :
    words.set index value place = if place = index then value else words place :=
  Function.update_apply words.word index value place

/-- The words in front of `count` hold the columns of a sequence; the other ones have not changed. -/
structure Expanded (original : Words) (sequence : ℕ → Column) (count : ℕ) (words : Words) : Prop where
  known : ∀ index < count, words.columns index = sequence index
  frame : ∀ index, count ≤ index → words index = original index

namespace Expanded

variable {original words : Words} {sequence : ℕ → Column} {count : ℕ}

theorem start (original : Words) (sequence : ℕ → Column) : Expanded original sequence 0 original :=
  ⟨fun _ none => absurd none (Nat.not_lt_zero _), fun _ _ => rfl⟩

/-- A word behind the known ones becomes known. -/
theorem set (expanded : Expanded original sequence count words) {value : UInt32}
    (next : columnOf value = sequence count) :
    Expanded original sequence (count + 1) (words.set count value) := by
  refine ⟨?_, ?_⟩
  · intro index inside
    rw [Words.columns, Words.set_apply]
    split_ifs with last
    · rw [last, next]
    · exact expanded.known index (by omega)
  · intro index behind
    rw [Words.set_apply, if_neg (by omega)]
    exact expanded.frame index (by omega)

end Expanded

section Encryption

variable {nk : ℕ} {userKey : View} {original words : Words}

/-- The columns of a user key. -/
def userColumns (userKey : View) (index : ℕ) : Column := fun row : Fin 4 => userKey (4 * index + row)

/-- The sequence of columns that a user key of `nk` words expands to. -/
def userSchedule (userKey : View) (nk : ℕ) : ℕ → Column := scheduleWord sbox nk (userColumns userKey)

theorem userSchedule_userKey {index : ℕ} (inside : index < nk) :
    userSchedule userKey nk index = userColumns userKey index := by
  rw [userSchedule, scheduleWord, if_pos (.inl inside)]

/-- The word behind a turn's first one, in terms of its place in the turn. -/
theorem userSchedule_turn (i : ℕ) {place : ℕ} (short : place < nk) :
    userSchedule userKey nk (nk * i + nk + place) =
      addColumn (userSchedule userKey nk (nk * i + place))
        (if place = 0 then
          addColumn (subWord sbox (rotWord (userSchedule userKey nk (nk * i + nk - 1))))
            (roundConstant (i + 1))
        else if 6 < nk ∧ place = 4 then subWord sbox (userSchedule userKey nk (nk * i + nk + place - 1))
        else userSchedule userKey nk (nk * i + nk + place - 1)) := by
  have turn : nk * i + nk + place = nk * (i + 1) + place := by ring
  have rest : (nk * i + nk + place) % nk = place := by
    rw [turn, Nat.mul_add_mod_self_left, Nat.mod_eq_of_lt short]
  have round : (nk * i + nk + place) / nk = i + 1 := by
    rw [turn, Nat.mul_add_div (by omega), Nat.div_eq_of_lt short, Nat.add_zero]
  rw [userSchedule, scheduleWord, if_neg (by omega), scheduleStep, rest, round,
    show nk * i + nk + place - nk = nk * i + place by omega]
  split_ifs with first
  · rw [first, Nat.add_zero, Nat.add_zero]
  · rfl
  · rfl

theorem loadUserKey_expanded (userKey : View) (original : Words) {count : ℕ} (inside : count ≤ nk) :
    Expanded original (userSchedule userKey nk) count (loadUserKey userKey count original) := by
  induction count with
  | zero => exact .start original _
  | succ count ih =>
    apply (ih (by omega)).set
    rw [columnOf_getU32, userSchedule_userKey (by omega)]
    rfl

/-- A run of words without a substitution. -/
theorem expandChain_expanded (i : ℕ) {place count : ℕ} (after : 0 < place)
    (plain : ∀ other, place ≤ other → other < place + count → other < nk ∧ ¬(6 < nk ∧ other = 4))
    (expanded : Expanded original (userSchedule userKey nk) (nk * i + nk + place) words) :
    Expanded original (userSchedule userKey nk) (nk * i + nk + (place + count))
      (expandChain nk (nk * i) place count words) := by
  induction count generalizing place words with
  | zero => exact expanded
  | succ count ih =>
    obtain ⟨short, unsubstituted⟩ := plain place (Nat.le_refl _) (by omega)
    rw [expandChain, show place + (count + 1) = place + 1 + count by ring]
    apply ih (Nat.succ_pos place)
    · intro other behind inside
      exact plain other (by omega) (by omega)
    · apply expanded.set
      rw [columnOf_xor, userSchedule_turn i short, if_neg (by omega), if_neg unsubstituted]
      congr 1
      · exact expanded.known _ (by omega)
      · exact expanded.known _ (by omega)

theorem rcon_eq {i : ℕ} (inside : i < 10) : columnOf (.ofNat (rcon.getD i 0)) = roundConstant (i + 1) := by
  revert i
  decide

/-- The masked words of the loops, with the bytes in their order. -/
theorem columnOf_subWord (word : UInt32) :
    columnOf (maskedWord te4 (word >>> 24) ((word >>> 16) &&& 0xff) ((word >>> 8) &&& 0xff)
      (word &&& 0xff)) = subWord sbox (columnOf word) := by
  obtain ⟨top, upper, lower, bottom⟩ := columnOf_index word
  obtain ⟨column, shown⟩ : ∃ column, columnOf word = column := ⟨_, rfl⟩
  rw [top, upper, lower, bottom, shown, te4_isRepeated.columnOf_maskedWord]
  funext row
  fin_cases row <;> rfl

/-- The masked words with the bytes rotated. -/
theorem columnOf_subRotWord (word : UInt32) :
    columnOf (maskedWord te4 ((word >>> 16) &&& 0xff) ((word >>> 8) &&& 0xff) (word &&& 0xff)
      (word >>> 24)) = subWord sbox (rotWord (columnOf word)) := by
  obtain ⟨top, upper, lower, bottom⟩ := columnOf_index word
  obtain ⟨column, shown⟩ : ∃ column, columnOf word = column := ⟨_, rfl⟩
  rw [top, upper, lower, bottom, shown, te4_isRepeated.columnOf_maskedWord]
  funext row
  fin_cases row <;> rfl

/-- The head of a turn makes four words known. -/
theorem expandHead_expanded {i : ℕ} (constant : i < 10) (wide : 4 ≤ nk)
    (expanded : Expanded original (userSchedule userKey nk) (nk * i + nk) words) :
    Expanded original (userSchedule userKey nk) (nk * i + nk + 4) (expandHead nk (nk * i) i words) := by
  rw [expandHead, show nk * i + nk + 4 = nk * i + nk + (1 + 3) by ring]
  apply expandChain_expanded i (by decide)
  · intro other behind inside
    omega
  · apply expanded.set
    have first := @userSchedule_turn nk userKey i 0 (by omega)
    rw [Nat.add_zero, Nat.add_zero, if_pos rfl] at first
    have previous : columnOf (words (nk * i + nk - 1)) = _ := expanded.known (nk * i + nk - 1) (by omega)
    have here : columnOf (words (nk * i)) = _ := expanded.known (nk * i) (by omega)
    rw [columnOf_xor, columnOf_xor, columnOf_subRotWord, rcon_eq constant, previous, here, first]
    funext row
    exact UInt8.xor_assoc _ _ _

/-- The rest of a turn makes the other words of the turn known. -/
theorem expandRest_expanded {i : ℕ} (size : nk = 4 ∨ nk = 6 ∨ nk = 8)
    (expanded : Expanded original (userSchedule userKey nk) (nk * i + nk + 4) words) :
    Expanded original (userSchedule userKey nk) (nk * i + nk + nk) (expandRest nk (nk * i) words) := by
  rcases size with rfl | rfl | rfl
  · exact expanded
  · exact @expandChain_expanded 6 userKey original words i 4 2 (by decide) (by omega) expanded
  · refine @expandChain_expanded 8 userKey original _ i 5 3 (by decide) (by omega) ?_
    refine @Expanded.set original words _ (8 * i + 8 + 4) expanded _ ?_
    have previous : columnOf (words (8 * i + 11)) = _ := expanded.known (8 * i + 11) (by omega)
    have here : columnOf (words (8 * i + 4)) = _ := expanded.known (8 * i + 4) (by omega)
    have next := @userSchedule_turn 8 userKey i 4 (by decide)
    rw [if_neg (by decide), if_pos (by decide)] at next
    rw [columnOf_xor, columnOf_subWord, previous, here, next,
      show 8 * i + 8 + 4 - 1 = 8 * i + 11 by omega]

/-- The loop returns with the words of the head of its last turn. -/
theorem expandLoop_expanded {limit turns i : ℕ} (size : nk = 4 ∨ nk = 6 ∨ nk = 8)
    (constants : limit ≤ 10) (turn : i + turns = limit) (more : 0 < turns)
    (expanded : Expanded original (userSchedule userKey nk) (nk * i + nk) words) :
    Expanded original (userSchedule userKey nk) (nk * limit + 4)
      (expandLoop nk limit turns i (nk * i) words) := by
  induction turns generalizing i words with
  | zero => exact absurd more (Nat.lt_irrefl 0)
  | succ turns ih =>
    have headed := expandHead_expanded (by omega) (by omega) expanded
    rw [expandLoop]
    split_ifs with last
    · rwa [← last, Nat.mul_succ]
    · have rested := expandRest_expanded size headed
      rw [← Nat.mul_succ] at rested ⊢
      exact ih (by omega) (by omega) rested

/-- `AES_set_encrypt_key` expands a user key of four, six or eight words. -/
theorem aesSetEncryptKey_expanded (size : nk = 4 ∨ nk = 6 ∨ nk = 8) (userKey : View) (key : AesKey) :
    ∃ words, aesSetEncryptKey userKey (32 * nk) key = (0, ⟨words, rounds nk⟩) ∧
      Expanded key.rdKey (userSchedule userKey nk) (4 * (rounds nk + 1)) words := by
  have loaded := @loadUserKey_expanded nk userKey key.rdKey nk (Nat.le_refl nk)
  rcases size with rfl | rfl | rfl
  · exact ⟨_, rfl, @expandLoop_expanded 4 userKey _ _ 10 10 0 (by decide) (by decide) rfl (by decide)
      loaded⟩
  · exact ⟨_, rfl, @expandLoop_expanded 6 userKey _ _ 8 8 0 (by decide) (by decide) rfl (by decide)
      loaded⟩
  · exact ⟨_, rfl, @expandLoop_expanded 8 userKey _ _ 7 7 0 (by decide) (by decide) rfl (by decide)
      loaded⟩

end Encryption

section Decryption

variable {words : Words}

theorem swap_apply (words : Words) (i j place : ℕ) :
    words.swap i j place =
      if place = j then words i else if place = i then words j else words place := by
  rw [Words.swap, Words.set_apply, Words.set_apply]

theorem swap_other {i j place : ℕ} (first : place ≠ i) (last : place ≠ j) :
    words.swap i j place = words place := by
  rw [swap_apply, if_neg last, if_neg first]

/-- A turn exchanges two round keys word by word. -/
theorem swapKey_apply (words : Words) (first last key : ℕ) {part : ℕ} (inside : part < 4) :
    ((((words.swap (4 * first) (4 * last)).swap (4 * first + 1) (4 * last + 1)).swap (4 * first + 2)
      (4 * last + 2)).swap (4 * first + 3) (4 * last + 3)) (4 * key + part) =
        if key = last then words (4 * first + part) else if key = first then words (4 * last + part)
        else words (4 * key + part) := by
  have same (other : ℕ) : 4 * key + part = 4 * other + part ↔ key = other := by omega
  obtain rfl | rfl | rfl | rfl : part = 0 ∨ part = 1 ∨ part = 2 ∨ part = 3 := by omega
  · rw [swap_other (by omega) (by omega), swap_other (by omega) (by omega),
      swap_other (by omega) (by omega)]
    exact (swap_apply ..).trans (by simp only [← same, Nat.add_zero])
  · rw [swap_other (by omega) (by omega), swap_other (by omega) (by omega), swap_apply,
      swap_other (by omega) (by omega), swap_other (by omega) (by omega),
      swap_other (by omega) (by omega)]
    simp only [same]
  · rw [swap_other (by omega) (by omega), swap_apply]
    simp only [same]
    simp (disch := omega) only [swap_other]
  · rw [swap_apply]
    simp only [same]
    simp (disch := omega) only [swap_other]

/-- The round keys between two places come from the other side, each in its own order. -/
theorem swapRoundKeys_eq (first last : ℕ) (words : Words) (key : ℕ) {part : ℕ} (inside : part < 4) :
    swapRoundKeys (4 * first) (4 * last) words (4 * key + part) =
      if first ≤ key ∧ key ≤ last then words (4 * (first + last - key) + part)
      else words (4 * key + part) := by
  obtain ⟨distance, apart⟩ : ∃ distance, last - first = distance := ⟨_, rfl⟩
  induction distance using Nat.strongRecOn generalizing first last words with
  | ind distance ih =>
    rw [swapRoundKeys]
    split_ifs with more around around
    · rw [show 4 * first + 4 = 4 * (first + 1) by ring, show 4 * last - 4 = 4 * (last - 1) by omega,
        ih (last - 1 - (first + 1)) (by omega) _ _ _ rfl]
      split_ifs with inner
      · rw [swapKey_apply _ _ _ _ inside, if_neg (by omega), if_neg (by omega),
          show first + 1 + (last - 1) = first + last by omega]
      · rw [swapKey_apply _ _ _ _ inside]
        split_ifs with at_last at_first
        · rw [at_last, Nat.add_sub_cancel]
        · rw [at_first, Nat.add_sub_cancel_left]
        · omega
    · rw [show 4 * first + 4 = 4 * (first + 1) by ring, show 4 * last - 4 = 4 * (last - 1) by omega,
        ih (last - 1 - (first + 1)) (by omega) _ _ _ rfl, if_neg (by omega),
        swapKey_apply _ _ _ _ inside, if_neg (by omega), if_neg (by omega)]
    · rw [show first + last - key = key by omega]
    · rfl

theorem unmix_apply (words : Words) (place index : ℕ) :
    words.unmix place index = if index = place then unmixWord (words index) else words index := by
  rw [Words.unmix, Words.set_apply]
  split_ifs with same
  · rw [same]
  · rfl

/-- The round keys behind the first one are unmixed, word by word. -/
theorem unmixRoundKeys_eq (turns rk : ℕ) (words : Words) (index : ℕ) :
    unmixRoundKeys turns rk words index =
      if rk + 4 ≤ index ∧ index < rk + 4 + 4 * turns then unmixWord (words index)
      else words index := by
  induction turns generalizing rk words with
  | zero => rw [if_neg (by omega)]; rfl
  | succ turns ih =>
    rw [unmixRoundKeys, ih]
    simp only [unmix_apply]
    split_ifs <;> first | omega | rfl

/-- The inverse mix of a word of a round key: the substitutions of the tables cancel. -/
theorem columnOf_unmixWord (word : UInt32) : columnOf (unmixWord word) = mixColumn.symm (columnOf word) := by
  have masked (byte : UInt8) : tableEntry te4 byte.toUInt32 &&& 0xff = (sbox byte).toUInt32 := by
    rw [(columnOf_index _).2.2.2, te4_isRepeated]
  have first (byte : UInt8) : columnOf (tableEntry td0 byte.toUInt32) = _ := tdTables_isMixTable 0 byte
  have second (byte : UInt8) : columnOf (tableEntry td1 byte.toUInt32) = _ := tdTables_isMixTable 1 byte
  have third (byte : UInt8) : columnOf (tableEntry td2 byte.toUInt32) = _ := tdTables_isMixTable 2 byte
  have fourth (byte : UInt8) : columnOf (tableEntry td3 byte.toUInt32) = _ := tdTables_isMixTable 3 byte
  obtain ⟨top, upper, lower, bottom⟩ := columnOf_index word
  obtain ⟨column, shown⟩ : ∃ column, columnOf word = column := ⟨_, rfl⟩
  rw [unmixWord, top, upper, lower, bottom, masked, masked, masked, masked, columnOf_xor, columnOf_xor,
    columnOf_xor, shown, first, second, third, fourth]
  simp only [Equiv.symm_apply_apply]
  rfl

end Decryption

end ShuangFa
