import ShuangFa.Proofs.AesTables

/-! # The block cipher runs the rounds of Rijndael

A word of a full round is a mixed column, with the table entries as its summands; a word of the last
round is a substituted column. The loop is a fold over the full rounds. The key schedule is written
word after word, so that each word is known once the words in front of it are; the decryption
schedule is the one in reverse order, unmixed inside.
-/

namespace ShuangFa

open Memory Cipher Cipher.Rijndael

section Rounds

/-- The bytes of the four words. -/
def AesState.state (s : AesState) : State :=
  ![columnOf s.s0, columnOf s.s1, columnOf s.s2, columnOf s.s3]

section

variable (s : AesState)

@[simp] theorem AesState.state_zero : s.state 0 = columnOf s.s0 := rfl

@[simp] theorem AesState.state_one : s.state 1 = columnOf s.s1 := rfl

@[simp] theorem AesState.state_two : s.state 2 = columnOf s.s2 := rfl

@[simp] theorem AesState.state_three : s.state 3 = columnOf s.s3 := rfl

theorem AesState.state_eq {s : AesState} {state : State} (first : columnOf s.s0 = state 0)
    (second : columnOf s.s1 = state 1) (third : columnOf s.s2 = state 2)
    (fourth : columnOf s.s3 = state 3) : s.state = state := by
  funext column
  fin_cases column
  · exact first
  · exact second
  · exact third
  · exact fourth

end

/-- The bytes of a block, column by column. -/
def blockState (block : AesBlock) : State := fun column row =>
  block.bytes.getD (4 * column + row) 0

/-- The columns of a memory of words. -/
def Words.columns (words : Words) (index : ℕ) : Column := columnOf (words index)

/-- The round key at `rk`. -/
def Words.keyAt (words : Words) (rk : ℕ) : State := fun column => words.columns (rk + column)

variable {tables : Fin 4 → List ℕ} {table : List ℕ} {factors : Fin 4 → ℕ} {substitute : UInt8 → UInt8}

variable {word : UInt32 → UInt32 → UInt32 → UInt32 → UInt32 → UInt32} {make : Column → Column}

/-- A word makes its column out of one row of each of its arguments. -/
def MakesColumn (word : UInt32 → UInt32 → UInt32 → UInt32 → UInt32 → UInt32)
    (make : Column → Column) : Prop :=
  ∀ first second third fourth rk, columnOf (word first second third fourth rk) =
    addColumn (columnOf rk)
      (make fun row => columnOf ((![first, second, third, fourth] : Fin 4 → UInt32) row) row)

theorem makesColumn_iff : MakesColumn word make ↔
    ∀ first second third fourth rk, columnOf (word first second third fourth rk) =
      addColumn (columnOf rk)
        (make ![columnOf first 0, columnOf second 1, columnOf third 2, columnOf fourth 3]) := by
  have rows (column : UInt32 → Column) (first second third fourth : UInt32) :
      (fun row => column ((![first, second, third, fourth] : Fin 4 → UInt32) row) row) =
        ![column first 0, column second 1, column third 2, column fourth 3] := by
    funext row
    fin_cases row <;> rfl
  simp only [MakesColumn, rows columnOf]

/-- The summands of a mixed column. -/
theorem combine_sum (factors : Fin 4 → ℕ) (substitute : UInt8 → UInt8)
    (first second third fourth : UInt8) :
    addColumn (addColumn (addColumn (fun row => times (factors (0 - row)) (substitute first))
        fun row => times (factors (1 - row)) (substitute second))
        fun row => times (factors (2 - row)) (substitute third))
        (fun row => times (factors (3 - row)) (substitute fourth)) =
      combine factors fun row => substitute ((![first, second, third, fourth] : Column) row) := rfl

/-- A word of a full round is a mixed column. -/
theorem roundWord_makesColumn (mixes : ∀ place, IsMixTable (tables place) factors substitute place) :
    MakesColumn (roundWord (tables 0) (tables 1) (tables 2) (tables 3))
      fun column => combine factors fun row => substitute (column row) := by
  apply makesColumn_iff.mpr
  intro first second third fourth rk
  rw [roundWord, (columnOf_index first).1, (columnOf_index second).2.1, (columnOf_index third).2.2.1,
    (columnOf_index fourth).2.2.2, columnOf_xor, columnOf_xor, columnOf_xor, columnOf_xor, mixes 0,
    mixes 1, mixes 2, mixes 3, combine_sum]
  funext row
  exact UInt8.xor_comm _ _

/-- A word of the last round is a substituted column. -/
theorem lastWord_makesColumn (repeats : IsRepeated table substitute) :
    MakesColumn (lastWord table) fun column row => substitute (column row) := by
  apply makesColumn_iff.mpr
  intro first second third fourth rk
  have masked := repeats.columnOf_maskedWord (columnOf first 0) (columnOf second 1) (columnOf third 2)
    (columnOf fourth 3)
  rw [lastWord, (columnOf_index first).1, (columnOf_index second).2.1, (columnOf_index third).2.2.1,
    (columnOf_index fourth).2.2.2, columnOf_xor, masked]
  funext row
  exact UInt8.xor_comm _ _

/-- The words of an encryption round take the columns of the shifted state. -/
theorem MakesColumn.encryptWords (makes : MakesColumn word make) (rdKey : Words) (s : AesState)
    (rk : ℕ) : (s.encryptWords word rdKey rk).state =
      addKey (rdKey.keyAt rk) fun column => make (shiftRows s.state column) := by
  have shifted (column : Fin 4) : shiftRows s.state column =
      ![s.state column 0, s.state (column + 1) 1, s.state (column + 2) 2, s.state (column + 3) 3] := by
    funext row
    fin_cases row
    · exact congrArg (s.state · 0) (add_zero column)
    · rfl
    · rfl
    · rfl
  rw [makesColumn_iff] at makes
  apply AesState.state_eq <;> rw [addKey, shifted] <;>
    simp only [Fin.isValue, Fin.reduceAdd, zero_add, AesState.state_zero, AesState.state_one,
      AesState.state_two, AesState.state_three]
  · exact makes s.s0 s.s1 s.s2 s.s3 (rdKey rk)
  · exact makes s.s1 s.s2 s.s3 s.s0 (rdKey (rk + 1))
  · exact makes s.s2 s.s3 s.s0 s.s1 (rdKey (rk + 2))
  · exact makes s.s3 s.s0 s.s1 s.s2 (rdKey (rk + 3))

/-- The words of a decryption round take the columns of the state shifted back. -/
theorem MakesColumn.decryptWords (makes : MakesColumn word make) (rdKey : Words) (s : AesState)
    (rk : ℕ) : (s.decryptWords word rdKey rk).state =
      addKey (rdKey.keyAt rk) fun column => make (shiftRows.symm s.state column) := by
  have shifted (column : Fin 4) : shiftRows.symm s.state column =
      ![s.state column 0, s.state (column - 1) 1, s.state (column - 2) 2, s.state (column - 3) 3] := by
    funext row
    fin_cases row
    · exact congrArg (s.state · 0) (sub_zero column)
    · rfl
    · rfl
    · rfl
  rw [makesColumn_iff] at makes
  apply AesState.state_eq <;> rw [addKey, shifted] <;>
    simp only [Fin.isValue, Fin.reduceSub, sub_self, AesState.state_zero, AesState.state_one,
      AesState.state_two, AesState.state_three]
  · exact makes s.s0 s.s3 s.s2 s.s1 (rdKey rk)
  · exact makes s.s1 s.s0 s.s3 s.s2 (rdKey (rk + 1))
  · exact makes s.s2 s.s1 s.s0 s.s3 (rdKey (rk + 2))
  · exact makes s.s3 s.s2 s.s1 s.s0 (rdKey (rk + 3))

/-- What the four kinds of rounds do to a state. -/
theorem encryptWords_round (rdKey : Words) (s : AesState) (rk : ℕ) :
    (s.encryptWords (roundWord te0 te1 te2 te3) rdKey rk).state =
      (layers sbox).round addKey s.state (rdKey.keyAt rk) :=
  MakesColumn.encryptWords (roundWord_makesColumn teTables_isMixTable) rdKey s rk

theorem encryptWords_lastRound (rdKey : Words) (s : AesState) (rk : ℕ) :
    (s.encryptWords (lastWord te4) rdKey rk).state =
      (layers sbox).lastRound addKey s.state (rdKey.keyAt rk) :=
  MakesColumn.encryptWords (lastWord_makesColumn te4_isRepeated) rdKey s rk

theorem decryptWords_round (rdKey : Words) (s : AesState) (rk : ℕ) :
    (s.decryptWords (roundWord td0 td1 td2 td3) rdKey rk).state =
      (layers sbox).inverse.round addKey s.state (rdKey.keyAt rk) :=
  MakesColumn.decryptWords (roundWord_makesColumn tdTables_isMixTable) rdKey s rk

theorem decryptWords_lastRound (rdKey : Words) (s : AesState) (rk : ℕ) :
    (s.decryptWords (lastWord td4) rdKey rk).state =
      (layers sbox).inverse.lastRound addKey s.state (rdKey.keyAt rk) :=
  MakesColumn.decryptWords (lastWord_makesColumn td4_isRepeated) rdKey s rk

end Rounds

section Blocks

theorem load_state (input : AesBlock) (rdKey : Words) :
    (AesState.load input rdKey).state = addKey (rdKey.keyAt 0) (blockState input) := by
  have mixed (column : Fin 4) (rk : UInt32) :
      columnOf (getU32 (.ofList input.bytes) (4 * column) ^^^ rk) =
        addColumn (columnOf rk) (blockState input column) := by
    rw [columnOf_xor, columnOf_getU32]
    funext row
    exact UInt8.xor_comm _ _
  apply AesState.state_eq
  · exact mixed 0 (rdKey 0)
  · exact mixed 1 (rdKey 1)
  · exact mixed 2 (rdKey 2)
  · exact mixed 3 (rdKey 3)

theorem store_state (s : AesState) : blockState s.store = s.state := by
  funext column row
  fin_cases column <;> fin_cases row <;> rfl

/-- A block is determined by its state. -/
theorem blockState_injective : Function.Injective blockState := by
  intro first second same
  have left := first.size_eq
  have right := second.size_eq
  apply FixedBuffer.ext
  apply List.ext_getElem (left.trans right.symm)
  intro index _ _
  have byte := congrFun (congrFun same (.ofNat 4 (index / 4))) (.ofNat 4 (index % 4))
  have place : 4 * ((Fin.ofNat 4 (index / 4)).val) + (Fin.ofNat 4 (index % 4)).val = index := by
    simp only [Fin.val_ofNat]
    omega
  rw [blockState, blockState, place, List.getD_eq_getElem, List.getD_eq_getElem] at byte
  exact byte

/-- The loop is a fold over the full rounds, and leaves `rk` at the key of the last one. -/
theorem roundLoop_eq (round : AesState → ℕ → AesState) (r rk : ℕ) (s : AesState) :
    AesState.roundLoop round (r + 1) rk s =
      ((List.range (2 * r + 1)).foldl (fun s i => round s (rk + 4 * (i + 1))) s, rk + 8 * (r + 1)) := by
  induction r generalizing rk s with
  | zero => rfl
  | succ r ih =>
    rw [AesState.roundLoop, if_neg (Nat.succ_ne_zero r), ih, show 2 * (r + 1) + 1 = 2 * r + 1 + 1 + 1 by rfl,
      List.range_succ_eq_map (n := 2 * r + 1 + 1), List.range_succ_eq_map (n := 2 * r + 1)]
    simp only [List.map_cons, List.map_map, List.foldl_cons, List.foldl_map, Function.comp_apply,
      Nat.zero_add, Nat.mul_one]
    congr 1
    · congr 1
      funext s i
      congr 1
      simp only [Nat.succ_eq_add_one]
      ring
    · ring

/-- Rounds of words are rounds of states. -/
theorem foldl_round_state {round : AesState → ℕ → AesState} {step : State → State → State}
    {rdKey : Words} (steps : ∀ s rk, (round s rk).state = step s.state (rdKey.keyAt rk))
    (keys : List ℕ) (s : AesState) :
    (keys.foldl round s).state = (keys.map rdKey.keyAt).foldl step s.state := by
  induction keys generalizing s with
  | nil => rfl
  | cons rk keys ih => rw [List.foldl_cons, ih, steps, List.map_cons, List.foldl_cons]

end Blocks

end ShuangFa
