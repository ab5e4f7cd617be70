import ShuangFa.Cipher.Chaining
import ShuangFa.Proofs.SecEngine

/-! # What an encryption writes

CBC writes the chain of the padded blocks. The RSA loop writes one block of the modulus for each
piece of the text; a piece that is refused ends it, and only the last full piece is tried once more.
An encryption that succeeds has therefore written all its pieces in order.
-/

namespace ShuangFa

open Memory Cipher

theorem AesBlock.xor_cancel (first second : AesBlock) : (first.xor second).xor second = first := by
  apply FixedBuffer.ext
  have sizes : first.bytes.length = second.bytes.length := first.size_eq.trans second.size_eq.symm
  change List.zipWith _ (List.zipWith _ first.bytes second.bytes) second.bytes = first.bytes
  generalize first.bytes = left at sizes ⊢
  generalize second.bytes = right at sizes ⊢
  induction left generalizing right with
  | nil => rfl
  | cons head rest ih =>
    cases right with
    | nil => cases sizes
    | cons other others =>
      simp only [List.zipWith_cons_cons, UInt8.xor_assoc, UInt8.xor_self, UInt8.xor_zero]
      rw [ih others (Nat.succ.inj sizes)]

section Cbc

/-- The blocks behind a pointer. -/
def viewBlocks (memory : View) (blocks : ℕ) : List AesBlock :=
  (List.range blocks).map fun index => .ofView memory (16 * index) 16

theorem viewBlocks_succ (memory : View) (blocks : ℕ) : viewBlocks memory (blocks + 1) =
    .ofView memory 0 16 :: viewBlocks (memory.shift 16) blocks := by
  simp only [viewBlocks, List.range_succ_eq_map, List.map_cons, List.map_map, Nat.mul_zero]
  congr 1
  apply List.map_congr_left
  intro index _
  simp only [Function.comp_apply, ofView_shift, Nat.succ_eq_add_one, Nat.mul_add, Nat.mul_one,
    Nat.add_comm]

/-- The blocks behind a pointer are the bytes behind it. -/
theorem viewBlocks_bytes (memory : View) (blocks : ℕ) :
    (viewBlocks memory blocks).flatMap FixedBuffer.bytes = memory.read 0 (16 * blocks) := by
  induction blocks generalizing memory with
  | zero => rfl
  | succ blocks ih =>
    have size : 16 * (blocks + 1) = 16 + 16 * blocks := by ring
    rw [viewBlocks_succ, List.flatMap_cons, ih, View.read_shift, size, View.read_add]
    rfl

/-- A memory that starts with blocks shows these blocks. -/
theorem viewBlocks_of_read {memory : View} {blocks : List AesBlock}
    (starts : memory.read 0 (16 * blocks.length) = blocks.flatMap FixedBuffer.bytes) :
    viewBlocks memory blocks.length = blocks := by
  induction blocks generalizing memory with
  | nil => rfl
  | cons block rest ih =>
    have size : 16 * (rest.length + 1) = 16 + 16 * rest.length := by ring
    rw [List.length_cons, size, View.read_add, List.flatMap_cons] at starts
    have sizes : (memory.read 0 16).length = block.bytes.length := by
      rw [View.read_length, block.size_eq]
    obtain ⟨first, others⟩ := List.append_inj starts sizes
    rw [List.length_cons, viewBlocks_succ, ih]
    · congr 1
      exact FixedBuffer.ext first
    · rwa [View.read_shift]

theorem aesCbcEncryptLoop_eq (encrypt : AesBlock → AesBlock) (blocks : ℕ) (input : View)
    (iv : AesBlock) : aesCbcEncryptLoop encrypt blocks input iv =
      (chainEncrypt AesBlock.xor encrypt iv (viewBlocks input blocks)).flatMap
        FixedBuffer.bytes := by
  induction blocks generalizing input iv with
  | zero => rfl
  | succ blocks ih =>
    rw [aesCbcEncryptLoop, ih, viewBlocks_succ]
    rfl

theorem aesCbcDecryptLoop_bytes (decrypt : AesBlock → AesBlock) (blocks : ℕ) (input : View)
    (iv : AesBlock) : (aesCbcDecryptLoop decrypt blocks input iv).1 =
      (chainDecrypt AesBlock.xor decrypt iv (viewBlocks input blocks)).flatMap
        FixedBuffer.bytes := by
  induction blocks generalizing input iv with
  | zero => rfl
  | succ blocks ih =>
    rw [aesCbcDecryptLoop, viewBlocks_succ]
    simp only [ih]
    rfl

/-- As many bytes are written as the text and its padding have. -/
theorem aesCbcCoreEncrypt_length (encrypt : AesBlock → AesBlock) (input : View) (length : ℕ)
    (ivec : AesBlock) :
    (aesCbcCoreEncrypt encrypt input length ivec).length = 16 * (length / 16 + 1) := by
  have sizes (blocks : List AesBlock) :
      (blocks.flatMap FixedBuffer.bytes).length = 16 * blocks.length := by
    rw [List.length_flatMap]
    simp only [FixedBuffer.size_eq, List.map_const', List.sum_replicate_nat, Nat.mul_comm]
  simp only [aesCbcCoreEncrypt, aesCbcEncryptLoop_eq, sizes, chainEncrypt_length, viewBlocks,
    List.length_map, List.length_range]

end Cbc

section Rsa

variable {rsaPublic : RsaBlock → Option RsaBlock}

/-- A text behind the pad bytes of PKCS#1. -/
def rsaPadded (pads : ℕ → {byte : UInt8 // byte ≠ 0}) (input : List UInt8)
    (room : input.length ≤ 21) : RsaBlock where
  bytes := [0, rsaCrypt] ++ (List.range (zcSecRsaKeyBytes - 3 - input.length)).map
    (fun place => (pads place).val) ++ [0] ++ input
  size_eq := by
    simp [zcSecRsaKeyBytes]
    omega

theorem rsaPkcs1Encrypt_eq (pads : ℕ → {byte : UInt8 // byte ≠ 0}) {input : List UInt8}
    (room : input.length ≤ 21) : rsaPkcs1Encrypt rsaPublic pads input =
      match rsaPublic (rsaPadded pads input room) with
      | none => (false, (rsaPadded pads input room).bytes)
      | some cipher => (true, cipher.bytes) :=
  dif_pos (Nat.add_le_add_right room 11)

theorem rsaPkcs1Encrypt_long (pads : ℕ → {byte : UInt8 // byte ≠ 0}) {input : List UInt8}
    (long : 21 < input.length) : rsaPkcs1Encrypt rsaPublic pads input = (false, []) :=
  dif_neg (Nat.not_le_of_lt (Nat.add_lt_add_right long 11))

/-- A text that is encrypted is short enough, and whatever is written has the length of a block. -/
theorem rsaPkcs1Encrypt_length {pads : ℕ → {byte : UInt8 // byte ≠ 0}} {input out : List UInt8}
    {succeeded : Bool} (written : rsaPkcs1Encrypt rsaPublic pads input = (succeeded, out)) :
    (out.length = 32 ∨ out = []) ∧ (succeeded = true → input.length ≤ 21 ∧ out.length = 32) := by
  rcases Nat.lt_or_ge 21 input.length with long | room
  · rw [rsaPkcs1Encrypt_long pads long] at written
    cases written
    exact ⟨.inr rfl, nofun⟩
  · rw [rsaPkcs1Encrypt_eq pads room] at written
    split at written <;> cases written
    · exact ⟨.inl (FixedBuffer.size_eq _), nofun⟩
    · exact ⟨.inl (FixedBuffer.size_eq _), fun _ => ⟨room, FixedBuffer.size_eq _⟩⟩

/-- The piece of a text that its block at `index` encrypts. -/
def rsaPiece (plain : View) (u16Len index : ℕ) : List UInt8 :=
  plain.read (21 * index) (min 21 (u16Len - 21 * index))

/-- The number of pieces; an empty text has one, too. -/
def rsaPieces (u16Len : ℕ) : ℕ := if u16Len = 0 then 1 else (u16Len + 20) / 21

theorem rsaPieces_cases (u16Len : ℕ) : (u16Len = 0 ∧ rsaPieces u16Len = 1) ∨
    0 < u16Len ∧ rsaPieces u16Len = (u16Len + 20) / 21 := by
  rw [rsaPieces]
  split_ifs with empty
  · exact .inl ⟨empty, rfl⟩
  · exact .inr ⟨Nat.pos_of_ne_zero empty, rfl⟩

variable {calls : ℕ → RsaBlock → Option RsaBlock}

variable (calls) in
/-- The first blocks at the output encrypt the first pieces. From 2^16 on the offset starts again,
and the output stays as long as it is. -/
structure RsaWrote (plain : View) (u16Len blocks : ℕ) (cipher : List UInt8) : Prop where
  least : min (32 * blocks) (2 ^ 16) ≤ cipher.length
  most : cipher.length ≤ min (32 * (blocks + 1)) (2 ^ 16)
  encrypts : 32 * blocks < 2 ^ 16 → ∀ index < blocks, ∃ call pads,
    rsaPkcs1Encrypt (calls call) pads (rsaPiece plain u16Len index) =
      (true, (cipher.drop (32 * index)).take 32)

variable {plain : View} {u16Len blocks : ℕ} {cipher out : List UInt8}

theorem RsaWrote.nil : RsaWrote calls plain u16Len 0 [] :=
  ⟨Nat.zero_le _, Nat.zero_le _, fun _ index before => absurd before (Nat.not_lt_zero index)⟩

/-- The output with another block at the current offset. -/
def writeBlock (blocks : ℕ) (cipher out : List UInt8) : List UInt8 :=
  cipher.take (32 * blocks % 2 ^ 16) ++ out ++ cipher.drop (32 * blocks % 2 ^ 16 + out.length)

theorem RsaWrote.length_writeBlock (wrote : RsaWrote calls plain u16Len blocks cipher)
    (size : out.length = 32) :
    (writeBlock blocks cipher out).length = min (32 * (blocks + 1)) (2 ^ 16) := by
  obtain ⟨least, most, _⟩ := wrote
  simp only [writeBlock, List.length_append, List.length_take, List.length_drop, size]
  omega

/-- A block at the current offset leaves the ones in front of it alone. -/
theorem drop_writeBlock (small : 32 * blocks < 2 ^ 16) (wide : 32 * blocks ≤ cipher.length)
    {index : ℕ} (before : index < blocks) :
    ((writeBlock blocks cipher out).drop (32 * index)).take 32 =
      (cipher.drop (32 * index)).take 32 := by
  have front : (cipher.take (32 * blocks)).length = 32 * blocks := List.length_take_of_le wide
  rw [writeBlock, Nat.mod_eq_of_lt small, List.append_assoc,
    List.drop_append_of_le_length (by omega), List.take_append_of_le_length (by
      rw [List.length_drop]
      omega), List.drop_take, List.take_take, Nat.min_eq_left (by omega)]

/-- A block that is encrypted is one block more. -/
theorem RsaWrote.succ (wrote : RsaWrote calls plain u16Len blocks cipher)
    {call : ℕ} {pads : ℕ → {byte : UInt8 // byte ≠ 0}}
    (written : rsaPkcs1Encrypt (calls call) pads (rsaPiece plain u16Len blocks) = (true, out)) :
    RsaWrote calls plain u16Len (blocks + 1) (writeBlock blocks cipher out) := by
  have size : out.length = 32 := ((rsaPkcs1Encrypt_length written).2 rfl).2
  have length := wrote.length_writeBlock size
  refine ⟨by rw [length], by rw [length]; omega, fun small index inside => ?_⟩
  have least := wrote.least
  have within : 32 * blocks < 2 ^ 16 := by omega
  have wide : 32 * blocks ≤ cipher.length := by omega
  rcases Nat.lt_succ_iff_lt_or_eq.mp inside with before | rfl
  · rw [drop_writeBlock within wide before]
    exact wrote.encrypts within index before
  · refine ⟨call, pads, ?_⟩
    rw [written, writeBlock, Nat.mod_eq_of_lt within, List.append_assoc,
      List.drop_left' (List.length_take_of_le wide), List.take_left' size]

/-- A block that is refused is no block more. -/
theorem RsaWrote.refused (wrote : RsaWrote calls plain u16Len blocks cipher)
    (size : out.length = 32 ∨ out = []) :
    RsaWrote calls plain u16Len blocks (writeBlock blocks cipher out) := by
  rcases size with size | rfl
  · have length := wrote.length_writeBlock size
    have least := wrote.least
    refine ⟨by rw [length]; omega, by rw [length], fun small index before => ?_⟩
    have wide : 32 * blocks ≤ cipher.length := by omega
    rw [drop_writeBlock small wide before]
    exact wrote.encrypts small index before
  · rw [writeBlock, List.append_nil, List.length_nil, Nat.add_zero, List.take_append_drop]
    exact wrote

namespace RsaEncryption

variable {pads : ℕ → ℕ → {byte : UInt8 // byte ≠ 0}} {state : RsaEncryption}

variable (calls plain u16Len) in
/-- The first pieces have been read and encrypted. -/
structure At (blocks : ℕ) (state : RsaEncryption) : Prop where
  read : state.u16ReadLen = 21 * blocks
  offset : state.u16CiperLen = 32 * blocks % 2 ^ 16
  wrote : RsaWrote calls plain u16Len blocks state.cipher

theorem At.start : At calls plain u16Len 0 ⟨0, 0, 0, true, []⟩ := ⟨rfl, rfl, .nil⟩

variable (pads) in
/-- The next piece is encrypted or refused. -/
theorem At.encrypt (here : At calls plain u16Len blocks state) {length : ℕ}
    (piece : plain.read (21 * blocks) length = rsaPiece plain u16Len blocks) :
    ((state.encrypt calls pads plain length).succeeded = true ∧
        RsaWrote calls plain u16Len (blocks + 1)
          (state.encrypt calls pads plain length).cipher ∧
        (state.encrypt calls pads plain length).cipher.length =
          min (32 * (blocks + 1)) (2 ^ 16)) ∨
      (state.encrypt calls pads plain length).succeeded = false ∧
        At calls plain u16Len blocks (state.encrypt calls pads plain length) := by
  obtain ⟨read, offset, wrote⟩ := here
  rcases written : rsaPkcs1Encrypt (calls state.calls) (pads state.calls)
    (rsaPiece plain u16Len blocks) with ⟨succeeded, out⟩
  have result : state.encrypt calls pads plain length = { state with
      calls := state.calls + 1
      succeeded := succeeded
      cipher := writeBlock blocks state.cipher out } := by
    simp only [RsaEncryption.encrypt, read, piece, written, offset, writeBlock]
  rw [result]
  cases succeeded with
  | true =>
    exact .inl ⟨rfl, wrote.succ written,
      wrote.length_writeBlock ((rsaPkcs1Encrypt_length written).2 rfl).2⟩
  | false => exact .inr ⟨rfl, read, offset, wrote.refused (rsaPkcs1Encrypt_length written).1⟩

/-- A full piece. -/
theorem read_full (inside : 21 * (blocks + 1) ≤ u16Len) :
    plain.read (21 * blocks) (zcSecRsaKeyBytes - 11) = rsaPiece plain u16Len blocks := by
  rw [rsaPiece, Nat.min_eq_left (by omega)]
  rfl

variable (pads) in
/-- The offsets move behind a full piece that is encrypted. -/
theorem At.advance (here : At calls plain u16Len blocks state)
    (inside : 21 * (blocks + 1) ≤ u16Len) {done : RsaEncryption}
    (sealed : state.encrypt calls pads plain (zcSecRsaKeyBytes - 11) = done)
    (succeeded : done.succeeded = true) :
    At calls plain u16Len (blocks + 1) { done with
        u16ReadLen := done.u16ReadLen + (zcSecRsaKeyBytes - 11)
        u16CiperLen := (done.u16CiperLen + zcSecRsaKeyBytes) % 2 ^ 16 } ∧
      done.cipher.length = min (32 * (blocks + 1)) (2 ^ 16) := by
  have next := here.encrypt pads (read_full inside)
  rw [sealed] at next
  rcases next with ⟨_, wrote, length⟩ | ⟨failed, _⟩
  · have reads : done.u16ReadLen = 21 * blocks := by
      rw [← sealed]
      exact here.read
    have offsets : done.u16CiperLen = 32 * blocks % 2 ^ 16 := by
      rw [← sealed]
      exact here.offset
    refine ⟨⟨?_, ?_, wrote⟩, length⟩
    · simp only [reads, zcSecRsaKeyBytes]
      omega
    · simp only [offsets, zcSecRsaKeyBytes]
      omega
  · rw [failed] at succeeded
    cases succeeded

variable (pads) in
/-- The loop encrypts the full pieces, or stops at one that is refused. -/
theorem At.loop {count : ℕ} (here : At calls plain u16Len blocks state)
    (inside : 21 * (blocks + count) ≤ u16Len) :
    (At calls plain u16Len (blocks + count) (state.loop calls pads plain count) ∧
        (count = 0 ∨ (state.loop calls pads plain count).succeeded = true ∧
          (state.loop calls pads plain count).cipher.length =
            min (32 * (blocks + count)) (2 ^ 16))) ∨
      ∃ before < count, At calls plain u16Len (blocks + before)
        (state.loop calls pads plain count) := by
  induction count generalizing blocks state with
  | zero => exact .inl ⟨here, .inl rfl⟩
  | succ count ih =>
    have next := here.encrypt pads (read_full (by omega))
    rw [RsaEncryption.loop]
    generalize sealed : state.encrypt calls pads plain (zcSecRsaKeyBytes - 11) = done at next ⊢
    rcases next with ⟨succeeded, _⟩ | ⟨failed, stays⟩
    · rw [if_pos succeeded]
      obtain ⟨there, length⟩ := here.advance pads (by omega) sealed succeeded
      have shifted : blocks + 1 + count = blocks + (count + 1) := by omega
      rcases ih there (by omega) with ⟨arrived, none | ended⟩ | ⟨before, early, arrived⟩
      · subst none
        exact .inl ⟨arrived, .inr ⟨succeeded, length⟩⟩
      · rw [shifted] at arrived ended
        exact .inl ⟨arrived, .inr ended⟩
      · refine .inr ⟨before + 1, by omega, ?_⟩
        have place : blocks + (before + 1) = blocks + 1 + before := by omega
        rw [place]
        exact arrived
    · rw [if_neg (by rw [failed]; decide)]
      exact .inr ⟨0, Nat.succ_pos _, stays⟩

variable (calls pads plain u16Len) in
/-- The call for a piece succeeds, when no call before it has failed. -/
def Encrypts (index : ℕ) : Prop :=
  (rsaPkcs1Encrypt (calls index) (pads index) (rsaPiece plain u16Len index)).1 = true

/-- The next call succeeds. -/
theorem At.succeeds (here : At calls plain u16Len blocks state) (counted : state.calls = blocks)
    {length : ℕ} (piece : plain.read (21 * blocks) length = rsaPiece plain u16Len blocks)
    (encrypts : Encrypts calls plain u16Len pads blocks) :
    (state.encrypt calls pads plain length).succeeded = true := by
  simp only [RsaEncryption.encrypt, here.read, piece, counted]
  exact encrypts

/-- Where every call succeeds the loop reads all full pieces. -/
theorem At.loop_succeeds (count : ℕ) (here : At calls plain u16Len blocks state)
    (counted : state.calls = blocks) (inside : 21 * (blocks + count) ≤ u16Len)
    (encrypts : ∀ index < blocks + count, Encrypts calls plain u16Len pads index) :
    At calls plain u16Len (blocks + count) (state.loop calls pads plain count) ∧
      (state.loop calls pads plain count).calls = blocks + count ∧
        (state.succeeded = true → (state.loop calls pads plain count).succeeded = true) := by
  induction count generalizing blocks state with
  | zero => exact ⟨here, counted, id⟩
  | succ count ih =>
    have succeeded := here.succeeds counted (read_full (by omega)) (encrypts blocks (by omega))
    obtain ⟨there, _⟩ := here.advance pads (by omega) rfl succeeded
    have shifted : blocks + (count + 1) = blocks + 1 + count := by omega
    obtain ⟨arrived, counted, ended⟩ := ih there (congrArg (· + 1) counted) (by omega)
      fun index before => encrypts index (by omega)
    rw [RsaEncryption.loop, if_pos succeeded, shifted]
    exact ⟨arrived, counted, fun _ => ended succeeded⟩

end RsaEncryption

/-- The last piece, when it is encrypted, completes the text. -/
theorem RsaEncryption.At.last {pads : ℕ → ℕ → {byte : UInt8 // byte ≠ 0}} {state : RsaEncryption}
    (here : At calls plain u16Len blocks state) (count : rsaPieces u16Len = blocks + 1)
    (rest : u16Len - 21 * blocks ≤ 21)
    (succeeded : (state.encrypt calls pads plain (u16Len - 21 * blocks)).succeeded = true) :
    RsaWrote calls plain u16Len (rsaPieces u16Len)
        (state.encrypt calls pads plain (u16Len - 21 * blocks)).cipher ∧
      (state.encrypt calls pads plain (u16Len - 21 * blocks)).cipher.length =
        min (32 * rsaPieces u16Len) (2 ^ 16) := by
  have piece : plain.read (21 * blocks) (u16Len - 21 * blocks) = rsaPiece plain u16Len blocks := by
    rw [rsaPiece, Nat.min_eq_right rest]
  rcases here.encrypt pads piece with ⟨_, wrote, length⟩ | ⟨failed, _⟩
  · rw [count]
    exact ⟨wrote, length⟩
  · rw [failed] at succeeded
    cases succeeded

/-- A rest that is longer than a piece is refused. -/
theorem RsaEncryption.encrypt_long {pads : ℕ → ℕ → {byte : UInt8 // byte ≠ 0}}
    {state : RsaEncryption} {length : ℕ} (long : 21 < length) :
    (state.encrypt calls pads plain length).succeeded = false := by
  have refused : rsaPkcs1Encrypt (calls state.calls) (pads state.calls)
      (plain.read state.u16ReadLen length) = (false, []) := by
    apply rsaPkcs1Encrypt_long
    rwa [View.read_length]
  simp only [RsaEncryption.encrypt, refused]

/-- An encryption by RSA that succeeds has encrypted all pieces of the text. -/
theorem secEncryptTextByRsa_wrote {pads : ℕ → ℕ → {byte : UInt8 // byte ≠ 0}}
    (ok : (secEncryptTextByRsa calls pads plain u16Len).ret = .ok) :
    (RsaWrote calls plain u16Len (rsaPieces u16Len)
        (secEncryptTextByRsa calls pads plain u16Len).cipher ∧
      (secEncryptTextByRsa calls pads plain u16Len).cipher.length =
        min (32 * rsaPieces u16Len) (2 ^ 16)) ∧
      (secEncryptTextByRsa calls pads plain u16Len).u16CiperLen =
        32 * rsaPieces u16Len % 2 ^ 16 := by
  have sealed {done : RsaEncryption}
      (result : (if done.succeeded then Ret.ok else Ret.error) = .ok) : done.succeeded = true := by
    by_contra failed
    rw [if_neg failed] at result
    cases result
  rw [secEncryptTextByRsa] at ok ⊢
  by_cases long : zcSecRsaKeyBytes < u16Len + 11
  · have longer : 21 < u16Len := by
      have bound : 32 < u16Len + 11 := long
      omega
    have pieces : rsaPieces u16Len = (u16Len + 20) / 21 := if_neg (by omega)
    have start : RsaEncryption.At calls plain u16Len 0 ⟨0, 0, 0, true, []⟩ := .start
    have inside : 21 * (0 + u16Len / 21) ≤ u16Len := by omega
    have looped := start.loop pads inside
    have full : u16Len / (zcSecRsaKeyBytes - 11) = u16Len / 21 := rfl
    simp only [if_pos long, full] at ok ⊢
    generalize RsaEncryption.loop calls pads plain (u16Len / 21) ⟨0, 0, 0, true, []⟩ = done
      at looped ok ⊢
    -- whether the loop has read all full pieces or stopped, what is left is encrypted as one piece
    have last {count : ℕ} (arrived : RsaEncryption.At calls plain u16Len count done)
        (more : 21 * count < u16Len) (rest : 21 * (count + 1) ≥ u16Len) :
        (RsaWrote calls plain u16Len (rsaPieces u16Len)
            (done.encrypt calls pads plain (u16Len - done.u16ReadLen)).cipher ∧
          (done.encrypt calls pads plain (u16Len - done.u16ReadLen)).cipher.length =
            min (32 * rsaPieces u16Len) (2 ^ 16)) ∧
          (done.u16CiperLen + zcSecRsaKeyBytes) % 2 ^ 16 = 32 * rsaPieces u16Len % 2 ^ 16 := by
      have all : rsaPieces u16Len = count + 1 := by omega
      rw [arrived.read, if_pos more] at ok
      rw [arrived.read, arrived.offset, zcSecRsaKeyBytes]
      exact ⟨arrived.last all (by omega) (sealed ok), by omega⟩
    rcases looped with ⟨arrived, ended⟩ | ⟨before, early, arrived⟩
    · rw [Nat.zero_add] at arrived ended
      by_cases more : 21 * (u16Len / 21) < u16Len
      · rw [if_pos (arrived.read ▸ more)]
        exact last arrived more (by omega)
      · have all : rsaPieces u16Len = u16Len / 21 := by omega
        rw [if_neg (arrived.read ▸ more), all]
        rcases ended with none | ⟨_, length⟩
        · omega
        · exact ⟨⟨arrived.wrote, length⟩, arrived.offset⟩
    · rw [Nat.zero_add] at arrived
      have more : 21 * before < u16Len := by omega
      rw [if_pos (arrived.read ▸ more)]
      refine last arrived more ?_
      by_contra rest
      rw [arrived.read, if_pos more] at ok
      have succeeded := sealed ok
      rw [RsaEncryption.encrypt_long (by omega)] at succeeded
      cases succeeded
  · have short : u16Len ≤ 21 := by
      have bound : ¬ 32 < u16Len + 11 := long
      omega
    have one : rsaPieces u16Len = 0 + 1 := by
      rw [rsaPieces]
      split_ifs <;> omega
    simp only [if_neg long] at ok ⊢
    refine ⟨RsaEncryption.At.start.last one (by omega) (sealed ok), ?_⟩
    rw [one]
    rfl

/-- An encryption by RSA of which every call succeeds succeeds. -/
theorem secEncryptTextByRsa_succeeds {pads : ℕ → ℕ → {byte : UInt8 // byte ≠ 0}}
    (encrypts : ∀ index < rsaPieces u16Len,
      RsaEncryption.Encrypts calls plain u16Len pads index) :
    (secEncryptTextByRsa calls pads plain u16Len).ret = .ok := by
  have pieces := rsaPieces_cases u16Len
  have start : RsaEncryption.At calls plain u16Len 0 ⟨0, 0, 0, true, []⟩ := .start
  rw [secEncryptTextByRsa]
  by_cases long : zcSecRsaKeyBytes < u16Len + 11
  · have longer : 21 < u16Len := by
      have bound : 32 < u16Len + 11 := long
      omega
    obtain ⟨arrived, counted, ended⟩ := start.loop_succeeds (u16Len / 21) rfl (by omega)
      fun index before => encrypts index (by omega)
    have full : u16Len / (zcSecRsaKeyBytes - 11) = u16Len / 21 := rfl
    simp only [if_pos long, full]
    generalize RsaEncryption.loop calls pads plain (u16Len / 21) ⟨0, 0, 0, true, []⟩ = done
      at arrived counted ended ⊢
    rw [Nat.zero_add] at arrived counted
    by_cases more : 21 * (u16Len / 21) < u16Len
    · have piece : plain.read (21 * (u16Len / 21)) (u16Len - 21 * (u16Len / 21)) =
          rsaPiece plain u16Len (u16Len / 21) := by
        rw [rsaPiece, Nat.min_eq_right (by omega)]
      rw [arrived.read, if_pos more]
      exact if_pos (arrived.succeeds counted piece (encrypts _ (by omega)))
    · rw [arrived.read, if_neg more]
      exact if_pos (ended rfl)
  · have short : u16Len ≤ 21 := by
      have bound : ¬ 32 < u16Len + 11 := long
      omega
    have piece : plain.read (21 * 0) u16Len = rsaPiece plain u16Len 0 := by
      rw [rsaPiece, Nat.min_eq_right (by omega)]
      rfl
    simp only [if_neg long]
    exact if_pos (start.succeeds rfl piece (encrypts 0 (by omega)))

/-- A call writes at most a block at its offset. -/
theorem RsaEncryption.encrypt_length_le {pads : ℕ → ℕ → {byte : UInt8 // byte ≠ 0}}
    {state : RsaEncryption} {bound : ℕ} (offset : state.u16CiperLen ≤ bound)
    (size : state.cipher.length ≤ bound + 32) (length : ℕ) :
    (state.encrypt calls pads plain length).cipher.length ≤ bound + 32 := by
  rcases written : rsaPkcs1Encrypt (calls state.calls) (pads state.calls)
    (plain.read state.u16ReadLen length) with ⟨succeeded, out⟩
  have block : out.length = 32 ∨ out.length = 0 :=
    (rsaPkcs1Encrypt_length written).1.imp_right (congrArg List.length)
  simp only [RsaEncryption.encrypt, written, List.length_append, List.length_take, List.length_drop]
  omega

theorem RsaEncryption.loop_length_le {pads : ℕ → ℕ → {byte : UInt8 // byte ≠ 0}} (count : ℕ)
    {state : RsaEncryption} {bound : ℕ} (offset : state.u16CiperLen ≤ bound)
    (size : state.cipher.length ≤ bound + 32) :
    (state.loop calls pads plain count).u16CiperLen ≤ bound + 32 * count ∧
      (state.loop calls pads plain count).cipher.length ≤ bound + 32 * count + 32 := by
  induction count generalizing state bound with
  | zero => exact ⟨offset, size⟩
  | succ count ih =>
    have written := @RsaEncryption.encrypt_length_le calls plain pads state bound offset size
      (zcSecRsaKeyBytes - 11)
    rw [RsaEncryption.loop]
    split_ifs with succeeded
    · have moved : (state.u16CiperLen + zcSecRsaKeyBytes) % 2 ^ 16 ≤ bound + 32 :=
        (Nat.mod_le _ _).trans (Nat.add_le_add_right offset 32)
      have rest := @ih { state.encrypt calls pads plain (zcSecRsaKeyBytes - 11) with
        u16ReadLen := state.u16ReadLen + (zcSecRsaKeyBytes - 11)
        u16CiperLen := (state.u16CiperLen + zcSecRsaKeyBytes) % 2 ^ 16 } (bound + 32) moved (by
          dsimp only
          omega)
      have blocks : bound + 32 + 32 * count = bound + 32 * (count + 1) := by omega
      rw [blocks] at rest
      exact rest
    · have kept : (state.encrypt calls pads plain (zcSecRsaKeyBytes - 11)).u16CiperLen =
          state.u16CiperLen := rfl
      omega

/-- An encryption by RSA of thirteen pieces, whether it succeeds or not, writes at most as many blocks.
-/
theorem secEncryptTextByRsa_length_le (pads : ℕ → ℕ → {byte : UInt8 // byte ≠ 0})
    (short : u16Len ≤ 272) : (secEncryptTextByRsa calls pads plain u16Len).cipher.length ≤ 416 := by
  rw [secEncryptTextByRsa]
  dsimp only
  split_ifs with long more
  · have full : u16Len / (zcSecRsaKeyBytes - 11) = u16Len / 21 := rfl
    obtain ⟨offset, size⟩ := @RsaEncryption.loop_length_le calls plain pads (u16Len / 21)
      ⟨0, 0, 0, true, []⟩ 0 (Nat.le_refl 0) (Nat.zero_le _)
    rw [full]
    exact @RsaEncryption.encrypt_length_le calls plain pads _ 384 (by omega) (by omega) _
  · have full : u16Len / (zcSecRsaKeyBytes - 11) = u16Len / 21 := rfl
    obtain ⟨offset, size⟩ := @RsaEncryption.loop_length_le calls plain pads (u16Len / 21)
      ⟨0, 0, 0, true, []⟩ 0 (Nat.le_refl 0) (Nat.zero_le _)
    rw [full]
    omega
  · exact (@RsaEncryption.encrypt_length_le calls plain pads ⟨0, 0, 0, true, []⟩ 0 (Nat.le_refl 0)
      (Nat.zero_le _) u16Len).trans (by decide)

end Rsa

/-- What a short text is encrypted to fits the send buffer behind its head, whether the encryption
succeeds or not. -/
theorem secEncrypt_length_le {crypto : Crypto} {context : SecContext} {head : ZcSecHead}
    (pads : ℕ → ℕ → {byte : UInt8 // byte ≠ 0}) (plain : View)
    (short : zcHtons head.u16TotalMsg ≤ 272) :
    (secEncrypt crypto context pads head plain).cipher.length ≤ 416 := by
  rw [secEncrypt]
  split_ifs
  · rw [View.read_length]
    omega
  · exact secEncryptTextByRsa_length_le pads short
  · rw [secAesEncrypt]
    split_ifs
    · rw [aesCbcCoreEncrypt_length]
      omega
    · exact Nat.zero_le _
  · exact Nat.zero_le _

end ShuangFa
