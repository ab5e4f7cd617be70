import ShuangFa.Model.AesCbc
import ShuangFa.Proofs.Encryption

/-! # CBC between buffers writes what CBC of texts computes

Each mode of `AES_cbc_core` amounts to one store of the text's cipher or plain text, whether the
buffers are the same or apart. No loop over the bytes of a block reads a byte that it stored before,
so it is a store of the whole block; the blocks are stored one behind the other, and a block that is
still to be read is not among them.
-/

namespace ShuangFa

open Memory

variable {cipher : AesBlock → AesBlock} {tempiv : AesBlock} {memory other : View}
  {input output ivec len blocks start size : ℕ} {iv : IvPointer}

namespace IvPointer

/-- The block that the pointer points to. -/
def value (tempiv : AesBlock) (memory : View) : IvPointer → AesBlock
  | .tempiv => tempiv
  | .block address => .ofView memory address 16

/-- The block does not meet the `size` bytes from `start` on. -/
def Apart (start size : ℕ) : IvPointer → Prop
  | .tempiv => True
  | .block address => address + 16 ≤ start ∨ start + size ≤ address

theorem byte_eq {n : ℕ} (inside : n < 16) :
    iv.byte tempiv memory n = (iv.value tempiv memory).bytes.getD n 0 := by
  cases iv with
  | tempiv => rfl
  | block address =>
    have bound : n < (memory.read address 16).length := by
      rw [View.read_length]
      exact inside
    have shown : (memory.read address 16)[n] = memory (address + n) := View.read_getElem _ _ _ _ bound
    rw [value, FixedBuffer.ofView, List.getD_eq_getElem _ _ bound, shown]
    rfl

theorem Apart.mono {start' size' : ℕ} (apart : iv.Apart start size) (after : start ≤ start')
    (before : start' + size' ≤ start + size) : iv.Apart start' size' := by
  cases iv with
  | tempiv => trivial
  | block address =>
    have apart : address + 16 ≤ start ∨ start + size ≤ address := apart
    change address + 16 ≤ start' ∨ start' + size' ≤ address
    omega

theorem value_congr (apart : iv.Apart start size)
    (same : ∀ address, address < start ∨ start + size ≤ address → other address = memory address) :
    iv.value tempiv other = iv.value tempiv memory := by
  cases iv with
  | tempiv => rfl
  | block address =>
    have apart : address + 16 ≤ start ∨ start + size ≤ address := apart
    apply FixedBuffer.ext
    apply View.read_congr
    intro index inside
    exact same _ (by omega)

end IvPointer

theorem xor_getD (first second : AesBlock) {n : ℕ} (inside : n < 16) :
    (first.xor second).bytes.getD n 0 = first.bytes.getD n 0 ^^^ second.bytes.getD n 0 := by
  have left : n < first.bytes.length := by rw [first.size_eq]; exact inside
  have right : n < second.bytes.length := by rw [second.size_eq]; exact inside
  have both : n < (first.xor second).bytes.length := by rw [(first.xor second).size_eq]; exact inside
  rw [List.getD_eq_getElem _ _ left, List.getD_eq_getElem _ _ right, List.getD_eq_getElem _ _ both]
  exact List.getElem_zipWith

/-- The bytes at some of the offsets of a block. -/
theorem map_getD (block : AesBlock) {first count : ℕ} (inside : first + count ≤ 16) :
    (List.range' first count).map (fun n => block.bytes.getD n 0) =
      (block.bytes.drop first).take count := by
  have size := block.size_eq
  apply List.ext_getElem
  · rw [List.length_map, List.length_range', List.length_take, List.length_drop]
    omega
  · intro index left _
    rw [List.length_map, List.length_range'] at left
    rw [List.getElem_map, List.getElem_range', List.getElem_take, List.getElem_drop,
      List.getD_eq_getElem _ _ (by omega)]
    congr 1
    omega

/-- A block operation replaces a block that was just stored. -/
theorem aesBlockAt_store (block : AesBlock) :
    aesBlockAt cipher output output (memory.store output block.bytes) =
      memory.store output (cipher block).bytes := by
  have shown : FixedBuffer.ofView (memory.store output block.bytes) output 16 = block := by
    apply FixedBuffer.ext
    have whole := View.read_store_self memory output block.bytes
    rwa [block.size_eq] at whole
  rw [aesBlockAt, shown, View.store_store _ _ (block.size_eq.trans (cipher block).size_eq.symm)]

/-- The loop that combines the bytes of a block with the chaining block, where it reads each byte of
the block before it stores it. -/
theorem fill_block {text : View → ℕ → UInt8} {first count : ℕ} (block : AesBlock)
    (inside : first + count ≤ 16)
    (shown : ∀ now n, first ≤ n → n < first + count →
      (∀ address, address < output + first ∨ output + n ≤ address → now address = memory address) →
        text now n = block.bytes.getD n 0)
    (chained : iv.Apart (output + first) count) :
    memory.fill output (fun now n => text now n ^^^ iv.byte tempiv now n) first count =
      memory.store (output + first)
        (((block.xor (iv.value tempiv memory)).bytes.drop first).take count) := by
  have value (now : View) (n : ℕ) (after : first ≤ n) (before : n < first + count)
      (same : ∀ address, address < output + first ∨ output + n ≤ address →
        now address = memory address) :
      text now n ^^^ iv.byte tempiv now n =
        (block.xor (iv.value tempiv memory)).bytes.getD n 0 := by
    have chain : iv.value tempiv now = iv.value tempiv memory := by
      apply IvPointer.value_congr chained
      intro address outside
      exact same address (by omega)
    rw [shown now n after before same, IvPointer.byte_eq (by omega), chain, xor_getD _ _ (by omega)]
  rw [View.fill_eq_store, ← map_getD _ inside]
  · congr 1
    apply List.map_congr_left
    intro n member
    rw [List.mem_range'_1] at member
    exact value memory n member.1 member.2 fun _ _ => rfl
  · intro now n after before same
    rw [value now n after before same, value memory n after before fun _ _ => rfl]

section Encrypt

/-- The block that the bytes of a text and its padding make up. -/
def paddedBlock (memory : View) (input len : ℕ) (pad : UInt8) : AesBlock :=
  .ofView (.ofList (memory.read input len ++ List.replicate (16 - len) pad)) 0 16

theorem paddedBlock_bytes {pad : UInt8} (short : len ≤ 16) :
    (paddedBlock memory input len pad).bytes =
      memory.read input len ++ List.replicate (16 - len) pad := by
  have size : (memory.read input len ++ List.replicate (16 - len) pad).length = 16 := by
    rw [List.length_append, View.read_length, List.length_replicate]
    omega
  have shown := View.read_ofList _ (Nat.le_of_eq size.symm)
  rwa [List.take_of_length_le (Nat.le_of_eq size)] at shown

theorem paddedBlock_getD {pad : UInt8} {n : ℕ} (short : len ≤ 16) (inside : n < 16) :
    (paddedBlock memory input len pad).bytes.getD n 0 =
      if n < len then memory (input + n) else pad := by
  rw [paddedBlock_bytes short]
  by_cases text : n < len
  · have bound : n < (memory.read input len).length := by
      rw [View.read_length]
      exact text
    rw [if_pos text, List.getD_append _ _ _ _ bound, List.getD_eq_getElem _ _ bound,
      View.read_getElem]
  · rw [if_neg text, List.getD_append_right _ _ _ _ (by rw [View.read_length]; omega),
      List.getD_eq_getElem _ _ (by rw [View.read_length, List.length_replicate]; omega),
      List.getElem_replicate]

/-- The two loops that combine a text of at most one block and its padding with the chaining block. -/
theorem fill_padded {pad : UInt8} (short : len ≤ 16)
    (apart : input = output ∨ input + len ≤ output ∨ output + 16 ≤ input)
    (chained : iv.Apart output 16) :
    (memory.fill output (fun now n => now (input + n) ^^^ iv.byte tempiv now n) 0 len).fill output
        (fun now n => pad ^^^ iv.byte tempiv now n) len (16 - len) =
      memory.store output
        ((paddedBlock memory input len pad).xor (iv.value tempiv memory)).bytes := by
  obtain ⟨block, padded⟩ : ∃ block, paddedBlock memory input len pad = block := ⟨_, rfl⟩
  obtain ⟨mixed, combined⟩ : ∃ mixed, block.xor (iv.value tempiv memory) = mixed := ⟨_, rfl⟩
  have size := mixed.size_eq
  have texted : memory.fill output (fun now n => now (input + n) ^^^ iv.byte tempiv now n) 0 len =
      memory.store output (mixed.bytes.take len) := by
    rw [fill_block block (by omega) _ (chained.mono (by omega) (by omega)), combined, List.drop_zero,
      Nat.add_zero]
    intro now n _ inside same
    rw [same _ (by omega), ← padded, paddedBlock_getD short (by omega), if_pos (by omega)]
  have chain : iv.value tempiv (memory.store output (mixed.bytes.take len)) =
      iv.value tempiv memory := by
    apply IvPointer.value_congr chained
    intro address outside
    apply View.store_apart
    rw [List.length_take]
    omega
  have behind : (mixed.bytes.drop len).take (16 - len) = mixed.bytes.drop len := by
    apply List.take_of_length_le
    rw [List.length_drop]
    omega
  rw [texted, fill_block block (by omega) _ (chained.mono (by omega) (by omega)), chain, padded,
    combined, behind]
  · have joined := View.store_append memory output (mixed.bytes.take len) (mixed.bytes.drop len)
    rw [List.take_append_drop, List.length_take_of_le (by omega)] at joined
    exact joined.symm
  · intro now n after inside _
    rw [← padded, paddedBlock_getD short (by omega), if_neg (by omega)]

/-- A full block has no padding. -/
theorem paddedBlock_full (pad : UInt8) :
    paddedBlock memory input 16 pad = .ofView memory input 16 := by
  apply FixedBuffer.ext
  rw [paddedBlock_bytes (Nat.le_refl _), Nat.sub_self, List.replicate_zero, List.append_nil]
  rfl

theorem fill_full (apart : input = output ∨ input + 16 ≤ output ∨ output + 16 ≤ input)
    (chained : iv.Apart output 16) :
    memory.fill output (fun now n => now (input + n) ^^^ iv.byte tempiv now n) 0 16 =
      memory.store output
        (AesBlock.xor (.ofView memory input 16) (iv.value tempiv memory)).bytes := by
  rw [← paddedBlock_full 0, ← fill_padded (Nat.le_refl 16) apart chained, Nat.sub_self,
    View.fill_zero]

theorem cbcEncryptLast_eq (short : len < 16)
    (apart : input = output ∨ input + len ≤ output ∨ output + 16 ≤ input)
    (chained : iv.Apart output 16) :
    cbcEncryptLast cipher tempiv len input output iv memory = memory.store output (cipher
      ((paddedBlock memory input len (UInt8.ofNat (16 - len))).xor
        (iv.value tempiv memory))).bytes := by
  rw [← aesBlockAt_store, ← fill_padded (Nat.le_of_lt short) apart chained, cbcEncryptLast]
  split_ifs with rest
  · rfl
  · obtain rfl : len = 0 := Nat.eq_zero_of_not_pos rest
    rfl

/-- The block that was just stored is the chaining block of the next one. -/
theorem value_store (block : AesBlock) :
    IvPointer.value tempiv (memory.store output block.bytes) (.block output) = block := by
  apply FixedBuffer.ext
  have whole := View.read_store_self memory output block.bytes
  rwa [block.size_eq] at whole

/-- The blocks of an encryption and the last one are one store of the cipher text. A block is not
read any more when it is overwritten. -/
theorem cbcEncrypt_eq {input' output' : ℕ} {iv' : IvPointer} {done : View} (short : len < 16)
    (apart : input = output ∨ input + (16 * blocks + len) ≤ output ∨
      output + 16 * (blocks + 1) ≤ input)
    (chained : iv.Apart output (16 * (blocks + 1)))
    (run : cbcEncryptBlocks cipher tempiv blocks input output iv memory =
      (input', output', iv', done)) :
    cbcEncryptLast cipher tempiv len input' output' iv' done =
      memory.store output (aesCbcEncryptLoop cipher (blocks + 1)
        (.ofList (memory.read input (16 * blocks + len) ++
          List.replicate (16 - len) (UInt8.ofNat (16 - len)))) (iv.value tempiv memory)) := by
  induction blocks generalizing input output iv memory with
  | zero =>
    cases run
    rw [Nat.mul_zero, Nat.zero_add] at apart
    rw [cbcEncryptLast_eq short apart chained]
    simp only [Nat.mul_zero, Nat.zero_add, aesCbcEncryptLoop, List.append_nil, paddedBlock]
  | succ blocks ih =>
    obtain ⟨text, padded⟩ : ∃ text, memory.read (input + 16) (16 * blocks + len) ++
      List.replicate (16 - len) (UInt8.ofNat (16 - len)) = text := ⟨_, rfl⟩
    obtain ⟨block, encrypted⟩ : ∃ block, cipher
      (AesBlock.xor (.ofView memory input 16) (iv.value tempiv memory)) = block := ⟨_, rfl⟩
    have first : aesBlockAt cipher output output
        (memory.fill output (fun now n => now (input + n) ^^^ iv.byte tempiv now n) 0 16) =
        memory.store output block.bytes := by
      rw [fill_full (by omega) (chained.mono (Nat.le_refl _) (by omega)), aesBlockAt_store, encrypted]
    have behind : (memory.store output block.bytes).read (input + 16) (16 * blocks + len) =
        memory.read (input + 16) (16 * blocks + len) := by
      apply View.read_store_apart
      rw [block.size_eq]
      omega
    have front : memory.read input (16 * (blocks + 1) + len) ++
        List.replicate (16 - len) (UInt8.ofNat (16 - len)) = memory.read input 16 ++ text := by
      rw [show 16 * (blocks + 1) + len = 16 + (16 * blocks + len) by omega, View.read_add,
        List.append_assoc, padded]
    have shown : FixedBuffer.ofView (.ofList (memory.read input 16 ++ text)) 0 16 =
        .ofView memory input 16 := by
      apply FixedBuffer.ext
      have whole : (View.ofList (memory.read input 16 ++ text)).read 0 16 =
          (memory.read input 16 ++ text).take 16 :=
        View.read_ofList _ (by rw [List.length_append, View.read_length]; omega)
      rwa [List.take_left' (View.read_length ..)] at whole
    have rest := View.shift_ofList_append (memory.read input 16) text
    rw [View.read_length] at rest
    have chain : aesCbcEncryptLoop cipher (blocks + 1 + 1)
        (.ofList (memory.read input 16 ++ text)) (iv.value tempiv memory) =
        block.bytes ++ aesCbcEncryptLoop cipher (blocks + 1) (.ofList text) block := by
      rw [aesCbcEncryptLoop, shown, encrypted, rest]
    rw [cbcEncryptBlocks, first] at run
    have next : IvPointer.Apart (output + 16) (16 * (blocks + 1)) (.block output) :=
      .inl (Nat.le_refl _)
    rw [ih (by omega) next run, behind, value_store, padded, front, chain, View.store_append,
      block.size_eq]

/-- `AES_cbc_core` in encrypt mode stores the cipher text, in place or not. -/
theorem aesCbcCore_encrypt (cipher : AesBlock → AesBlock) (memory : View) {buffers : CbcBuffers}
    {length : ℕ}
    (apart : buffers.input = buffers.output ∨ buffers.input + length ≤ buffers.output ∨
      buffers.output + 16 * (length / 16 + 1) ≤ buffers.input) :
    aesCbcCore cipher .encrypt buffers length memory =
      (addU32 length (16 - length % 16),
        memory.store buffers.output (aesCbcCoreEncrypt cipher (memory.shift buffers.input) length
          (.ofView memory buffers.ivec 16))) := by
  obtain ⟨input', output', iv', done, run⟩ : ∃ input' output' iv' done,
      cbcEncryptBlocks cipher (.ofView memory buffers.ivec 16) (length / 16) buffers.input
        buffers.output .tempiv memory = (input', output', iv', done) := ⟨_, _, _, _, rfl⟩
  have chained : IvPointer.Apart buffers.output (16 * (length / 16 + 1)) .tempiv := trivial
  have stored := cbcEncrypt_eq (Nat.mod_lt length (by decide))
    (by rw [Nat.div_add_mod]; exact apart) chained run
  rw [Nat.div_add_mod] at stored
  have outlength : (if 0 < length % 16 then 16 - length % 16 else 16) = 16 - length % 16 := by
    split_ifs <;> omega
  simp only [aesCbcCore, run, stored, outlength, aesCbcCoreEncrypt, View.read_shift, Nat.add_zero]
  rfl

end Encrypt

section Decrypt

variable {buffers : CbcBuffers} {length : ℕ}

/-- The loop that combines a block that was just stored with the chaining block. -/
theorem fill_opened (block : AesBlock) (short : len ≤ 16) (chained : iv.Apart output 16) :
    (memory.store output block.bytes).fill output
        (fun now n => now (output + n) ^^^ iv.byte tempiv now n) 0 len =
      (memory.store output block.bytes).store output
        ((block.xor (iv.value tempiv memory)).bytes.take len) := by
  have size := block.size_eq
  have chain : iv.value tempiv (memory.store output block.bytes) = iv.value tempiv memory := by
    apply IvPointer.value_congr chained
    intro address outside
    apply View.store_apart
    omega
  rw [fill_block block (by omega) _ (chained.mono (by omega) (by omega)), chain, List.drop_zero,
    Nat.add_zero]
  intro now n _ inside same
  rw [same _ (by omega), View.store, if_pos (by omega), Nat.add_sub_cancel_left]

/-- One block of a decryption. -/
theorem fill_aesBlockAt (chained : iv.Apart output 16) :
    (aesBlockAt cipher input output memory).fill output
        (fun now n => now (output + n) ^^^ iv.byte tempiv now n) 0 16 =
      memory.store output
        ((cipher (.ofView memory input 16)).xor (iv.value tempiv memory)).bytes := by
  obtain ⟨block, opened⟩ : ∃ block, cipher (.ofView memory input 16) = block := ⟨_, rfl⟩
  obtain ⟨plain, combined⟩ : ∃ plain, block.xor (iv.value tempiv memory) = plain := ⟨_, rfl⟩
  have size := plain.size_eq
  rw [aesBlockAt, opened, fill_opened block (Nat.le_refl 16) chained, combined,
    List.take_of_length_le (by omega), View.store_store]
  rw [block.size_eq, size]

theorem aesCbcCoreDecrypt_short {text : View} {previous : AesBlock} {before : UInt8}
    (short : length < 16) :
    (aesCbcCoreDecrypt cipher text length previous before).1 =
      ((cipher (.ofView text 0 16)).xor previous).bytes.take length := by
  rw [aesCbcCoreDecrypt, Nat.div_eq_of_lt short, Nat.mod_eq_of_lt short]
  rfl

theorem aesCbcCoreDecrypt_block {text : View} {previous : AesBlock} {before : UInt8} :
    (aesCbcCoreDecrypt cipher text (16 + length) previous before).1 =
      ((cipher (.ofView text 0 16)).xor previous).bytes ++
        (aesCbcCoreDecrypt cipher (text.shift 16) length (.ofView text 0 16) before).1 := by
  rw [aesCbcCoreDecrypt, show (16 + length) / 16 = length / 16 + 1 by omega, Nat.add_mod_left]
  exact List.append_assoc ..

theorem ofView_congr {text other : View}
    (same : ∀ index < 16, text index = other index) :
    FixedBuffer.ofView text 0 16 = FixedBuffer.ofView other 0 16 := by
  apply FixedBuffer.ext
  apply View.read_congr
  intro index inside
  rw [Nat.zero_add]
  exact same index inside

/-- A decryption reads the blocks of its text only. -/
theorem aesCbcCoreDecrypt_congr {text other : View} {previous : AesBlock} {before : UInt8}
    (short : len < 16)
    (same : ∀ index < (16 * blocks + len + 15) / 16 * 16, text index = other index) :
    (aesCbcCoreDecrypt cipher text (16 * blocks + len) previous before).1 =
      (aesCbcCoreDecrypt cipher other (16 * blocks + len) previous before).1 := by
  induction blocks generalizing text other previous with
  | zero =>
    rw [Nat.mul_zero, Nat.zero_add, aesCbcCoreDecrypt_short short, aesCbcCoreDecrypt_short short]
    rcases Nat.eq_zero_or_pos len with rfl | rest
    · rw [List.take_zero, List.take_zero]
    · rw [ofView_congr fun index inside => same index (by omega)]
  | succ blocks ih =>
    rw [show 16 * (blocks + 1) + len = 16 + (16 * blocks + len) by ring, aesCbcCoreDecrypt_block,
      aesCbcCoreDecrypt_block, ofView_congr fun index inside => same index (by omega), ih]
    intro index inside
    exact same (16 + index) (by omega)

/-- The first block of a decryption at an address, and the rest of it. -/
theorem aesCbcCoreDecrypt_shift (memory : View) (input length : ℕ) (previous : AesBlock)
    (before : UInt8) :
    (aesCbcCoreDecrypt cipher (memory.shift input) (16 + length) previous before).1 =
      ((cipher (.ofView memory input 16)).xor previous).bytes ++
        (aesCbcCoreDecrypt cipher (memory.shift (input + 16)) length (.ofView memory input 16)
          before).1 := by
  have further : (memory.shift input).shift 16 = memory.shift (input + 16) := by
    funext index
    simp only [View.shift, Nat.add_assoc]
  rw [aesCbcCoreDecrypt_block, ofView_shift, Nat.add_zero, further]

/-- The blocks of a decryption into another buffer, and a rest, are one store of the plain text. No
block is read when a plain block lies over it. -/
theorem cbcDecrypt_eq {input' output' : ℕ} {iv' : IvPointer} {done : View} (before : UInt8)
    (short : len < 16)
    (apart : input + (16 * blocks + len + 15) / 16 * 16 ≤ output ∨
      output + (16 * blocks + len) ≤ input)
    (chained : iv.Apart output (16 * blocks + len))
    (run : cbcDecryptBlocks cipher tempiv blocks input output iv memory =
      (input', output', iv', done)) :
    output' = output + 16 * blocks ∧
      (if 0 < len then cbcDecryptLast cipher tempiv len input' output' iv' done else done) =
        memory.store output (aesCbcCoreDecrypt cipher (memory.shift input) (16 * blocks + len)
          (iv.value tempiv memory) before).1 := by
  induction blocks generalizing input output iv memory with
  | zero =>
    cases run
    rw [Nat.mul_zero, Nat.zero_add] at chained
    rw [Nat.mul_zero, Nat.zero_add, aesCbcCoreDecrypt_short short, ofView_shift, Nat.add_zero]
    refine ⟨rfl, ?_⟩
    split_ifs with rest
    · rw [cbcDecryptLast, fill_block (cipher (.ofView done input' 16)), List.drop_zero, Nat.add_zero]
      · rfl
      · omega
      · intro now n _ _ _
        rfl
      · exact chained
    · obtain rfl : len = 0 := Nat.eq_zero_of_not_pos rest
      rw [List.take_zero, View.store_nil]
  | succ blocks ih =>
    obtain ⟨plain, opened⟩ : ∃ plain, (cipher (.ofView memory input 16)).xor
      (iv.value tempiv memory) = plain := ⟨_, rfl⟩
    have size := plain.size_eq
    rw [cbcDecryptBlocks, fill_aesBlockAt (chained.mono (Nat.le_refl _) (by omega)), opened] at run
    have next : IvPointer.Apart (output + 16) (16 * blocks + len) (.block input) := by
      change input + 16 ≤ output + 16 ∨ output + 16 + (16 * blocks + len) ≤ input
      omega
    obtain ⟨position, stored⟩ := ih (by omega) next run
    have read : IvPointer.value tempiv (memory.store output plain.bytes) (.block input) =
        .ofView memory input 16 := by
      apply FixedBuffer.ext
      apply View.read_store_apart
      omega
    have unread : (aesCbcCoreDecrypt cipher ((memory.store output plain.bytes).shift (input + 16))
          (16 * blocks + len) (.ofView memory input 16) before).1 =
        (aesCbcCoreDecrypt cipher (memory.shift (input + 16)) (16 * blocks + len)
          (.ofView memory input 16) before).1 := by
      apply aesCbcCoreDecrypt_congr short
      intro index inside
      apply View.store_apart
      omega
    refine ⟨by omega, ?_⟩
    rw [stored, read, unread, show 16 * (blocks + 1) + len = 16 + (16 * blocks + len) by ring,
      aesCbcCoreDecrypt_shift, opened, View.store_append, size]

/-- `*outlength` of a decryption whose output is one store. -/
theorem cbcPlainLength_eq {text : View} {previous : AesBlock} :
    cbcPlainLength length (length % 16) (output + 16 * (length / 16))
        (memory.store output
          (aesCbcCoreDecrypt cipher text length previous (memory (output - 1))).1) =
      (aesCbcCoreDecrypt cipher text length previous (memory (output - 1))).2 := by
  have last := View.store_last memory output
    (aesCbcCoreDecrypt cipher text length previous (memory (output - 1))).1
  rw [aesCbcCoreDecrypt_size, aesCbcCoreDecrypt_padding] at last
  rw [aesCbcCoreDecrypt_length, ← last, cbcPlainLength]
  split_ifs with rest
  · rw [Nat.add_assoc, Nat.div_add_mod]
  · rw [show 16 * (length / 16) = length by omega]

/-- `AES_cbc_core` in decrypt mode stores the plain text in another buffer. -/
theorem aesCbcCore_decrypt (cipher : AesBlock → AesBlock) (memory : View)
    (differ : buffers.input ≠ buffers.output)
    (apart : buffers.input + (length + 15) / 16 * 16 ≤ buffers.output ∨
      buffers.output + length ≤ buffers.input) :
    aesCbcCore cipher .decrypt buffers length memory =
      ((aesCbcCoreDecrypt cipher (memory.shift buffers.input) length (.ofView memory buffers.ivec 16)
          (memory (buffers.output - 1))).2,
        memory.store buffers.output (aesCbcCoreDecrypt cipher (memory.shift buffers.input) length
          (.ofView memory buffers.ivec 16) (memory (buffers.output - 1))).1) := by
  obtain ⟨input', output', iv', done, run⟩ : ∃ input' output' iv' done,
      cbcDecryptBlocks cipher (.ofView memory buffers.ivec 16) (length / 16) buffers.input
        buffers.output .tempiv memory = (input', output', iv', done) := ⟨_, _, _, _, rfl⟩
  have chained : IvPointer.Apart buffers.output (16 * (length / 16) + length % 16) .tempiv := trivial
  obtain ⟨rfl, stored⟩ := cbcDecrypt_eq (memory (buffers.output - 1))
    (Nat.mod_lt length (by decide)) (by rw [Nat.div_add_mod]; exact apart) chained run
  rw [Nat.div_add_mod] at stored
  simp only [aesCbcCore, if_pos differ, run, stored]
  rw [← cbcPlainLength_eq]
  rfl

/-- A rest that is decrypted in place: what the loops leave behind it is what was there. -/
theorem cbcDecryptInPlaceLast_eq (short : len < 16)
    (apart : ivec + 16 ≤ output ∨ output + 16 ≤ ivec) :
    cbcDecryptInPlaceLast cipher ivec len output output memory =
      (memory.store output
        (((cipher (.ofView memory output 16)).xor (.ofView memory ivec 16)).bytes.take len)).store
          ivec (memory.read output 16) := by
  obtain ⟨block, opened⟩ : ∃ block, cipher (.ofView memory output 16) = block := ⟨_, rfl⟩
  obtain ⟨plain, combined⟩ : ∃ plain, block.xor (.ofView memory ivec 16) = plain := ⟨_, rfl⟩
  have size := block.size_eq
  have length : (plain.bytes.take len).length = len := by
    have size := plain.size_eq
    rw [List.length_take]
    omega
  have mixed : (memory.store output block.bytes).fill output
      (fun now n => now (output + n) ^^^ now (ivec + n)) 0 len =
      (memory.store output block.bytes).store output (plain.bytes.take len) := by
    rw [← combined]
    exact @fill_opened block memory output len (.block ivec) block (Nat.le_of_lt short) apart
  have behind : (memory.read output 16).drop len = memory.read (output + len) (16 - len) := by
    rw [show 16 = len + (16 - len) by omega, View.read_add, List.drop_left' (View.read_length ..)]
    congr 1
    omega
  have kept : (memory.store output (plain.bytes.take len)).read (output + len) (16 - len) =
      memory.read (output + len) (16 - len) :=
    View.read_store_apart (.inr (by omega))
  have restored (now : View) : now.fill output
      (fun _ n => (FixedBuffer.ofView memory output 16).bytes.getD n 0) len (16 - len) =
      now.store (output + len) (memory.read (output + len) (16 - len)) := by
    have rest : ((memory.read output 16).drop len).take (16 - len) =
        (memory.read output 16).drop len := by
      apply List.take_of_length_le
      rw [List.length_drop, View.read_length]
    rw [View.fill_eq_store fun _ _ _ _ _ => rfl, map_getD _ (by omega), ← behind, ← rest]
    rfl
  have whole : ((memory.store output block.bytes).store output (plain.bytes.take len)).store
      (output + len) (memory.read (output + len) (16 - len)) =
      memory.store output (plain.bytes.take len) := by
    have joined (now : View) := View.store_append now output (plain.bytes.take len)
      (memory.read (output + len) (16 - len))
    rw [length] at joined
    rw [← joined, View.store_store, joined, ← kept, View.store_read]
    rw [List.length_append, length, View.read_length]
    omega
  rw [cbcDecryptInPlaceLast]
  simp only [opened, mixed, restored, whole, combined]
  rfl

/-- The blocks of a decryption in place, and a rest, store the plain text; nothing but `ivec` changes
besides. -/
theorem cbcDecryptInPlace_eq {input' output' : ℕ} {done : View} (before : UInt8) (short : len < 16)
    (apart : ivec + 16 ≤ output ∨ output + (16 * blocks + len + 15) / 16 * 16 ≤ ivec)
    (run : cbcDecryptInPlace cipher ivec blocks output output memory = (input', output', done)) :
    output' = output + 16 * blocks ∧ ∀ address, address < ivec ∨ ivec + 16 ≤ address →
      (if 0 < len then cbcDecryptInPlaceLast cipher ivec len input' output' done else done) address =
        memory.store output (aesCbcCoreDecrypt cipher (memory.shift output) (16 * blocks + len)
          (.ofView memory ivec 16) before).1 address := by
  induction blocks generalizing output memory with
  | zero =>
    cases run
    rw [Nat.mul_zero, Nat.zero_add] at apart
    rw [Nat.mul_zero, Nat.zero_add, aesCbcCoreDecrypt_short short, ofView_shift, Nat.add_zero]
    refine ⟨rfl, ?_⟩
    intro address outside
    split_ifs with rest
    · rw [cbcDecryptInPlaceLast_eq short (by omega)]
      apply View.store_apart
      rwa [View.read_length]
    · obtain rfl : len = 0 := Nat.eq_zero_of_not_pos rest
      rw [List.take_zero, View.store_nil]
  | succ blocks ih =>
    obtain ⟨plain, opened⟩ : ∃ plain, (cipher (.ofView memory output 16)).xor
      (.ofView memory ivec 16) = plain := ⟨_, rfl⟩
    have size := plain.size_eq
    have here : IvPointer.Apart output 16 (.block ivec) := by
      change ivec + 16 ≤ output ∨ output + 16 ≤ ivec
      omega
    have first : (aesBlockAt cipher output output memory).fill output
        (fun now n => now (output + n) ^^^ now (ivec + n)) 0 16 =
        memory.store output plain.bytes := by
      rw [← opened]
      exact @fill_aesBlockAt cipher plain memory output output (.block ivec) here
    rw [cbcDecryptInPlace, first] at run
    obtain ⟨next, changed⟩ : ∃ next, (memory.store output plain.bytes).store ivec
      (FixedBuffer.ofView memory output 16).bytes = next := ⟨_, rfl⟩
    rw [changed] at run
    obtain ⟨position, stored⟩ := ih (by omega) run
    have chain : FixedBuffer.ofView next ivec 16 = .ofView memory output 16 := by
      rw [← changed]
      exact @value_store plain (memory.store output plain.bytes) ivec (.ofView memory output 16)
    have apart (other : ℕ) (beyond : output + 16 ≤ other) (far : other < ivec ∨ ivec + 16 ≤ other) :
        next other = memory other := by
      rw [← changed, View.store_apart, View.store_apart]
      · omega
      · rwa [(FixedBuffer.ofView memory output 16).size_eq]
    have unread : (aesCbcCoreDecrypt cipher (next.shift (output + 16)) (16 * blocks + len)
          (.ofView memory output 16) before).1 =
        (aesCbcCoreDecrypt cipher (memory.shift (output + 16)) (16 * blocks + len)
          (.ofView memory output 16) before).1 := by
      apply aesCbcCoreDecrypt_congr short
      intro index inside
      exact apart _ (by omega) (by omega)
    refine ⟨by omega, ?_⟩
    intro address outside
    have elsewhere : next address = memory.store output plain.bytes address := by
      rw [← changed]
      apply View.store_apart
      rwa [(FixedBuffer.ofView memory output 16).size_eq]
    rw [stored address outside, chain, unread, show 16 * (blocks + 1) + len = 16 + (16 * blocks + len) by ring,
      aesCbcCoreDecrypt_shift, opened, View.store_append, size]
    exact View.store_congr elsewhere

/-- `AES_cbc_core` in decrypt mode stores the plain text in place; `ivec` changes besides. -/
theorem aesCbcCore_decryptInPlace (cipher : AesBlock → AesBlock) (memory : View)
    (same : buffers.input = buffers.output) (some : 0 < length)
    (apart : buffers.ivec + 16 ≤ buffers.output ∨
      buffers.output + (length + 15) / 16 * 16 ≤ buffers.ivec) :
    (aesCbcCore cipher .decrypt buffers length memory).1 =
        (aesCbcCoreDecrypt cipher (memory.shift buffers.input) length
          (.ofView memory buffers.ivec 16) (memory (buffers.output - 1))).2 ∧
      ∀ address, address < buffers.ivec ∨ buffers.ivec + 16 ≤ address →
        (aesCbcCore cipher .decrypt buffers length memory).2 address =
          memory.store buffers.output (aesCbcCoreDecrypt cipher (memory.shift buffers.input) length
            (.ofView memory buffers.ivec 16) (memory (buffers.output - 1))).1 address := by
  obtain ⟨input', output', done, run⟩ : ∃ input' output' done,
      cbcDecryptInPlace cipher buffers.ivec (length / 16) buffers.output buffers.output memory =
        (input', output', done) := ⟨_, _, _, rfl⟩
  obtain ⟨rfl, stored⟩ := cbcDecryptInPlace_eq (memory (buffers.output - 1))
    (Nat.mod_lt length (by decide)) (by rw [Nat.div_add_mod]; exact apart) run
  rw [Nat.div_add_mod] at stored
  simp only [aesCbcCore, same, ne_eq, not_true_eq_false, if_false, run]
  refine ⟨?_, stored⟩
  rw [← cbcPlainLength_eq, cbcPlainLength, cbcPlainLength]
  -- The byte that tells the padding lies in the output, where `ivec` does not reach.
  split_ifs with rest
  · rw [if_pos rest] at stored
    rw [stored _ (by omega)]
  · rw [if_neg rest] at stored
    rw [stored _ (by omega)]

end Decrypt

end ShuangFa
