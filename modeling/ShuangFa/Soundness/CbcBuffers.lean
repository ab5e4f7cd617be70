import ShuangFa.Model.Adapter
import ShuangFa.Proofs.AesCbc
import ShuangFa.Soundness.BlockCipher

/-! # Texts that are encrypted in place or not

The cipher text of a text depends on the key and the start block only, not on the buffers. It opens
in another buffer and in place, where the chaining blocks are threaded through `ivec`.
-/

namespace ShuangFa

open Memory

/-- The output is the input or apart from it, and `ivec` lies outside the output. -/
structure CbcBuffers.Apart (buffers : CbcBuffers) (inputSize outputSize : ℕ) : Prop where
  input : buffers.input = buffers.output ∨ buffers.input + inputSize ≤ buffers.output ∨
    buffers.output + outputSize ≤ buffers.input
  ivec : buffers.ivec + 16 ≤ buffers.output ∨ buffers.output + outputSize ≤ buffers.ivec

variable {crypto : Crypto} {key : FixedBuffer zcHsSessionKeyLen}

/-- An encryption reads its text only. -/
theorem aesCbcCoreEncrypt_congr {encrypt : AesBlock → AesBlock} {input other : View} {length : ℕ}
    (same : input.read 0 length = other.read 0 length) (ivec : AesBlock) :
    aesCbcCoreEncrypt encrypt input length ivec = aesCbcCoreEncrypt encrypt other length ivec := by
  simp only [aesCbcCoreEncrypt, same]

/-- A decryption between buffers, whether they are the same or not. -/
theorem aesCbcDecrypt_read {buffers : CbcBuffers} {length size : ℕ} {memory : View}
    {opened : List UInt8 × ℕ} (some : 0 < length) (whole : length % 16 = 0) (inside : size ≤ length)
    (apart : buffers.Apart length length)
    (decrypted : aesCbcCoreDecrypt (crypto.aesDecrypt key) (memory.shift buffers.input) length
      (.ofView memory buffers.ivec 16) (memory (buffers.output - 1)) = opened) :
    (aesCbcDecrypt crypto key buffers length memory).1 = opened.2 ∧
      (aesCbcDecrypt crypto key buffers length memory).2.read buffers.output size =
        opened.1.take size ∧
      (buffers.input ≠ buffers.output →
        (aesCbcDecrypt crypto key buffers length memory).2.read buffers.ivec 16 =
          memory.read buffers.ivec 16) := by
  obtain ⟨shared, chained⟩ := apart
  have length' : opened.1.length = length := by rw [← decrypted, aesCbcCoreDecrypt_size]
  have shown : (memory.store buffers.output opened.1).read buffers.output size =
      opened.1.take size := by
    rw [View.read_store_within (Nat.le_refl _) (by omega), Nat.sub_self, List.drop_zero]
  by_cases differ : buffers.input = buffers.output
  · obtain ⟨outlength, stored⟩ := aesCbcCore_decryptInPlace (crypto.aesDecrypt key) memory differ
      some (by omega)
    rw [decrypted] at outlength stored
    refine ⟨outlength, ?_, fun apart => absurd differ apart⟩
    rw [← shown]
    apply View.read_congr
    intro index bound
    exact stored _ (by omega)
  · have disjoint : buffers.input + (length + 15) / 16 * 16 ≤ buffers.output ∨
        buffers.output + length ≤ buffers.input := by omega
    have stored := aesCbcCore_decrypt (crypto.aesDecrypt key) memory differ disjoint
    rw [decrypted] at stored
    rw [aesCbcDecrypt, stored]
    refine ⟨rfl, shown, fun _ => ?_⟩
    apply View.read_store_apart
    omega

/-- Every text has one cipher text, of as many bytes as the text and its padding, whichever buffers
it is encrypted between; and what shows the cipher text opens to the text and its length, into
another buffer, where `ivec` stays, and in place. A cipher text that is to be opened has a length that
is an `unsigned int`. -/
theorem cbc_round_trip (inverse : ∀ block, crypto.aesDecrypt key (crypto.aesEncrypt key block) = block)
    (text : List UInt8) (iv : AesBlock) :
    ∃ cipherText : List UInt8, cipherText.length = text.length + (16 - text.length % 16) ∧
      (∀ (memory : View) (buffers : CbcBuffers), buffers.Apart text.length cipherText.length →
        memory.read buffers.input text.length = text → memory.read buffers.ivec 16 = iv.bytes →
        aesCbcEncrypt crypto key buffers text.length memory =
          (cipherText.length % 2 ^ 32, memory.store buffers.output cipherText)) ∧
      (cipherText.length < 2 ^ 32 → ∀ (memory : View) (buffers : CbcBuffers),
        buffers.Apart cipherText.length cipherText.length →
        memory.read buffers.input cipherText.length = cipherText →
        memory.read buffers.ivec 16 = iv.bytes →
        let opened := aesCbcDecrypt crypto key buffers cipherText.length memory
        opened.1 = text.length ∧ opened.2.read buffers.output text.length = text ∧
          (buffers.input ≠ buffers.output → opened.2.read buffers.ivec 16 = iv.bytes)) := by
  obtain ⟨cipherText, encrypted⟩ : ∃ cipherText,
    aesCbcCoreEncrypt (crypto.aesEncrypt key) (.ofList text) text.length iv = cipherText := ⟨_, rfl⟩
  have size : cipherText.length = 16 * (text.length / 16 + 1) := by
    rw [← encrypted, aesCbcCoreEncrypt_length]
  have plain : (View.ofList text).read 0 text.length = text := by
    rw [View.read_ofList _ (Nat.le_refl _), List.take_length]
  refine ⟨cipherText, by omega, ?_, ?_⟩
  · intro memory buffers apart shows vector
    have stored := aesCbcCore_encrypt (crypto.aesEncrypt key) memory
      (show buffers.input = buffers.output ∨ buffers.input + text.length ≤ buffers.output ∨
        buffers.output + 16 * (text.length / 16 + 1) ≤ buffers.input from size ▸ apart.input)
    have chained : FixedBuffer.ofView memory buffers.ivec 16 = iv := FixedBuffer.ext vector
    have same : (memory.shift buffers.input).read 0 text.length =
        (View.ofList text).read 0 text.length := by
      rw [View.read_shift, Nat.add_zero, shows, plain]
    rw [chained, aesCbcCoreEncrypt_congr same, encrypted] at stored
    rw [aesCbcEncrypt, stored, addU32, show text.length + (16 - text.length % 16) =
      cipherText.length by omega]
  · intro small memory buffers apart shows vector
    have chained : FixedBuffer.ofView memory buffers.ivec 16 = iv := FixedBuffer.ext vector
    have starts : (memory.shift buffers.input).read 0 (16 * (text.length / 16 + 1)) =
        aesCbcCoreEncrypt (crypto.aesEncrypt key) (.ofList text) text.length iv := by
      rw [encrypted, ← size, View.read_shift, Nat.add_zero, shows]
    have opens := aesCbcCoreDecrypt_encrypt inverse (.ofList text) (by omega) iv starts
      (memory (buffers.output - 1))
    rw [← size, plain, ← chained] at opens
    have within : text.length ≤ cipherText.length := by omega
    obtain ⟨outlength, read, kept⟩ := aesCbcDecrypt_read (by omega) (by omega) within apart opens
    rw [List.take_left] at read
    exact ⟨outlength, read, fun differ => (kept differ).trans vector⟩

/-- Two blocks and a rest under the vendored block cipher, with a key and a start block that are not
zero. -/
theorem cbc_round_trip_rest :
    let crypto := vendoredAes Firmware.plain.crypto ⟨⟨fun _ => 0⟩, 0⟩
    let key : FixedBuffer zcHsSessionKeyLen := ⟨List.replicate 16 7, rfl⟩
    let iv : AesBlock := ⟨List.replicate 16 3, rfl⟩
    let text : List UInt8 := List.replicate 37 5
    ∃ cipherText : List UInt8, cipherText.length = 48 ∧
      (∀ (memory : View) (buffers : CbcBuffers), buffers.Apart 37 cipherText.length →
        memory.read buffers.input 37 = text → memory.read buffers.ivec 16 = iv.bytes →
        aesCbcEncrypt crypto key buffers 37 memory =
          (cipherText.length % 2 ^ 32, memory.store buffers.output cipherText)) ∧
      (cipherText.length < 2 ^ 32 → ∀ (memory : View) (buffers : CbcBuffers),
        buffers.Apart cipherText.length cipherText.length →
        memory.read buffers.input cipherText.length = cipherText →
        memory.read buffers.ivec 16 = iv.bytes →
        let opened := aesCbcDecrypt crypto key buffers cipherText.length memory
        opened.1 = 37 ∧ opened.2.read buffers.output 37 = text ∧
          (buffers.input ≠ buffers.output → opened.2.read buffers.ivec 16 = iv.bytes)) :=
  cbc_round_trip (vendoredAes_inverse _ _ _) (List.replicate 37 5) ⟨List.replicate 16 3, rfl⟩

/-- A text of one block in place: the cipher text is a block longer, and opens in place. -/
example : let memory := View.ofList (List.replicate 16 5)
    let sealed := aesCbcEncrypt Firmware.plain.crypto (.zeros _) ⟨0, 0, 64⟩ 16 memory
    sealed.1 = 32 ∧ (aesCbcDecrypt Firmware.plain.crypto (.zeros _) ⟨0, 0, 64⟩ 32 sealed.2).1 = 16 := by
  decide +kernel

end ShuangFa
