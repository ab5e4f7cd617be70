import ShuangFa.Model.Adapter
import ShuangFa.Proofs.Encryption

/-! # The length check of an outgoing frame

`PCT_SendMsgToCloud` predicts how much an encryption adds and checks the sum, of 16 bits, before it
encrypts. The prediction is right for AES and for a text that is not encrypted. For RSA it counts
blocks of 32 bytes of the text where the encryption takes 21, and with the switch at 2 it counts
none; and a sum from 2^16 on passes as a short frame.
-/

namespace ShuangFa

open Memory

variable (u32SecSwitch : ℕ) (head : ZcSecHead)

/-- The length `PCT_SendMsgToCloud` predicts for a frame, before it is cut to 16 bits. -/
def predictedLen : ℕ :=
  zcHtons head.u16TotalMsg + sizeofSecHead +
    secPaddingCheck u32SecSwitch head.u8SecType (zcHtons head.u16TotalMsg)

/-- The check lets the frame pass. -/
def PassesLengthCheck : Prop := predictedLen u32SecSwitch head % 2 ^ 16 ≤ msgBufferMaxLen

instance : Decidable (PassesLengthCheck u32SecSwitch head) := inferInstanceAs (Decidable (_ ≤ _))

/-- The sum does not wrap, and a text for RSA that passes the check has at most 13 pieces. -/
def FitsWhen : Prop :=
  predictedLen u32SecSwitch head < 2 ^ 16 ∧
    (secEncryptType u32SecSwitch head.u8SecType = zcSecAlgRsa →
      zcHtons head.u16TotalMsg ≤ 273 ∨ msgBufferMaxLen < predictedLen u32SecSwitch head)

instance : Decidable (FitsWhen u32SecSwitch head) := inferInstanceAs (Decidable (_ ∧ _))

/-- The same with the lengths for which blocks of 32 bytes and pieces of 21 come to one number. -/
def PredictsWhen : Prop :=
  predictedLen u32SecSwitch head < 2 ^ 16 ∧
    (secEncryptType u32SecSwitch head.u8SecType = zcSecAlgRsa →
      u32SecSwitch ≠ 2 ∧ (1 ≤ zcHtons head.u16TotalMsg ∧ zcHtons head.u16TotalMsg ≤ 21 ∨
        33 ≤ zcHtons head.u16TotalMsg ∧ zcHtons head.u16TotalMsg ≤ 42) ∨
      msgBufferMaxLen < predictedLen u32SecSwitch head)

variable {u32SecSwitch head} {crypto : Crypto} {context : SecContext}
  {pads : ℕ → ℕ → {byte : UInt8 // byte ≠ 0}} {plain : View}

/-- What an encryption that succeeds writes, and what was predicted for it. -/
inductive Expansion (u32SecSwitch : ℕ) (head : ZcSecHead) (written : ℕ) : Prop
  | none : secEncryptType u32SecSwitch head.u8SecType ≠ zcSecAlgRsa →
      written = zcHtons head.u16TotalMsg →
      predictedLen u32SecSwitch head = zcHtons head.u16TotalMsg + 4 →
      Expansion u32SecSwitch head written
  | aes : secEncryptType u32SecSwitch head.u8SecType ≠ zcSecAlgRsa →
      written = 16 * (zcHtons head.u16TotalMsg / 16 + 1) →
      predictedLen u32SecSwitch head = 16 * (zcHtons head.u16TotalMsg / 16 + 1) + 4 →
      Expansion u32SecSwitch head written
  | rsa : secEncryptType u32SecSwitch head.u8SecType = zcSecAlgRsa → u32SecSwitch ≠ 2 →
      written = min (32 * rsaPieces (zcHtons head.u16TotalMsg)) (2 ^ 16) →
      predictedLen u32SecSwitch head = 32 * ((zcHtons head.u16TotalMsg + 31) / 32) + 4 →
      Expansion u32SecSwitch head written
  | rsaUnpredicted : secEncryptType u32SecSwitch head.u8SecType = zcSecAlgRsa →
      u32SecSwitch = 2 → written = min (32 * rsaPieces (zcHtons head.u16TotalMsg)) (2 ^ 16) →
      predictedLen u32SecSwitch head = zcHtons head.u16TotalMsg + 4 →
      Expansion u32SecSwitch head written

theorem predictedLen_of_flag {u8SecFlag : UInt8}
    (flag : secFlag u32SecSwitch head.u8SecType = u8SecFlag) : predictedLen u32SecSwitch head =
      zcHtons head.u16TotalMsg + 4 + (if u8SecFlag = zcSecAlgAes then
        16 - zcHtons head.u16TotalMsg % 16
      else if u8SecFlag = zcSecAlgRsa then
        if 0 < zcHtons head.u16TotalMsg % 32 then 32 - zcHtons head.u16TotalMsg % 32 else 0
      else 0) := by
  rw [predictedLen, secPaddingCheck, flag]
  rfl

/-- An encryption that succeeds is one of the three algorithms. -/
theorem expansion (encrypts : (secEncrypt crypto context pads head plain).ret = .ok) :
    Expansion context.u32SecSwitch head
      (secEncrypt crypto context pads head plain).cipher.length := by
  have flag := secFlag_eq context.u32SecSwitch head.u8SecType
  rcases secEncrypt_cases encrypts with type | ⟨type, keyed⟩ | type
  · rw [type, if_neg (by rintro ⟨_, ⟨⟩⟩)] at flag
    refine .none (by rw [type]; decide) ?_ (predictedLen_of_flag flag)
    rw [secEncrypt_none type, View.read_length]
  · rw [type, if_neg (by rintro ⟨_, ⟨⟩⟩)] at flag
    have predicted := predictedLen_of_flag flag
    rw [if_pos rfl] at predicted
    refine .aes (by rw [type]; decide) ?_ (by omega)
    rw [secEncrypt_aes type, secAesEncrypt, if_pos keyed]
    exact aesCbcCoreEncrypt_length ..
  · rw [secEncrypt_rsa type] at encrypts ⊢
    have written := (secEncryptTextByRsa_wrote encrypts).1.2
    by_cases two : context.u32SecSwitch = 2
    · rw [type, if_pos ⟨two, rfl⟩] at flag
      exact .rsaUnpredicted type two written (predictedLen_of_flag flag)
    · rw [type, if_neg fun both => two both.1] at flag
      have predicted := predictedLen_of_flag flag
      rw [if_neg (by decide), if_pos rfl] at predicted
      refine .rsa type two written ?_
      split_ifs at predicted <;> omega

/-- What the check lets pass fits the buffer exactly under this condition. -/
theorem fits_iff (encrypts : (secEncrypt crypto context pads head plain).ret = .ok) :
    (PassesLengthCheck context.u32SecSwitch head →
      (secEncrypt crypto context pads head plain).cipher.length + sizeofSecHead ≤
        msgBufferMaxLen) ↔ FitsWhen context.u32SecSwitch head := by
  have range := zcHtons_lt head.u16TotalMsg
  have pieces := rsaPieces_cases (zcHtons head.u16TotalMsg)
  rw [PassesLengthCheck, FitsWhen, msgBufferMaxLen, sizeofSecHead]
  cases expansion encrypts with
  | none type written predicted | aes type written predicted =>
    simp only [type, written, predicted, false_implies, and_true]
    omega
  | rsa type _ written predicted | rsaUnpredicted type _ written predicted =>
    simp only [type, written, predicted, true_implies]
    omega

/-- The prediction holds exactly under this condition. -/
theorem predicts_iff (encrypts : (secEncrypt crypto context pads head plain).ret = .ok) :
    (PassesLengthCheck context.u32SecSwitch head →
      (secEncrypt crypto context pads head plain).cipher.length + sizeofSecHead ≤
          predictedLen context.u32SecSwitch head ∧
        predictedLen context.u32SecSwitch head < 2 ^ 16) ↔
      PredictsWhen context.u32SecSwitch head := by
  have range := zcHtons_lt head.u16TotalMsg
  have pieces := rsaPieces_cases (zcHtons head.u16TotalMsg)
  rw [PassesLengthCheck, PredictsWhen, msgBufferMaxLen, sizeofSecHead]
  cases expansion encrypts with
  | none type written predicted | aes type written predicted =>
    simp only [type, written, predicted, false_implies, and_true]
    omega
  | rsa type two written predicted =>
    simp only [type, two, written, predicted, true_implies, ne_eq, not_false_eq_true, true_and]
    omega
  | rsaUnpredicted type two written predicted =>
    have never : ¬ context.u32SecSwitch ≠ 2 := not_not_intro two
    simp only [type, never, written, predicted, true_implies, false_and, false_or]
    omega

/-- For every head, switch and text whose encryption succeeds: what the check lets pass fits the
buffer exactly when the sum does not wrap and a text for RSA has at most 273 bytes; and the
prediction is no smaller than what is written exactly when that text also has one of the lengths
for which both count the same blocks. -/
theorem outgoing_fits_iff (crypto : Crypto) (context : SecContext)
    (pads : ℕ → ℕ → {byte : UInt8 // byte ≠ 0}) (head : ZcSecHead) (plain : View)
    (encrypts : (secEncrypt crypto context pads head plain).ret = .ok) :
    ((PassesLengthCheck context.u32SecSwitch head →
        (secEncrypt crypto context pads head plain).cipher.length + sizeofSecHead ≤
          msgBufferMaxLen) ↔ FitsWhen context.u32SecSwitch head) ∧
      ((PassesLengthCheck context.u32SecSwitch head →
        (secEncrypt crypto context pads head plain).cipher.length + sizeofSecHead ≤
            predictedLen context.u32SecSwitch head ∧
          predictedLen context.u32SecSwitch head < 2 ^ 16) ↔
        PredictsWhen context.u32SecSwitch head) :=
  ⟨fits_iff encrypts, predicts_iff encrypts⟩

/-- The encryption of a text of `length` zeros for RSA on a device that has just started. -/
def rsaOfZeros (length : ℕ) : SecCipher :=
  secEncrypt Firmware.plain.crypto (hfInit none .zero).secContext Env.calm.pads
    ⟨zcHtons length, zcSecAlgRsa, 0⟩ fun _ => 0

/-- A text of 273 bytes is the longest that passes the check and fits. -/
theorem outgoing_fits_longest : (rsaOfZeros 273).cipher.length + sizeofSecHead ≤ msgBufferMaxLen := by
  have encrypts : (rsaOfZeros 273).ret = .ok := by decide +kernel
  have fits : FitsWhen (hfInit none .zero).secContext.u32SecSwitch
      ⟨zcHtons 273, zcSecAlgRsa, 0⟩ := by decide +kernel
  have passes : PassesLengthCheck (hfInit none .zero).secContext.u32SecSwitch
      ⟨zcHtons 273, zcSecAlgRsa, 0⟩ := by decide +kernel
  rw [rsaOfZeros] at encrypts ⊢
  exact (outgoing_fits_iff _ _ _ _ _ encrypts).1.mpr fits passes

/-- One byte more passes the check as well, and the ciphertext leaves the buffer. -/
theorem outgoing_fits_fails : PassesLengthCheck 1 ⟨zcHtons 274, zcSecAlgRsa, 0⟩ ∧
    (rsaOfZeros 274).ret = .ok ∧
      ¬ (rsaOfZeros 274).cipher.length + sizeofSecHead ≤ msgBufferMaxLen := by
  decide +kernel

end ShuangFa
