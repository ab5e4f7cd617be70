import Mathlib
import ShuangFa.Model.Adapter
import ShuangFa.Proofs.RoundTrip

/-! # Texts in pieces

RSA takes a text in pieces of twenty-one bytes and makes a block of thirty-two bytes of each. A call
that fails ends the loop, and the code it has returned is replaced by that of the call for the rest.
Only a last piece that is tried again can make up for it, so an encryption that reports success has
all pieces, and opens to the text.
-/

namespace ShuangFa

open Memory

theorem rsaPieces_eq_max (u16Len : ℕ) : rsaPieces u16Len = max 1 (u16Len ⌈/⌉ 21) := by
  rw [Nat.ceilDiv_eq_add_pred_div]
  rcases rsaPieces_cases u16Len with ⟨rfl, one⟩ | ⟨some, pieces⟩
  · rw [one]
    rfl
  · rw [pieces]
    omega

/-- A text of which every piece is encrypted has as many blocks as pieces, and whichever calls fail,
a text whose encryption is successful opens to itself and its length. -/
theorem rsa_round_trip {rsaPublic : ℕ → RsaBlock → Option RsaBlock}
    {rsaPrivate : RsaBlock → Option RsaBlock}
    (inverse : ∀ call, Pkcs1Inverse (rsaPublic call) rsaPrivate)
    (pads : ℕ → ℕ → {byte : UInt8 // byte ≠ 0}) (plain : View) (u16Len : ℕ)
    (fits : 32 * max 1 (u16Len ⌈/⌉ 21) < 2 ^ 16) :
    let sealed := secEncryptTextByRsa rsaPublic pads plain u16Len
    ((∀ index < max 1 (u16Len ⌈/⌉ 21),
        RsaEncryption.Encrypts rsaPublic plain u16Len pads index) →
      sealed.ret = .ok ∧ sealed.u16CiperLen = 32 * max 1 (u16Len ⌈/⌉ 21)) ∧
    (sealed.ret = .ok → ∀ (stale : Stale) (memory : View),
      memory.read 0 sealed.u16CiperLen = sealed.cipher →
        secDecryptTextByRsa rsaPrivate stale memory sealed.u16CiperLen =
          ⟨.ok, plain.read 0 u16Len, u16Len⟩) := by
  intro sealed
  rw [← rsaPieces_eq_max] at fits ⊢
  have reported (ok : sealed.ret = .ok) : sealed.u16CiperLen = 32 * rsaPieces u16Len :=
    (secEncryptTextByRsa_wrote ok).2.trans (Nat.mod_eq_of_lt fits)
  constructor
  · intro encrypts
    have ok := secEncryptTextByRsa_succeeds encrypts
    exact ⟨ok, reported ok⟩
  · intro ok stale memory starts
    rw [reported ok] at starts ⊢
    exact secDecryptTextByRsa_opens inverse stale (secEncryptTextByRsa_wrote ok).1.1 fits starts

/-- A device whose second call fails: blocks are left as they are. -/
def secondFails (call : ℕ) (block : RsaBlock) : Option RsaBlock :=
  if call = 1 then none else some block

theorem pkcs1Inverse_secondFails (call : ℕ) : Pkcs1Inverse (secondFails call) some := by
  apply pkcs1Inverse_of_blocks
  intro block cipher encrypted
  rw [secondFails] at encrypted
  split_ifs at encrypted
  exact encrypted.symm

/-- The second of two full pieces is refused, and encrypted when it is tried again. -/
theorem rsa_round_trip_retried :
    let plain := View.ofList (List.replicate 42 7)
    let sealed := secEncryptTextByRsa secondFails Env.calm.pads plain 42
    ((∀ index < max 1 (42 ⌈/⌉ 21),
        RsaEncryption.Encrypts secondFails plain 42 Env.calm.pads index) →
      sealed.ret = .ok ∧ sealed.u16CiperLen = 32 * max 1 (42 ⌈/⌉ 21)) ∧
    (sealed.ret = .ok → ∀ (stale : Stale) (memory : View),
      memory.read 0 sealed.u16CiperLen = sealed.cipher →
        secDecryptTextByRsa some stale memory sealed.u16CiperLen =
          ⟨.ok, plain.read 0 42, 42⟩) :=
  rsa_round_trip pkcs1Inverse_secondFails _ _ _ (by decide)

example : (secEncryptTextByRsa secondFails Env.calm.pads (.ofList (List.replicate 42 7)) 42).ret =
    .ok := by decide

end ShuangFa
