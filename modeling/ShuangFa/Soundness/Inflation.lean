import ShuangFa.Proofs.SecEngine
import ShuangFa.Receive.Delivery

/-! # The length of an opened frame

A frame that opens is no longer than it was sealed, and one that does not leaves the buffer alone,
under a condition on the algorithm the frame chooses: nothing without encryption, a padding that is
not longer than the text under AES, texts together not longer than their blocks under RSA. A frame
that is refused leaves a length that nothing has assigned, and as many bytes of the build buffer
come into the receive buffer.
-/

namespace ShuangFa

open Memory Machine

section Frames

variable (fw : Firmware) (env : Env) (pu8Data : List UInt8) (frame : MsgBuffer) (s : Sys)

/-- The text behind the head of a frame. -/
def frameText : View := (frame.u8MsgBuffer.view env.beyond).shift sizeofSecHead

/-- The texts of the RSA blocks of a frame that open. -/
def frameTexts : List (List UInt8) :=
  rsaTexts (fun place => rsaPkcs1Decrypt (fw.crypto.rsaPrivate s.registerInfo.u8PrivateKey)
    (frameTotal env frame) ((frameText env frame).shift place)) (rsaBlocks (frameTotal env frame)) 0

/-- A frame that opens is not longer than before, one that does not leaves the buffer as it is, and
no length is beyond the buffer. -/
structure Uninflated : Prop where
  accepted : Opens fw env frame s → (decryptFrame fw env frame s).u16PlainLen ≤ frameTotal env frame
  rejected : ¬ Opens fw env frame s → (msgRecvDataFromCloud fw env pu8Data s).map
    (·.recvBuffer.u8MsgBuffer) = some frame.u8MsgBuffer
  copied : (decryptFrame fw env frame s).u16PlainLen ≤ msgBufferMaxLen

/-- The first bytes of the build buffer, with a text in front, are those of the frame. -/
def Preserves (plain : List UInt8) (length : ℕ) : Prop :=
  length ≤ msgBufferMaxLen ∧
    (s.msgBuildBuffer.overlay 0 plain).bytes.take length = frame.u8MsgBuffer.bytes.take length

instance (plain : List UInt8) (length : ℕ) : Decidable (Preserves frame s plain length) :=
  inferInstanceAs (Decidable (_ ∧ _))

/-- The RSA texts of a frame are not longer than the frame, or what the first block that does not
open leaves is the frame itself. -/
def RsaConfined : Prop :=
  let texts := frameTexts fw env frame s
  if texts.length = rsaBlocks (frameTotal env frame) then
    texts.flatten.length ≤ frameTotal env frame
  else Preserves frame s texts.flatten
    ((texts.flatten.length + lastLength texts env.stale.s32len) % 2 ^ 16)

instance : Decidable (RsaConfined fw env frame s) := inferInstanceAs (Decidable (ite ..))

/-- The padding of an AES frame is not longer than the frame. -/
def AesConfined : Prop :=
  (paddingByte (fw.crypto.aesDecrypt s.con.u8SessionKey) (frameText env frame) s.con.ivRecv
    (frameTotal env frame) env.stale.before).toNat ≤ frameTotal env frame

instance : Decidable (AesConfined fw env frame s) := inferInstanceAs (Decidable (_ ≤ _))

/-- What keeps a frame from being inflated, by its algorithm. -/
def Confined : Prop :=
  if frameAlg env frame s = zcSecAlgNone then True
  else if frameAlg env frame s = zcSecAlgRsa then RsaConfined fw env frame s
  else if frameAlg env frame s = zcSecAlgAes ∧ s.con.u8keyRecv = true then
    AesConfined fw env frame s
  else Preserves frame s [] env.stale.u16PlainLen

instance : Decidable (Confined fw env frame s) := inferInstanceAs (Decidable (ite ..))

end Frames

section Outcomes

variable {fw : Firmware} {env : Env} {pu8Data : List UInt8} {frame : MsgBuffer} {s : Sys}
  {plain : List UInt8} {length : ℕ}

/-- A frame that opens is inflated or not by its length. -/
theorem uninflated_iff_of_accepted (bounded : frameTotal env frame + sizeofSecHead ≤ msgBufferMaxLen)
    (result : decryptFrame fw env frame s = ⟨.ok, plain, length⟩) :
    Uninflated fw env pu8Data frame s ↔ length ≤ frameTotal env frame := by
  have opened : Opens fw env frame s := congrArg SecResult.ret result
  have size : (decryptFrame fw env frame s).u16PlainLen = length :=
    congrArg SecResult.u16PlainLen result
  constructor
  · intro uninflated
    exact size ▸ uninflated.accepted opened
  · intro shorter
    refine ⟨fun _ => size ▸ shorter, fun refused => absurd opened refused, ?_⟩
    rw [size]
    omega

/-- A frame that is refused leaves what stands in the build buffer. -/
theorem uninflated_iff_of_rejected (completes : completedFrame s pu8Data = some frame)
    (result : decryptFrame fw env frame s = ⟨.error, plain, length⟩) :
    Uninflated fw env pu8Data frame s ↔ Preserves frame s plain length := by
  have refused : ¬ Opens fw env frame s := by
    rw [Opens, result]
    exact nofun
  have size : (decryptFrame fw env frame s).u16PlainLen = length :=
    congrArg SecResult.u16PlainLen result
  have text : deliveredText fw env frame s =
      (s.msgBuildBuffer.overlay 0 plain).bytes.take length := by
    rw [deliveredText, result]
  have long (fits : length ≤ msgBufferMaxLen) :
      (deliveredText fw env frame s).length = length := by
    rw [text]
    exact List.length_take_of_le (by rw [FixedBuffer.size_eq]; exact fits)
  constructor
  · intro uninflated
    obtain ⟨t, step, same⟩ := Option.map_eq_some_iff.mp (uninflated.rejected refused)
    have fits : length ≤ msgBufferMaxLen := size ▸ uninflated.copied
    have bytes := (delivers_of_completed completes step).bytes
    refine ⟨fits, ?_⟩
    rw [← text, ← same, bytes]
    have shown := frame.u8MsgBuffer.take_overlay_zero (deliveredText fw env frame s)
      (by rw [long fits]; exact fits)
    rw [long fits] at shown
    exact shown.symm
  · rintro ⟨fits, same⟩
    refine ⟨fun opened => absurd opened refused, fun _ => ?_, size.symm ▸ fits⟩
    obtain ⟨t, step⟩ := exists_of_completed fw env completes (size.symm ▸ fits)
    rw [step, Option.map_some, (delivers_of_completed completes step).bytes, text, same,
      FixedBuffer.overlay_zero_take]

/-- RSA texts are shorter than their blocks, but the last block need not be in the frame. -/
theorem uninflated_iff_rsaConfined (completes : completedFrame s pu8Data = some frame)
    (bounded : frameTotal env frame + sizeofSecHead ≤ msgBufferMaxLen)
    (result : decryptFrame fw env frame s = secDecryptTextByRsa
      (fw.crypto.rsaPrivate s.registerInfo.u8PrivateKey) env.stale (frameText env frame)
      (frameTotal env frame)) :
    Uninflated fw env pu8Data frame s ↔ RsaConfined fw env frame s := by
  have total : frameTotal env frame + 4 ≤ 424 := bounded
  have same : rsaTexts (fun place => rsaPkcs1Decrypt (fw.crypto.rsaPrivate
      s.registerInfo.u8PrivateKey) (frameTotal env frame) ((frameText env frame).shift place))
      (rsaBlocks (frameTotal env frame)) 0 = frameTexts fw env frame s := rfl
  have texts := secDecryptTextByRsa_eq (fw.crypto.rsaPrivate s.registerInfo.u8PrivateKey) env.stale
    (frameText env frame) (frameTotal env frame) same
  have short : (frameTexts fw env frame s).flatten.length ≤ 29 * rsaBlocks (frameTotal env frame) :=
    rsaTexts_flatten_length_le (fun _ _ => rsaPkcs1Decrypt_length_le) _ _
  have blocks := rsaBlocks_le (frameTotal env frame)
  rw [texts] at result
  simp only [RsaConfined]
  split_ifs at result ⊢
  · rw [uninflated_iff_of_accepted bounded result, Nat.mod_eq_of_lt (by omega)]
  · exact uninflated_iff_of_rejected completes result

/-- A frame that is complete is not inflated if and only if it is confined. -/
theorem uninflated_iff_confined (fw : Firmware) (env : Env) (s : Sys) (pu8Data : List UInt8)
    (frame : MsgBuffer) (completes : completedFrame s pu8Data = some frame)
    (bounded : frameTotal env frame + sizeofSecHead ≤ msgBufferMaxLen) :
    Uninflated fw env pu8Data frame s ↔ Confined fw env frame s := by
  have total : frameTotal env frame + 4 ≤ 424 := bounded
  have result : decryptFrame fw env frame s =
      if frameAlg env frame s = zcSecAlgNone then
        ⟨.ok, (frameText env frame).read 0 (frameTotal env frame), frameTotal env frame⟩
      else if frameAlg env frame s = zcSecAlgRsa then
        secDecryptTextByRsa (fw.crypto.rsaPrivate s.registerInfo.u8PrivateKey) env.stale
          (frameText env frame) (frameTotal env frame)
      else if frameAlg env frame s = zcSecAlgAes then
        secAesDecrypt fw.crypto s.secContext env.stale (frameText env frame) (frameTotal env frame)
      else ⟨.error, [], env.stale.u16PlainLen⟩ := rfl
  rw [Confined]
  by_cases none' : frameAlg env frame s = zcSecAlgNone
  · rw [if_pos none'] at result ⊢
    exact (uninflated_iff_of_accepted bounded result).trans (iff_true_intro (Nat.le_refl _))
  rw [if_neg none'] at result ⊢
  by_cases rsa : frameAlg env frame s = zcSecAlgRsa
  · rw [if_pos rsa] at result ⊢
    exact uninflated_iff_rsaConfined completes bounded result
  rw [if_neg rsa] at result ⊢
  by_cases aes : frameAlg env frame s = zcSecAlgAes
  · rw [if_pos aes, secAesDecrypt] at result
    by_cases key : s.secContext.u8keyRecv = true
    · rw [if_pos ⟨aes, key⟩]
      rw [if_pos key] at result
      exact (uninflated_iff_of_accepted bounded result).trans
        (aesCbcCoreDecrypt_length_le _ _ _ (by omega) _)
    · rw [if_neg fun both => key both.2]
      rw [if_neg key] at result
      exact uninflated_iff_of_rejected completes result
  · rw [if_neg aes] at result
    rw [if_neg fun both => aes both.1]
    exact uninflated_iff_of_rejected completes result

end Outcomes

/-- Under AES with blocks left as they are, a text that ends in a padding longer than itself. -/
def overpadded : List UInt8 :=
  (ZcSecHead.mk (zcHtons 16) zcSecAlgAes 0).bytes ++ List.replicate 16 248

/-- A frame in the clear is confined. -/
theorem uninflated_plainFrame : ∃ frame, completedFrame (hfInit none .zero) (plainFrame [1, 2, 3]) =
    some frame ∧ Uninflated .plain .calm (plainFrame [1, 2, 3]) frame (hfInit none .zero) := by
  have complete : (completedFrame (hfInit none .zero) (plainFrame [1, 2, 3])).isSome := by
    decide +kernel
  have fits : ∀ frame ∈ completedFrame (hfInit none .zero) (plainFrame [1, 2, 3]),
      frameTotal .calm frame + sizeofSecHead ≤ msgBufferMaxLen ∧
        Confined .plain .calm frame (hfInit none .zero) := by decide +kernel
  obtain ⟨frame, completes⟩ := Option.isSome_iff_exists.mp complete
  obtain ⟨bounded, confined⟩ := fits frame completes
  exact ⟨frame, completes, (uninflated_iff_confined .plain .calm (hfInit none .zero)
    (plainFrame [1, 2, 3]) frame completes bounded).mpr confined⟩

/-- A device that is connected takes a frame of 16 bytes for one of 65297. -/
theorem uninflated_fails : ∃ s frame,
    (firmware .plain).replay? (hfInit none .zero) connecting = some s ∧
    completedFrame s overpadded = some frame ∧
    frameTotal .calm frame = 16 ∧ (decryptFrame .plain .calm frame s).u16PlainLen = 65297 ∧
    ¬ Uninflated .plain .calm overpadded frame s := by
  have reached : ((firmware .plain).replay? (hfInit none .zero) connecting).any fun s =>
      (completedFrame s overpadded).any fun frame => decide (frameTotal .calm frame = 16 ∧
        (decryptFrame .plain .calm frame s).u16PlainLen = 65297) := by decide +kernel
  obtain ⟨s, replayed, completed⟩ := (Option.any_eq_true _ _).mp reached
  obtain ⟨frame, completes, measured⟩ := (Option.any_eq_true _ _).mp completed
  obtain ⟨total, length⟩ := of_decide_eq_true measured
  refine ⟨s, frame, replayed, completes, total, length, fun uninflated => ?_⟩
  have fits := uninflated.copied
  rw [length] at fits
  exact absurd fits (by decide)

end ShuangFa
