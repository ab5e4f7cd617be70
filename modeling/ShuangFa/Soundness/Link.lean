import ShuangFa.Proofs.RoundTrip
import ShuangFa.Soundness.Expansion
import ShuangFa.Soundness.Stream

/-! # The link from end to end

What one side encrypts, frames and sends, the other side reassembles, opens and queues. The two
choose their algorithms apart from each other: with the switch at 2 the sender still encrypts what
the receiver takes as it is, when the type is RSA.
-/

namespace ShuangFa

open Memory Machine Framing

/-- What makes `PCT_SendMsgToCloud` return `ZC_RET_OK`. -/
structure SendReturnsOk (fw : Firmware) (env : Env) (head : ZcSecHead) (plain : View) (s : Sys) :
    Prop where
  passes : PassesLengthCheck s.secContext.u32SecSwitch head
  idle : s.sendBuffer.u8Status = .idle
  encrypts : (secEncrypt fw.crypto s.secContext env.pads head plain).ret = .ok

/-- A frame given to `MSG_RecvDataFromCloud` in one chunk leaves one message in the queue. -/
def Queues (fw : Firmware) (env : Env) (frame message : List UInt8) (peer : Sys) : Prop :=
  ∃ target, msgRecvDataFromCloud fw env frame peer = some target ∧
    target.recvQueue.Represents [.recvBuffer] ∧ target.recvBuffer.u32Len = message.length ∧
    target.recvBuffer.message = message

/-- The frame that is sent leaves the plaintext in the queue of the other side. -/
def RoundTrips (fw : Firmware) (env peerEnv : Env) (head : ZcSecHead) (plain : View)
    (sender peer : Sys) : Prop :=
  ∃ sent frame, pctSendMsgToCloud? fw env head plain sender = some (.ok, sent) ∧
    sent.calls = sender.calls ++
      [.sendTcpData sender.con.struCloudConnection.u32Socket frame] ∧
    Queues fw peerEnv frame (plain.read 0 (zcHtons head.u16TotalMsg)) peer

/-- The predicted length does not wrap; and a text for RSA has at most 273 bytes, whose blocks fit
the buffer, and goes out with the switch not at 2. -/
def ArrivesWhen (u32SecSwitch : ℕ) (head : ZcSecHead) : Prop :=
  predictedLen u32SecSwitch head < 2 ^ 16 ∧
    (secEncryptType u32SecSwitch head.u8SecType = zcSecAlgRsa →
      u32SecSwitch ≠ 2 ∧ zcHtons head.u16TotalMsg ≤ 273)

instance (u32SecSwitch : ℕ) (head : ZcSecHead) : Decidable (ArrivesWhen u32SecSwitch head) :=
  inferInstanceAs (Decidable (_ ∧ _))

section Sending

variable {fw : Firmware} {env : Env} {head : ZcSecHead} {plain : View} {s t : Sys}

/-- The head in front of an encrypted text. -/
def sealedHead (fw : Firmware) (env : Env) (head : ZcSecHead) (plain : View) (s : Sys) :
    ZcSecHead :=
  ⟨zcHtons (secEncrypt fw.crypto s.secContext env.pads head plain).cipher.length,
    secEncryptType s.secContext.u32SecSwitch head.u8SecType, head.u8Resver⟩

/-- Where the call has an outcome, it returns `ZC_RET_OK` only so. -/
theorem SendReturnsOk.of_sent (sent : pctSendMsgToCloud? fw env head plain s = some (.ok, t)) :
    SendReturnsOk fw env head plain s := by
  simp only [pctSendMsgToCloud?] at sent
  split_ifs at sent with long idle room failed <;> cases sent
  exact ⟨Nat.le_of_not_lt long, idle, Ret.ne_error.mp failed⟩

/-- The length in the head is that of the text behind it. -/
theorem u16CiperLen_eq (encrypts : (secEncrypt fw.crypto s.secContext env.pads head plain).ret = .ok)
    (small : (secEncrypt fw.crypto s.secContext env.pads head plain).cipher.length < 2 ^ 16) :
    (secEncrypt fw.crypto s.secContext env.pads head plain).u16CiperLen =
      (secEncrypt fw.crypto s.secContext env.pads head plain).cipher.length := by
  rcases secEncrypt_cases encrypts with type | ⟨type, keyed⟩ | type
  · rw [secEncrypt_none type, View.read_length]
  · rw [secEncrypt_aes type, secAesEncrypt, if_pos keyed] at small ⊢
    exact Nat.mod_eq_of_lt small
  · rw [secEncrypt_rsa type] at encrypts small ⊢
    obtain ⟨⟨_, length⟩, reported⟩ := secEncryptTextByRsa_wrote encrypts
    omega

/-- A text that fits the buffer goes out behind its head. -/
theorem SendReturnsOk.sends (returns : SendReturnsOk fw env head plain s)
    (fits : (secEncrypt fw.crypto s.secContext env.pads head plain).cipher.length +
      sizeofSecHead ≤ msgBufferMaxLen) :
    ∃ sent, pctSendMsgToCloud? fw env head plain s = some (.ok, sent) ∧
      sent.calls = s.calls ++ [.sendTcpData s.con.struCloudConnection.u32Socket
        ((sealedHead fw env head plain s).bytes ++
          (secEncrypt fw.crypto s.secContext env.pads head plain).cipher)] := by
  obtain ⟨passes, idle, encrypts⟩ := returns
  have whole := u16CiperLen_eq encrypts (Nat.lt_of_le_of_lt (Nat.le_add_right ..)
    (Nat.lt_of_le_of_lt fits (by decide)))
  have passes : ¬ msgBufferMaxLen < predictedLen s.secContext.u32SecSwitch head % 2 ^ 16 :=
    Nat.not_lt.mpr passes
  rw [predictedLen] at passes
  have room : ¬ msgBufferMaxLen < sizeofSecHead +
      (secEncrypt fw.crypto s.secContext env.pads head plain).cipher.length := by omega
  have succeeded : ¬ (secEncrypt fw.crypto s.secContext env.pads head plain).ret = .error :=
    Ret.ne_error.mpr encrypts
  have shown := s.sendBuffer.u8MsgBuffer.take_overlay_overlay
    (secEncrypt fw.crypto s.secContext env.pads head plain).cipher
    (sealedHead fw env head plain s).bytes (Nat.le_of_not_lt room)
  refine ⟨_, (if_neg passes).trans ((if_pos idle).trans ((if_neg room).trans (if_neg succeeded))),
    ?_⟩
  rw [whole, Nat.add_comm _ sizeofSecHead]
  exact congrArg (fun frame => s.calls ++ [AdapterCall.sendTcpData _ frame]) shown

/-- A text that does not fit leaves the buffer. -/
theorem SendReturnsOk.overruns (returns : SendReturnsOk fw env head plain s)
    (long : msgBufferMaxLen <
      (secEncrypt fw.crypto s.secContext env.pads head plain).cipher.length + sizeofSecHead) :
    pctSendMsgToCloud? fw env head plain s = none := by
  obtain ⟨passes, idle, _⟩ := returns
  have passes : ¬ msgBufferMaxLen < predictedLen s.secContext.u32SecSwitch head % 2 ^ 16 :=
    Nat.not_lt.mpr passes
  rw [predictedLen] at passes
  have room : msgBufferMaxLen < sizeofSecHead +
      (secEncrypt fw.crypto s.secContext env.pads head plain).cipher.length := by omega
  exact (if_neg passes).trans ((if_pos idle).trans (if_pos room))

end Sending

section Receiving

variable {fw : Firmware} {env peerEnv : Env} {head : ZcSecHead} {plain : View} {sender peer : Sys}
  {frame text message : List UInt8}

/-- A frame that opens leaves its text in the queue. -/
theorem queues_of_opens (idle : peer.recvBuffer.u8Status = .idle)
    (empty : peer.recvQueue.Represents []) (valid : frameFormat.IsFrame frame)
    (opens : OpensAs fw peer frame text) : Queues fw env frame text peer := by
  have collected : peer.recvBuffer.collected = [] := by simp only [MsgBuffer.collected, idle]
  have initially : KeepsUp peer (fun _ => text) peer ⟨[], none⟩ :=
    ⟨rfl, fun _ => ⟨empty, by simp [idle], .of_idle idle, collected⟩, by rintro _ ⟨⟩⟩
  obtain ⟨target, step, keeps⟩ := initially.complete rfl valid opens (List.nil_append frame)
  obtain ⟨_, queued, _, message⟩ := keeps.holds frame rfl
  refine ⟨target, step, queued, ?_, message⟩
  rw [← message]
  exact (target.recvBuffer.length_take target.recvBuffer.len_le).symm

/-- A frame leaves one message. -/
theorem Queues.unique (first : Queues fw env frame text peer)
    (second : Queues fw env frame message peer) : text = message := by
  obtain ⟨target, step, _, _, left⟩ := first
  obtain ⟨other, again, _, _, right⟩ := second
  obtain rfl := Option.some.inj (step.symm.trans again)
  exact left.symm.trans right

/-- The frame of a text that fits is one, whatever the algorithm. -/
theorem isFrame_sealed
    (fits : (secEncrypt fw.crypto sender.secContext env.pads head plain).cipher.length +
      sizeofSecHead ≤ msgBufferMaxLen) :
    frameFormat.IsFrame ((sealedHead fw env head plain sender).bytes ++
      (secEncrypt fw.crypto sender.secContext env.pads head plain).cipher) :=
  isFrame_frame rfl fits

/-- The other side takes a text for RSA as it is when the switch is at 2. -/
theorem opensAs_unopened (linked : Linked fw.crypto sender.secContext peer.secContext)
    (two : sender.secContext.u32SecSwitch = 2)
    (type : secEncryptType sender.secContext.u32SecSwitch head.u8SecType = zcSecAlgRsa)
    (fits : (secEncrypt fw.crypto sender.secContext env.pads head plain).cipher.length +
      sizeofSecHead ≤ msgBufferMaxLen) :
    OpensAs fw peer ((sealedHead fw env head plain sender).bytes ++
        (secEncrypt fw.crypto sender.secContext env.pads head plain).cipher)
      (secEncrypt fw.crypto sender.secContext env.pads head plain).cipher := by
  apply opensAs_clear fw peer rfl fits
  rw [linked.switch, sealedHead, secFlag_eq, secEncryptType_idem, if_pos ⟨two, type⟩]

/-- Apart from that the other side opens what was encrypted. -/
theorem opensAs_sealed (linked : Linked fw.crypto sender.secContext peer.secContext)
    (encrypts : (secEncrypt fw.crypto sender.secContext env.pads head plain).ret = .ok)
    (agreed : secEncryptType sender.secContext.u32SecSwitch head.u8SecType = zcSecAlgRsa →
      sender.secContext.u32SecSwitch ≠ 2)
    (fits : (secEncrypt fw.crypto sender.secContext env.pads head plain).cipher.length +
      sizeofSecHead ≤ msgBufferMaxLen) :
    OpensAs fw peer ((sealedHead fw env head plain sender).bytes ++
        (secEncrypt fw.crypto sender.secContext env.pads head plain).cipher)
      (plain.read 0 (zcHtons head.u16TotalMsg)) := by
  have flag : secFlag peer.secContext.u32SecSwitch (sealedHead fw env head plain sender).u8SecType =
      secEncryptType sender.secContext.u32SecSwitch head.u8SecType := by
    rw [linked.switch, sealedHead, secFlag_eq, secEncryptType_idem]
    exact if_neg fun both => agreed both.2 both.1
  have small : (secEncrypt fw.crypto sender.secContext env.pads head plain).cipher.length + 4 ≤
    424 := fits
  have total : zcHtons (sealedHead fw env head plain sender).u16TotalMsg =
      (secEncrypt fw.crypto sender.secContext env.pads head plain).cipher.length :=
    zcHtons_zcHtons _ (by omega)
  apply opensAs_frame fw peer rfl fits
  intro stale memory starts
  obtain ⟨rest, opened⟩ :=
    secDecrypt_secEncrypt linked encrypts (by omega) flag total stale starts
  rw [opened]
  exact ⟨rfl, List.take_left' (View.read_length ..), (View.read_length ..).symm⟩

/-- A frame that is sent and arrives. -/
theorem roundTrips_of_arrives (returns : SendReturnsOk fw env head plain sender)
    (idle : peer.recvBuffer.u8Status = .idle) (empty : peer.recvQueue.Represents [])
    (linked : Linked fw.crypto sender.secContext peer.secContext)
    (arrives : ArrivesWhen sender.secContext.u32SecSwitch head) :
    RoundTrips fw env peerEnv head plain sender peer := by
  have fitting : FitsWhen sender.secContext.u32SecSwitch head :=
    ⟨arrives.1, fun type => .inl (arrives.2 type).2⟩
  have fits := (fits_iff returns.encrypts).mpr fitting returns.passes
  obtain ⟨sent, defined, calls⟩ := returns.sends fits
  refine ⟨sent, _, defined, calls, ?_⟩
  apply queues_of_opens idle empty (isFrame_sealed fits)
  exact opensAs_sealed linked returns.encrypts (fun type => (arrives.2 type).1) fits

/-- A frame that is sent and does not arrive as it was. -/
theorem not_roundTrips_of_not_arrives (returns : SendReturnsOk fw env head plain sender)
    (idle : peer.recvBuffer.u8Status = .idle) (empty : peer.recvQueue.Represents [])
    (linked : Linked fw.crypto sender.secContext peer.secContext)
    (fails : ¬ ArrivesWhen sender.secContext.u32SecSwitch head) :
    ¬ RoundTrips fw env peerEnv head plain sender peer := by
  rintro ⟨sent, frame, defined, calls, queues⟩
  rcases Nat.lt_or_ge msgBufferMaxLen ((secEncrypt fw.crypto sender.secContext env.pads head
    plain).cipher.length + sizeofSecHead) with long | fits
  · rw [returns.overruns long] at defined
    cases defined
  · -- what fits and does not arrive is a text for RSA that the other side takes as it is
    have fitting := (fits_iff returns.encrypts).mp fun _ => fits
    have type : secEncryptType sender.secContext.u32SecSwitch head.u8SecType = zcSecAlgRsa := by
      by_contra other
      exact fails ⟨fitting.1, fun type => absurd type other⟩
    have two : sender.secContext.u32SecSwitch = 2 := by
      by_contra other
      have passes : predictedLen sender.secContext.u32SecSwitch head % 2 ^ 16 ≤ msgBufferMaxLen :=
        returns.passes
      rw [Nat.mod_eq_of_lt fitting.1] at passes
      refine fails ⟨fitting.1, fun _ => ⟨other, ?_⟩⟩
      rcases fitting.2 type with short | long
      · exact short
      · omega
    obtain ⟨_, again, sentCalls⟩ := returns.sends fits
    obtain rfl : sent = _ := congrArg Prod.snd (Option.some.inj (defined.symm.trans again))
    have same := List.append_cancel_left (calls.symm.trans sentCalls)
    simp only [List.cons.injEq, AdapterCall.sendTcpData.injEq, true_and, and_true] at same
    rw [same] at queues
    have left := queues.unique
      (queues_of_opens idle empty (isFrame_sealed fits) (opensAs_unopened linked two type fits))
    have lengths := congrArg List.length left
    have encrypts := returns.encrypts
    rw [secEncrypt_rsa type] at encrypts
    have pieces := rsaPieces_cases (zcHtons head.u16TotalMsg)
    have range := zcHtons_lt head.u16TotalMsg
    rw [View.read_length, secEncrypt_rsa type, (secEncryptTextByRsa_wrote encrypts).1.2] at lengths
    omega

end Receiving

/-- For every switch, head and plaintext for which `PCT_SendMsgToCloud` returns `ZC_RET_OK`, and
every peer that is linked to the sender and waits for a frame: the frame leaves exactly the
plaintext in the peer's queue if and only if the predicted length does not wrap and a text for RSA
has at most 273 bytes and does not go out with the switch at 2. -/
theorem roundTrips_iff_arrives (fw : Firmware) (env peerEnv : Env) (head : ZcSecHead) (plain : View)
    (sender peer : Sys) (returns : SendReturnsOk fw env head plain sender)
    (idle : peer.recvBuffer.u8Status = .idle) (empty : peer.recvQueue.Represents [])
    (linked : Linked fw.crypto sender.secContext peer.secContext) :
    RoundTrips fw env peerEnv head plain sender peer ↔
      ArrivesWhen sender.secContext.u32SecSwitch head := by
  constructor
  · intro trips
    by_contra fails
    exact not_roundTrips_of_not_arrives returns idle empty linked fails trips
  · exact roundTrips_of_arrives returns idle empty linked

/-- A device that has just started, with a switch. -/
def switched (u32SecSwitch : ℕ) : Sys :=
  let s := hfInit none .zero
  { s with zcConfigDb := { s.zcConfigDb with
      struSwitchInfo := { s.zcConfigDb.struSwitchInfo with u32SecSwitch := u32SecSwitch } } }

/-- Without ciphers two such devices are linked. -/
theorem linked_switched (u32SecSwitch : ℕ) : Linked Firmware.plain.crypto
    (switched u32SecSwitch).secContext (switched u32SecSwitch).secContext :=
  ⟨rfl, rfl, rfl, rfl, fun _ => rfl, pkcs1Inverse_of_blocks fun _ _ same => same.symm⟩

/-- A text of two blocks for RSA arrives with the switch at 1. -/
theorem roundTrips_rsa : RoundTrips .plain .calm .calm ⟨zcHtons 42, zcSecAlgRsa, 0⟩ (fun _ => 7)
    (switched 1) (switched 1) := by
  have returns : SendReturnsOk .plain .calm ⟨zcHtons 42, zcSecAlgRsa, 0⟩ (fun _ => 7)
      (switched 1) := ⟨by decide +kernel, rfl, by decide +kernel⟩
  have trips := roundTrips_iff_arrives .plain .calm .calm _ _ _ _ returns rfl .init
    (linked_switched 1)
  exact trips.mpr (by decide +kernel)

/-- With the switch at 2 the peer queues the ciphertext. -/
theorem roundTrips_fails : SendReturnsOk .plain .calm ⟨zcHtons 42, zcSecAlgRsa, 0⟩ (fun _ => 7)
      (switched 2) ∧
    (switched 2).recvBuffer.u8Status = .idle ∧ (switched 2).recvQueue.Represents [] ∧
      Linked Firmware.plain.crypto (switched 2).secContext (switched 2).secContext ∧
      ¬ RoundTrips .plain .calm .calm ⟨zcHtons 42, zcSecAlgRsa, 0⟩ (fun _ => 7)
        (switched 2) (switched 2) := by
  have returns : SendReturnsOk .plain .calm ⟨zcHtons 42, zcSecAlgRsa, 0⟩ (fun _ => 7)
      (switched 2) := ⟨by decide +kernel, rfl, by decide +kernel⟩
  refine ⟨returns, rfl, .init, linked_switched _, ?_⟩
  exact not_roundTrips_of_not_arrives returns rfl .init (linked_switched _) (by decide +kernel)

end ShuangFa
