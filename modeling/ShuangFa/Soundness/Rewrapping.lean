import ShuangFa.Soundness.Clients
import ShuangFa.Soundness.Encoders

/-! # Messages of clients with their option

`ZC_RecvDataFromClient` puts the option that names the client between the head and the payload of a
message. The new length is compared with the size of the buffer, but without the head, and it is
computed in sixteen bits.
-/

namespace ShuangFa

open Memory

section Messages

variable {env : Env} {clientId : ℕ} {s : Sys} {memory : View}

/-- Swapping twice keeps the lower sixteen bits. -/
theorem zcHtons_zcHtons_mod (n : ℕ) : zcHtons (zcHtons n) = n % 2 ^ 16 := by
  have lower : zcHtons n = zcHtons (n % 2 ^ 16) := by
    rw [zcHtons, zcHtons, Nat.mod_mod]
  rw [lower, zcHtons_zcHtons _ (Nat.mod_lt n (by decide))]

/-- The message of a client with the option that names it. -/
def rewrapped (clientId : ℕ) (memory : View) : List UInt8 :=
  let pstruMsg := ZcMessageHead.load memory
  encoded pstruMsg.version (pstruMsg.optNum + 1) pstruMsg.msgCode pstruMsg.msgId
    (sessionOption clientId ++ memory.read sizeofMessageHead (zcHtons pstruMsg.payloadlen))

theorem rewrapped_length : (rewrapped clientId memory).length =
    16 + zcHtons (ZcMessageHead.load memory).payloadlen := by
  rw [rewrapped, encoded_length, List.length_append, View.read_length]
  exact (Nat.add_assoc ..).symm

/-- Its head says how long it is, and it has its checksum. -/
theorem rewrapped_sound (short : zcHtons (ZcMessageHead.load memory).payloadlen ≤ 408) :
    sizeofMessageHead + zcHtons (ZcMessageHead.load (.ofList (rewrapped clientId memory))).payloadlen =
        (rewrapped clientId memory).length ∧
      checksumHolds (.ofList (rewrapped clientId memory)) := by
  let payload := sessionOption clientId ++
    memory.read sizeofMessageHead (zcHtons (ZcMessageHead.load memory).payloadlen)
  have small : payload.length < 2 ^ 16 := by
    rw [List.length_append, View.read_length]
    exact show 8 + _ < 2 ^ 16 by omega
  constructor
  · have read := load_encoded (ZcMessageHead.load memory).version
      ((ZcMessageHead.load memory).optNum + 1) (ZcMessageHead.load memory).msgCode
      (ZcMessageHead.load memory).msgId payload []
    rw [List.append_nil] at read
    rw [rewrapped, read, zcHtons_zcHtons _ small, encoded_length]
  · have holds := checksumHolds_encoded (ZcMessageHead.load memory).version
      ((ZcMessageHead.load memory).optNum + 1) (ZcMessageHead.load memory).msgCode
      (ZcMessageHead.load memory).msgId payload [] small
    rwa [List.append_nil] at holds

/-- The fields of its head, as they are computed one after the other. -/
theorem rewrapped_eq (clientId : ℕ) (memory : View) :
    let pstruMsg := ZcMessageHead.load memory
    let payload := sessionOption clientId ++
      memory.read sizeofMessageHead (zcHtons pstruMsg.payloadlen)
    let crc := crc16Ccitt payload
    rewrapped clientId memory = { pstruMsg with
      payloadlen := zcHtons (zcHtons pstruMsg.payloadlen + (sizeofMessageOptHead + sizeofSsessionInfo))
      optNum := pstruMsg.optNum + 1
      totalMsgCrc := (UInt8.ofNat (crc / 2 ^ 8), UInt8.ofNat crc) : ZcMessageHead }.bytes ++
        payload := by
  intro pstruMsg payload crc
  have length : payload.length =
      zcHtons pstruMsg.payloadlen + (sizeofMessageOptHead + sizeofSsessionInfo) := by
    rw [List.length_append, View.read_length]
    exact Nat.add_comm ..
  rw [← length]
  rfl

/-- With up to 408 bytes of payload the message with the option is copied and sent. -/
theorem sendClientMessage_rewrapped (behind : memory = s.msgBuildBuffer.view env.beyond)
    (holds : checksumHolds memory) (short : zcHtons (ZcMessageHead.load memory).payloadlen ≤ 408) :
    ∃ t, sendClientMessage env clientId s = some t ∧
      t.calls = s.calls ++ [.sendToMoudle (rewrapped clientId memory)] ∧
        t.clientBuffer.u8MsgBuffer =
          s.clientBuffer.u8MsgBuffer.overlay 0 (rewrapped clientId memory) := by
  have grown : zcHtons (zcHtons (zcHtons (ZcMessageHead.load memory).payloadlen +
      (sizeofMessageOptHead + sizeofSsessionInfo))) =
        zcHtons (ZcMessageHead.load memory).payloadlen +
          (sizeofMessageOptHead + sizeofSsessionInfo) := by
    rw [zcHtons_zcHtons_mod]
    exact Nat.mod_eq_of_lt (show _ + 8 < 2 ^ 16 by omega)
  have inside : (rewrapped clientId memory).length ≤ msgBufferMaxLen := by
    rw [rewrapped_length]
    show 16 + _ ≤ 424
    omega
  have checked : zcHtons (ZcMessageHead.load memory).payloadlen +
      (sizeofMessageOptHead + sizeofSsessionInfo) ≤ msgBuildBufferMaxLen := show _ + 8 ≤ 424 by omega
  rw [sendClientMessage]
  dsimp only
  rw [← behind, if_neg (fun fails => not_checksumHolds.mpr fails holds), grown,
    if_neg (Nat.not_lt.mpr checked), if_neg (Nat.not_lt.mpr (Nat.le_add_left ..)),
    Nat.add_sub_cancel, ← rewrapped_eq, if_neg (Nat.not_lt.mpr inside)]
  exact ⟨_, rfl, rfl, rfl⟩

/-- With more than 408 bytes it is copied behind the end of the buffer, or its length wraps. -/
theorem sendClientMessage_undefined (behind : memory = s.msgBuildBuffer.view env.beyond)
    (holds : checksumHolds memory)
    (checked : zcHtons (zcHtons (zcHtons (ZcMessageHead.load memory).payloadlen +
      (sizeofMessageOptHead + sizeofSsessionInfo))) ≤ msgBuildBufferMaxLen)
    (long : 408 < zcHtons (ZcMessageHead.load memory).payloadlen) :
    sendClientMessage env clientId s = none := by
  have small : zcHtons (ZcMessageHead.load memory).payloadlen < 2 ^ 16 := zcHtons_lt _
  rw [sendClientMessage]
  dsimp only
  rw [← behind, if_neg (fun fails => not_checksumHolds.mpr fails holds),
    if_neg (Nat.not_lt.mpr checked)]
  rw [zcHtons_zcHtons_mod] at checked ⊢
  split
  · rfl
  · rename_i whole
    refine if_pos ?_
    rw [List.length_append, List.length_append, View.read_length]
    change ¬ (_ + 8) % 2 ^ 16 < 8 at whole
    show 424 < 8 + (8 + ((_ + 8) % 2 ^ 16 - 8))
    omega

end Messages

section Rewrapping

variable (fw : Firmware) (env : Env) (clientId : ℕ) (pu8Data : List UInt8) (s : ClientSys)
  (clientBuffer : MsgBuffer)

/-- The globals when the frame in `g_struClientBuffer` was decrypted. -/
def decryptClientFrame : Sys :=
  let memory := clientBuffer.u8MsgBuffer.view env.beyond
  let pu8Key := s.sys.zcConfigDb.struCloudInfo.u8TokenKey
  let plain := aesCbcCoreDecrypt (fw.crypto.aesDecrypt pu8Key) (memory.shift sizeofSecHead)
    (zcHtons (ZcSecHead.load memory).u16TotalMsg) pu8Key env.stale.before
  { s.sys with clientBuffer := clientBuffer }.build plain.1

/-- The memory behind the message in `g_u8MsgBuildBuffer`. -/
def clientMessage : View := (decryptClientFrame fw env s clientBuffer).msgBuildBuffer.view env.beyond

/-- The length the client has put into the head. -/
def clientPayloadlen : ℕ :=
  zcHtons (ZcMessageHead.load (clientMessage fw env s clientBuffer)).payloadlen

/-- The data completes a frame that passes the checks. -/
structure PassesChecks : Prop where
  idle : zcCheckClientIdle clientId s.info = .ok
  received : msgRecvData s.sys.clientBuffer pu8Data = some (.ok, clientBuffer)
  full : clientBuffer.u8Status = .full
  total : zcHtons (ZcSecHead.load (clientBuffer.u8MsgBuffer.view env.beyond)).u16TotalMsg <
    msgBuildBufferMaxLen
  checksum : checksumHolds (clientMessage fw env s clientBuffer)
  payloadlen : zcHtons (zcHtons (clientPayloadlen fw env s clientBuffer +
    (sizeofMessageOptHead + sizeofSsessionInfo))) ≤ msgBuildBufferMaxLen

/-- The message that goes to the module lies inside `u8MsgBuffer`, its length is that of what is
behind the head, and it has its checksum. -/
def RewrapsInside : Prop :=
  ∃ t message, zcRecvDataFromClient fw env clientId pu8Data s = some t ∧
    t.sys.calls = s.sys.calls ++ [.sendToMoudle message] ∧
      t.sys.clientBuffer.u8MsgBuffer.bytes.take message.length = message ∧
        message.length ≤ msgBufferMaxLen ∧
          sizeofMessageHead + zcHtons (ZcMessageHead.load (.ofList message)).payloadlen =
            message.length ∧
              checksumHolds (.ofList message)

end Rewrapping

section Lengths

variable {fw : Firmware} {env : Env} {clientId : ℕ} {pu8Data : List UInt8} {s : ClientSys}
  {clientBuffer : MsgBuffer}

/-- What is done with a frame that passes the first check. -/
theorem PassesChecks.handled (passes : PassesChecks fw env clientId pu8Data s clientBuffer) :
    zcRecvDataFromClient fw env clientId pu8Data s =
      (sendClientMessage env clientId (decryptClientFrame fw env s clientBuffer)).map fun handled =>
        ⟨zcSetClientFree (zcSetClientBusy clientId s.info),
          { handled with clientBuffer := handled.clientBuffer.reset }, []⟩ := by
  rw [zcRecvDataFromClient, if_neg (Ret.ne_error.mpr passes.idle), passes.received,
    Option.bind_some]
  dsimp only
  rw [if_pos ⟨passes.full, rfl⟩, handleClientFrame, if_neg (Nat.not_le.mpr passes.total)]
  rfl

theorem PassesChecks.undefined (passes : PassesChecks fw env clientId pu8Data s clientBuffer)
    (long : 408 < clientPayloadlen fw env s clientBuffer) :
    zcRecvDataFromClient fw env clientId pu8Data s = none := by
  rw [passes.handled, sendClientMessage_undefined rfl passes.checksum passes.payloadlen long]
  rfl

/-- What a client sends with its option stays inside the buffer if and only if its payload has at most
408 bytes. -/
theorem rewrapsInside_iff (passes : PassesChecks fw env clientId pu8Data s clientBuffer) :
    RewrapsInside fw env clientId pu8Data s ↔ clientPayloadlen fw env s clientBuffer ≤ 408 := by
  constructor
  · rintro ⟨t, _, received, _⟩
    by_contra long
    rw [passes.undefined (Nat.not_le.mp long)] at received
    cases received
  · intro short
    obtain ⟨t, sent, calls, stored⟩ :=
      @sendClientMessage_rewrapped env clientId _ _ rfl passes.checksum short
    have fits : (rewrapped clientId (clientMessage fw env s clientBuffer)).length ≤
        msgBufferMaxLen := by
      rw [rewrapped_length]
      exact Nat.add_le_add_left short 16
    have received := passes.handled
    rw [sent, Option.map_some] at received
    refine ⟨_, _, received, calls, ?_, fits, rewrapped_sound short⟩
    show t.clientBuffer.u8MsgBuffer.bytes.take _ = _
    rw [stored]
    exact FixedBuffer.take_overlay_zero _ _ fits

end Lengths

/-- The checksum of zeros is zero. -/
theorem checksumHolds_zeros {message : View} (length : ℕ)
    (head : (ZcMessageHead.load message).totalMsgCrc = (0, 0))
    (size : zcHtons (ZcMessageHead.load message).payloadlen = length)
    (zeros : message.read sizeofMessageHead length = List.replicate length 0) :
    checksumHolds message := by
  have zero : crc16Ccitt (List.replicate length 0) = 0 := by
    rw [crc16Ccitt, crcCalByBit]
    clear size zeros
    induction length with
    | zero => rfl
    | succ length ih => exact ih
  rw [checksumHolds, size, zeros, head]
  exact if_pos zero

/-- A frame of a client with one block, for the token key of the factory and ciphers that change
nothing: the head of a message whose bytes are all zero, and eight of them. -/
def zerosFrame (payloadlen : ℕ) : List UInt8 :=
  let message := (ZcMessageHead.mk 0 1 Code.eventBase 0 (zcHtons payloadlen) (0, 0)).bytes ++
    List.replicate 8 0
  (ZcSecHead.mk (zcHtons 16) zcSecAlgAes 0).bytes ++
    List.zipWith (· ^^^ ·) message gU8DefaultTokenKey.bytes

/-- What `g_struClientBuffer` has when the first client has sent it. -/
def zerosReceived (payloadlen : ℕ) : MsgBuffer :=
  (msgRecvData ClientSys.listening.sys.clientBuffer (zerosFrame payloadlen)).elim .zero Prod.snd

/-- A message with one byte of data. -/
theorem rewrapsInside_zeros : RewrapsInside .plain .calm 5 (zerosFrame 1) .listening ↔
    clientPayloadlen .plain .calm .listening (zerosReceived 1) ≤ 408 :=
  rewrapsInside_iff ⟨rfl, by decide +kernel, by decide +kernel, by decide +kernel,
    by decide +kernel, by decide +kernel⟩

/-- The head announces 409 bytes of zeros; they lie in the buffer. -/
theorem rewrapsInside_fails : ¬ ∀ fw env clientId pu8Data s clientBuffer,
    PassesChecks fw env clientId pu8Data s clientBuffer →
      RewrapsInside fw env clientId pu8Data s := by
  intro all
  have zeros : checksumHolds (clientMessage .plain .calm .listening (zerosReceived 409)) := by
    refine checksumHolds_zeros 409 (by decide +kernel) (by decide +kernel) ?_
    rw [clientMessage, FixedBuffer.read_inside _ _ _ _ (by decide)]
    decide +kernel
  have passes : PassesChecks .plain .calm 5 (zerosFrame 409) .listening (zerosReceived 409) :=
    ⟨rfl, by decide +kernel, by decide +kernel, by decide +kernel, zeros, by decide +kernel⟩
  obtain ⟨_, _, received, _⟩ := all _ _ _ _ _ _ passes
  rw [passes.undefined (by decide +kernel)] at received
  cases received

end ShuangFa
