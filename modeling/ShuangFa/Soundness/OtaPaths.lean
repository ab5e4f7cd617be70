import ShuangFa.Lasting.Effect
import ShuangFa.Machine.Transducer
import ShuangFa.Proofs.Crc

/-! # The two paths of an update

An image comes from the cloud or from the module, in the same messages. The handlers of the module
check the checksum of a chunk once more and answer with a notification; apart from that both paths
are the same receiver, which keeps no more than the state of the update.
-/

namespace ShuangFa

open Memory Machine

inductive OtaRequest where
  | fileBegin
  | fileChunk
deriving DecidableEq, Repr

/-- A message of an update, and what the environment does while it is handled. -/
structure OtaInput where
  request : OtaRequest
  pstruMsg : ZcMessageHead
  payload : View
  env : Env

/-- The code of the answer, and the calls that are no messages. -/
structure OtaAnswer where
  code : UInt8
  calls : List AdapterCall
deriving DecidableEq

/-- The code of the message that was built last. -/
def Sys.builtCode (s : Sys) : UInt8 := s.msgBuildBuffer.bytes.getD 2 0

/-- How a handler has answered. -/
def otaAnswer (before after : Sys) : OtaAnswer where
  code := after.builtCode
  calls := after.store.calls.drop before.store.calls.length

/-- What both paths receive: a begin message sets the state of the update up, and a chunk goes to
flash where it continues the image. -/
def otaReceiver : Transducer PtcOtaInfo OtaInput OtaAnswer where
  step info input := match input.request with
    | .fileBegin => (⟨Code.ack, []⟩, fileBeginInfo input.payload)
    | .fileChunk =>
      let u32FileLen := subU32 (zcHtons input.pstruMsg.payloadlen) 4
      let u32RecvOffset := zcHtonl (loadU32 input.payload 0)
      if u32RecvOffset ≠ info.u32RecvOffset ∨ info.u32TotalLen < addU32 u32RecvOffset u32FileLen ∨
          zcOtaMaxChunkLen < u32FileLen then (⟨Code.err, []⟩, info)
      else
        let update := .update (input.payload.read 4 u32FileLen) u32RecvOffset
        if input.env.update = .error then (⟨Code.err, [update]⟩, info)
        else (⟨Code.ack, [update]⟩, info.advance u32FileLen)

section Replies

variable {reply : UInt8 → Sys → Sys}

/-- A way to answer: a message with the code is built, and what lasts stays as it is. -/
structure Replies (reply : UInt8 → Sys → Sys) : Prop where
  store : ∀ code s, (reply code s).store = s.store
  builtCode : ∀ code s, (reply code s).builtCode = code

/-- The handlers of both paths, but for their answers. -/
def otaReceive (reply : UInt8 → Sys → Sys) (input : OtaInput) (s : Sys) : Sys :=
  match input.request with
  | .fileBegin => reply Code.ack (otaFileBegin input.payload s)
  | .fileChunk =>
    let u32FileLen := subU32 (zcHtons input.pstruMsg.payloadlen) 4
    let u32RecvOffset := zcHtonl (loadU32 input.payload 0)
    if otaChunkRefused u32RecvOffset u32FileLen s then reply Code.err s
    else
      let updated := otaUpdate input.payload u32RecvOffset u32FileLen s
      if input.env.update = .error then reply Code.err updated
      else reply Code.ack (otaAdvance u32FileLen updated)

/-- An answer tells what was done before it. -/
theorem Replies.answers (replies : Replies reply) (code : UInt8) {before after : Sys}
    {calls : List AdapterCall} (called : after.store.calls = before.store.calls ++ calls) :
    otaAnswer before (reply code after) = ⟨code, calls⟩ := by
  rw [otaAnswer, replies.builtCode, replies.store, called, List.drop_left]

/-- Whoever is answered, the update goes on as the receiver does. -/
theorem Replies.receives (replies : Replies reply) (input : OtaInput) (s : Sys) :
    (otaAnswer s (otaReceive reply input s), (otaReceive reply input s).con.struOtaInfo) =
      otaReceiver.step s.con.struOtaInfo input := by
  have info (code : UInt8) (t : Sys) : (reply code t).con.struOtaInfo = t.con.struOtaInfo :=
    congrArg Store.ota (replies.store code t)
  obtain ⟨request, pstruMsg, payload, env⟩ := input
  cases request with
  | fileBegin =>
    have called : (otaFileBegin payload s).store.calls = s.store.calls ++ [] :=
      (congrArg Store.calls (store_otaFileBegin s payload)).trans (Effect.after_calls ..)
    have begun : (otaFileBegin payload s).con.struOtaInfo = fileBeginInfo payload := rfl
    dsimp only [otaReceive, otaReceiver]
    rw [replies.answers Code.ack called, info Code.ack (otaFileBegin payload s), begun]
  | fileChunk =>
    dsimp only [otaReceive, otaReceiver]
    generalize subU32 (zcHtons pstruMsg.payloadlen) 4 = u32FileLen
    generalize zcHtonl (loadU32 payload 0) = u32RecvOffset
    have called : (otaUpdate payload u32RecvOffset u32FileLen s).store.calls =
        s.store.calls ++ [.update (payload.read 4 u32FileLen) u32RecvOffset] :=
      congrArg Store.calls (store_otaUpdate s payload u32RecvOffset u32FileLen)
    have kept : (otaUpdate payload u32RecvOffset u32FileLen s).con.struOtaInfo =
        s.con.struOtaInfo := rfl
    have moved : (otaAdvance u32FileLen (otaUpdate payload u32RecvOffset u32FileLen s)).con.struOtaInfo =
        s.con.struOtaInfo.advance u32FileLen := rfl
    have advanced : (otaAdvance u32FileLen (otaUpdate payload u32RecvOffset u32FileLen s)).store.calls =
        s.store.calls ++ [.update (payload.read 4 u32FileLen) u32RecvOffset] := by
      rw [store_otaAdvance, ← called]
    by_cases refused : otaChunkRefused u32RecvOffset u32FileLen s
    · rw [if_pos refused, replies.answers Code.err (List.append_nil s.store.calls).symm,
        info Code.err s]
      exact (if_pos refused).symm
    · rw [if_neg refused]
      refine Eq.trans ?_ (if_neg refused).symm
      by_cases failed : env.update = .error
      · rw [if_pos failed, if_pos failed, replies.answers Code.err called,
          info Code.err (otaUpdate payload u32RecvOffset u32FileLen s), kept]
      · rw [if_neg failed, if_neg failed, replies.answers Code.ack advanced,
          info Code.ack (otaAdvance u32FileLen (otaUpdate payload u32RecvOffset u32FileLen s)), moved]

end Replies

section Paths

variable (fw : Firmware) (input : OtaInput) (s : Sys)

end Paths

end ShuangFa
