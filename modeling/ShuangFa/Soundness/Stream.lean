import ShuangFa.Proofs.SecEngine
import ShuangFa.Receive.Delivery

/-! # The messages of a stream of frames

The receive thread hands on chunks and a handler takes messages, in any order. As long as no chunk
reaches over the end of a frame and none comes while the receive buffer is full, the two keep up
with a receiver of frames, so the messages taken are the plaintexts of the frames in their order.
What comes behind the end of a frame in its chunk, or while a message waits, is lost.
-/

namespace ShuangFa

open Memory Machine Framing

/-- `MSG_PopMsg` and the reset of the buffer, as every handler of a message does them. -/
def takeMsg (s : Sys) : Sys :=
  match msgPopMsg s.recvQueue with
  | (none, _) => s
  | (some pointer, recvQueue) => { s with recvQueue := recvQueue }.resetBuffer pointer

/-- A chunk of the stream is handed on, or a handler looks for a message. -/
inductive StreamStep where
  | recvDataFromCloud (env : Env) (pu8Data : List UInt8)
  | takeMsg

namespace StreamStep

def run (fw : Firmware) (s : Sys) : StreamStep → Option Sys
  | recvDataFromCloud env pu8Data => msgRecvDataFromCloud fw env pu8Data s
  | takeMsg => some (ShuangFa.takeMsg s)

/-- The step as one of a receiver of frames. -/
def op : StreamStep → Op
  | recvDataFromCloud _ pu8Data => .feed pu8Data
  | takeMsg => .consume

/-- The message a step takes. -/
def popped (s : Sys) : StreamStep → List (List UInt8)
  | recvDataFromCloud _ _ => []
  | takeMsg => ((msgPopMsg s.recvQueue).1.map fun pointer => (s.buffer pointer).message).toList

/-- No chunk comes while the receive buffer is full. -/
def Paced (s : Sys) : StreamStep → Prop
  | recvDataFromCloud _ _ => s.recvBuffer.u8Status ≠ .full
  | takeMsg => True

instance (s : Sys) : (step : StreamStep) → Decidable (Paced s step)
  | recvDataFromCloud _ _ => inferInstanceAs (Decidable (_ ≠ _))
  | takeMsg => isTrue trivial

end StreamStep

/-- The two threads that share the receive buffer. -/
def stream (fw : Firmware) : PartialMachine Sys StreamStep := ⟨StreamStep.run fw⟩

/-- Whatever lies behind a frame, `SEC_Decrypt` opens it to a text. -/
def OpensAs (fw : Firmware) (s : Sys) (frame text : List UInt8) : Prop :=
  ∀ (env : Env) (buffer : MsgBuffer), buffer.u8MsgBuffer.bytes.take frame.length = frame →
    Opens fw env buffer s ∧
      (decryptFrame fw env buffer s).plain.take (decryptFrame fw env buffer s).u16PlainLen = text ∧
      (decryptFrame fw env buffer s).u16PlainLen = text.length

/-- The receive buffer and its queue as a receiver. -/
structure KeepsUp (source : Sys) (plaintext : List UInt8 → List UInt8) (s : Sys)
    (receiver : Receiver) : Prop where
  context : s.secContext = source.secContext
  awaits : receiver.ready = none → s.recvQueue.Represents [] ∧ s.recvBuffer.u8Status ≠ .full ∧
    s.recvBuffer.Sound ∧ s.recvBuffer.collected = receiver.acc
  holds : ∀ frame, receiver.ready = some frame → receiver.acc = [] ∧
    s.recvQueue.Represents [.recvBuffer] ∧ s.recvBuffer.u8Status = .full ∧
    s.recvBuffer.message = plaintext frame

section Steps

variable {fw : Firmware} {env : Env} {source s t : Sys} {plaintext : List UInt8 → List UInt8}
  {receiver : Receiver} {chunk frame : List UInt8} {all : List (List UInt8)}

theorem secContext_msgRecvDataFromCloud (step : msgRecvDataFromCloud fw env chunk s = some t) :
    t.secContext = s.secContext := by
  obtain ⟨recvBuffer, recvQueue, msgBuildBuffer, rfl⟩ := msgRecvDataFromCloud_changes step
  rfl

/-- A look takes the message, or there is none. -/
theorem KeepsUp.takeMsg (keeps : KeepsUp source plaintext s receiver) :
    KeepsUp source plaintext (takeMsg s) ⟨receiver.acc, none⟩ ∧
      StreamStep.popped s .takeMsg = receiver.ready.toList.map plaintext := by
  cases ready : receiver.ready with
  | none =>
    obtain ⟨empty, rest⟩ := keeps.awaits ready
    simp only [ShuangFa.takeMsg, StreamStep.popped, empty.pop_nil]
    exact ⟨⟨keeps.context, fun _ => ⟨empty, rest⟩, nofun⟩, rfl⟩
  | some frame =>
    obtain ⟨fresh, queued, _, message⟩ := keeps.holds frame ready
    obtain ⟨next, popped, left⟩ := queued.pop_cons
    simp only [ShuangFa.takeMsg, StreamStep.popped, popped]
    refine ⟨⟨keeps.context, fun _ => ⟨left, nofun, .of_idle rfl, fresh.symm⟩, nofun⟩, ?_⟩
    exact congrArg (fun text => [text]) message

/-- What `MSG_RecvData` makes of a chunk that stays inside a frame. -/
theorem KeepsUp.receives (keeps : KeepsUp source plaintext s receiver)
    (awaits : receiver.ready = none) (valid : frameFormat.IsFrame frame)
    (within : receiver.acc ++ chunk <+: frame) : ∃ ret buffer,
      msgRecvData s.recvBuffer chunk = some (ret, buffer) ∧
        RecvOutcome (receiver.acc ++ chunk) ret buffer := by
  obtain ⟨_, part, sound, collected⟩ := keeps.awaits awaits
  have short : chunk.length + s.recvBuffer.u32Len < 2 ^ 32 := by
    have inside := within.length_le
    have fits : frame.length ≤ 424 := valid.fits
    have room : s.recvBuffer.u32Len ≤ 424 := s.recvBuffer.len_le
    rw [List.length_append] at inside
    omega
  obtain ⟨⟨ret, buffer⟩, received⟩ := Option.isSome_iff_exists.mp (msgRecvData_isSome sound short)
  exact ⟨ret, buffer, received, collected ▸ msgRecvData_outcome sound part received⟩

/-- A chunk that does not end its frame is collected. -/
theorem KeepsUp.collect (keeps : KeepsUp source plaintext s receiver)
    (awaits : receiver.ready = none) (valid : frameFormat.IsFrame frame)
    (within : receiver.acc ++ chunk <+: frame) (proper : receiver.acc ++ chunk ≠ frame) :
    ∃ t, msgRecvDataFromCloud fw env chunk s = some t ∧
      KeepsUp source plaintext t ⟨receiver.acc ++ chunk, none⟩ := by
  obtain ⟨ret, buffer, received, outcome⟩ := keeps.receives awaits valid within
  obtain ⟨part, collected⟩ := outcome.collected_of_part (valid.progress_part within proper)
  have step : msgRecvDataFromCloud fw env chunk s = some { s with recvBuffer := buffer } := by
    rw [msgRecvDataFromCloud, received, Option.bind_eq_bind, Option.bind_some]
    simp only [part, and_false, if_false]
  refine ⟨_, step, (secContext_msgRecvDataFromCloud step).trans keeps.context, fun _ => ?_, by rintro _ ⟨⟩⟩
  exact ⟨(keeps.awaits awaits).1, part, outcome.sound, collected⟩

/-- A chunk that ends its frame makes the plaintext wait. -/
theorem KeepsUp.complete (keeps : KeepsUp source plaintext s receiver)
    (awaits : receiver.ready = none) (valid : frameFormat.IsFrame frame)
    (opens : OpensAs fw source frame (plaintext frame)) (whole : receiver.acc ++ chunk = frame) :
    ∃ t, msgRecvDataFromCloud fw env chunk s = some t ∧
      KeepsUp source plaintext t ⟨[], some frame⟩ := by
  obtain ⟨ret, buffer, received, outcome⟩ := keeps.receives awaits valid (by rw [whole])
  rw [whole] at outcome
  have sound := (keeps.awaits awaits).2.2.1
  cases outcome with
  | head progress | body progress | oversize progress =>
    cases progress.symm.trans valid.progress_self
  | complete _ full len same =>
    have completes : completedFrame s chunk = some buffer := by
      rw [completedFrame, received]
      exact if_pos full
    rw [len, valid.announced, List.take_length] at same
    have opened : Opens fw env buffer s ∧
        (decryptFrame fw env buffer s).plain.take (decryptFrame fw env buffer s).u16PlainLen =
          plaintext frame ∧
        (decryptFrame fw env buffer s).u16PlainLen = (plaintext frame).length := by
      have reads : decryptFrame fw env buffer s = decryptFrame fw env buffer source := by
        rw [decryptFrame, decryptFrame, keeps.context]
      rw [Opens, reads]
      exact opens env buffer same
    obtain ⟨opened, text, length⟩ := opened
    have total : frameTotal env buffer + 4 ≤ 424 := frameTotal_le_of_completed sound completes
    have size : (decryptFrame fw env buffer s).plain.length ≤ msgBufferMaxLen :=
      secDecrypt_size _ _ _ _ _ (show frameTotal env buffer ≤ 420 by omega)
    have shorter : (decryptFrame fw env buffer s).u16PlainLen ≤
        (decryptFrame fw env buffer s).plain.length := by
      rw [length, ← text]
      exact List.length_take_le' ..
    obtain ⟨t, step⟩ := exists_of_completed fw env completes
      (Nat.le_trans shorter size)
    have delivers := delivers_of_completed completes step
    have queued := delivers.represents (keeps.awaits awaits).1
    rw [if_pos opened] at queued
    refine ⟨t, step, (secContext_msgRecvDataFromCloud step).trans keeps.context, by rintro ⟨⟩, ?_⟩
    rintro frame ⟨⟩
    refine ⟨rfl, queued, delivers.full, ?_⟩
    have wrote := s.msgBuildBuffer.take_overlay_zero _ size
    rw [delivers.message, deliveredText, ← text]
    conv_rhs => rw [← wrote, List.take_take, Nat.min_eq_left shorter]

/-- The firmware's side of the stream keeps up with a receiver of frames. -/
theorem stream_implemented (opens : ∀ frame ∈ all, OpensAs fw source frame (plaintext frame))
    (valid : ∀ frame ∈ all, frameFormat.IsFrame frame) :
    Receiver.Implemented frameFormat (stream fw) StreamStep.op StreamStep.popped all plaintext
      StreamStep.Paced (KeepsUp source plaintext) where
  paced := by
    intro s receiver step keeps paced
    cases step with
    | takeMsg => trivial
    | recvDataFromCloud env pu8Data =>
      cases ready : receiver.ready with
      | none => exact ready
      | some frame => exact absurd (keeps.holds frame ready).2.2.1 paced
  follows := by
    intro s receiver step keeps paced within
    cases step with
    | takeMsg => exact ⟨_, rfl, keeps.takeMsg.1⟩
    | recvDataFromCloud env pu8Data =>
      obtain ⟨acc, ready⟩ := receiver
      obtain rfl : ready = none := paced
      obtain ⟨frame, member, goes⟩ := within
      by_cases whole : acc ++ pu8Data = frame
      · have ends : (Receiver.feed frameFormat ⟨acc, none⟩ pu8Data) = ⟨[], some frame⟩ :=
          Receiver.feed_last (valid frame member) whole
        simp only [StreamStep.op, Receiver.after, ends]
        exact keeps.complete rfl (valid frame member) (opens frame member) whole
      · have part : (Receiver.feed frameFormat ⟨acc, none⟩ pu8Data) = ⟨acc ++ pu8Data, none⟩ :=
          Receiver.feed_part (valid frame member) goes whole
        simp only [StreamStep.op, Receiver.after, part]
        exact keeps.collect rfl (valid frame member) goes whole
  shows := by
    intro s receiver step keeps
    cases step with
    | takeMsg => exact keeps.takeMsg.2
    | recvDataFromCloud env pu8Data => rfl

end Steps

section Frames

variable {head : ZcSecHead} {cipher text message : List UInt8}

/-- A head reads as it was written. -/
theorem load_bytes (head : ZcSecHead) (rest : List UInt8) (small : head.u16TotalMsg < 2 ^ 16) :
    ZcSecHead.load (.ofList (head.bytes ++ rest)) = head := by
  have total : (UInt8.ofNat head.u16TotalMsg).toNat +
      (UInt8.ofNat (head.u16TotalMsg / 2 ^ 8)).toNat * 2 ^ 8 = head.u16TotalMsg := by
    simp only [UInt8.toNat_ofNat']
    omega
  calc
    ZcSecHead.load (.ofList (head.bytes ++ rest)) =
        ⟨(UInt8.ofNat head.u16TotalMsg).toNat +
          (UInt8.ofNat (head.u16TotalMsg / 2 ^ 8)).toNat * 2 ^ 8, head.u8SecType,
          head.u8Resver⟩ := rfl
    _ = head := by rw [total]

theorem frame_length : (head.bytes ++ cipher).length = sizeofSecHead + cipher.length :=
  List.length_append

/-- A head that announces the bytes behind it makes a frame. -/
theorem isFrame_frame (total : head.u16TotalMsg = zcHtons cipher.length)
    (short : cipher.length + sizeofSecHead ≤ msgBufferMaxLen) :
    frameFormat.IsFrame (head.bytes ++ cipher) := by
  have small : cipher.length + 4 ≤ 424 := short
  have announced : zcHtons (ZcSecHead.load (.ofList (head.bytes ++ cipher))).u16TotalMsg =
      cipher.length := by
    rw [load_bytes head cipher (total ▸ zcHtons_lt _), total, zcHtons_zcHtons _ (by omega)]
  refine ⟨?_, frame_length ▸ (Nat.add_comm .. ▸ short)⟩
  rw [frame_length, Nat.add_comm]
  exact congrArg (· + sizeofSecHead) announced

/-- A frame opens to what the bytes behind its head decrypt to. -/
theorem opensAs_frame (fw : Firmware) (s : Sys) (total : head.u16TotalMsg = zcHtons cipher.length)
    (short : cipher.length + sizeofSecHead ≤ msgBufferMaxLen)
    (opens : ∀ (stale : Stale) (memory : View), memory.read 0 cipher.length = cipher →
      (secDecrypt fw.crypto s.secContext stale head memory).ret = .ok ∧
        (secDecrypt fw.crypto s.secContext stale head memory).plain.take
          (secDecrypt fw.crypto s.secContext stale head memory).u16PlainLen = text ∧
        (secDecrypt fw.crypto s.secContext stale head memory).u16PlainLen = text.length) :
    OpensAs fw s (head.bytes ++ cipher) text := by
  intro env buffer same
  have small : cipher.length + 4 ≤ 424 := short
  have inside (index : ℕ) (early : index < sizeofSecHead) :
      buffer.u8MsgBuffer.view env.beyond index = View.ofList (head.bytes ++ cipher) index := by
    have near : index < (head.bytes ++ cipher).length := by
      rw [frame_length]
      omega
    have room : index < msgBufferMaxLen := Nat.lt_trans early (by decide)
    rw [FixedBuffer.view_inside _ _ _ room, List.get_eq_getElem, View.ofList,
      List.getD_eq_getElem?_getD, ← same, List.getElem?_take_of_lt near, List.getElem?_eq_getElem,
      Option.getD_some]
  have loaded := (ZcSecHead.load_congr inside).trans
    (load_bytes head cipher (total ▸ zcHtons_lt _))
  have behind : ((buffer.u8MsgBuffer.view env.beyond).shift sizeofSecHead).read 0 cipher.length =
      cipher := by
    rw [View.read_shift, Nat.add_zero, FixedBuffer.read_inside _ _ _ _ (Nat.add_comm .. ▸ short),
      List.take_drop, ← frame_length, same]
    rfl
  simp only [Opens, decryptFrame, loaded]
  exact opens _ _ behind

/-- A frame whose text is taken as it is opens to that text. -/
theorem opensAs_clear (fw : Firmware) (s : Sys) (total : head.u16TotalMsg = zcHtons cipher.length)
    (short : cipher.length + sizeofSecHead ≤ msgBufferMaxLen)
    (flag : secFlag s.secContext.u32SecSwitch head.u8SecType = zcSecAlgNone) :
    OpensAs fw s (head.bytes ++ cipher) cipher := by
  have small : cipher.length + 4 ≤ 424 := short
  apply opensAs_frame fw s total short
  intro stale memory starts
  rw [secDecrypt_none flag, total, zcHtons_zcHtons _ (by omega), starts]
  exact ⟨rfl, List.take_length, rfl⟩

theorem isFrame_plainFrame (short : message.length + sizeofSecHead ≤ msgBufferMaxLen) :
    frameFormat.IsFrame (plainFrame message) := isFrame_frame rfl short

/-- A frame in the clear opens to the bytes behind its head. -/
theorem opensAs_plainFrame (fw : Firmware) (s : Sys)
    (short : message.length + sizeofSecHead ≤ msgBufferMaxLen) :
    OpensAs fw s (plainFrame message) message := by
  apply opensAs_clear fw s rfl short
  rw [secFlag]
  split_ifs <;> rfl

end Frames

/-- From an idle buffer and an empty queue, over whatever frames that open, however they are cut
and whatever the interleaving: as long as no chunk reaches over the end of a frame and none comes
while the receive buffer is full, the run is defined and the messages taken are a prefix of the
plaintexts; when all the chunks are in and the queue is empty they are the plaintexts. -/
theorem popped_prefix (fw : Firmware) (source : Sys) (frames : List (List UInt8))
    (plaintext : List UInt8 → List UInt8) (tape : List StreamStep) (later : List Chunk)
    (idle : source.recvBuffer.u8Status = .idle) (empty : source.recvQueue.Represents [])
    (valid : ∀ frame ∈ frames, frameFormat.IsFrame frame)
    (opens : ∀ frame ∈ frames, OpensAs fw source frame (plaintext frame))
    (tiles : Tiles [] (Receiver.fed (tape.map StreamStep.op) ++ later) frames)
    (paced : (stream fw).EachStep StreamStep.Paced source tape) :
    ∃ target, (stream fw).replay? source tape = some target ∧
      (stream fw).history StreamStep.popped source tape <+: frames.map plaintext ∧
      (later = [] → (msgPopMsg target.recvQueue).1 = none →
        (stream fw).history StreamStep.popped source tape = frames.map plaintext) := by
  have collected : source.recvBuffer.collected = [] := by simp only [MsgBuffer.collected, idle]
  have initially : KeepsUp source plaintext source ⟨[], none⟩ :=
    ⟨rfl, fun _ => ⟨empty, by simp [idle], .of_idle idle, collected⟩, by rintro _ ⟨⟩⟩
  obtain ⟨target, final, replayed, keeps, taken, all⟩ :=
    (stream_implemented opens valid).delivery valid initially tiles paced
  refine ⟨target, replayed, taken, fun done drained => all done ?_⟩
  cases ready : final.ready with
  | none => rfl
  | some frame =>
    obtain ⟨next, popped, _⟩ := (keeps.holds frame ready).2.1.pop_cons
    cases drained.symm.trans (congrArg Prod.fst popped)

/-- Two frames in three chunks, the first message taken before the second frame comes. -/
def cutFrames : List StreamStep :=
  [.takeMsg, .recvDataFromCloud .calm ((plainFrame [1, 2]).take 3), .takeMsg,
    .recvDataFromCloud .calm ((plainFrame [1, 2]).drop 3), .takeMsg,
    .recvDataFromCloud .calm (plainFrame [3]), .takeMsg]

/-- Two frames in one chunk. -/
def coalescedFrames : List StreamStep :=
  [.recvDataFromCloud .calm (plainFrame [1, 2] ++ plainFrame [3]), .takeMsg, .takeMsg]

theorem popped_cutFrames : (stream .plain).history StreamStep.popped (hfInit none .zero) cutFrames =
    [[1, 2], [3]] := by
  have tiles : Tiles [] (Receiver.fed (cutFrames.map StreamStep.op) ++ [])
      [plainFrame [1, 2], plainFrame [3]] :=
    .more (show _ <+: plainFrame [1, 2] by decide) (by decide)
      (.last (by decide) (.last (by decide) .done))
  have valid : ∀ frame ∈ [plainFrame [1, 2], plainFrame [3]], frameFormat.IsFrame frame ∧
      OpensAs .plain (hfInit none .zero) frame (frame.drop sizeofSecHead) := by
    simp only [List.mem_cons, List.not_mem_nil, or_false, forall_eq_or_imp, forall_eq]
    exact ⟨⟨isFrame_plainFrame (by decide), opensAs_plainFrame _ _ (by decide)⟩,
      isFrame_plainFrame (by decide), opensAs_plainFrame _ _ (by decide)⟩
  have drained : ∀ target ∈ (stream .plain).replay? (hfInit none .zero) cutFrames,
      (msgPopMsg target.recvQueue).1 = none := by decide +kernel
  obtain ⟨target, replayed, _, all⟩ := popped_prefix .plain (hfInit none .zero)
    [plainFrame [1, 2], plainFrame [3]] (·.drop sizeofSecHead) cutFrames [] rfl .init
    (fun frame member => (valid frame member).1) (fun frame member => (valid frame member).2) tiles
    (by decide +kernel)
  exact all rfl (drained target replayed)

/-- The second frame of a chunk is lost. -/
theorem popped_fails : ∃ target,
    (∀ message ∈ ([[1, 2], [3]] : List (List UInt8)), frameFormat.IsFrame (plainFrame message) ∧
      OpensAs .plain (hfInit none .zero) (plainFrame message) message) ∧
    (Receiver.fed (coalescedFrames.map StreamStep.op)).flatten =
      plainFrame [1, 2] ++ plainFrame [3] ∧
    (stream .plain).replay? (hfInit none .zero) coalescedFrames = some target ∧
    (msgPopMsg target.recvQueue).1 = none ∧
    (stream .plain).history StreamStep.popped (hfInit none .zero) coalescedFrames = [[1, 2]] := by
  have opens : ∀ message ∈ ([[1, 2], [3]] : List (List UInt8)),
      frameFormat.IsFrame (plainFrame message) ∧
        OpensAs .plain (hfInit none .zero) (plainFrame message) message := by
    simp only [List.mem_cons, List.not_mem_nil, or_false, forall_eq_or_imp, forall_eq]
    exact ⟨⟨isFrame_plainFrame (by decide), opensAs_plainFrame _ _ (by decide)⟩,
      isFrame_plainFrame (by decide), opensAs_plainFrame _ _ (by decide)⟩
  have defined : ((stream .plain).replay? (hfInit none .zero) coalescedFrames).isSome := by
    decide +kernel
  have drained : ∀ target ∈ (stream .plain).replay? (hfInit none .zero) coalescedFrames,
      (msgPopMsg target.recvQueue).1 = none := by decide +kernel
  obtain ⟨target, replayed⟩ := Option.isSome_iff_exists.mp defined
  exact ⟨target, opens, by decide, replayed, drained target replayed, by decide +kernel⟩

end ShuangFa
