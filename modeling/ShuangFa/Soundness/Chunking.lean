import ShuangFa.Proofs.MessageQueue
import ShuangFa.Machine.Replay

/-! # Reassembly and the cuts of the stream

What the reassembler makes of the chunks so far is decided by their bytes alone, wherever they were
cut. So a chunk and the next one leave the frame that both leave as one chunk, unless the first one
is refused.
-/

namespace ShuangFa

open Machine Framing

namespace MsgBuffer

/-- The status tells how much of the frame that its head announces is there. -/
structure Assembled (buffer : MsgBuffer) : Prop extends buffer.Sound where
  full : buffer.u8Status = .full → buffer.u32Len = buffer.frameLen

/-- Two buffers hold the same of a frame: the status, the length and the bytes up to it. -/
structure SameFrame (first second : MsgBuffer) : Prop where
  status : first.u8Status = second.u8Status
  len : first.u32Len = second.u32Len
  bytes : first.u8MsgBuffer.bytes.take first.u32Len = second.u8MsgBuffer.bytes.take second.u32Len

theorem length_collected_le (buffer : MsgBuffer) : buffer.collected.length ≤ buffer.u32Len := by
  rw [collected]
  split
  · exact Nat.zero_le _
  · rw [List.length_take]
    exact Nat.min_le_left ..

end MsgBuffer

/-- `MSG_RecvData` on one chunk after the other. -/
def reassembler : PartialMachine MsgBuffer (List UInt8) :=
  ⟨fun buffer pu8Data => (msgRecvData buffer pu8Data).map Prod.snd⟩

/-- The sum of the two lengths does not wrap. -/
def Unwrapped (buffer : MsgBuffer) (pu8Data : List UInt8) : Prop :=
  pu8Data.length + buffer.u32Len < 2 ^ 32

instance (buffer : MsgBuffer) (pu8Data : List UInt8) : Decidable (Unwrapped buffer pu8Data) :=
  inferInstanceAs (Decidable (_ < _))

/-- No copy leaves the array; and if the first chunk is taken, the second one after it leaves what
both leave as one chunk. -/
def JoinsChunks (buffer : MsgBuffer) (first second : List UInt8) : Prop :=
  ∃ ret next, msgRecvData buffer first = some (ret, next) ∧
    (ret = .ok → ∃ retSplit split retWhole whole,
      msgRecvData next second = some (retSplit, split) ∧
        msgRecvData buffer (first ++ second) = some (retWhole, whole) ∧ split.SameFrame whole)

section Outcomes

variable {buffer next other : MsgBuffer} {bytes rest data : List UInt8} {ret : Ret}

/-- The bytes there are of a frame decide what is left of them. -/
theorem RecvOutcome.sameFrame {ret' : Ret} (first : RecvOutcome bytes ret next)
    (second : RecvOutcome bytes ret' other) : next.SameFrame other := by
  cases first with
  | head progress status len same | body progress status len same =>
    cases second with
    | head progress' status' len' same' | body progress' status' len' same' =>
      first
      | exact ⟨status.trans status'.symm, len.trans len'.symm, by rw [len, len', same, same']⟩
      | simp [progress] at progress'
    | complete progress' | oversize progress' => simp [progress] at progress'
  | complete progress status len same =>
    cases second with
    | complete progress' status' len' same' =>
      exact ⟨status.trans status'.symm, len.trans len'.symm, by rw [same, same', len, len']⟩
    | head progress' | body progress' | oversize progress' => simp [progress] at progress'
  | oversize progress status len =>
    cases second with
    | oversize progress' status' len' =>
      exact ⟨status.trans status'.symm, len.trans len'.symm, by rw [len, len']; rfl⟩
    | head progress' | body progress' | complete progress' => simp [progress] at progress'

/-- A frame that is complete stays as it is when more is there behind it. -/
theorem RecvOutcome.extend (outcome : RecvOutcome bytes .ok next) (full : next.u8Status = .full)
    (rest : List UInt8) : RecvOutcome (bytes ++ rest) .ok next := by
  cases outcome with
  | complete progress status len same =>
    obtain ⟨head, fits, whole⟩ := Format.progress_eq_complete_iff.mp progress
    have total := frameFormat.total_append bytes rest head
    refine .complete (Format.progress_append_of_complete progress rest) status
      (len.trans total.symm) ?_
    rw [same, List.take_append_of_le_length (len ▸ whole)]
  | head _ status | body _ status => simp [full] at status

theorem RecvOutcome.assembled (outcome : RecvOutcome bytes ret next) : next.Assembled := by
  refine ⟨outcome.sound, fun full => ?_⟩
  cases outcome with
  | complete progress status len same =>
    obtain ⟨head, fits, whole⟩ := Format.progress_eq_complete_iff.mp progress
    have wide := frameFormat.head_le_total bytes
    rw [len] at same ⊢
    exact (MsgBuffer.frameLen_of_take wide fits whole same).symm
  | head _ status | body _ status | oversize _ status => simp [full] at status

/-- A call with lengths that do not wrap has an outcome and leaves an assembled frame. -/
theorem assembled_msgRecvData (sound : buffer.Assembled) (small : Unwrapped buffer data) :
    ∃ ret next, msgRecvData buffer data = some (ret, next) ∧ next.Assembled := by
  obtain ⟨⟨ret, next⟩, received⟩ :=
    Option.isSome_iff_exists.mp (msgRecvData_isSome sound.toSound small)
  refine ⟨ret, next, received, ?_⟩
  by_cases full : buffer.u8Status = .full
  · rw [msgRecvData_full full] at received
    cases received
    exact sound
  · exact (msgRecvData_outcome sound.toSound full received).assembled

/-- Wherever two chunks are cut, they leave the same frame. -/
theorem joinsChunks (sound : buffer.Assembled) {first second : List UInt8}
    (small : Unwrapped buffer (first ++ second)) : JoinsChunks buffer first second := by
  have small : first.length + second.length + buffer.u32Len < 2 ^ 32 := by
    rwa [Unwrapped, List.length_append] at small
  have short : Unwrapped buffer first := by
    rw [Unwrapped]
    omega
  have joined : Unwrapped buffer (first ++ second) := by rwa [Unwrapped, List.length_append]
  obtain ⟨ret, next, received, assembled⟩ := assembled_msgRecvData sound short
  refine ⟨ret, next, received, ?_⟩
  rintro rfl
  have awaits : buffer.u8Status ≠ .full := by
    intro full
    rw [msgRecvData_full full] at received
    cases received
  have outcome := msgRecvData_outcome sound.toSound awaits received
  obtain ⟨retWhole, whole, atOnce, _⟩ := assembled_msgRecvData sound joined
  have once := msgRecvData_outcome sound.toSound awaits atOnce
  rw [← List.append_assoc] at once
  by_cases full : next.u8Status = .full
  · exact ⟨.error, next, retWhole, whole, msgRecvData_full full, atOnce,
      (outcome.extend full second).sameFrame once⟩
  · have part : frameFormat.progress (buffer.collected ++ first) = .head ∨
        frameFormat.progress (buffer.collected ++ first) = .body := by
      cases outcome with
      | head progress => exact .inl progress
      | body progress => exact .inr progress
      | complete _ status => exact absurd status full
    obtain ⟨_, collected⟩ := outcome.collected_of_part part
    have len : next.u32Len ≤ buffer.u32Len + first.length := by
      have old := buffer.length_collected_le
      have new : next.u32Len = (buffer.collected ++ first).length := by
        cases outcome with
        | head _ _ len | body _ _ len => exact len
        | complete _ status => exact absurd status full
      rw [new, List.length_append]
      omega
    have left : Unwrapped next second := by
      rw [Unwrapped]
      omega
    obtain ⟨retSplit, split, after, _⟩ := assembled_msgRecvData assembled left
    have twice := msgRecvData_outcome assembled.toSound full after
    rw [collected] at twice
    exact ⟨retSplit, split, retWhole, whole, after, atOnce, twice.sameFrame once⟩

end Outcomes

/-- Whatever chunks have come since the buffer was idle, no copy left the array, the status tells
what is there, and the next two chunks leave what they leave as one. -/
theorem reassembly_chunked {start : MsgBuffer} {chunks : List (List UInt8)}
    (idle : start.u8Status = .idle) (small : reassembler.EachStep Unwrapped start chunks) :
    ∃ buffer, reassembler.replay? start chunks = some buffer ∧ buffer.Assembled ∧
      ∀ first second, Unwrapped buffer (first ++ second) → JoinsChunks buffer first second := by
  have initially : start.Assembled := ⟨.of_idle idle, fun full => by simp [idle] at full⟩
  suffices reached : ∃ buffer, reassembler.replay? start chunks = some buffer ∧ buffer.Assembled by
    obtain ⟨buffer, replayed, assembled⟩ := reached
    exact ⟨buffer, replayed, assembled, fun _ _ small => joinsChunks assembled small⟩
  clear idle
  induction chunks generalizing start with
  | nil => exact ⟨start, rfl, initially⟩
  | cons chunk rest ih =>
    obtain ⟨ret, next, received, assembled⟩ := assembled_msgRecvData initially small.1
    have step : reassembler.step? start chunk = some next :=
      Option.map_eq_some_iff.mpr ⟨(ret, next), received, rfl⟩
    rw [PartialMachine.replay?_cons, step]
    exact ih (small.2 next step) assembled

/-- A frame of six bytes in three chunks, and then two more. -/
theorem reassembly_chunked_frame : ∃ buffer,
    reassembler.replay? .zero [[0], [2, 0], [0, 7, 8]] = some buffer ∧ buffer.Assembled ∧
      ∀ first second, Unwrapped buffer (first ++ second) → JoinsChunks buffer first second :=
  reassembly_chunked rfl (by decide +kernel)

end ShuangFa
