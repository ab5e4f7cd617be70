import ShuangFa.Model.Protocol

/-! # Message buffers, message queues and the reassembler

A queue is the ring of `MSG_QUEUE_MAXLEN + 1` nodes that `MSG_InitQueue` links, of which one stays
free. A buffer carries the bound on its length, so a length outside its array cannot be stored; a
copy that would leave an array has no outcome. Lengths are `u32`, and sums and differences of them
wrap.
-/

namespace ShuangFa

open Memory

/-- `u32` addition. -/
def addU32 (a b : ℕ) : ℕ := (a + b) % 2 ^ 32

/-- `u32` subtraction. -/
def subU32 (a b : ℕ) : ℕ := (a + 2 ^ 32 - b) % 2 ^ 32

/-- `MSG_BUFFER_IDLE`, `MSG_BUFFER_FULL` and the two partial states. -/
inductive BufferStatus where
  | idle
  | full
  | segmentNohead
  | segmentHead
deriving DecidableEq, Repr

/-- `MSG_Buffer`: no length beyond the array can be stored. -/
structure MsgBuffer where
  u32Len : ℕ
  u8Status : BufferStatus
  u8MsgBuffer : FixedBuffer msgBufferMaxLen
  len_le : u32Len ≤ msgBufferMaxLen
deriving DecidableEq

namespace MsgBuffer

/-- A zero-initialised global. -/
def zero : MsgBuffer := ⟨0, .idle, .zeros _, Nat.zero_le _⟩

/-- The two assignments every consumer ends with. -/
def reset (buffer : MsgBuffer) : MsgBuffer :=
  { buffer with u32Len := 0, u8Status := .idle, len_le := Nat.zero_le _ }

/-- `memcpy` of `length` bytes to `offset`, then the status and the new end of the data. -/
def copyIn? (buffer : MsgBuffer) (offset : ℕ) (source : List UInt8) (length : ℕ)
    (status : BufferStatus) : Option MsgBuffer :=
  if inside : length ≤ source.length ∧ offset + length ≤ msgBufferMaxLen then
    some ⟨offset + length, status, buffer.u8MsgBuffer.overlay offset (source.take length), inside.2⟩
  else none

end MsgBuffer

/-- One node of the ring. -/
structure MsgQueNode (maxLen : ℕ) (α : Type) where
  pstruNext : Fin (maxLen + 1)
  pu8Msg : Option α
deriving DecidableEq

/-- `MSG_Queue`; the links are those `MSG_InitQueue` makes and nothing changes them. -/
structure MsgQueue (maxLen : ℕ) (α : Type) where
  pstruHead : Fin (maxLen + 1)
  pstruTail : Fin (maxLen + 1)
  struQueue : Fin (maxLen + 1) → MsgQueNode maxLen α

variable {maxLen : ℕ} {α : Type}

/-- The loop links every node to the one before it, the last line links the first to the last. -/
def msgInitQueue (maxLen : ℕ) (α : Type) : MsgQueue maxLen α where
  pstruHead := 0
  pstruTail := 0
  struQueue index :=
    ⟨if index = 0 then Fin.last maxLen else ⟨index.val - 1, by omega⟩, none⟩

/-- `MSG_PushMsg`: full when the node behind the tail is the head. -/
def msgPushMsg (queue : MsgQueue maxLen α) (pu8Msg : α) : Ret × MsgQueue maxLen α :=
  let tail := queue.struQueue queue.pstruTail
  if tail.pstruNext = queue.pstruHead then (.error, queue)
  else (.ok, { queue with
    pstruTail := tail.pstruNext
    struQueue := Function.update queue.struQueue queue.pstruTail { tail with pu8Msg := some pu8Msg } })

/-- `MSG_PopMsg`: `none` is the null pointer. -/
def msgPopMsg (queue : MsgQueue maxLen α) : Option α × MsgQueue maxLen α :=
  if queue.pstruHead = queue.pstruTail then (none, queue)
  else
    let head := queue.struQueue queue.pstruHead
    (head.pu8Msg, { queue with
      pstruHead := head.pstruNext
      struQueue := Function.update queue.struQueue queue.pstruHead { head with pu8Msg := none } })

/-- The length of the frame whose head a pointer shows. -/
def frameLen (memory : View) : ℕ :=
  zcHtons (ZcSecHead.load memory).u16TotalMsg + sizeofSecHead

/-- The head of the frame in a buffer. -/
def MsgBuffer.frameLen (buffer : MsgBuffer) : ℕ :=
  ShuangFa.frameLen (View.ofList buffer.u8MsgBuffer.bytes)

/-- `MSG_RecvData`; undefined where a copy would leave an array. -/
def msgRecvData (buffer : MsgBuffer) (pu8Data : List UInt8) : Option (Ret × MsgBuffer) :=
  let u32DataLen := pu8Data.length
  match buffer.u8Status with
  | .full => some (.error, buffer)
  | .idle =>
    if u32DataLen < sizeofSecHead then
      (buffer.copyIn? 0 pu8Data u32DataLen .segmentNohead).map (Ret.ok, ·)
    else
      let u32MsgLen := frameLen (View.ofList pu8Data)
      if msgBufferMaxLen < u32MsgLen then some (.error, buffer.reset)
      else if u32MsgLen ≤ u32DataLen then
        (buffer.copyIn? 0 pu8Data u32MsgLen .full).map (Ret.ok, ·)
      else (buffer.copyIn? 0 pu8Data u32DataLen .segmentHead).map (Ret.ok, ·)
  | .segmentHead =>
    let u32MsgLen := buffer.frameLen
    if u32MsgLen ≤ addU32 u32DataLen buffer.u32Len then
      (buffer.copyIn? buffer.u32Len pu8Data (subU32 u32MsgLen buffer.u32Len) .full).map (Ret.ok, ·)
    else (buffer.copyIn? buffer.u32Len pu8Data u32DataLen .segmentHead).map (Ret.ok, ·)
  | .segmentNohead =>
    if addU32 buffer.u32Len u32DataLen < sizeofSecHead then
      (buffer.copyIn? buffer.u32Len pu8Data u32DataLen .segmentNohead).map (Ret.ok, ·)
    else do
      -- the rest of the head is copied first, the length stays, and the data is copied once more
      let headed ← buffer.copyIn? buffer.u32Len pu8Data (subU32 sizeofSecHead buffer.u32Len)
        .segmentNohead
      let u32MsgLen := headed.frameLen
      if msgBufferMaxLen < u32MsgLen then some (.error, headed.reset)
      else if u32MsgLen ≤ addU32 u32DataLen buffer.u32Len then
        (headed.copyIn? buffer.u32Len pu8Data (subU32 u32MsgLen buffer.u32Len) .full).map
          (Ret.ok, ·)
      else (headed.copyIn? buffer.u32Len pu8Data u32DataLen .segmentHead).map (Ret.ok, ·)

end ShuangFa
