import ShuangFa.Machine.Replay
import ShuangFa.Model.System

/-! # The stream from the module

`ZC_AssemblePkt` puts one packet together in `g_struUartBuffer` and tells how many bytes of the chunk
are left. `ZC_Moudlefunc` hands the packet on and calls itself with what is left. A copy that leaves
the array is undefined, and so is a chunk that goes on behind its own end.
-/

namespace ShuangFa

open Memory Machine

/-- The magic of `ZC_AssemblePkt`. -/
def u8MagicHead : List UInt8 := [0x02, 0x03, 0x04, 0x05]

/-- The length `ZC_AssemblePkt` reads from the head behind the magic. -/
def packetLen (memory : View) : ℕ :=
  zcHtons (ZcMessageHead.load (memory.shift zcMagicLen)).payloadlen + sizeofMessageHead + zcMagicLen

namespace ZcUartBuffer

/-- `memcpy` of `length` bytes to `offset`. -/
def copyIn? (buffer : ZcUartBuffer) (offset : ℕ) (source : List UInt8) (length : ℕ) :
    Option ZcUartBuffer :=
  if length ≤ source.length ∧ offset + length ≤ zcMaxUartbufLen then
    some { buffer with u8UartBuffer := buffer.u8UartBuffer.overlay offset (source.take length) }
  else none

/-- The status and the length that are set behind a copy. -/
def holding (buffer : ZcUartBuffer) (u32Status : BufferStatus) (u32RecvLen : ℕ) : ZcUartBuffer :=
  { buffer with u32Status := u32Status, u32RecvLen := u32RecvLen }

/-- The length of the packet whose head is in the array. -/
def packetLen (buffer : ZcUartBuffer) : ℕ :=
  ShuangFa.packetLen (View.ofList buffer.u8UartBuffer.bytes)

end ZcUartBuffer

/-- `ZC_AssemblePkt`, with the bytes that are left. -/
def zcAssemblePkt (pu8Data : List UInt8) (buffer : ZcUartBuffer) : Option (Ret × ℕ × ZcUartBuffer) :=
  let u32DataLen := pu8Data.length
  let u32HeadLen := zcMagicLen + sizeofMessageHead
  match buffer.u32Status with
  | .full => some (.error, 0, buffer)
  | .idle =>
    if u32DataLen < u32HeadLen then
      (buffer.copyIn? 0 pu8Data u32DataLen).map fun copied =>
        (.ok, 0, copied.holding .segmentNohead u32DataLen)
    else if pu8Data.take zcMagicLen ≠ u8MagicHead then some (.error, 0, buffer.reset)
    else
      let u32MsgLen := packetLen (View.ofList pu8Data)
      if zcMaxUartbufLen < u32MsgLen then some (.error, 0, buffer.reset)
      else if u32MsgLen ≤ u32DataLen then
        (buffer.copyIn? 0 pu8Data u32MsgLen).map fun copied =>
          (.ok, subU32 u32DataLen u32MsgLen, copied.holding .full u32MsgLen)
      else
        (buffer.copyIn? 0 pu8Data u32DataLen).map fun copied =>
          (.ok, 0, copied.holding .segmentHead u32DataLen)
  | .segmentHead =>
    let u32MsgLen := buffer.packetLen
    if u32MsgLen ≤ addU32 u32DataLen buffer.u32RecvLen then
      (buffer.copyIn? buffer.u32RecvLen pu8Data (subU32 u32MsgLen buffer.u32RecvLen)).map fun copied =>
        (.ok, subU32 (addU32 u32DataLen buffer.u32RecvLen) u32MsgLen, copied.holding .full u32MsgLen)
    else
      (buffer.copyIn? buffer.u32RecvLen pu8Data u32DataLen).map fun copied =>
        (.ok, 0, copied.holding .segmentHead (addU32 buffer.u32RecvLen u32DataLen))
  | .segmentNohead =>
    if addU32 buffer.u32RecvLen u32DataLen < u32HeadLen then
      (buffer.copyIn? buffer.u32RecvLen pu8Data u32DataLen).map fun copied =>
        (.ok, 0, copied.holding .segmentNohead (addU32 buffer.u32RecvLen u32DataLen))
    else do
      -- the rest of the head is copied first, the length stays, and the data is copied once more
      let headed ← buffer.copyIn? buffer.u32RecvLen pu8Data (subU32 u32HeadLen buffer.u32RecvLen)
      if headed.u8UartBuffer.bytes.take zcMagicLen ≠ u8MagicHead then some (.error, 0, headed.reset)
      else
        let u32MsgLen := headed.packetLen
        if zcMaxUartbufLen < u32MsgLen then some (.error, 0, headed.reset)
        else if u32MsgLen ≤ addU32 u32DataLen buffer.u32RecvLen then
          (headed.copyIn? buffer.u32RecvLen pu8Data (subU32 u32MsgLen buffer.u32RecvLen)).map
            fun copied => (.ok, subU32 (addU32 u32DataLen buffer.u32RecvLen) u32MsgLen,
              copied.holding .full u32MsgLen)
        else
          (headed.copyIn? buffer.u32RecvLen pu8Data u32DataLen).map fun copied =>
            (.ok, 0, copied.holding .segmentHead (addU32 buffer.u32RecvLen u32DataLen))

/-- A call of `ZC_RecvDataFromMoudle`: the bytes behind the pointer, and how many it is told. -/
structure MoudleCall where
  pu8Data : List UInt8
  u16DataLen : ℕ
deriving DecidableEq

/-- `g_struUartBuffer` and the calls of `ZC_RecvDataFromMoudle`. -/
structure MoudleUart where
  uartBuffer : ZcUartBuffer
  calls : List MoudleCall
deriving DecidableEq

/-- The call of `ZC_RecvDataFromMoudle` with what is in the array behind the magic. -/
def MoudleUart.recvDataFromMoudle (s : MoudleUart) : MoudleUart :=
  let u16DataLen := subU32 s.uartBuffer.u32RecvLen zcMagicLen % 2 ^ 16
  { uartBuffer := s.uartBuffer.reset
    calls := s.calls ++ [⟨(s.uartBuffer.u8UartBuffer.bytes.drop zcMagicLen).take u16DataLen, u16DataLen⟩] }

/-- `ZC_Moudlefunc` with as many calls of itself as `depth`; there is no outcome when they do not
suffice. -/
def zcMoudlefunc : (depth : ℕ) → List UInt8 → MoudleUart → Option MoudleUart
  | 0, _, _ => none
  | depth + 1, pu8Data, s =>
    let u32DataLen := pu8Data.length
    if u32DataLen = 0 then some s
    else do
      let (u32RetVal, u32LeftLen, uartBuffer) ← zcAssemblePkt pu8Data s.uartBuffer
      let assembled := { s with uartBuffer := uartBuffer }
      if u32RetVal = .error then some assembled
      else
        let handled := if uartBuffer.u32Status = .full then assembled.recvDataFromMoudle else assembled
        if 0 < u32LeftLen then
          if u32LeftLen ≤ u32DataLen then
            zcMoudlefunc depth (pu8Data.drop (u32DataLen - u32LeftLen)) handled
          else none
        else some handled

/-- One chunk after the other; a chunk is passed on at most once for each of its bytes. -/
def moudleChunks : PartialMachine MoudleUart (List UInt8) :=
  ⟨fun s pu8Data => zcMoudlefunc (pu8Data.length + 1) pu8Data s⟩

end ShuangFa
