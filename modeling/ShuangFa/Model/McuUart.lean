import ShuangFa.Framing.Marked
import ShuangFa.Memory.FixedBuffer
import ShuangFa.Model.Protocol

/-! # Packets to and from the MCU

A packet is `AA`, a code, the number of data bytes, the data, a checksum of two bytes and `55`.
`UartRecv` takes the stream from the UART byte by byte. Its counters are bytes, its array has fifty,
and a store behind the end of the array is undefined. `build_message` makes the packets that go the
other way.
-/

namespace ShuangFa

open Memory Framing Machine

inductive PktType where
  | pktUnknown
  | pktPuredata
deriving DecidableEq, Repr

def sizeofU8RecvData : ℕ := 50

/-- The globals of `UartRecv` and `uart_recv_callback`, and the packets `UartProcess` was called
with. -/
structure McuUart where
  curtype : PktType
  recvdata : ℕ
  u8CurPktLen : ℕ
  u8RecvData : FixedBuffer sizeofU8RecvData
  u32StopJdTask : ℕ
  calls : List (List UInt8)
deriving DecidableEq

namespace McuUart

/-- The globals at the start. -/
def init : McuUart := ⟨.pktUnknown, 0, 0, .zeros _, 0, []⟩

/-- `g_u8recv_data[g_recvdata++] = data`. -/
def put (data : UInt8) (s : McuUart) : Option McuUart :=
  if s.recvdata < sizeofU8RecvData then
    some { s with
      u8RecvData := s.u8RecvData.overlay s.recvdata [data]
      recvdata := (s.recvdata + 1) % 2 ^ 8 }
  else none

/-- The call of `UartProcess`. -/
def uartProcess (s : McuUart) : McuUart :=
  { s with calls := s.calls ++ [s.u8RecvData.bytes.take s.recvdata] }

end McuUart

def uartRecv (data : UInt8) (s : McuUart) : Option McuUart :=
  match s.curtype with
  | .pktUnknown =>
    if data = 0xAA then
      (McuUart.put data { s with curtype := .pktPuredata, recvdata := 0 }).map fun stored =>
        { stored with u8CurPktLen := 0 }
    else some s
  | .pktPuredata =>
    (s.put data).map fun stored =>
      let known := if 3 = stored.recvdata then { stored with u8CurPktLen := data.toNat } else stored
      if known.recvdata = known.u8CurPktLen + 6 then
        let ended := if data = 0x55 then known.uartProcess else known
        { ended with curtype := .pktUnknown, recvdata := 0, u8CurPktLen := 0 }
      else known

/-- The bytes that `uart_recv_callback` hands to `UartRecv`. -/
def uartBytes : PartialMachine McuUart UInt8 := ⟨fun s data => uartRecv data s⟩

def uartRecvCallback (data : List UInt8) (s : McuUart) : Option McuUart :=
  if 1 = s.u32StopJdTask then some s else uartBytes.replay? s data

/-- The chunks that come from the UART. -/
def uartChunks : PartialMachine McuUart (List UInt8) := ⟨fun s data => uartRecvCallback data s⟩

inductive ControlCmdType where
  | common
  | downPower
  | downSpeed
  | downSound
  | downLight
  | downMode
  | downPm25
  | upPower
  | upSpeed
  | upSound
  | upLight
  | upMode
  | upPm25
deriving DecidableEq, Repr

def ControlCmdType.code : ControlCmdType → UInt8
  | common => 0x00
  | downPower => 0x01
  | downSpeed => 0x02
  | downSound => 0x03
  | downLight => 0x04
  | downMode => 0x05
  | downPm25 => 0x06
  | upPower => 0x81
  | upSpeed => 0x82
  | upSound => 0x83
  | upLight => 0x84
  | upMode => 0x85
  | upPm25 => 0x86

def calcEcc (buf : List UInt8) : ℕ := buf.foldl (fun result byte => (result + byte.toNat) % 2 ^ 16) 0

/-- `build_message`; `value` is what `my_atoi` makes of the string, and `none` that nothing is
sent. -/
def buildMessage (type : ControlCmdType) (value : UInt8) : Option (List UInt8) :=
  let data : Option (List UInt8) := match type with
    | .downPower | .downSpeed | .downSound | .downLight | .downMode => some [value]
    | .downPm25 => some []
    | _ => none
  data.map fun data =>
    let buf := [0xAA, type.code, UInt8.ofNat data.length] ++ data
    buf ++ bytesU16 (calcEcc buf) ++ [0x55]

end ShuangFa
