import ShuangFa.Model.CloudEvent
import ShuangFa.Model.McuUart

/-! # Messages of the application

`AC_BuildMessage` builds a message in a buffer it is given, field by field; the options are compiled
out, and with them the store of their number. `EVENT_BuildMsg` writes every field. A message that
does not fit its buffer has no outcome. `UartProcess` hands the packets of the MCU on to the cloud in
such a message, unless their code is one of its own.
-/

namespace ShuangFa

open Memory

section Encoders

variable {size : ℕ} (u8MsgCode u8MsgId : UInt8) (pu8Payload : List UInt8)

/-- `AC_BuildOption`: the body is compiled out, so neither the number of the options nor their length
is assigned. -/
def acBuildOption (pu8Msg : FixedBuffer size) (u16OptLen : ℕ) : FixedBuffer size × ℕ :=
  (pu8Msg, u16OptLen)

/-- `AC_BuildMessage`, and the length it reports. -/
def acBuildMessage (pu8Msg : FixedBuffer size) : Option (FixedBuffer size × ℕ) :=
  let named := ((pu8Msg.overlay 2 [u8MsgCode]).overlay 1 [u8MsgId]).overlay 0 [0]
  let (optioned, u16OptLen) := acBuildOption named 0
  if size < sizeofMessageHead + u16OptLen + pu8Payload.length then none
  else
    let copied := optioned.overlay (sizeofMessageHead + u16OptLen) pu8Payload
    let sized := copied.overlay 4 (bytesU16 (zcHtons (pu8Payload.length + u16OptLen)))
    let crc := crc16Ccitt
      ((sized.bytes.drop sizeofMessageHead).take (pu8Payload.length + u16OptLen))
    some (sized.overlay 6 [UInt8.ofNat (crc / 2 ^ 8), UInt8.ofNat crc],
      (sizeofMessageHead + pu8Payload.length + u16OptLen) % 2 ^ 16)

/-- `EVENT_BuildMsg` into a buffer, and the length it reports. -/
def eventBuildMsgTo (pu8Msg : FixedBuffer size) : Option (FixedBuffer size × ℕ) :=
  if size < sizeofMessageHead + pu8Payload.length then none
  else some (pu8Msg.overlay 0 (eventBuildMsg u8MsgCode u8MsgId pu8Payload),
    (sizeofMessageHead + pu8Payload.length) % 2 ^ 16)

end Encoders

def zcCodeRest : UInt8 := 8
def accordRelpyData : UInt8 := 210
def respondServerData : UInt8 := 68
def sizeofDevMsgBuildBuffer : ℕ := 50

/-- The codes of a packet that `UartProcess` deals with itself. -/
def uartProcessCodes : List UInt8 := [0xF0, 0xF1, 0xF2, 0xF3]

/-- The code and the id `UartProcess` forwards a packet to the cloud with, if it does. -/
def uartProcessForwards (subDomainId : ℕ) (uartSendMsgId : UInt8) (data : List UInt8) :
    Option (UInt8 × UInt8) :=
  if data.getD 1 0 ∈ uartProcessCodes then none
  else if subDomainId = 0xFFFF then none
  else if data.getD 1 0 < 16 then some (accordRelpyData, 0)
  else some (respondServerData, uartSendMsgId)

end ShuangFa
