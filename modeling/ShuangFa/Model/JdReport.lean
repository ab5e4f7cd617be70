import ShuangFa.Model.Ac
import ShuangFa.Model.JdArgs

/-! # Reports to the JD cloud

`UartProcess` hands the packets with the code `CMD_COMMON`, and the answers of the MCU, to
`jd_send_data`. It reads the values at fixed places of `g_u8recv_data`, where the packet lies, and
formats them into `post_tx`.
-/

namespace ShuangFa

open Memory Coding

def formatUpload : String :=
  "\x7b\"code\":103,\"device\":\x7b\"feed_id\":\"%s\",\"access_key\":\"%s\"\x7d," ++
  "\"streams\":[\x7b\"stream_id\":\"%s\",\"datapoints\":[\x7b\"value\":%d\x7d]\x7d]\x7d\n"

def formatCommon : String :=
  "\x7b\"code\":103,\"device\":\x7b\"feed_id\":\"%s\",\"access_key\":\"%s\"\x7d," ++
  "\"streams\":[\x7b\"stream_id\":\"power\",\"datapoints\":[\x7b\"value\":%d\x7d]\x7d," ++
  "\x7b\"stream_id\":\"speed\",\"datapoints\":[\x7b\"value\":%d\x7d]\x7d," ++
  "\x7b\"stream_id\":\"PM25\",\"datapoints\":[\x7b\"value\":%d\x7d]\x7d," ++
  "\x7b\"stream_id\":\"sound\",\"datapoints\":[\x7b\"value\":%d\x7d]\x7d," ++
  "\x7b\"stream_id\":\"light\",\"datapoints\":[\x7b\"value\":%d\x7d]\x7d," ++
  "\x7b\"stream_id\":\"mode\",\"datapoints\":[\x7b\"value\":%d\x7d]\x7d," ++
  "\x7b\"stream_id\":\"lefttime\",\"datapoints\":[\x7b\"value\":%d\x7d]\x7d]\x7d\n"

/-- What becomes of `post_tx`. -/
inductive PostTx where
  | kept
  | undefined
  | formatted (text : List UInt8)
deriving DecidableEq

def PostTx.ofText (text : Option (List UInt8)) : PostTx := text.elim undefined formatted

/-- The stream that an answer of the MCU is for. -/
def jdStreamId (type : UInt8) : Option String :=
  if type = ControlCmdType.upPower.code then some "power"
  else if type = ControlCmdType.upSpeed.code then some "speed"
  else if type = ControlCmdType.upSound.code then some "sound"
  else if type = ControlCmdType.upLight.code then some "light"
  else if type = ControlCmdType.upMode.code then some "mode"
  else if type = ControlCmdType.upPm25.code then some "PM25"
  else none

/-- The value in two bytes, low byte first. -/
def jdValue (data : View) (offset : ℕ) : ℕ := (data offset).toNat + (data (offset + 1)).toNat * 2 ^ 8

/-- `jd_send_data`, without the sending. -/
def jdSendData (jdArgs : JdNVargs) (data : View) : PostTx :=
  if data 1 = ControlCmdType.common.code then
    .ofText (sprintf? formatCommon [jdArgs.feedid.text?, jdArgs.accesskey.text?,
      some (decimal (data 3).toNat), some (decimal (data 4).toNat), some (decimal (jdValue data 5)),
      some (decimal (data 7).toNat), some (decimal (data 8).toNat), some (decimal (data 9).toNat),
      some (decimal (jdValue data 11))])
  else match jdStreamId (data 1) with
    | none => .kept
    | some pStreamId =>
      if data 2 = 1 then
        .ofText (sprintf? formatUpload [jdArgs.feedid.text?, jdArgs.accesskey.text?,
          some (ascii pStreamId.toList), some (decimal (data 3).toNat)])
      else if data 2 = 2 then
        .ofText (sprintf? formatUpload [jdArgs.feedid.text?, jdArgs.accesskey.text?,
          some (ascii pStreamId.toList), some (decimal (jdValue data 3))])
      else .kept

/-- What `UartProcess` does to `post_tx`. -/
def uartProcessReports (subDomainId : ℕ) (jdArgs : JdNVargs) (data : View) : PostTx :=
  if data 1 ∈ uartProcessCodes then .kept
  else if subDomainId = 0xFFFF then .kept
  else if data 1 < 16 then
    if data 1 = ControlCmdType.common.code then jdSendData jdArgs data else .kept
  else jdSendData jdArgs data

end ShuangFa
