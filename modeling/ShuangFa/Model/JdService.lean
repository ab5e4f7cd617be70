import Mathlib.Data.Int.Notation
import ShuangFa.Machine.Attempt
import ShuangFa.Model.CJson
import ShuangFa.Model.JdArgs
import ShuangFa.Model.McuUart

/-! # Commands of the JD cloud

`JDCmdProcess` looks up the members of a command, hands control values to the MCU, starts upgrades
and formats its answers into `ssl_tx`. What is not checked is undefined: a member that is missing, a
field that belongs to another type, a value that no branch has assigned, and a text that does not
fit. A control value comes as a string or as a number, which `my_itoa` prints before `my_atoi` reads
it.
-/

namespace ShuangFa

open Memory Coding Machine

def sizeofSslTx : ℕ := 400
def downloadFail : Int32 := 7002
def upgradeOk : Int32 := 7003

inductive NetworkState where
  | cloConnected
  | cloOta
deriving DecidableEq, Repr

/-- What a command does to the world around it. -/
inductive JdEffect where
  | setNetworkState (state : NetworkState) (on : Bool)
  | hfuartSend (packet : List UInt8)
  | cyaSslWrite (text : List UInt8)
  | jdsslSend (text : List UInt8)
  | hffileUserbinWrite (offset : ℕ) (data : List UInt8)
  | hfsysReset
deriving DecidableEq

/-- The bytes of the packets that are sent to the MCU. -/
def JdEffect.packet? : JdEffect → Option (List UInt8)
  | hfuartSend packet => some packet
  | _ => none

/-- What a command meets: the JSON library, the result of a download with its status, the result of
a write to the cloud, and the bytes in front of the table of `my_itoa`. -/
structure JdEnvironment where
  cJson : CJsonLibrary
  httpcGet : CString → Int32 × Int32
  written : List UInt8 → Int32
  beforeTable : View

section Values

/-- `table`, which may be read in front of its start. -/
def itoaTable (beforeTable : View) (index : ℤ) : UInt8 :=
  if index < 0 then beforeTable index.natAbs
  else (ascii "0123456789ABCDEFGHIJKLMNOPQRSTUVWXYZ".toList).getD index.toNat 0

/-- The loop of `my_itoa` that takes the digits off, for at most so many rounds. -/
def itoaLoop (beforeTable : View) (radix : ℤ) : ℕ → ℤ → List UInt8
  | 0, _ => []
  | rounds + 1, num =>
    if num = 0 then []
    else itoaTable beforeTable (num.tmod radix) :: itoaLoop beforeTable radix rounds (num.tdiv radix)

/-- `my_itoa`; the smallest `int` is its own negative, and an `int` has less than 32 digits. -/
def myItoa (beforeTable : View) (num : Int32) (radix : ℤ) : List UInt8 :=
  if num = 0 then [48]
  else if num < 0 then 45 :: (itoaLoop beforeTable radix 32 (-num).toInt).reverse
  else (itoaLoop beforeTable radix 32 num.toInt).reverse

/-- `my_atoi`, with the arithmetic of an `int`; it reads up to the first zero. -/
def myAtoi (s : List UInt8) : Int32 :=
  (s.takeWhile (· ≠ 0)).foldl (fun n digit => n * 10 + (Int32.ofNat digit.toNat - 48)) 0

/-- The `unsigned char` that `build_message` keeps of an `int`. -/
def charOfInt (value : Int32) : UInt8 := UInt8.ofNat (value.toInt % 2 ^ 8).toNat

/-- The command for a stream. -/
def downCmdType (streamId : CString) : Option ControlCmdType :=
  if streamId = literal "light" then some .downLight
  else if streamId = literal "mode" then some .downMode
  else if streamId = literal "PM25" then some .downPm25
  else if streamId = literal "power" then some .downPower
  else if streamId = literal "sound" then some .downSound
  else if streamId = literal "speed" then some .downSpeed
  else none

/-- `jdsmart_down_cmd`, as far as it is read; a command may have no value. -/
structure JdsmartDownCmd where
  streamId : CString
  value : Option (List UInt8)

def jsonToBinary (cmd : JdsmartDownCmd) : Attempt JdEffect Unit :=
  match downCmdType cmd.streamId with
  | none => pure ()
  | some type => do
    let pvalue ← Attempt.check cmd.value
    match buildMessage type (charOfInt (myAtoi pvalue)) with
    | none => pure ()
    | some packet => Attempt.emit (.hfuartSend packet)

/-- The value that is assigned for a `current_value`. -/
def currentValue (beforeTable : View) : CJson → Option (List UInt8)
  | .string valuestring => some valuestring.bytes
  | .number valueint _ => some (myItoa beforeTable valueint 25)
  | _ => none

/-- A round of the loop over the items of `control`. -/
def controlItem (beforeTable : View) (pItem : CJson) : Attempt JdEffect Unit := do
  let sKey ← Attempt.check (pItem.valuestringAt "stream_id")
  let pTmp ← Attempt.check (pItem.getObjectItem "current_value")
  jsonToBinary ⟨sKey, currentValue beforeTable pTmp⟩

end Values

section Commands

def sslUpgrade : String :=
  "\x7b\"code\":105,\"result\":0,\"serial\":%d," ++
  "\"device\":\x7b\"feed_id\":\"%s\",\"access_key\":\"%s\"\x7d\x7d\n"

def upgradeResponse : String :=
  "\x7b\"code\":107,\"firm_version\":%d,\"status\":%d,\"session_id\":\"%s\"," ++
  "\"device\":\x7b\"feed_id\":\"%s\",\"access_key\":\"%s\"\x7d\x7d\n"

def controlResponse : String :=
  "\x7b\"code\": 102,\"attribute\":%s,\"result\":0,\"control_resp\":\"Succeed\"," ++
  "\"device\":\x7b\"feed_id\":\"%s\",\"accees_key\":\"%s\"\x7d\x7d\n"

/-- A text in `ssl_tx`. -/
def sslTx? (text : Option (List UInt8)) : Option (List UInt8) :=
  text.bind fun text => if (terminated text).length ≤ sizeofSslTx then some text else none

variable (env : JdEnvironment) (jdArgs : JdNVargs)

def sslUpgradeText (serial : Int32) : Option (List UInt8) :=
  sprintf? sslUpgrade [some (decimalInt serial.toInt), jdArgs.feedid.text?, jdArgs.accesskey.text?]

def upgradeResponseText (firmVersion upResult : Int32) (sessionId : CString) :
    Option (List UInt8) :=
  sprintf? upgradeResponse [some (decimalInt firmVersion.toInt), some (decimalInt upResult.toInt),
    some sessionId.bytes, jdArgs.feedid.text?, jdArgs.accesskey.text?]

def controlResponseText (out : CString) : Option (List UInt8) :=
  sprintf? controlResponse [some out.bytes, jdArgs.feedid.text?, jdArgs.accesskey.text?]

/-- The result of an upgrade from an address. -/
def upgradeResult (firmUrl : CString) : Int32 :=
  if (env.httpcGet firmUrl).2 = downloadFail then (env.httpcGet firmUrl).2
  else (env.httpcGet firmUrl).1

def jdsslAppUpgrade (pRoot : CJson) : Attempt JdEffect Unit := do
  let uPdate ← Attempt.check (pRoot.getObjectItem "update")
  let fwVersion ← Attempt.check (uPdate.valueintAt "firm_version")
  let serial ← Attempt.check (pRoot.valueintAt "serial")
  let request ← Attempt.check (sslTx? (sslUpgradeText jdArgs serial))
  Attempt.emit (.setNetworkState .cloOta true)
  Attempt.emit (.cyaSslWrite request)
  let firmUrl ← Attempt.check (uPdate.valuestringAt "firm_url")
  let firmVersion ← Attempt.check (uPdate.valueintAt "firm_version")
  let sessionId ← Attempt.check (pRoot.valuestringAt "session_id")
  let response ← Attempt.check
    (sslTx? (upgradeResponseText jdArgs firmVersion (upgradeResult env firmUrl) sessionId))
  Attempt.emit (.cyaSslWrite response)
  if 0 < env.written response ∧ upgradeResult env firmUrl = upgradeOk then
    Attempt.emit (.hffileUserbinWrite jdConfigOffset
      { jdArgs with fwVersion := (fwVersion.toInt % 2 ^ 16).toNat }.image)
    Attempt.emit .hfsysReset
  Attempt.emit (.setNetworkState .cloOta false)

/-- The branch for the code 1002. -/
def controlCommand (pRoot : CJson) : Attempt JdEffect Unit := do
  let pJCon ← Attempt.check (pRoot.getObjectItem "control")
  Attempt.forEach (controlItem env.beforeTable) pJCon.child
  let pJatt ← Attempt.check (pRoot.getObjectItem "attribute")
  let response ← Attempt.check (sslTx? (controlResponseText jdArgs (env.cJson.print pJatt)))
  Attempt.emit (.jdsslSend response)

/-- What `JDCmdProcess` does for a code; `JDssl_local_upgrade` does nothing. -/
def jdCmdDispatch (codeId : Int32) (pRoot : CJson) : Attempt JdEffect Unit :=
  if codeId = 1001 then Attempt.emit (.setNetworkState .cloConnected false)
  else if codeId = 1003 then pure ()
  else if codeId = 1005 then jdsslAppUpgrade env jdArgs pRoot
  else if codeId = 1006 then pure ()
  else if codeId = 1002 then controlCommand env jdArgs pRoot
  else pure ()

/-- `JDCmdProcess`; the code is looked up before the document is known to be there. -/
def jdCmdProcess (pBuf : View) : Attempt JdEffect Unit := do
  let pRoot ← Attempt.check (env.cJson.parse pBuf)
  let codeId ← Attempt.check (pRoot.valueintAt "code")
  jdCmdDispatch env jdArgs codeId pRoot

end Commands

end ShuangFa
