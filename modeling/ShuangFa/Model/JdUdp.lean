import ShuangFa.Machine.Replay
import ShuangFa.Model.CJson
import ShuangFa.Model.JdArgs
import ShuangFa.Model.MessageQueue

/-! # Datagrams that search for the device

A datagram is a document behind two heads, the length and a sum of its bytes in the first, or a
document behind a digit and three zeros. `app_search_device` answers a search with the identity of
the device and stores the arguments for the JD cloud, both only for two minutes of the clock and
while a flag is set. The answer is built in the receive buffer.
-/

namespace ShuangFa

open Memory Coding Machine

def sizeofJdRcvBuffer : ℕ := 256
def sizeofCommonHeader : ℕ := 13
def sizeofCmdHeader : ℕ := 6

/-- The sum of bytes in an `unsigned char`. -/
def byteSum (bytes : List UInt8) : UInt8 := bytes.foldl (· + ·) 0

/-- `PacketBuild`: the bytes it stores, from the start of the buffer on. -/
def packetBuild (cJson : CJsonLibrary) (type : ℕ) (root : CJson) : List UInt8 :=
  let packet := bytesU32 type ++ ascii "OK".toList ++ (cJson.print root).bytes
  bytesU32 0x55AA ++ bytesU32 packet.length ++ bytesU32 0 ++ [byteSum packet] ++ packet

/-- `PacketAnalyse`: the type of the command and the document, or `NULL`. The magic is compared
without its low byte, the length with the arithmetic of a `u32`, and a plain `char` has no sign. -/
def packetAnalyse (parse : View → Option CJson) (pBuf : View) (length : ℕ) : Option (ℕ × CJson) :=
  if loadU32 pBuf 0 / 2 ^ 8 = 0x303030 then
    (parse (pBuf.shift 4)).map fun pRet => (subU32 (loadU32 pBuf 0 % 2 ^ 8) 48, pRet)
  else if loadU32 pBuf 0 ≠ 0x55AA ∨
      length % 2 ^ 32 ≠ addU32 (loadU32 pBuf 4) sizeofCommonHeader then none
  else if pBuf 12 ≠ byteSum (pBuf.read sizeofCommonHeader (loadU32 pBuf 4)) then none
  else (parse (pBuf.shift (sizeofCommonHeader + sizeofCmdHeader))).map fun pRet =>
    (loadU32 pBuf sizeofCommonHeader, pRet)

/-- What does not change while the device runs. -/
structure JdUdpEnvironment where
  cJson : CJsonLibrary
  jdProuuid : CString
  mac : CString

/-- The state that datagrams may change: `jdArgs`, the word at the start of the nonvolatile memory,
and the userbin area. -/
structure JdDevice where
  jdArgs : JdNVargs
  smtlk : ℕ
  userbin : View

/-- A device without a feed id that has been set up for the network. -/
def JdDevice.fresh : JdDevice := ⟨.zero, 1, fun _ => 0⟩

inductive JdAnswer where
  | nothing
  | undefined
  | sent (packet : List UInt8)
deriving DecidableEq

/-- What a datagram leaves before its answer goes into the receive buffer. A part that a store behind the
end of an array may have changed by then is `none`. -/
structure Searched where
  jdArgs : Option JdNVargs
  smtlk : ℕ
  userbin : Option View
  answer : JdAnswer

variable (env : JdUdpEnvironment)

/-- `PacketBuild` in the receive buffer, and the sending. -/
def jdAnswer (type : ℕ) (root : CJson) : JdAnswer :=
  if (packetBuild env.cJson type root).length ≤ sizeofJdRcvBuffer then
    .sent (packetBuild env.cJson type root)
  else .undefined

/-- The document with the identity of the device; a feed id that does not end has no string. -/
def identity (jdArgs : JdNVargs) : Option CJson :=
  let first := jdArgs.feedid.bytes.getD 0 0
  let feedid := if first = 0 ∨ first = 0xFF then some (literal "0") else jdArgs.feedid.string?
  feedid.map fun feedid => .object [(literal "feedid", .string feedid),
    (literal "mac", .string env.mac), (literal "productuuid", .string env.jdProuuid)]

/-- The answer to a search for a product. -/
def searchAnswer (jdArgs : JdNVargs) (jDevice : CJson) : JdAnswer :=
  match jDevice.valuestringAt "productuuid" with
  | none => .undefined
  | some productuuid =>
    if env.jdProuuid ≠ productuuid ∨ productuuid.bytes.getD 0 0 = 0 ∨ literal "0" ≠ productuuid then
      (identity env jdArgs).elim .undefined (jdAnswer env 2)
    else .nothing

/-- `strcpy` to the start of an array. -/
def strcpy? {n : ℕ} (destination : FixedBuffer n) (source : CString) : Option (FixedBuffer n) :=
  destination.store? 0 (terminated source.bytes)

/-- `strcpy` to an entry of `iplist`. -/
def strcpyIplist? (i : ℕ) (source : CString)
    (iplist : FixedBuffer sizeofIplistEntry × FixedBuffer sizeofIplistEntry) :
    Option (FixedBuffer sizeofIplistEntry × FixedBuffer sizeofIplistEntry) :=
  if i = 0 then (strcpy? iplist.1 source).map fun stored => (stored, iplist.2)
  else if i = 1 then (strcpy? iplist.2 source).map fun stored => (iplist.1, stored)
  else none

/-- The loop over the items of `server`, from the entry `i` on. -/
def storeServers (i : ℕ) (iplist : FixedBuffer sizeofIplistEntry × FixedBuffer sizeofIplistEntry) :
    List CJson → Option (FixedBuffer sizeofIplistEntry × FixedBuffer sizeofIplistEntry)
  | [] => some iplist
  | server :: rest => do
    let valuestring ← server.valuestring?
    let stored ← strcpyIplist? i valuestring iplist
    storeServers (i + 1) stored rest

/-- The arguments that a request leaves in `jdArgs`. -/
def provision (jDevice : CJson) (jdArgs : JdNVargs) : Option JdNVargs := do
  let feedid ← jDevice.valuestringAt "feedid"
  let feedid ← strcpy? jdArgs.feedid feedid
  let accesskey ← jDevice.valuestringAt "accesskey"
  let accesskey ← strcpy? jdArgs.accesskey accesskey
  let server ← jDevice.getObjectItem "server"
  let iplist ← storeServers 0 jdArgs.iplist server.child
  some ⟨jdArgs.magic.overlay 0 (ascii "HF_JD".toList), feedid, accesskey, iplist, jdArgs.fwVersion⟩

/-- The document that confirms a request. -/
def confirmation : CJson := .object [(literal "code", .number 0 0),
  (literal "msg", .string (literal "write feed_id and accesskey successfully!"))]

/-- The first two minutes of the clock, with the flag set. -/
def Provisioning (clock : ℕ) (s : JdDevice) : Prop := clock < 2000 * 60 ∧ s.smtlk = 1

instance (clock : ℕ) (s : JdDevice) : Decidable (Provisioning clock s) :=
  inferInstanceAs (Decidable (_ ∧ _))

/-- A datagram that changes nothing and is not answered. -/
def JdDevice.left (s : JdDevice) : Searched := ⟨some s.jdArgs, s.smtlk, some s.userbin, .nothing⟩

/-- A request outside the first two minutes clears the flag. -/
def JdDevice.refused (s : JdDevice) : Searched := ⟨some s.jdArgs, 0, some s.userbin, .nothing⟩

def JdDevice.search (s : JdDevice) (jDevice : CJson) : Searched :=
  ⟨some s.jdArgs, s.smtlk, some s.userbin, searchAnswer env s.jdArgs jDevice⟩

def JdDevice.provision (s : JdDevice) (jDevice : CJson) : Searched :=
  match ShuangFa.provision jDevice s.jdArgs with
  | none => ⟨none, s.smtlk, none, .undefined⟩
  | some jdArgs => ⟨some jdArgs, s.smtlk,
      some (hffileUserbinWrite jdConfigOffset jdArgs.image s.userbin), jdAnswer env 4 confirmation⟩

def appSearchDevice (clock : ℕ) (rxMessage : View) (rLength : ℕ) (s : JdDevice) : Searched :=
  match packetAnalyse env.cJson.parse rxMessage rLength with
  | none => s.left
  | some (type, jDevice) =>
    if type = 1 then
      if Provisioning clock s then s.search env jDevice else s.refused
    else if type = 3 then
      if Provisioning clock s then s.provision env jDevice else s.refused
    else s.left

end ShuangFa
