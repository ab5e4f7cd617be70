import ShuangFa.Model.HttpCoding
import ShuangFa.Model.JdService

/-! # Firmware from the JD cloud

`encode_signature` builds the address of a firmware in `ssl_tx`, with what follows the signature
encoded for a URL. `Httpc_get` opens it, reads the body piece by piece, and hands every piece to the
update. The results of the SDK are parameters; a body ends with the first read that gives nothing.
-/

namespace ShuangFa

open Memory Coding Machine

def downloadOk : Int32 := 7001
def upgradeFail : Int32 := 7004
def hfSuccess : Int32 := 0
def sizeofSignature : ℕ := 50
def sizeofContentData : ℕ := 512

/-- `strstr`: where the text is found first. -/
def strstr (needle : List UInt8) : List UInt8 → Option ℕ
  | [] => if needle = [] then some 0 else none
  | byte :: rest =>
    if needle <+: byte :: rest then some 0 else (strstr needle rest).map (· + 1)

/-- The string from a place in memory on, if it ends inside. -/
def stringFrom? (memory : List UInt8) (offset : ℕ) : Option (List UInt8) :=
  if 0 ∈ memory.drop offset then some ((memory.drop offset).takeWhile (· ≠ 0)) else none

/-- `strcat` to the string in an array. -/
def strcat? {n : ℕ} (destination : FixedBuffer n) (source : List UInt8) : Option (FixedBuffer n) :=
  destination.text?.bind fun text => destination.store? text.length (terminated source)

def signatureKey : List UInt8 := ascii "Signature".toList

/-- `encode_signature`: what it returns, and `ssl_tx`. -/
def encodeSignature (url : CString) (sslTx : FixedBuffer sizeofSslTx) :
    Option (Int32 × FixedBuffer sizeofSslTx) :=
  match strstr signatureKey url.bytes with
  | none => some (-1, sslTx)
  | some head => do
    let len := head + 10
    let copied ← (FixedBuffer.zeros sizeofSslTx).store? 0 (url.memory.bytes.take len)
    let sig ← stringFrom? url.memory.bytes len
    let encoded ← urlEncode (some (url.memory.bytes.drop len)) sig.length
      (some (FixedBuffer.zeros sizeofSignature)) sizeofSignature
    let signature ← encoded.2.bind FixedBuffer.text?
    let joined ← strcat? copied signature
    some (1, joined)

/-- What `Httpc_get` calls. -/
inductive OtaCall where
  | hfmemMalloc (size : ℕ)
  | hfmemFree (size : ℕ)
  | hfhttpParseUrl (url : List UInt8)
  | hfhttpOpenSession (url : List UInt8)
  | hfhttpPrepareReq
  | hfhttpSendRequest
  | hfhttpReadContent
  | hfhttpCloseSession
  | hfsysDisableAllSoftWatchdogs
  | hfupdateStart
  | hfupdateWriteFile (offset : ℕ) (data : List UInt8)
  | hfupdateComplete (fileTotalLen : ℕ)
  | hftimerCreate
  | hftimerStart
  | hftimerDelete
  | hfgpioFsetOutLow
deriving DecidableEq

/-- A round of the download: what `hfhttp_read_content` returns, `content_data` behind it, and what
`hfupdate_write_file` returns. -/
structure HttpRead where
  readSize : Int32
  readSize_le : readSize.toInt ≤ sizeofContentData
  contentData : FixedBuffer sizeofContentData
  written : Int32

/-- The bytes that have been read. -/
def HttpRead.data (read : HttpRead) : List UInt8 :=
  read.contentData.bytes.take read.readSize.toInt.toNat

/-- The results of the calls; a pointer is there or not. The reads go on at least to the first one
that gives nothing. -/
structure OtaSdk where
  tempBuf : Bool
  parsed : Int32
  opened : Int32
  hhttp : Bool
  sent : Int32
  contentData : Bool
  upgTimer : Bool
  reads : List HttpRead
  reads_end : ∃ read ∈ reads, read.readSize ≤ 0
  completed : Int32

/-- The sum of two sizes in an `int`. -/
def addSize? (total size : ℕ) : Option ℕ := if total + size < 2 ^ 31 then some (total + size) else none

/-- The loop of the download, with `total_size`. -/
def httpcLoop (totalSize : ℕ) : List HttpRead → Attempt OtaCall ℕ
  | [] => Attempt.check none
  | read :: reads => do
    Attempt.emit .hfhttpReadContent
    if 0 < read.readSize then
      Attempt.emit (.hfupdateWriteFile totalSize read.data)
      let totalSize ← Attempt.check (addSize? totalSize read.readSize.toInt.toNat)
      httpcLoop totalSize reads
    else pure totalSize

variable (sdk : OtaSdk)

/-- What follows the label `exit`, with the resources that are there. -/
def httpcExit (upgTimer tempBuf contentData hhttp : Bool) : Attempt OtaCall Unit := do
  if upgTimer then
    Attempt.emit .hftimerDelete
    Attempt.emit .hftimerDelete
  if tempBuf then Attempt.emit (.hfmemFree 256)
  if contentData then Attempt.emit (.hfmemFree 512)
  if hhttp then Attempt.emit .hfhttpCloseSession
  Attempt.emit .hfgpioFsetOutLow

/-- A failure before the download; `dl_status` is not assigned. -/
def httpcFails (tempBuf contentData hhttp : Bool) : Attempt OtaCall (Int32 × Option Int32) := do
  httpcExit false tempBuf contentData hhttp
  pure (downloadFail, none)

/-- `Httpc_get` from the start of the timer on. -/
def httpcDownload : Attempt OtaCall (Int32 × Option Int32) := do
  Attempt.emit .hftimerStart
  let totalSize ← httpcLoop 0 sdk.reads
  let dlStatus := if totalSize ≤ 0 then downloadFail else downloadOk
  Attempt.emit (.hfupdateComplete totalSize)
  let rv := if sdk.completed ≠ hfSuccess then upgradeFail else upgradeOk
  httpcExit true true true sdk.hhttp
  pure (rv, some dlStatus)

/-- `Httpc_get` from the sending of the request on. -/
def httpcSend : Attempt OtaCall (Int32 × Option Int32) := do
  Attempt.emit .hfsysDisableAllSoftWatchdogs
  Attempt.emit .hfupdateStart
  Attempt.emit .hfhttpPrepareReq
  Attempt.emit .hfhttpSendRequest
  if sdk.sent ≠ hfSuccess then httpcFails true false sdk.hhttp
  else
    Attempt.emit (.hfmemMalloc 512)
    if sdk.contentData = false then httpcFails true false sdk.hhttp
    else
      Attempt.emit .hftimerCreate
      if sdk.upgTimer = false then httpcFails true true sdk.hhttp
      else httpcDownload sdk

/-- `Httpc_get` with the address in `ssl_tx`. -/
def httpcRequest (testUrl : List UInt8) : Attempt OtaCall (Int32 × Option Int32) := do
  Attempt.emit (.hfmemMalloc 256)
  if sdk.tempBuf = false then httpcFails false false false
  else
    Attempt.emit (.hfhttpParseUrl testUrl)
    if sdk.parsed ≠ hfSuccess then httpcFails true false false
    else
      Attempt.emit (.hfhttpOpenSession testUrl)
      if sdk.opened ≠ hfSuccess then httpcFails true false sdk.hhttp
      else httpcSend sdk

/-- `Httpc_get`: what it returns, and what it assigns to `*dl_status`. It clears `ssl_tx` behind
`encode_signature`. -/
def httpcGet (purl : CString) (sslTx : FixedBuffer sizeofSslTx) :
    Attempt OtaCall (Int32 × Option Int32) := do
  let encoded ← Attempt.check (encodeSignature purl sslTx)
  if encoded.1 = -1 then pure (-1, some downloadFail)
  else
    let cleared := encoded.2.overlay 0 (List.replicate sizeofSslTx 0)
    let testUrl ← Attempt.check cleared.text?
    httpcRequest sdk testUrl

end ShuangFa
