import Mathlib.Data.Finset.Insert
import Mathlib.Data.Finset.Erase
import ShuangFa.Machine.Replay
import ShuangFa.Model.HttpCoding
import ShuangFa.Model.JdServer
import ShuangFa.Model.JdService
import ShuangFa.Model.MessageQueue

/-! # The link to the JD cloud

`jdssl_thread` keeps one connection, and opens it again where there is none. A socket is opened in
`tcp_connect_ssl_server`, belongs to the link from `ssl_connect` on, and is closed in `ssl_check` and
`ssl_close`. What the system and the TLS library return, and what an iteration finds that other
threads have written, is its label. The end of the thread and a reset leave no later state.
-/

namespace ShuangFa

open Memory Coding Machine

def sizeofSslRx : ℕ := 600

def sslHeart : String :=
  "\x7b\"code\":101,\"device\":\x7b\"feed_id\":\"%s\",\"access_key\":\"%s\"," ++
  "\"firm_version\":%d,\"rssi\":%d\x7d\x7d\n"

/-- `ssl_t`; the pointers are there or not. -/
structure SslT where
  fd : ℤ
  ctx : Bool
  ssl : Bool
deriving DecidableEq

/-- What the iterations have in common, with the TCP sockets that are open. -/
structure JdLink where
  sslData : SslT
  connectFail : ℕ
  rhythm : ℕ
  server : JdServer
  sockets : Finset ℤ
deriving DecidableEq

def JdLink.initial : JdLink := ⟨⟨-1, false, false⟩, 0, 0, ⟨.zeros _, 0⟩, ∅⟩

/-- A round of `jdssl_send`: what `select` and `CyaSSL_write` return, and `errno`. -/
structure SendRound where
  selected : ℤ
  isSet : Bool
  written : ℤ
  errno : ℤ

/-- What an iteration of `jdssl_thread` meets. There is a list of rounds for each answer that its
command sends, and one for the report; the time is read up to three times. -/
structure JdIteration where
  u32StopJdTask : ℕ
  linkstRouter : Bool
  linkstInternet : Bool
  linkstCloud : Bool
  jdArgs : JdNVargs
  sslServer : FixedBuffer sizeofSslServer
  socket : ℤ
  connect : ℤ
  ctxNew : Bool
  sslNew : Bool
  setFd : ℤ
  isSet : Bool
  recvlen : ℤ
  recvlen_lt : recvlen < sizeofSslRx
  sslRx : FixedBuffer sizeofSslRx
  past : View
  env : JdEnvironment
  answers : List (List SendRound)
  time : ℕ × ℕ × ℕ
  rssi : ℤ
  report : List SendRound

section Sockets

variable (e : JdIteration) (s : JdLink)

def sslClose : JdLink :=
  { s with
    sslData := ⟨-1, false, false⟩
    sockets := if s.sslData.fd ≠ -1 then s.sockets.erase s.sslData.fd else s.sockets }

def sslCheck : ℤ × JdLink :=
  if s.sslData.fd = -1 then (1, s)
  else if s.sslData.ssl = false then
    (1, { s with
      sslData := { s.sslData with fd := -1 }
      sockets := s.sockets.erase s.sslData.fd })
  else (0, s)

/-- `tcp_connect_ssl_server`, without the options of the socket; a socket that is open is not given
out again. -/
def tcpConnectSslServer : Option (ℤ × JdLink) :=
  if e.socket < 0 then some (-1, s)
  else if e.socket ∈ s.sockets then none
  else if e.connect = -1 then
    some (-1, { s with sockets := (insert e.socket s.sockets).erase e.socket })
  else some (e.socket, { s with sockets := insert e.socket s.sockets })

/-- `ssl_connect`; the tenth failure in a row resets the device. -/
def sslConnect (fd : ℤ) : Option (ℤ × JdLink) :=
  if e.ctxNew = false then some (1, s)
  else if e.sslNew = false then some (1, { s with sslData := { s.sslData with ctx := false } })
  else if e.setFd = 1 then some (0, { s with sslData := ⟨fd, true, true⟩, connectFail := 0 })
  else if 10 ≤ s.connectFail + 1 then none
  else some (1, { s with
    sslData := { s.sslData with ctx := false, ssl := false }
    connectFail := s.connectFail + 1 })

end Sockets

/-- The loop of `jdssl_send`, with `retransmission`, which starts at zero and ends the loop there. -/
def jdsslSendLoop (s : JdLink) (retransmission : ℕ) : List SendRound → Option (ℤ × JdLink)
  | [] => none
  | round :: rounds =>
    if round.selected = 0 then some (0, s)
    else if round.selected = -1 then some (-1, s)
    else if s.sslData.fd ≠ -1 ∧ round.isSet then
      if round.written ≤ 0 then
        if retransmission + 1 = 2 then
          if round.errno = 0x0B ∨ round.errno = 0x6B then none else some (round.written, sslClose s)
        else jdsslSendLoop s (retransmission + 1) rounds
      else some (round.written, s)
    else if retransmission ≠ 0 then jdsslSendLoop s retransmission rounds
    else some (round.selected, s)

def jdsslSend (rounds : List SendRound) (s : JdLink) : Option (ℤ × JdLink) := jdsslSendLoop s 0 rounds

/-- What the effects of a command do to the link. -/
def jdCmdEffects : List JdEffect → List (List SendRound) → JdLink → Option JdLink
  | [], _, s => some s
  | .hfsysReset :: _, _, _ => none
  | .jdsslSend _ :: effects, rounds :: answers, s =>
    (jdsslSend rounds s).bind fun sent => jdCmdEffects effects answers sent.2
  | .jdsslSend _ :: _, [], _ => none
  | _ :: effects, answers, s => jdCmdEffects effects answers s

section Iterations

variable (d : DoubleArithmetic) (e : JdIteration) (s : JdLink)

def heartTickReport : Option JdLink := do
  let _ ← sslTx? (sprintf? sslHeart [e.jdArgs.feedid.text?, e.jdArgs.accesskey.text?,
    some (decimal e.jdArgs.fwVersion), some (decimalInt e.rssi)])
  if s.sslData.ssl then (jdsslSend e.report s).map Prod.snd else some s

/-- The part of an iteration that reports every 35 seconds. -/
def jdsslReport : Option JdLink :=
  if 35000 ≤ subU32 e.time.1 s.rhythm ∨ e.time.2.1 < s.rhythm ∨ s.rhythm = 0 then
    heartTickReport e { s with rhythm := e.time.2.2 }
  else some s

/-- The part of an iteration that reads. -/
def jdsslReceive : Option JdLink :=
  if e.isSet then
    if e.recvlen ≤ 0 then some (sslClose s)
    else do
      let text ← e.sslRx.store? e.recvlen.toNat [0]
      let pbuf ← httpdecode text 0
      let command := jdCmdProcess e.env e.jdArgs (pbuf.view e.past)
      command.result.bind fun _ => jdCmdEffects command.effects e.answers s
  else some s

/-- The end of an iteration. -/
def jdsslServe : Option JdLink :=
  if s.sslData.fd ≠ -1 then (jdsslReceive e s).bind (jdsslReport e) else some s

/-- The part of an iteration that connects. -/
def jdsslConnect : Option JdLink := do
  let (ret, server) ← serverAddress d e.jdArgs e.sslServer s.server
  if ret = -1 then some { s with server }
  else
    let (fd, opened) ← tcpConnectSslServer e { s with server }
    if fd = -1 then some opened
    else
      let (_, connected) ← sslConnect e opened fd
      jdsslServe e connected

/-- The link after the state of the network is known. -/
def jdsslOffline : JdLink :=
  if e.linkstInternet = false ∧ e.linkstCloud then sslClose s else s

/-- An iteration of `jdssl_thread`. -/
def jdsslIteration : Option JdLink :=
  if e.u32StopJdTask = 1 then none
  else if e.linkstRouter = false then some (if e.linkstCloud then sslClose s else s)
  else
    let (ret, checked) := sslCheck (jdsslOffline e s)
    if ret ≠ 0 then jdsslConnect d e checked else jdsslServe e checked

end Iterations

/-- An iteration, or a report of the UART, which is sent in between. -/
inductive JdLinkEvent where
  | iteration (e : JdIteration)
  | upload (rounds : List SendRound)

def jdsslThread (d : DoubleArithmetic) : PartialMachine JdLink JdLinkEvent where
  step? s
    | .iteration e => jdsslIteration d e s
    | .upload rounds => (jdsslSend rounds s).map Prod.snd

end ShuangFa
