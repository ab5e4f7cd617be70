import ShuangFa.Coding.Tokens
import ShuangFa.Model.JdArgs
import ShuangFa.Model.ParseNumber

/-! # The address of the JD cloud

`jdssl_thread` copies an address into an array of its own, and `get_ip_port` splits it there at the
colon. Both copies leave out the zero behind the text, and neither array is cleared before.
-/

namespace ShuangFa

open Memory Coding

def sizeofJdserverIp : ℕ := 20
def sizeofSslServer : ℕ := 50

/-- The server in `Jd_GlobalVar`. -/
structure JdServer where
  jdserverIp : FixedBuffer sizeofJdserverIp
  jdserverPort : UInt32
deriving DecidableEq

variable (d : DoubleArithmetic)

/-- `get_ip_port`: what it returns, and the server that it leaves. -/
def getIpPort (ipPort : List UInt8) (server : JdServer) : Option (Int32 × JdServer) := do
  match ← strtok? 58 ipPort with
  | none => pure (-1, server)
  | some (ip, behind) =>
    let jdserverIp ← server.jdserverIp.store? 0 ip
    match ← strtok? 58 behind with
    | none => pure (-1, { server with jdserverIp })
    | some (port, _) =>
      let jdserverPort ← str2int d port
      pure (1, ⟨jdserverIp, jdserverPort.toUInt32⟩)

/-- What `jdssl_thread` does with `iplist[0]`, where `ssl_server` has old contents. -/
def serverAddress (jdArgs : JdNVargs) (sslServer : FixedBuffer sizeofSslServer)
    (server : JdServer) : Option (Int32 × JdServer) := do
  let entry ← jdArgs.iplist.1.text?
  let copied ← sslServer.store? 0 entry
  getIpPort d copied.bytes server

end ShuangFa
