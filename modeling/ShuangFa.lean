import ShuangFa.Soundness.Answers
import ShuangFa.Soundness.Assembly
import ShuangFa.Soundness.Authentication
import ShuangFa.Soundness.BigNumbers
import ShuangFa.Soundness.BlockCipher
import ShuangFa.Soundness.Bursts
import ShuangFa.Soundness.CbcBuffers
import ShuangFa.Soundness.Checksum
import ShuangFa.Soundness.Chunking
import ShuangFa.Soundness.Clients
import ShuangFa.Soundness.Commands
import ShuangFa.Soundness.ControlValues
import ShuangFa.Soundness.Corruption
import ShuangFa.Soundness.Downgrade
import ShuangFa.Soundness.Duplicates
import ShuangFa.Soundness.Encoders
import ShuangFa.Soundness.Expansion
import ShuangFa.Soundness.Exponentiation
import ShuangFa.Soundness.Finish
import ShuangFa.Soundness.Forwarding
import ShuangFa.Soundness.Handles
import ShuangFa.Soundness.Handshake
import ShuangFa.Soundness.Heartbeat
import ShuangFa.Soundness.HttpDecode
import ShuangFa.Soundness.Inflation
import ShuangFa.Soundness.JdCommands
import ShuangFa.Soundness.JdSockets
import ShuangFa.Soundness.Link
import ShuangFa.Soundness.MinifiedDocuments
import ShuangFa.Soundness.Numerals
import ShuangFa.Soundness.OtaPaths
import ShuangFa.Soundness.Overlong
import ShuangFa.Soundness.OwnBytes
import ShuangFa.Soundness.Packets
import ShuangFa.Soundness.Pieces
import ShuangFa.Soundness.Provisioning
import ShuangFa.Soundness.Queue
import ShuangFa.Soundness.Reception
import ShuangFa.Soundness.Reconnect
import ShuangFa.Soundness.Release
import ShuangFa.Soundness.Reports
import ShuangFa.Soundness.Responses
import ShuangFa.Soundness.Rewrapping
import ShuangFa.Soundness.SearchAnswers
import ShuangFa.Soundness.Settings
import ShuangFa.Soundness.ShortPayloads
import ShuangFa.Soundness.Sockets
import ShuangFa.Soundness.Stream
import ShuangFa.Soundness.Tiling
import ShuangFa.Soundness.Upgrade
import ShuangFa.Soundness.UrlBounds
import ShuangFa.Soundness.UrlCoding
import ShuangFa.Soundness.Userbin
import ShuangFa.Soundness.Watchdog
import ShuangFa.Soundness.Window
