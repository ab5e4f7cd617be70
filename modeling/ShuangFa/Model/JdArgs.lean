import ShuangFa.Coding.Format
import ShuangFa.Memory.Access
import ShuangFa.Model.Userbin

/-! # The arguments of the JD cloud

The device keeps its feed id and its key, the addresses of the servers and the version of its
firmware. Texts for the cloud are formatted with the feed id and the key; a string that does not end
inside its array has no text.
-/

namespace ShuangFa

open Memory Coding

def sizeofFeedid : ℕ := 64
def sizeofAccesskey : ℕ := 64
def sizeofIplistEntry : ℕ := 30

/-- `jdNVargs_t` -/
structure JdNVargs where
  magic : FixedBuffer 6
  feedid : FixedBuffer sizeofFeedid
  accesskey : FixedBuffer sizeofAccesskey
  iplist : FixedBuffer sizeofIplistEntry × FixedBuffer sizeofIplistEntry
  fwVersion : ℕ
deriving DecidableEq

/-- The arguments of a device without a feed id. -/
def JdNVargs.zero : JdNVargs := ⟨.zeros _, .zeros _, .zeros _, (.zeros _, .zeros _), 0⟩

/-- A `jdNVargs_t` as it lies in memory. -/
def JdNVargs.image (jdArgs : JdNVargs) : List UInt8 :=
  jdArgs.magic.bytes ++ jdArgs.feedid.bytes ++ jdArgs.accesskey.bytes ++
    (jdArgs.iplist.1.bytes ++ jdArgs.iplist.2.bytes) ++ bytesU16 jdArgs.fwVersion

theorem JdNVargs.image_length (jdArgs : JdNVargs) : jdArgs.image.length = sizeofJdNVargs := by
  simp only [image, List.length_append, bytesU16_length, FixedBuffer.size_eq]
  rfl

/-- `sprintf` with arguments of which some may have no text. -/
def sprintf? (format : String) (arguments : List (Option (List UInt8))) : Option (List UInt8) :=
  (arguments.mapM id).map (sprintf format)

theorem sprintf?_map_some (format : String) (arguments : List (List UInt8)) :
    sprintf? format (arguments.map some) = some (sprintf format arguments) := by
  have all : (arguments.map some).mapM id = some arguments := by
    induction arguments with
    | nil => rfl
    | cons argument arguments ih =>
      rw [List.map_cons, List.mapM_cons, ih]
      rfl
  rw [sprintf?, all, Option.map_some]

end ShuangFa
