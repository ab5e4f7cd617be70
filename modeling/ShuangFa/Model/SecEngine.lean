import ShuangFa.Model.MessageQueue

/-! # The security engine

The block ciphers are parameters; everything around them is the source's: the CBC chaining and its
padding, the PKCS#1 padding, the block loops over long texts, and the choice of an algorithm from
the head of a frame. A decryption reads its text through a pointer, so the last, partial block takes
the bytes that lie behind the text. The length of a plaintext is a result of its own: on some paths
it wraps and on others it is never assigned.
-/

namespace ShuangFa

open Memory

def zcSecRsaKeyBytes : ℕ := 32
def zcSecAesBlockSize : ℕ := 16
def rsaCrypt : UInt8 := 2

abbrev AesBlock := FixedBuffer 16
abbrev RsaBlock := FixedBuffer 32

/-- The block operations of the vendored AES and RSA code under a key; an RSA operation refuses a
block that is not below the modulus. -/
structure Crypto where
  aesEncrypt : FixedBuffer zcHsSessionKeyLen → AesBlock → AesBlock
  aesDecrypt : FixedBuffer zcHsSessionKeyLen → AesBlock → AesBlock
  rsaPublic : FixedBuffer zcCloudKeyMaxLen → RsaBlock → Option RsaBlock
  rsaPrivate : FixedBuffer zcModuleKeyLen → RsaBlock → Option RsaBlock

/-- What the engine reads of the global state. -/
structure SecContext where
  u32SecSwitch : ℕ
  u8keyRecv : Bool
  u8SessionKey : FixedBuffer zcHsSessionKeyLen
  ivSend : AesBlock
  ivRecv : AesBlock
  u8PrivateKey : FixedBuffer zcModuleKeyLen
  u8CloudKey : FixedBuffer zcCloudKeyMaxLen

/-- The values unassigned locals have, and the byte in front of `g_u8MsgBuildBuffer`. -/
structure Stale where
  u16PlainLen : ℕ
  s32len : ℕ
  before : UInt8

/-- A return code, the bytes written from the start of the output, and the length reported. -/
structure SecResult where
  ret : Ret
  plain : List UInt8
  u16PlainLen : ℕ

def AesBlock.xor (first second : AesBlock) : AesBlock :=
  ⟨List.zipWith (· ^^^ ·) first.bytes second.bytes, by
    rw [List.length_zipWith, first.size_eq, second.size_eq, Nat.min_self]⟩

/-- The full blocks of `AES_cbc_core` in decrypt mode, with the input pointer and the chaining
block behind them. -/
def aesCbcDecryptLoop (decrypt : AesBlock → AesBlock) :
    ℕ → View → AesBlock → List UInt8 × View × AesBlock
  | 0, input, iv => ([], input, iv)
  | blocks + 1, input, iv =>
    let cipher : AesBlock := .ofView input 0 16
    let (out, rest, last) := aesCbcDecryptLoop decrypt blocks (input.shift 16) cipher
    (((decrypt cipher).xor iv).bytes ++ out, rest, last)

/-- `AES_cbc_core` in decrypt mode between different buffers: what it writes and `*outlength`. The
padding length is the last byte written or, when nothing is, the byte in front of the output. -/
def aesCbcCoreDecrypt (decrypt : AesBlock → AesBlock) (input : View) (length : ℕ)
    (ivec : AesBlock) (before : UInt8) : List UInt8 × ℕ :=
  let (out, rest, iv) := aesCbcDecryptLoop decrypt (length / 16) input ivec
  let last := ((decrypt (.ofView rest 0 16)).xor iv).bytes.take (length % 16)
  (out ++ last, subU32 length ((out ++ last).getLastD before).toNat)

def aesCbcEncryptLoop (encrypt : AesBlock → AesBlock) : ℕ → View → AesBlock → List UInt8
  | 0, _, _ => []
  | blocks + 1, input, iv =>
    let cipher := encrypt (AesBlock.xor (.ofView input 0 16) iv)
    cipher.bytes ++ aesCbcEncryptLoop encrypt blocks (input.shift 16) cipher

/-- `AES_cbc_core` in encrypt mode: the padding fills the last block or is a block of its own. -/
def aesCbcCoreEncrypt (encrypt : AesBlock → AesBlock) (input : View) (length : ℕ)
    (ivec : AesBlock) : List UInt8 :=
  let paddingLen := 16 - length % 16
  aesCbcEncryptLoop encrypt (length / 16 + 1)
    (.ofList (input.read 0 length ++ List.replicate paddingLen (UInt8.ofNat paddingLen))) ivec

/-- `rsa_pkcs1_decrypt`: `none` is any nonzero return code. -/
def rsaPkcs1Decrypt (rsaPrivate : RsaBlock → Option RsaBlock) (outputMaxLen : ℕ) (input : View) :
    Option (List UInt8) := do
  let buf ← rsaPrivate (.ofView input 0 zcSecRsaKeyBytes)
  if buf.bytes.take 2 ≠ [0, rsaCrypt] then none
  else match (buf.bytes.drop 2).dropWhile (· ≠ 0) with
    | [] => none
    | _ :: plain => if outputMaxLen < plain.length then none else some plain

/-- `rsa_pkcs1_encrypt`: success, and what is left at the output; a refused block leaves the padded
text there. The pad bytes are what `rand` gives without the zeros. -/
def rsaPkcs1Encrypt (rsaPublic : RsaBlock → Option RsaBlock) (pads : ℕ → {byte : UInt8 // byte ≠ 0})
    (input : List UInt8) : Bool × List UInt8 :=
  if room : input.length + 11 ≤ zcSecRsaKeyBytes then
    let padded : RsaBlock := ⟨[0, rsaCrypt] ++
      (List.range (zcSecRsaKeyBytes - 3 - input.length)).map (fun place => (pads place).val) ++
      [0] ++ input, by
        have wide : input.length + 11 ≤ 32 := room
        simp [zcSecRsaKeyBytes]
        omega⟩
    match rsaPublic padded with
    | none => (false, padded.bytes)
    | some cipher => (true, cipher.bytes)
  else (false, [])

/-- The state of the loop in `SEC_DecryptTextByRsa`. -/
structure RsaDecryption where
  u16ReadLen : ℕ
  u16PlainLen : ℕ
  s32len : ℕ
  ret : Ret
  plain : List UInt8

namespace RsaDecryption

/-- A block that opens. -/
def opened (state : RsaDecryption) (bytes : List UInt8) : RsaDecryption where
  u16ReadLen := state.u16ReadLen + zcSecRsaKeyBytes
  u16PlainLen := (state.u16PlainLen + bytes.length) % 2 ^ 16
  s32len := bytes.length
  ret := .ok
  plain := state.plain ++ bytes

/-- The `while` loop: a block that does not open breaks it. -/
def loop (decrypt : ℕ → Option (List UInt8)) : ℕ → RsaDecryption → RsaDecryption
  | 0, state => state
  | blocks + 1, state =>
    match decrypt state.u16ReadLen with
    | none => { state with ret := .error }
    | some bytes => loop decrypt blocks (state.opened bytes)

/-- The rest behind the loop; its length is added whether it opens or not. -/
def tail (decrypt : ℕ → Option (List UInt8)) (state : RsaDecryption) : RsaDecryption :=
  match decrypt state.u16ReadLen with
  | none => { state with
      ret := .error, u16PlainLen := (state.u16PlainLen + state.s32len) % 2 ^ 16 }
  | some bytes => state.opened bytes

end RsaDecryption

/-- `SEC_DecryptTextByRsa`. -/
def secDecryptTextByRsa (rsaPrivate : RsaBlock → Option RsaBlock) (stale : Stale) (cipher : View)
    (u16Len : ℕ) : SecResult :=
  let decrypt (u16ReadLen : ℕ) := rsaPkcs1Decrypt rsaPrivate u16Len (cipher.shift u16ReadLen)
  if zcSecRsaKeyBytes < u16Len then
    let looped := RsaDecryption.loop decrypt (u16Len / zcSecRsaKeyBytes) ⟨0, 0, stale.s32len, .ok, []⟩
    let done := if looped.u16ReadLen < u16Len then looped.tail decrypt else looped
    ⟨done.ret, done.plain, done.u16PlainLen⟩
  else match decrypt 0 with
    | none => ⟨.error, [], stale.s32len % 2 ^ 16⟩
    | some bytes => ⟨.ok, bytes, bytes.length % 2 ^ 16⟩

/-- `SEC_AesDecrypt`: without a key the length is not assigned. -/
def secAesDecrypt (crypto : Crypto) (context : SecContext) (stale : Stale) (cipher : View)
    (u16Len : ℕ) : SecResult :=
  if context.u8keyRecv then
    let (plain, u32OutLen) := aesCbcCoreDecrypt (crypto.aesDecrypt context.u8SessionKey) cipher
      u16Len context.ivRecv stale.before
    ⟨.ok, plain, u32OutLen % 2 ^ 16⟩
  else ⟨.error, [], stale.u16PlainLen⟩

/-- The algorithm `SEC_Decrypt` and `SEC_PaddingCheck` use for a type under the switch. -/
def secFlag (u32SecSwitch : ℕ) (u8SecType : UInt8) : UInt8 :=
  if u32SecSwitch = 0 then zcSecAlgNone
  else if u32SecSwitch = 2 then
    if u8SecType = zcSecAlgRsa then zcSecAlgNone else u8SecType
  else u8SecType

/-- `SEC_Decrypt` of the text behind a head: an unknown algorithm assigns nothing. -/
def secDecrypt (crypto : Crypto) (context : SecContext) (stale : Stale) (head : ZcSecHead)
    (cipher : View) : SecResult :=
  let u16Len := zcHtons head.u16TotalMsg
  let u8SecFlag := secFlag context.u32SecSwitch head.u8SecType
  if u8SecFlag = zcSecAlgNone then ⟨.ok, cipher.read 0 u16Len, u16Len⟩
  else if u8SecFlag = zcSecAlgRsa then
    secDecryptTextByRsa (crypto.rsaPrivate context.u8PrivateKey) stale cipher u16Len
  else if u8SecFlag = zcSecAlgAes then secAesDecrypt crypto context stale cipher u16Len
  else ⟨.error, [], stale.u16PlainLen⟩

/-- `SEC_PaddingCheck`: the bytes an encryption adds. -/
def secPaddingCheck (u32SecSwitch : ℕ) (u8SecType : UInt8) (u16PlainLen : ℕ) : ℕ :=
  let u8SecFlag := secFlag u32SecSwitch u8SecType
  if u8SecFlag = zcSecAlgAes then zcSecAesBlockSize - u16PlainLen % zcSecAesBlockSize
  else if u8SecFlag = zcSecAlgRsa then
    let lastBlockSize := u16PlainLen % zcSecRsaKeyBytes
    if 0 < lastBlockSize then zcSecRsaKeyBytes - lastBlockSize else 0
  else 0

/-- A return code, what is left at the output, and the length reported. -/
structure SecCipher where
  ret : Ret
  cipher : List UInt8
  u16CiperLen : ℕ

/-- The state of the loop in `SEC_EncryptTextByRsa`. -/
structure RsaEncryption where
  u16ReadLen : ℕ
  u16CiperLen : ℕ
  calls : ℕ
  succeeded : Bool
  cipher : List UInt8

namespace RsaEncryption

/-- Encrypt `length` bytes to the current end of the output; the operation may refuse in one call what
it takes in another. -/
def encrypt (rsaPublic : ℕ → RsaBlock → Option RsaBlock)
    (pads : ℕ → ℕ → {byte : UInt8 // byte ≠ 0}) (plain : View) (length : ℕ)
    (state : RsaEncryption) : RsaEncryption :=
  let (succeeded, out) := rsaPkcs1Encrypt (rsaPublic state.calls) (pads state.calls)
    (plain.read state.u16ReadLen length)
  { state with
    calls := state.calls + 1
    succeeded := succeeded
    cipher := state.cipher.take state.u16CiperLen ++ out ++
      state.cipher.drop (state.u16CiperLen + out.length) }

/-- The `while` loop over the full blocks: a block that fails breaks it. -/
def loop (rsaPublic : ℕ → RsaBlock → Option RsaBlock) (pads : ℕ → ℕ → {byte : UInt8 // byte ≠ 0})
    (plain : View) : ℕ → RsaEncryption → RsaEncryption
  | 0, state => state
  | blocks + 1, state =>
    let next := state.encrypt rsaPublic pads plain (zcSecRsaKeyBytes - 11)
    if next.succeeded then
      loop rsaPublic pads plain blocks { next with
        u16ReadLen := next.u16ReadLen + (zcSecRsaKeyBytes - 11)
        u16CiperLen := (next.u16CiperLen + zcSecRsaKeyBytes) % 2 ^ 16 }
    else next

end RsaEncryption

/-- `SEC_EncryptTextByRsa`, given what each call of the operation does. -/
def secEncryptTextByRsa (rsaPublic : ℕ → RsaBlock → Option RsaBlock)
    (pads : ℕ → ℕ → {byte : UInt8 // byte ≠ 0}) (plain : View) (u16Len : ℕ) : SecCipher :=
  let start : RsaEncryption := ⟨0, 0, 0, true, []⟩
  let done :=
    if zcSecRsaKeyBytes < u16Len + 11 then
      let looped := start.loop rsaPublic pads plain (u16Len / (zcSecRsaKeyBytes - 11))
      if looped.u16ReadLen < u16Len then
        let last := looped.encrypt rsaPublic pads plain (u16Len - looped.u16ReadLen)
        { last with u16CiperLen := (last.u16CiperLen + zcSecRsaKeyBytes) % 2 ^ 16 }
      else looped
    else { start.encrypt rsaPublic pads plain u16Len with u16CiperLen := zcSecRsaKeyBytes }
  ⟨if done.succeeded then .ok else .error, done.cipher, done.u16CiperLen⟩

/-- `SEC_AesEncrypt`; without a key nothing is written. -/
def secAesEncrypt (crypto : Crypto) (context : SecContext) (plain : View) (u16Len : ℕ) : SecCipher :=
  if context.u8keyRecv then
    let cipher := aesCbcCoreEncrypt (crypto.aesEncrypt context.u8SessionKey) plain u16Len
      context.ivSend
    ⟨.ok, cipher, cipher.length % 2 ^ 16⟩
  else ⟨.error, [], u16Len⟩

/-- The type `SEC_Encrypt` leaves in the head. -/
def secEncryptType (u32SecSwitch : ℕ) (u8SecType : UInt8) : UInt8 :=
  if u32SecSwitch = 0 then zcSecAlgNone else u8SecType

/-- `SEC_Encrypt`: the type decides, and with the switch off it is rewritten first. -/
def secEncrypt (crypto : Crypto) (context : SecContext) (pads : ℕ → ℕ → {byte : UInt8 // byte ≠ 0})
    (head : ZcSecHead) (plain : View) : SecCipher :=
  let u16Len := zcHtons head.u16TotalMsg
  let u8SecType := secEncryptType context.u32SecSwitch head.u8SecType
  if u8SecType = zcSecAlgNone then ⟨.ok, plain.read 0 u16Len, u16Len⟩
  else if u8SecType = zcSecAlgRsa then
    secEncryptTextByRsa (fun _ => crypto.rsaPublic context.u8CloudKey) pads plain u16Len
  else if u8SecType = zcSecAlgAes then secAesEncrypt crypto context plain u16Len
  else ⟨.error, [], u16Len⟩

end ShuangFa
