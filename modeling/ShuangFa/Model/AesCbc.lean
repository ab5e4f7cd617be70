import ShuangFa.Memory.Store
import ShuangFa.Model.SecEngine

/-! # CBC between buffers

`AES_cbc_core` over a flat memory, with the addresses of its buffers. Each mode threads the chaining
block its own way: an encryption points to the block it wrote last, a decryption into another buffer
to the block it read last, and a decryption in place keeps it in `ivec`. The loops over the bytes of
a block read and write the memory byte after byte.
-/

namespace ShuangFa

open Memory

/-- The arguments of `AES_cbc_core` that point somewhere. -/
structure CbcBuffers where
  input : ℕ
  output : ℕ
  ivec : ℕ

/-- `enc` of `AES_cbc_core`. -/
inductive AesMode
  | encrypt
  | decrypt
deriving DecidableEq

/-- The pointer `iv` of `AES_cbc_core`: it points to the local copy at first. -/
inductive IvPointer
  | tempiv
  | block (address : ℕ)
deriving DecidableEq

namespace IvPointer

/-- `iv[n]`. -/
def byte (tempiv : AesBlock) (memory : View) : IvPointer → ℕ → UInt8
  | .tempiv, n => tempiv.bytes.getD n 0
  | .block address, n => memory (address + n)

end IvPointer

section Core

variable (cipher : AesBlock → AesBlock) (tempiv : AesBlock)

/-- `AES_encrypt` and `AES_decrypt`: the block is read as a whole before one is written. -/
def aesBlockAt (input output : ℕ) (memory : View) : View :=
  memory.store output (cipher (.ofView memory input 16)).bytes

/-- The full blocks of an encryption, with what the pointers are behind them. -/
def cbcEncryptBlocks : ℕ → ℕ → ℕ → IvPointer → View → ℕ × ℕ × IvPointer × View
  | 0, input, output, iv, memory => (input, output, iv, memory)
  | blocks + 1, input, output, iv, memory =>
    let mixed := memory.fill output (fun now n => now (input + n) ^^^ iv.byte tempiv now n) 0 16
    cbcEncryptBlocks blocks (input + 16) (output + 16) (.block output)
      (aesBlockAt cipher output output mixed)

/-- The last block of an encryption: the rest of the text, if there is one, and the padding. -/
def cbcEncryptLast (len input output : ℕ) (iv : IvPointer) (memory : View) : View :=
  if 0 < len then
    let paddingLen := 16 - len
    let texted := memory.fill output (fun now n => now (input + n) ^^^ iv.byte tempiv now n) 0 len
    let mixed := texted.fill output
      (fun now n => UInt8.ofNat paddingLen ^^^ iv.byte tempiv now n) len (16 - len)
    aesBlockAt cipher output output mixed
  else
    let mixed := memory.fill output (fun now n => UInt8.ofNat 16 ^^^ iv.byte tempiv now n) 0 16
    aesBlockAt cipher output output mixed

/-- The full blocks of a decryption into another buffer. -/
def cbcDecryptBlocks : ℕ → ℕ → ℕ → IvPointer → View → ℕ × ℕ × IvPointer × View
  | 0, input, output, iv, memory => (input, output, iv, memory)
  | blocks + 1, input, output, iv, memory =>
    let opened := aesBlockAt cipher input output memory
    cbcDecryptBlocks blocks (input + 16) (output + 16) (.block input)
      (opened.fill output (fun now n => now (output + n) ^^^ iv.byte tempiv now n) 0 16)

/-- What a decryption into another buffer does with a rest: `tmp` holds its last block. -/
def cbcDecryptLast (len input output : ℕ) (iv : IvPointer) (memory : View) : View :=
  let tmp := cipher (.ofView memory input 16)
  memory.fill output (fun now n => tmp.bytes.getD n 0 ^^^ iv.byte tempiv now n) 0 len

/-- The full blocks of a decryption in place; `ivec` is the address of the chaining block. -/
def cbcDecryptInPlace (ivec : ℕ) : ℕ → ℕ → ℕ → View → ℕ × ℕ × View
  | 0, input, output, memory => (input, output, memory)
  | blocks + 1, input, output, memory =>
    let tmp : AesBlock := .ofView memory input 16
    let opened := aesBlockAt cipher input output memory
    let plain := opened.fill output (fun now n => now (output + n) ^^^ now (ivec + n)) 0 16
    cbcDecryptInPlace ivec blocks (input + 16) (output + 16) (plain.store ivec tmp.bytes)

/-- What a decryption in place does with a rest: the bytes behind it are put back. -/
def cbcDecryptInPlaceLast (ivec len input output : ℕ) (memory : View) : View :=
  let tmp : AesBlock := .ofView memory input 16
  let opened := memory.store output (cipher tmp).bytes
  let plain := opened.fill output (fun now n => now (output + n) ^^^ now (ivec + n)) 0 len
  let restored := plain.fill output (fun _ n => tmp.bytes.getD n 0) len (16 - len)
  restored.store ivec tmp.bytes

end Core

/-- `*outlength` of a decryption: the last byte of the output tells the padding. -/
def cbcPlainLength (length len output : ℕ) (memory : View) : ℕ :=
  if 0 < len then subU32 length (memory (output + len - 1)).toNat
  else subU32 length (memory (output - 1)).toNat

/-- `AES_cbc_core` with the block operation of its mode: `*outlength` and the memory behind it. -/
def aesCbcCore (cipher : AesBlock → AesBlock) (enc : AesMode) (buffers : CbcBuffers) (length : ℕ)
    (memory : View) : ℕ × View :=
  let tempiv : AesBlock := .ofView memory buffers.ivec 16
  let blocks := length / 16
  let len := length % 16
  match enc with
  | .encrypt =>
    let (input, output, iv, done) :=
      cbcEncryptBlocks cipher tempiv blocks buffers.input buffers.output .tempiv memory
    (addU32 length (if 0 < len then 16 - len else 16),
      cbcEncryptLast cipher tempiv len input output iv done)
  | .decrypt =>
    if buffers.input ≠ buffers.output then
      let (input, output, iv, done) :=
        cbcDecryptBlocks cipher tempiv blocks buffers.input buffers.output .tempiv memory
      let plain := if 0 < len then cbcDecryptLast cipher tempiv len input output iv done else done
      (cbcPlainLength length len output plain, plain)
    else
      let (input, output, done) :=
        cbcDecryptInPlace cipher buffers.ivec blocks buffers.input buffers.output memory
      let plain :=
        if 0 < len then cbcDecryptInPlaceLast cipher buffers.ivec len input output done else done
      (cbcPlainLength length len output plain, plain)

/-- `AES_CBC_Encrypt`. -/
def aesCbcEncrypt (crypto : Crypto) (key : FixedBuffer zcHsSessionKeyLen) (buffers : CbcBuffers)
    (plainTextLength : ℕ) (memory : View) : ℕ × View :=
  aesCbcCore (crypto.aesEncrypt key) .encrypt buffers plainTextLength memory

/-- `AES_CBC_Decrypt`. -/
def aesCbcDecrypt (crypto : Crypto) (key : FixedBuffer zcHsSessionKeyLen) (buffers : CbcBuffers)
    (cipherTextLength : ℕ) (memory : View) : ℕ × View :=
  aesCbcCore (crypto.aesDecrypt key) .decrypt buffers cipherTextLength memory

end ShuangFa
