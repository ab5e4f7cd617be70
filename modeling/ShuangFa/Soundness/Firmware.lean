import ShuangFa.Proofs.Ota

/-! # The address of the firmware

`encode_signature` builds the address with the signature encoded, in `ssl_tx`. `Httpc_get` clears
`ssl_tx` before it uses it, so it never asks for anything but the empty address.
-/

namespace ShuangFa

open Memory Coding Machine

/-- The part through the character behind the signature, and the code of the rest. -/
def signedAddress (url : List UInt8) (head : ℕ) : List UInt8 :=
  url.take (head + 10) ++ (url.drop (head + 10)).flatMap urlEncodeByte

/-- Every address that `Httpc_get` has parsed or opened is this one. -/
def Requests (sdk : OtaSdk) (purl : CString) (sslTx : FixedBuffer sizeofSslTx)
    (address : List UInt8) : Prop :=
  ∀ url ∈ (httpcGet sdk purl sslTx).effects.filterMap OtaCall.url?, url = address

section Buffers

variable {url : CString} {head : ℕ} (followed : head + 10 ≤ url.bytes.length)
  (fits : ((url.bytes.drop (head + 10)).flatMap urlEncodeByte).length < sizeofSignature)
  (room : (signedAddress url.bytes head).length < sizeofSslTx)
include followed fits room

theorem signatureFits_of_encoded : SignatureFits url.bytes (head + 10) where
  followed := followed
  stays := by
    rintro ⟨front, ch, back, split, single, full⟩
    rw [split, List.flatMap_append, List.flatMap_cons, List.length_append, List.length_append] at fits
    omega
  room front within short := by
    have shorter := length_urlEncoded_mono within
    rw [signedAddress, List.length_append, List.length_take_of_le followed] at room
    omega

end Buffers

/-- The address with its signature encoded is asked for if and only if nothing is asked for, because
there is no memory for the parts of the address. -/
theorem requests_iff {purl : CString} {head : ℕ}
    (found : strstr signatureKey purl.bytes = some head) (followed : head + 10 ≤ purl.bytes.length)
    (fits : ((purl.bytes.drop (head + 10)).flatMap urlEncodeByte).length < sizeofSignature)
    (room : (signedAddress purl.bytes head).length < sizeofSslTx) (sdk : OtaSdk)
    (sslTx : FixedBuffer sizeofSslTx) :
    Requests sdk purl sslTx (signedAddress purl.bytes head) ↔ sdk.tempBuf = false := by
  have longer : signedAddress purl.bytes head ≠ [] := by
    have length := List.length_take_of_le followed
    intro empty
    rw [(List.append_eq_nil_iff.mp empty).1] at length
    cases length
  rw [Requests, httpcGet_signed found (signatureFits_of_encoded followed fits room)]
  constructor
  · intro all
    by_contra tempBuf
    rw [httpcRequest, if_neg tempBuf] at all
    exact longer (all [] (List.mem_cons_self ..)).symm
  · intro tempBuf
    rw [httpcRequest, if_pos tempBuf]
    exact fun url absent => absurd absent List.not_mem_nil

/-- A read that finds the end of the body. -/
def endOfBody : HttpRead := ⟨0, by decide, .zeros _, 0⟩

/-- An update with an empty body. -/
def emptyFirmware (tempBuf : Bool) : OtaSdk where
  tempBuf := tempBuf
  parsed := hfSuccess
  opened := hfSuccess
  hhttp := true
  sent := hfSuccess
  contentData := true
  upgTimer := true
  reads := [endOfBody]
  reads_end := ⟨endOfBody, List.mem_cons_self .., by decide⟩
  completed := hfSuccess

/-- `f?Signature=a b` -/
def signedUrl : CString :=
  ⟨[102, 63, 83, 105, 103, 110, 97, 116, 117, 114, 101, 61, 97, 32, 98], by decide⟩

theorem requests_signedUrl :
    ¬ Requests (emptyFirmware true) signedUrl (.zeros _) (signedAddress signedUrl.bytes 2) := by
  intro all
  exact absurd ((requests_iff (show strstr signatureKey signedUrl.bytes = some 2 by decide) (by decide)
    (by decide) (by decide) (emptyFirmware true) (.zeros _)).mp all) (by decide)

/-- The empty address is asked for. -/
theorem requests_fails : ¬ ∀ (sdk : OtaSdk) (purl : CString) (sslTx : FixedBuffer sizeofSslTx)
    (head : ℕ), strstr signatureKey purl.bytes = some head → head + 10 ≤ purl.bytes.length →
      ((purl.bytes.drop (head + 10)).flatMap urlEncodeByte).length < sizeofSignature →
        (signedAddress purl.bytes head).length < sizeofSslTx →
          Requests sdk purl sslTx (signedAddress purl.bytes head) := by
  intro all
  have requests := all (emptyFirmware true) signedUrl (.zeros _) 2 (by decide) (by decide) (by decide)
    (by decide)
  have empty : [] ∈ (httpcGet (emptyFirmware true) signedUrl (.zeros _)).effects.filterMap
      OtaCall.url? := by decide +kernel
  exact absurd (requests [] empty) (by decide)

end ShuangFa
