import ShuangFa.Control.Messages
import ShuangFa.Model.Ac
import ShuangFa.Proofs.Crc

/-! # The two encoders of messages

`EVENT_BuildMsg` writes the whole head. `AC_BuildMessage` leaves the number of the options as it lies
in the buffer, so its messages are those of the other encoder exactly where a zero lies there.
-/

namespace ShuangFa

open Memory

section Encoded

variable (version optNum u8MsgCode u8MsgId : UInt8) (pu8Payload rest : List UInt8)

/-- A message with its checksum, of a given version and with a given number of options. -/
def encoded : List UInt8 :=
  (ZcMessageHead.mk version u8MsgId u8MsgCode optNum (zcHtons pu8Payload.length)
    (crcBytes (crc16Ccitt pu8Payload))).bytes ++ pu8Payload

theorem encoded_length : (encoded version optNum u8MsgCode u8MsgId pu8Payload).length =
    sizeofMessageHead + pu8Payload.length := by
  rw [encoded, List.length_append]
  rfl

/-- The head of a message is read as it was written. -/
theorem load_encoded : ZcMessageHead.load
    (.ofList (encoded version optNum u8MsgCode u8MsgId pu8Payload ++ rest)) =
      ⟨version, u8MsgId, u8MsgCode, optNum, zcHtons pu8Payload.length,
        crcBytes (crc16Ccitt pu8Payload)⟩ := by
  have small := zcHtons_lt pu8Payload.length
  have field : (UInt8.ofNat (zcHtons pu8Payload.length)).toNat +
      (UInt8.ofNat (zcHtons pu8Payload.length / 2 ^ 8)).toNat * 2 ^ 8 =
        zcHtons pu8Payload.length := by
    rw [UInt8.toNat_ofNat', UInt8.toNat_ofNat']
    omega
  exact congrArg (fun payloadlen => ZcMessageHead.mk version u8MsgId u8MsgCode optNum payloadlen
    (crcBytes (crc16Ccitt pu8Payload))) field

/-- A message passes the check of its checksum. -/
theorem checksumHolds_encoded (short : pu8Payload.length < 2 ^ 16) :
    checksumHolds (.ofList (encoded version optNum u8MsgCode u8MsgId pu8Payload ++ rest)) := by
  have size := encoded_length version optNum u8MsgCode u8MsgId pu8Payload
  have payload : (View.ofList (encoded version optNum u8MsgCode u8MsgId pu8Payload ++ rest)).read
      sizeofMessageHead pu8Payload.length = pu8Payload := by
    rw [← View.read_part _ (Nat.le_refl _), ← size, View.read_ofList _ (by simp), List.take_left]
    exact List.take_length
  rw [checksumHolds, load_encoded, zcHtons_zcHtons _ short, payload, pctCheckCrc_crcBytes]

end Encoded

section Encoders

variable {size room : ℕ} (u8MsgCode u8MsgId : UInt8) (pu8Payload : List UInt8)

/-- The bytes of a head at the start of a buffer. -/
theorem exists_head_bytes (bytes : List UInt8) (long : 8 ≤ bytes.length) :
    ∃ version msgId msgCode optNum low high first second rest, bytes =
      version :: msgId :: msgCode :: optNum :: low :: high :: first :: second :: rest := by
  refine ⟨bytes[0], bytes[1], bytes[2], bytes[3], bytes[4], bytes[5], bytes[6], bytes[7],
    bytes.drop 8, ?_⟩
  simp only [List.getElem_cons_drop, List.drop_zero]

/-- `AC_BuildMessage` takes the number of the options from the buffer. -/
theorem acBuildMessage_eq (pu8Msg : FixedBuffer size)
    (fits : sizeofMessageHead + pu8Payload.length ≤ size) :
    acBuildMessage u8MsgCode u8MsgId pu8Payload pu8Msg =
      some (pu8Msg.overlay 0 (encoded 0 (pu8Msg.bytes.getD 3 0) u8MsgCode u8MsgId pu8Payload),
        (sizeofMessageHead + pu8Payload.length) % 2 ^ 16) := by
  have room : 8 + pu8Payload.length ≤ size := fits
  have long : 8 ≤ pu8Msg.bytes.length := by
    rw [pu8Msg.size_eq]
    omega
  obtain ⟨version, msgId, msgCode, optNum, low, high, first, second, rest, bytes⟩ :=
    exists_head_bytes _ long
  have stored (buffer : FixedBuffer size) (offset : ℕ) (source : List UInt8)
      (inside : offset + source.length ≤ 8) : (buffer.overlay offset source).bytes =
        buffer.bytes.take offset ++ source ++ buffer.bytes.drop (offset + source.length) :=
    buffer.overlay_bytes offset source (by omega)
  let named := ((pu8Msg.overlay 2 [u8MsgCode]).overlay 1 [u8MsgId]).overlay 0 [0]
  let sized := (named.overlay sizeofMessageHead pu8Payload).overlay 4
    (bytesU16 (zcHtons pu8Payload.length))
  have copied : (named.overlay sizeofMessageHead pu8Payload).bytes =
      0 :: u8MsgId :: u8MsgCode :: optNum :: low :: high :: first :: second ::
        (pu8Payload ++ rest.drop pu8Payload.length) := by
    rw [FixedBuffer.overlay_bytes _ _ _ fits, stored _ 0 _ (by simp), stored _ 1 _ (by simp),
      stored _ 2 _ (by simp), bytes, Nat.add_comm sizeofMessageHead]
    rfl
  have measured : sized.bytes = 0 :: u8MsgId :: u8MsgCode :: optNum ::
      (bytesU16 (zcHtons pu8Payload.length) ++ first :: second ::
        (pu8Payload ++ rest.drop pu8Payload.length)) := by
    rw [stored _ 4 _ (by simp), copied]
    rfl
  have payload : (sized.bytes.drop sizeofMessageHead).take pu8Payload.length = pu8Payload := by
    rw [measured]
    exact List.take_left
  have built : acBuildMessage u8MsgCode u8MsgId pu8Payload pu8Msg =
      some (sized.overlay 6 [UInt8.ofNat (crc16Ccitt ((sized.bytes.drop sizeofMessageHead).take
          pu8Payload.length) / 2 ^ 8), UInt8.ofNat (crc16Ccitt
          ((sized.bytes.drop sizeofMessageHead).take pu8Payload.length))],
        (sizeofMessageHead + pu8Payload.length) % 2 ^ 16) := if_neg (Nat.not_lt.mpr fits)
  rw [built, payload]
  congr 2
  apply FixedBuffer.ext
  rw [stored _ 6 _ (by simp), measured,
    FixedBuffer.overlay_bytes _ 0 _ (by rw [encoded_length]; omega), bytes]
  simp [encoded, ZcMessageHead.bytes, bytesU16, crcBytes]

/-- The encoders write the same message, but for its version, without options and with its
checksum, and both report its length. -/
def EncodersAgree (pu8Msg : FixedBuffer size) (other : FixedBuffer room) : Prop :=
  ∃ built len event eventLen,
    acBuildMessage u8MsgCode u8MsgId pu8Payload pu8Msg = some (built, len) ∧
      eventBuildMsgTo u8MsgCode u8MsgId pu8Payload other = some (event, eventLen) ∧
      (len = sizeofMessageHead + pu8Payload.length ∧ eventLen = len) ∧
      (built.bytes.take len).drop 1 = (event.bytes.take len).drop 1 ∧
      ((ZcMessageHead.load (.ofList built.bytes)).optNum = 0 ∧
        (ZcMessageHead.load (.ofList event.bytes)).optNum = 0) ∧
      checksumHolds (.ofList built.bytes) ∧ checksumHolds (.ofList event.bytes)

/-- A message at the start of a buffer. -/
theorem overlay_zero_bytes (buffer : FixedBuffer size) (message : List UInt8)
    (fits : message.length ≤ size) :
    (buffer.overlay 0 message).bytes = message ++ buffer.bytes.drop message.length := by
  rw [buffer.overlay_bytes 0 message (by omega), List.take_zero, List.nil_append, Nat.zero_add]

section Buffers

variable {u8MsgCode u8MsgId pu8Payload}

/-- `AC_BuildMessage` leaves the number of the options as it lies in the buffer. -/
theorem EncodersAgree.optNum {pu8Msg : FixedBuffer size} {other : FixedBuffer room}
    (fits : sizeofMessageHead + pu8Payload.length ≤ size)
    (agree : EncodersAgree u8MsgCode u8MsgId pu8Payload pu8Msg other) :
    pu8Msg.bytes.getD 3 0 = 0 ∧ sizeofMessageHead + pu8Payload.length < 2 ^ 16 := by
  obtain ⟨built, len, _, _, same, _, ⟨exact, _⟩, _, ⟨none, _⟩, _⟩ := agree
  have ac := acBuildMessage_eq u8MsgCode u8MsgId pu8Payload pu8Msg fits
  obtain ⟨rfl, rfl⟩ := Prod.mk.inj (Option.some.inj (ac.symm.trans same))
  rw [overlay_zero_bytes _ _ ((encoded_length ..).trans_le fits), load_encoded] at none
  exact ⟨none, exact ▸ Nat.mod_lt _ (by decide)⟩

end Buffers

/-- They do exactly where the buffer `AC_BuildMessage` is given has no options, for messages whose
length fits sixteen bits. -/
theorem encodersAgree_iff (pu8Msg : FixedBuffer size) (other : FixedBuffer room)
    (fits : sizeofMessageHead + pu8Payload.length ≤ size)
    (fitsOther : sizeofMessageHead + pu8Payload.length ≤ room)
    (u16PayloadLen : pu8Payload.length < 2 ^ 16) :
    EncodersAgree u8MsgCode u8MsgId pu8Payload pu8Msg other ↔
      pu8Msg.bytes.getD 3 0 = 0 ∧ sizeofMessageHead + pu8Payload.length < 2 ^ 16 := by
  have ac := acBuildMessage_eq u8MsgCode u8MsgId pu8Payload pu8Msg fits
  have event : eventBuildMsgTo u8MsgCode u8MsgId pu8Payload other = some
      (other.overlay 0 (encoded zcVersion 0 u8MsgCode u8MsgId pu8Payload),
        (sizeofMessageHead + pu8Payload.length) % 2 ^ 16) := if_neg (Nat.not_lt.mpr fitsOther)
  have length := encoded_length 0 0 u8MsgCode u8MsgId pu8Payload
  have eventLength := encoded_length zcVersion 0 u8MsgCode u8MsgId pu8Payload
  have bytes := overlay_zero_bytes pu8Msg _ (length ▸ fits)
  have eventBytes := overlay_zero_bytes other _ (eventLength ▸ fitsOther)
  constructor
  · exact fun agree => agree.optNum fits
  · rintro ⟨none, short⟩
    rw [none] at ac
    rw [Nat.mod_eq_of_lt short] at ac event
    refine ⟨_, _, _, _, ac, event, ⟨rfl, rfl⟩, ?_, ?_, ?_, ?_⟩
    · rw [bytes, eventBytes, List.take_left' length, List.take_left' eventLength]
      rfl
    · rw [bytes, eventBytes, load_encoded, load_encoded]
      exact ⟨rfl, rfl⟩
    · rw [bytes]
      exact checksumHolds_encoded 0 0 u8MsgCode u8MsgId pu8Payload _ u16PayloadLen
    · rw [eventBytes]
      exact checksumHolds_encoded zcVersion 0 u8MsgCode u8MsgId pu8Payload _ u16PayloadLen

/-- In a buffer of zeros they write the same message with one byte of data. -/
theorem encodersAgree_zeros :
    EncodersAgree respondServerData 7 [0x01] (.zeros sizeofDevMsgBuildBuffer)
        (.zeros msgBuildBufferMaxLen) ↔
      (FixedBuffer.zeros sizeofDevMsgBuildBuffer).bytes.getD 3 0 = 0 ∧
        sizeofMessageHead + [(0x01 : UInt8)].length < 2 ^ 16 :=
  encodersAgree_iff respondServerData 7 [0x01] _ _ (by decide) (by decide) (by decide)

/-- A message with an option was decrypted into the buffer before. -/
theorem encodersAgree_fails : ¬ ∀ (u8MsgCode u8MsgId : UInt8) (pu8Payload : List UInt8)
    (pu8Msg other : FixedBuffer msgBuildBufferMaxLen),
    sizeofMessageHead + pu8Payload.length ≤ msgBuildBufferMaxLen →
      EncodersAgree u8MsgCode u8MsgId pu8Payload pu8Msg other := by
  intro all
  let decrypted := (FixedBuffer.zeros msgBuildBufferMaxLen).overlay 3 [1]
  have agree := all zcCodeRest 0 [] decrypted decrypted (by decide)
  have none : decrypted.bytes.getD 3 0 = 0 := (agree.optNum (by decide)).1
  exact absurd none (by decide)

end Encoders

end ShuangFa
