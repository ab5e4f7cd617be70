import ShuangFa.Model.Adapter
import ShuangFa.Model.Userbin

/-! # The records of the userbin area

The area keeps three records. The configuration is longer than the distance to the sub-domain, so
the twelve bytes of the flag, the sub-domain and what is written behind it are also the start of the
feed id. Whichever of the two is written last is what is read there, and the other record reads back
only if it has the same bytes.
-/

namespace ShuangFa

open Memory

/-- The bytes `UartProcess` writes for a packet. -/
def subDomainBytes (data : View) (behind : FixedBuffer 6) : List UInt8 :=
  bytesU32 zcMagicFlag ++ bytesU16 (subDomainId data) ++ behind.bytes

/-- What was last written to each of the records, and which of the first two was written later. -/
structure Records where
  configDb : Option (ZcConfigDb × ℕ)
  subDomain : Option (View × FixedBuffer 6)
  jdArgs : Option (FixedBuffer sizeofJdNVargs)
  subDomainLater : Bool

namespace Records

/-- Nothing was written yet. -/
def empty : Records := ⟨none, none, none, false⟩

def write (records : Records) : UserbinWrite → Records
  | .writeDataToFlash db u16Pad =>
    { records with configDb := some (db, u16Pad), subDomainLater := false }
  | .resetAccessInfo db u16Pad =>
    { records with configDb := some (zcResetAccessInfo db, u16Pad), subDomainLater := false }
  | .uartProcess data behind =>
    { records with subDomain := some (data, behind), subDomainLater := true }
  | .jdArgs args => { records with jdArgs := some args }

/-- What was last written to each record is what is read back. -/
structure ReadBack (records : Records) (area : View) : Prop where
  configDb : ∀ {db u16Pad}, records.configDb = some (db, u16Pad) →
    hffileUserbinRead 0 sizeofZcConfigDb area = db.image u16Pad
  subDomain : ∀ {data behind}, records.subDomain = some (data, behind) →
    hffileUserbinRead subDomainFlagOffset sizeofU32 area = bytesU32 zcMagicFlag ∧
      hffileUserbinRead subDomainOffset 2 area = bytesU16 (subDomainId data)
  jdArgs : ∀ {args}, records.jdArgs = some args →
    hffileUserbinRead jdConfigOffset sizeofJdNVargs area = args.bytes

/-- The bytes that both records have: six are read back of the sub-domain, and where it was written
later it has overwritten twelve of the configuration. -/
def shared (records : Records) : ℕ := if records.subDomainLater then 12 else 6

/-- The feed id starts with the bytes of the sub-domain, if both records were written. -/
def Agree (records : Records) : Prop :=
  ∀ written ∈ records.configDb, ∀ packet ∈ records.subDomain,
    written.1.struJdInfo.u8Feedid.bytes.take records.shared =
      (subDomainBytes packet.1 packet.2).take records.shared

instance (records : Records) : Decidable records.Agree :=
  inferInstanceAs (Decidable (∀ _ ∈ _, ∀ _ ∈ _, _ = _))

/-- What the area holds: the parts of the records that are apart, and the part that is not. -/
structure Zones (records : Records) (area : View) : Prop where
  configDb : ∀ {db u16Pad}, records.configDb = some (db, u16Pad) →
    area.read 0 300 = db.head u16Pad ∧ area.read 312 56 =
      db.struJdInfo.u8Feedid.bytes.drop 12 ++ bytesU32 db.struDeviceInfo.u32UnBindFlag
  feedid : ∀ {db u16Pad}, records.configDb = some (db, u16Pad) → records.subDomainLater = false →
    area.read 300 12 = db.struJdInfo.u8Feedid.bytes.take 12
  subDomain : ∀ {data behind}, records.subDomain = some (data, behind) →
    records.subDomainLater = true → area.read 300 12 = subDomainBytes data behind
  jdArgs : ∀ {args}, records.jdArgs = some args →
    area.read jdConfigOffset sizeofJdNVargs = args.bytes
  later : records.subDomainLater = true → records.subDomain.isSome
  earlier : records.subDomainLater = false → records.subDomain.isSome → records.configDb.isSome

theorem zones_empty (area : View) : empty.Zones area where
  configDb := nofun
  feedid := nofun
  subDomain := nofun
  jdArgs := nofun
  later := nofun
  earlier := nofun

variable {records : Records} {area : View}

theorem subDomainBytes_length (data : View) (behind : FixedBuffer 6) :
    (subDomainBytes data behind).length = 12 := by
  simp only [subDomainBytes, List.length_append, bytesU32_length, bytesU16_length,
    FixedBuffer.size_eq]

/-- A configuration takes its own place and that of the sub-domain. -/
theorem Zones.writeConfigDb (zones : records.Zones area) (db : ZcConfigDb) (u16Pad : ℕ) :
    Zones { records with configDb := some (db, u16Pad), subDomainLater := false }
      (hffileUserbinWrite 0 (db.image u16Pad) area) := by
  have head : (db.head u16Pad).length = 300 := db.head_length u16Pad
  have feedid : db.struJdInfo.u8Feedid.bytes.length = 64 := db.struJdInfo.u8Feedid.size_eq
  have shared : (db.struJdInfo.u8Feedid.bytes.take 12).length = 12 :=
    List.length_take_of_le (by omega)
  have tail : (db.struJdInfo.u8Feedid.bytes.drop 12 ++
      bytesU32 db.struDeviceInfo.u32UnBindFlag).length = 56 := by
    rw [List.length_append, List.length_drop, feedid, bytesU32_length]
  have parts := db.image_parts u16Pad
  refine ⟨?_, ?_, nofun, fun named => ?_, nofun, fun _ _ => rfl⟩
  · rintro _ _ ⟨⟩
    constructor
    · have read := View.read_store_part area 0 [] (db.head u16Pad)
        (db.struJdInfo.u8Feedid.bytes.take 12 ++ (db.struJdInfo.u8Feedid.bytes.drop 12 ++
          bytesU32 db.struDeviceInfo.u32UnBindFlag))
      rw [List.nil_append, ← List.append_assoc, ← parts, head] at read
      exact read
    · have read := View.read_store_part area 0
        (db.head u16Pad ++ db.struJdInfo.u8Feedid.bytes.take 12)
        (db.struJdInfo.u8Feedid.bytes.drop 12 ++ bytesU32 db.struDeviceInfo.u32UnBindFlag) []
      rw [List.append_nil, ← parts, List.length_append, head, shared, tail] at read
      exact read
  · rintro _ _ ⟨⟩ _
    have read := View.read_store_part area 0 (db.head u16Pad)
      (db.struJdInfo.u8Feedid.bytes.take 12) (db.struJdInfo.u8Feedid.bytes.drop 12 ++
        bytesU32 db.struDeviceInfo.u32UnBindFlag)
    rw [← parts, head, shared] at read
    exact read
  · rw [hffileUserbinWrite, View.read_store_apart (.inr ?_)]
    · exact zones.jdArgs named
    · rw [db.image_length u16Pad]
      decide

/-- A sub-domain takes its own place, a part of that of the configuration. -/
theorem Zones.writeSubDomain (zones : records.Zones area) (data : View) (behind : FixedBuffer 6) :
    Zones { records with subDomain := some (data, behind), subDomainLater := true }
      ((UserbinWrite.uartProcess data behind).run area) := by
  have behindSize : (bytesU16 (subDomainId data) ++ behind.bytes).length = 8 := by
    rw [List.length_append, behind.size_eq, bytesU16_length]
  have apart {offset length : ℕ} (outside : offset + length ≤ 300 ∨ 312 ≤ offset) :
      ((UserbinWrite.uartProcess data behind).run area).read offset length =
        area.read offset length := by
    have flag : (bytesU32 zcMagicFlag).length = 4 := rfl
    simp only [UserbinWrite.run, hffileUserbinWrite, subDomainFlagOffset, subDomainOffset]
    rw [View.read_store_apart (by omega), View.read_store_apart (by omega)]
  refine ⟨fun named => ?_, nofun, ?_, fun named => ?_, fun _ => rfl, nofun⟩
  · obtain ⟨head, tail⟩ := zones.configDb named
    rw [apart (.inl (by decide)), apart (.inr (by decide))]
    exact ⟨head, tail⟩
  · rintro _ _ ⟨⟩ _
    have flag := View.read_store_self (hffileUserbinWrite subDomainOffset
      (bytesU16 (subDomainId data) ++ behind.bytes) area) subDomainFlagOffset (bytesU32 zcMagicFlag)
    have id := View.read_store_self area subDomainOffset
      (bytesU16 (subDomainId data) ++ behind.bytes)
    rw [behindSize] at id
    rw [show 12 = 4 + 8 from rfl, View.read_add, subDomainBytes, List.append_assoc]
    refine congrArg₂ _ flag ?_
    simp only [UserbinWrite.run, hffileUserbinWrite]
    rw [View.read_store_apart (.inr (by decide))]
    exact id
  · rw [apart (.inr (by decide))]
    exact zones.jdArgs named

/-- The arguments of the JD cloud have a place of their own. -/
theorem Zones.writeJdArgs (zones : records.Zones area) (args : FixedBuffer sizeofJdNVargs) :
    Zones { records with jdArgs := some args } ((UserbinWrite.jdArgs args).run area) := by
  have apart {offset length : ℕ} (outside : offset + length ≤ 512) :
      ((UserbinWrite.jdArgs args).run area).read offset length = area.read offset length :=
    View.read_store_apart (.inl outside)
  refine ⟨fun named => ?_, fun named order => ?_, fun named order => ?_, ?_, zones.later,
    zones.earlier⟩
  · rw [apart (by decide), apart (by decide)]
    exact zones.configDb named
  · rw [apart (by decide)]
    exact zones.feedid named order
  · rw [apart (by decide)]
    exact zones.subDomain named order
  · rintro _ ⟨⟩
    have read := View.read_store_self area jdConfigOffset args.bytes
    rwa [args.size_eq] at read

/-- Each write keeps what the area holds. -/
theorem Zones.write (zones : records.Zones area) (write : UserbinWrite) :
    (records.write write).Zones (write.run area) := by
  cases write with
  | writeDataToFlash db u16Pad => exact zones.writeConfigDb db u16Pad
  | resetAccessInfo db u16Pad => exact zones.writeConfigDb (zcResetAccessInfo db) u16Pad
  | uartProcess data behind => exact zones.writeSubDomain data behind
  | jdArgs args => exact zones.writeJdArgs args

/-- The six bytes of the sub-domain that are read back. -/
theorem subDomainBytes_take (data : View) (behind : FixedBuffer 6) :
    (subDomainBytes data behind).take 6 =
      bytesU32 zcMagicFlag ++ bytesU16 (subDomainId data) := List.take_left' rfl

/-- Where the configuration reads back, it does so in the part that both records have. -/
theorem Zones.configDb_iff (zones : records.Zones area) {db : ZcConfigDb} {u16Pad : ℕ}
    (named : records.configDb = some (db, u16Pad)) :
    hffileUserbinRead 0 sizeofZcConfigDb area = db.image u16Pad ↔
      area.read 300 12 = db.struJdInfo.u8Feedid.bytes.take 12 := by
  have whole : area.read 0 368 = area.read 0 300 ++ area.read 300 12 ++ area.read 312 56 := by
    rw [← area.read_add 0 300 12, ← area.read_add 0 312 56]
  obtain ⟨head, tail⟩ := zones.configDb named
  change area.read 0 368 = _ ↔ _
  rw [whole, head, tail, db.image_parts, List.append_left_inj, List.append_right_inj]

/-- Where the sub-domain reads back, it does so in the part that both records have. -/
theorem subDomain_iff (data : View) :
    (hffileUserbinRead subDomainFlagOffset sizeofU32 area = bytesU32 zcMagicFlag ∧
      hffileUserbinRead subDomainOffset 2 area = bytesU16 (subDomainId data)) ↔
      (area.read 300 12).take 6 = bytesU32 zcMagicFlag ++ bytesU16 (subDomainId data) := by
  have six : (area.read 300 12).take 6 = area.read 300 4 ++ area.read 304 2 := by
    rw [area.read_add 300 6 6, List.take_left' (View.read_length ..), area.read_add 300 4 2]
  rw [six, hffileUserbinRead, hffileUserbinRead]
  constructor
  · rintro ⟨flag, id⟩
    exact congrArg₂ List.append flag id
  · exact fun both => List.append_inj both ((View.read_length ..).trans (bytesU32_length _).symm)

/-- The records read back if and only if they agree where they overlap. -/
theorem Zones.readBack_iff (zones : records.Zones area) :
    records.ReadBack area ↔ records.Agree := by
  constructor
  · rintro readBack ⟨db, u16Pad⟩ written ⟨data, behind⟩ packet
    rw [shared]
    cases order : records.subDomainLater with
    | true =>
      have read := (zones.configDb_iff written).mp (readBack.configDb written)
      rw [zones.subDomain packet order] at read
      rw [if_pos rfl, ← read, List.take_of_length_le (subDomainBytes_length data behind).le]
    | false =>
      have read := (subDomain_iff data).mp (readBack.subDomain packet)
      rw [zones.feedid written order, List.take_take] at read
      rw [if_neg Bool.false_ne_true, subDomainBytes_take]
      exact read
  · intro agree
    refine ⟨fun {db u16Pad} written => ?_, fun {data behind} packet => ?_, zones.jdArgs⟩
    · rw [zones.configDb_iff written]
      cases order : records.subDomainLater with
      | false => exact zones.feedid written order
      | true =>
        obtain ⟨⟨data, behind⟩, packet⟩ := Option.isSome_iff_exists.mp (zones.later order)
        have same := agree _ written _ packet
        rw [shared, if_pos order,
          List.take_of_length_le (subDomainBytes_length data behind).le] at same
        rw [zones.subDomain packet order, same]
    · rw [subDomain_iff, ← subDomainBytes_take data behind]
      cases order : records.subDomainLater with
      | true => rw [zones.subDomain packet order]
      | false =>
        obtain ⟨⟨db, u16Pad⟩, written⟩ :=
          Option.isSome_iff_exists.mp (zones.earlier order (Option.isSome_of_mem packet))
        have same := agree _ written _ packet
        rw [shared, order, if_neg Bool.false_ne_true] at same
        rw [zones.feedid written order, List.take_take]
        exact same

/-- Any sequence of writes keeps what the area holds. -/
theorem Zones.run (zones : records.Zones area) (writes : List UserbinWrite) :
    (writes.foldl Records.write records).Zones (writes.foldl UserbinWrite.run area) := by
  induction writes generalizing records area with
  | nil => exact zones
  | cons write rest ih => exact ih (zones.write write)

end Records

/-- After any sequence of writes the three records read back what was last written to them if and
only if the configuration and the sub-domain, if both were written, agree where they overlap. -/
theorem readBack_iff_agree (area : View) (writes : List UserbinWrite) :
    (writes.foldl Records.write .empty).ReadBack (writes.foldl UserbinWrite.run area) ↔
      (writes.foldl Records.write .empty).Agree :=
  ((Records.zones_empty area).run writes).readBack_iff

/-- The packet that sets a sub-domain. -/
def subDomainPacket : View := .ofList [0xAA, 0xF2, 2, 1, 1, 0, 0, 0x55]

/-- A sub-domain is set, and then the configuration is written. -/
theorem readBack_fails : ¬ ∀ (area : View) (writes : List UserbinWrite),
    (writes.foldl Records.write .empty).ReadBack (writes.foldl UserbinWrite.run area) := by
  intro all
  have zones := (Records.zones_empty fun _ => 0xFF).run
    [.uartProcess subDomainPacket (.zeros 6), .writeDataToFlash (hfInitConfig none) 0]
  have agree := zones.readBack_iff.mp (all _ _)
  have same := congrArg List.head? (agree (hfInitConfig none, 0) rfl (subDomainPacket, .zeros 6) rfl)
  have feedid : ((hfInitConfig none).struJdInfo.u8Feedid.bytes.take 6).head? = some 0 := rfl
  have flag : ((subDomainBytes subDomainPacket (.zeros 6)).take 6).head? = some 7 := rfl
  exact absurd (feedid.symm.trans (same.trans flag)) (by decide)

end ShuangFa
