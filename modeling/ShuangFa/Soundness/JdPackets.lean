import ShuangFa.Proofs.JdUdp
import ShuangFa.Soundness.PrintedDocuments

/-! # Packets between devices of the JD cloud

`PacketAnalyse` gets back what `PacketBuild` was given: the heads are where it looks for them, the
length is that of the packet, and the sum is that of the bytes behind the common header. The same
sum betrays a change of any one of these bytes.
-/

namespace ShuangFa

open Memory Coding

/-- A packet behind a common header with its length. -/
def framed (sum : UInt8) (packet : List UInt8) : List UInt8 :=
  commonHeader sum packet.length ++ packet

/-- What the sum in the common header is taken of. -/
def packetBody (cJson : CJsonLibrary) (type : ℕ) (root : CJson) : List UInt8 :=
  bytesU32 type ++ ascii "OK".toList ++ (cJson.print root).bytes

section Frames

variable (memory : View) (sum : UInt8) (packet : List UInt8)

theorem framed_length : (framed sum packet).length = sizeofCommonHeader + packet.length := by
  rw [framed, List.length_append, commonHeader_length]

theorem framed_getElem? (index : ℕ) :
    (framed sum packet)[sizeofCommonHeader + index]? = packet[index]? := by
  rw [framed, List.getElem?_append_right (by rw [commonHeader_length]; exact Nat.le_add_right ..),
    commonHeader_length, Nat.add_sub_cancel_left]

/-- A frame with another byte behind the common header. -/
theorem framed_set (index : ℕ) (byte : UInt8) :
    (framed sum packet).set (sizeofCommonHeader + index) byte = framed sum (packet.set index byte) := by
  rw [framed, framed, List.length_set,
    List.set_append_right _ _ (by rw [commonHeader_length]; exact Nat.le_add_right ..),
    commonHeader_length, Nat.add_sub_cancel_left]

/-- The bytes of a stored frame. -/
theorem store_framed (index : ℕ) (inside : index < sizeofCommonHeader + packet.length) :
    memory.store 0 (framed sum packet) index = (framed sum packet).getD index 0 := by
  rw [View.store, if_pos ⟨Nat.zero_le _, by rw [framed_length, Nat.zero_add]; exact inside⟩,
    Nat.sub_zero]

/-- What is stored behind the common header is the packet. -/
theorem read_store_framed : (memory.store 0 (framed sum packet)).read sizeofCommonHeader packet.length =
    packet := by
  have part := View.read_store_part memory 0 (commonHeader sum packet.length) packet []
  rw [List.append_nil, Nat.zero_add] at part
  exact part

theorem store_framed_binaryForm (size : (framed sum packet).length < 2 ^ 31) :
    BinaryForm (memory.store 0 (framed sum packet)) (framed sum packet).length ∧
      loadU32 (memory.store 0 (framed sum packet)) 4 = packet.length := by
  have length := framed_length sum packet
  obtain ⟨magic, len⟩ : loadU32 (memory.store 0 (framed sum packet)) 0 = 0x55AA ∧
      loadU32 (memory.store 0 (framed sum packet)) 4 = packet.length := by
    apply loadU32_commonHeader (show packet.length < 2 ^ 32 by omega)
    intro index inside
    have bound : index < sizeofCommonHeader := inside.trans (by decide)
    rw [store_framed memory sum packet index (by omega), framed, List.getD_append _ _ _ _ bound]
  refine ⟨⟨magic, ?_⟩, len⟩
  rw [len, length, addU32, Nat.add_comm]

theorem store_framed_sumMatches (size : (framed sum packet).length < 2 ^ 31) :
    SumMatches (memory.store 0 (framed sum packet)) ↔ sum = byteSum packet := by
  have stored : memory.store 0 (framed sum packet) 12 = sum :=
    store_framed memory sum packet 12 (show 12 < 13 + _ by omega)
  rw [SumMatches, (store_framed_binaryForm memory sum packet size).2, read_store_framed, stored]

end Frames

section Packets

variable (cJson : CJsonLibrary) (memory : View) (type : ℕ) (root : CJson)

theorem packetBuild_eq : packetBuild cJson type root =
    framed (byteSum (packetBody cJson type root)) (packetBody cJson type root) := rfl

/-- The document lies behind the heads. -/
theorem shift_packetBuild :
    (memory.store 0 (packetBuild cJson type root)).shift (sizeofCommonHeader + sizeofCmdHeader) =
      (memory.shift (sizeofCommonHeader + sizeofCmdHeader)).store 0 (cJson.print root).bytes := by
  have split : packetBuild cJson type root = (commonHeader (byteSum (packetBody cJson type root))
      (packetBody cJson type root).length ++ (bytesU32 type ++ ascii "OK".toList)) ++
        (cJson.print root).bytes := (List.append_assoc _ _ _).symm
  rw [split]
  exact View.shift_store_append memory _ _

/-- The type lies behind the common header. -/
theorem loadU32_packetBuild (small : type < 2 ^ 32) :
    loadU32 (memory.store 0 (packetBuild cJson type root)) sizeofCommonHeader = type := by
  have body : (packetBody cJson type root).length = 4 + (2 + (cJson.print root).bytes.length) := by
    rw [packetBody, List.append_assoc, List.length_append, List.length_append]
    rfl
  apply loadU32_of_bytes small
  intro index inside
  have bound : index < (packetBody cJson type root).length := by omega
  rw [packetBuild_eq, store_framed _ _ _ _ (Nat.add_lt_add_left bound _), List.getD_eq_getElem?_getD,
    framed_getElem?, packetBody, List.append_assoc, List.getElem?_append_left inside,
    List.getD_eq_getElem?_getD]

end Packets

/-- `PacketAnalyse` finds the type and the document that `PacketBuild` was given, and refuses the
packet with any one byte behind the common header changed. -/
theorem packetAnalyse_packetBuild (cJson : CJsonLibrary) (memory : View) (type : UInt32) (root : CJson)
    (size : (packetBuild cJson type.toNat root).length < 2 ^ 31)
    (inverse : ∀ memory : View,
      cJson.parse (memory.store 0 (cJson.print root).bytes) = some root) :
    packetAnalyse cJson.parse (memory.store 0 (packetBuild cJson type.toNat root))
        (packetBuild cJson type.toNat root).length = some (type.toNat, root) ∧
      ∀ (index : ℕ) (byte : UInt8), sizeofCommonHeader ≤ index →
        (inside : index < (packetBuild cJson type.toNat root).length) →
        byte ≠ (packetBuild cJson type.toNat root)[index] →
          packetAnalyse cJson.parse
            (memory.store 0 ((packetBuild cJson type.toNat root).set index byte))
            (packetBuild cJson type.toNat root).length = none := by
  constructor
  · have binary := store_framed_binaryForm memory (byteSum (packetBody cJson type.toNat root))
      (packetBody cJson type.toNat root) size
    have sum := (store_framed_sumMatches memory (byteSum (packetBody cJson type.toNat root))
      (packetBody cJson type.toNat root) size).mpr rfl
    rw [← packetBuild_eq] at binary sum
    rw [packetAnalyse_binaryForm _ binary.1 sum, shift_packetBuild, inverse, Option.map_some,
      loadU32_packetBuild _ _ _ _ type.toNat_lt]
  · intro index byte behind inside other
    obtain ⟨index, rfl⟩ := Nat.exists_eq_add_of_le behind
    generalize body_eq : packetBody cJson type.toNat root = body at *
    have built := packetBuild_eq cJson type.toNat root
    rw [body_eq] at built
    have bound : index < body.length := by
      rw [built, framed_length] at inside
      exact Nat.lt_of_add_lt_add_left inside
    have same_size : (framed (byteSum body) (body.set index byte)).length =
        (packetBuild cJson type.toNat root).length := by
      rw [built, framed_length, framed_length, List.length_set]
    have changed : ¬ byteSum body = byteSum (body.set index byte) := by
      intro same
      apply other
      apply Option.some.inj
      rw [← List.getElem?_eq_getElem, built, framed_getElem?, List.getElem?_eq_getElem bound,
        byteSum_set bound same.symm]
    rw [← same_size] at size ⊢
    rw [built, framed_set]
    exact packetAnalyse_wrongSum _ (store_framed_binaryForm memory _ _ size).1
      (mt (store_framed_sumMatches memory _ _ size).mp changed)

/-- An object with an array of a number in a packet of type 3, and the same packet with a byte changed.
-/
theorem packetAnalyse_packetBuild_object :
    let library := cJsonLibrary wholePowers
    let root : CJson := .object [(literal "a", .array [.number 5 (double 5)])]
    let packet := packetBuild library 3 root
    packetAnalyse library.parse (View.store (fun _ => 0) 0 packet) packet.length = some (3, root) ∧
      packetAnalyse library.parse (View.store (fun _ => 0) 0 (packet.set 20 7)) packet.length =
        none := by
  intro library root packet
  have whole : root.Whole := by
    intro number member
    obtain rfl : number = (5, double 5) := by
      simpa [root, CJson.numbers, CJson.numbersMembers, CJson.numbersEach] using member
    rfl
  have size : packet.length = 28 ∧ (library.print root).bytes.length ≤ 2 ^ 32 := by decide +kernel
  have sendable : Sendable wholePowers root := ⟨whole.readable _, fun _ => trivial⟩
  obtain ⟨analysed, changed⟩ := packetAnalyse_packetBuild library (fun _ => 0) 3 root
    (show packet.length < 2 ^ 31 by omega) (cJsonLibrary_parse sendable size.2)
  have inside : 20 < packet.length := by omega
  have quote : packet[20]? = some 34 := by decide +kernel
  refine ⟨analysed, changed 20 7 (by decide) inside fun same => ?_⟩
  rw [List.getElem?_eq_getElem inside] at quote
  exact absurd (same.trans (Option.some.inj quote)) (by decide)

end ShuangFa
