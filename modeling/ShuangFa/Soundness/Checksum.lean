import ShuangFa.Soundness.Packets

/-! # The checksum of a packet

What the device sends to the MCU carries the sum of the bytes in front of it. What comes from the
MCU is not checked: a packet is handed on when it ends in `55`.
-/

namespace ShuangFa

open Memory Framing Machine

/-- The two bytes in front of the tail are the sum of all bytes in front of them, low byte first. -/
def Checksummed (packet : List UInt8) : Prop :=
  (packet.drop (packet.length - 3)).take 2 = bytesU16 (calcEcc (packet.take (packet.length - 3)))

instance : DecidablePred Checksummed := fun _ => inferInstanceAs (Decidable (_ = _))

/-- What is sent to the MCU is a packet with the checksum. -/
theorem buildMessage_checksummed {type : ControlCmdType} {value : UInt8} {packet : List UInt8}
    (built : buildMessage type value = some packet) : IsPacket packet ∧ Checksummed packet := by
  obtain ⟨data, kind, rfl⟩ := Option.map_eq_some_iff.mp built
  have short : data = [value] ∨ data = [] := by
    cases type <;> cases kind <;> first | exact .inl rfl | exact .inr rfl
  rcases short with rfl | rfl
  · exact ⟨⟨rfl, rfl, rfl, by simp [bytesU16, sizeofU8RecvData]⟩, rfl⟩
  · exact ⟨⟨rfl, rfl, rfl, by simp [bytesU16, sizeofU8RecvData]⟩, rfl⟩

/-- `UartRecv` takes a stream without a store outside its array, and every packet it hands to
`UartProcess` carries the checksum. A packet that overruns the array is handed on by the same call, so
a run that is not defined does not count. -/
def HandsOnChecksummed (stream : List UInt8) : Prop :=
  ∃ t, uartBytes.replay? .init stream = some t ∧ ∀ packet ∈ t.calls, Checksummed packet

/-- Every packet that is handed to `UartProcess` carries the checksum if and only if no packet of the
stream is longer than the array and every one that ends in `55` carries it. -/
theorem checksummed_iff (stream : List UInt8) : HandsOnChecksummed stream ↔
    (∀ piece ∈ (mcuScan stream).pieces, piece.length ≤ 50) ∧
      ∀ packet ∈ (mcuScan stream).frames, Tailed packet → Checksummed packet := by
  have called {t : McuUart} (tracks : Tracks [] t (mcuScan stream)) :
      (∀ packet ∈ t.calls, Checksummed packet) ↔
        ∀ packet ∈ (mcuScan stream).frames, Tailed packet → Checksummed packet := by
    rw [tracks.calls, List.nil_append]
    simp only [List.mem_filter, decide_eq_true_eq, and_imp]
  constructor
  · rintro ⟨t, replayed, checked⟩
    have fits := tracks_init.fits (List.forall_mem_nil _) replayed
    obtain ⟨_, same, tracks⟩ := tracks_init.run fits
    obtain rfl := Option.some.inj (replayed.symm.trans same)
    exact ⟨fits, (called tracks).mp checked⟩
  · rintro ⟨fits, checked⟩
    obtain ⟨t, replayed, tracks⟩ := tracks_init.run fits
    exact ⟨t, replayed, (called tracks).mpr checked⟩

/-- A packet without data whose checksum is zero is handed on. -/
theorem checksummed_fails : ∃ t,
    uartBytes.replay? .init [0xAA, 0x01, 0x00, 0x00, 0x00, 0x55] = some t ∧
      t.calls = [[0xAA, 0x01, 0x00, 0x00, 0x00, 0x55]] ∧
      ¬ HandsOnChecksummed [0xAA, 0x01, 0x00, 0x00, 0x00, 0x55] := by
  have ran : (uartBytes.replay? .init [0xAA, 0x01, 0x00, 0x00, 0x00, 0x55]).map McuUart.calls =
      some [[0xAA, 0x01, 0x00, 0x00, 0x00, 0x55]] := by decide
  obtain ⟨t, replayed, calls⟩ := Option.map_eq_some_iff.mp ran
  refine ⟨t, replayed, calls, ?_⟩
  rintro ⟨_, same, checked⟩
  obtain rfl := Option.some.inj (replayed.symm.trans same)
  rw [calls] at checked
  exact absurd (checked _ (List.mem_singleton_self _)) (by decide)

end ShuangFa
