import ShuangFa.Soundness.Packets

/-! # Packets that are longer than the array

The length byte is not compared with the size of the array. A packet that announces more than
forty-four bytes of data is stored up to its fiftieth byte, and the next one is stored outside. All
other packets end where they say.
-/

namespace ShuangFa

open Memory Framing Machine

/-- The index `UartRecv` stores the byte at. -/
def McuUart.storesAt (data : UInt8) (s : McuUart) : Option ℕ :=
  match s.curtype with
  | .pktUnknown => if data = 0xAA then some 0 else none
  | .pktPuredata => some s.recvdata

/-- The length byte of a packet was read last. -/
def McuUart.ReadsLength (s : McuUart) : Prop := s.curtype = .pktPuredata ∧ s.recvdata = 3

/-- Every store is inside the array, and a packet ends after as many bytes as it announces. -/
structure Bounded (stream : List UInt8) : Prop where
  stores : uartBytes.EachStep (fun s data => ∀ index ∈ s.storesAt data, index < sizeofU8RecvData)
    .init stream
  returns : ∀ {before rest s}, before ++ rest = stream →
    uartBytes.replay? .init before = some s → s.ReadsLength →
      ∀ count, count ≤ rest.length → count ≤ s.u8CurPktLen + 3 → ∃ t,
        uartBytes.replay? s (rest.take count) = some t ∧
          (t.curtype = .pktUnknown ↔ count = s.u8CurPktLen + 3)

variable {stream : List UInt8} {s : McuUart} {scan : Scan}

/-- The stores inside the array are the defined ones. -/
theorem storesAt_iff (s : McuUart) (data : UInt8) :
    (∀ index ∈ s.storesAt data, index < sizeofU8RecvData) ↔
      ∃ t, uartBytes.step? s data = some t := by
  have put (s : McuUart) : (∃ t, s.put data = some t) ↔ s.recvdata < sizeofU8RecvData := by
    rw [McuUart.put]
    split <;> simp [*]
  change _ ↔ ∃ t, uartRecv data s = some t
  rw [McuUart.storesAt, uartRecv]
  cases s.curtype with
  | pktUnknown =>
    by_cases mark : data = 0xAA
    · simp only [if_pos mark, Option.mem_some_iff, forall_eq', ← Option.isSome_iff_exists,
        Option.isSome_map]
      rw [Option.isSome_iff_exists, put]
    · simp [if_neg mark]
  | pktPuredata =>
    simp only [Option.mem_some_iff, forall_eq', ← Option.isSome_iff_exists, Option.isSome_map]
    rw [Option.isSome_iff_exists, put]

/-- No packet reaches over the end of what it announces, and one that has reached it is not waited
for any more. -/
theorem scan_within (stream : List UInt8) :
    (∀ frame ∈ (mcuScan stream).frames, frame.length ≤ mcuFormat.total frame) ∧
      (mcuScan stream).acc.length < mcuFormat.total (mcuScan stream).acc := by
  induction stream using List.reverseRecOn with
  | nil => exact ⟨nofun, Nat.succ_pos _⟩
  | append_singleton stream data ih =>
    obtain ⟨frames, pending⟩ := ih
    have next := length_concat_le pending data
    rw [mcuScan_concat]
    by_cases skips : (mcuScan stream).Skips mcuFormat data
    · rw [Scan.push_skip skips]
      exact ⟨frames, pending⟩
    · by_cases complete : mcuFormat.progress ((mcuScan stream).acc ++ [data]) = .complete
      · rw [Scan.push_last skips complete]
        refine ⟨?_, Nat.succ_pos _⟩
        rw [List.forall_mem_append, List.forall_mem_singleton]
        exact ⟨frames, next⟩
      · rw [Scan.push_part skips complete]
        exact ⟨frames, Nat.lt_of_le_of_ne next fun same =>
          complete (mcuFormat_complete.mpr (Nat.le_of_eq same.symm))⟩

theorem length_le_total {piece : List UInt8} (among : piece ∈ (mcuScan stream).pieces) :
    piece.length ≤ (piece.getD 2 0).toNat + 6 := by
  obtain ⟨frames, pending⟩ := scan_within stream
  rcases List.mem_append.mp among with frame | last
  · exact frames piece frame
  · split at last
    · cases last
    · rw [List.mem_singleton.mp last]
      exact Nat.le_of_lt pending

/-- All stores are inside the array if and only if every packet fits it. -/
theorem stores_iff_fits :
    uartBytes.EachStep (fun s data => ∀ index ∈ s.storesAt data, index < sizeofU8RecvData)
      .init stream ↔ (mcuScan stream).Fits sizeofU8RecvData := by
  rw [PartialMachine.eachStep_iff_replay? storesAt_iff]
  constructor
  · rintro ⟨t, replayed⟩
    exact tracks_init.fits nofun replayed
  · intro fits
    obtain ⟨t, replayed, _⟩ := tracks_init.run fits
    exact ⟨t, replayed⟩

/-- A packet whose length byte was read ends where it says. -/
theorem Tracks.returns {earlier : List (List UInt8)} {rest : List UInt8}
    (tracks : Tracks earlier s scan) (reads : s.ReadsLength)
    (fits : (scan.run mcuFormat rest).Fits sizeofU8RecvData) {count : ℕ}
    (there : count ≤ rest.length) (within : count ≤ s.u8CurPktLen + 3) :
    ∃ t, uartBytes.replay? s (rest.take count) = some t ∧
      (t.curtype = .pktUnknown ↔ count = s.u8CurPktLen + 3) := by
  obtain ⟨acc, frames⟩ := scan
  have started : acc ≠ [] := fun nothing => by
    have unknown := tracks.unknown.mpr nothing
    rw [reads.1] at unknown
    cases unknown
  have three : acc.length = 3 := (tracks.recvdata started).symm.trans reads.2
  have announced : s.u8CurPktLen = (acc.getD 2 0).toNat := tracks.length started
  obtain ⟨t, replayed, reached⟩ := tracks.run
    (Scan.fits_of_prefix (List.take_prefix count rest) fits)
  refine ⟨t, replayed, reached.unknown.trans ?_⟩
  have known (before : List UInt8) : (acc ++ before).getD 2 0 = acc.getD 2 0 :=
    List.getD_append _ _ _ _ (by omega)
  have size : (rest.take count).length = count := List.length_take_of_le there
  rcases Nat.lt_or_eq_of_le within with part | whole
  · have collected : Scan.run mcuFormat ⟨acc, frames⟩ (rest.take count) =
        ⟨acc ++ rest.take count, frames⟩ := by
      refine Scan.run_part (.inl started) fun before inside complete => ?_
      have shorter := inside.length_le
      rw [mcuFormat_complete, known] at complete
      simp only [List.length_append] at shorter complete
      omega
    rw [collected]
    exact iff_of_false (List.append_ne_nil_of_left_ne_nil started _) (Nat.ne_of_lt part)
  · have valid : mcuFormat.IsFrame (acc ++ rest.take count) := by
      have total : (acc ++ rest.take count).length = ((acc ++ rest.take count).getD 2 0).toNat + 6 := by
        rw [known, List.length_append]
        omega
      have small := ((acc ++ rest.take count).getD 2 0).toNat_lt
      exact ⟨total.symm, total.trans_le (show _ ≤ 255 + 6 by omega)⟩
    have missing : rest.take count ≠ [] := List.ne_nil_of_length_pos (by omega)
    rw [Scan.run_rest valid missing (.inl started)]
    exact iff_of_true rfl whole

/-- Every store is inside the array and every packet ends where it says if and only if no packet
that announces more than forty-four bytes of data has more than fifty bytes in the stream. -/
theorem bounded_iff (stream : List UInt8) : Bounded stream ↔
    ∀ piece ∈ (mcuScan stream).pieces, 44 < (piece.getD 2 0).toNat → piece.length ≤ 50 := by
  have fits_iff : (mcuScan stream).Fits sizeofU8RecvData ↔
      ∀ piece ∈ (mcuScan stream).pieces, 44 < (piece.getD 2 0).toNat → piece.length ≤ 50 := by
    refine forall₂_congr fun piece among => ⟨fun fits _ => fits, fun fits => ?_⟩
    have within := length_le_total among
    by_cases long : 44 < (piece.getD 2 0).toNat
    · exact fits long
    · exact within.trans (show _ ≤ 44 + 6 by omega)
  rw [← fits_iff]
  refine ⟨fun bounded => stores_iff_fits.mp bounded.stores, fun fits => ⟨stores_iff_fits.mpr fits, ?_⟩⟩
  rintro before rest s rfl replayed reads count there within
  obtain ⟨_, same, reached⟩ := tracks_init.run (Scan.fits_of_prefix (List.prefix_append ..) fits)
  obtain rfl := Option.some.inj (replayed.symm.trans same)
  rw [mcuScan, Scan.run_append] at fits
  exact reached.returns reads fits there within

/-- The length byte of a packet is corrupted. -/
theorem bounded_fails : ¬ ∀ stream, Bounded stream := by
  intro all
  have fits := stores_iff_fits.mp (all ([0xAA, 0x01, 0xFF] ++ List.replicate 48 0)).stores
  exact absurd (fits ([0xAA, 0x01, 0xFF] ++ List.replicate 48 0) (by decide +kernel)) (by decide)

end ShuangFa
