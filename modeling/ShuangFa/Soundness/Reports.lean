import ShuangFa.Model.JdReport
import ShuangFa.Soundness.Packets

/-! # Reports of the packet that has come

Every packet is collected at the start of one array, and behind it lies what longer packets have left.
The report of a packet with the code `CMD_COMMON` reads the first thirteen bytes of the array, whatever
the packet announces; the other reports read its data. So only a packet with the code `CMD_COMMON` and
less than seven bytes of data is reported with bytes of earlier ones.
-/

namespace ShuangFa

open Memory Framing Machine Coding

/-- A packet with any two bytes for its sum. -/
def mcuPacket (code : UInt8) (data : List UInt8) (sum : UInt8 × UInt8) : List UInt8 :=
  [0xAA, code, UInt8.ofNat data.length] ++ data ++ [sum.1, sum.2, 0x55]

/-- The last byte of a history completes a packet, which is handed to `UartProcess`; `s` is what it
leaves. -/
def Completed (history packet : List UInt8) (s : McuUart) : Prop :=
  ∃ before data middle, history = before ++ [data] ∧ uartBytes.replay? .init before = some middle ∧
    uartRecv data middle = some s ∧ s.calls = middle.calls ++ [packet]

/-- What is formatted for a packet does not depend on what has come before it. -/
def ReportsCurrent (packet : List UInt8) : Prop :=
  ∀ (subDomainId : ℕ) (jdArgs : JdNVargs) (first second : List UInt8) (s t : McuUart),
    Completed first packet s → Completed second packet t →
      uartProcessReports subDomainId jdArgs (.ofList s.u8RecvData.bytes) =
        uartProcessReports subDomainId jdArgs (.ofList t.u8RecvData.bytes)

variable {s t : McuUart} {data : UInt8} {packet history : List UInt8}

/-- A store to the array calls nothing. -/
theorem put_calls (stored : s.put data = some t) : t.calls = s.calls := by
  rw [McuUart.put] at stored
  split at stored
  · cases stored
    rfl
  · cases stored

/-- `UartProcess` is called with what lies at the start of the array. -/
theorem uartRecv_calls (received : uartRecv data s = some t)
    (called : t.calls = s.calls ++ [packet]) :
    t.u8RecvData.bytes.take packet.length = packet := by
  have uncalled {u : McuUart} (same : u.calls = s.calls) (calls : u.calls = s.calls ++ [packet]) :
      False := by
    rw [same] at calls
    exact absurd (congrArg List.length calls) (by simp)
  rw [uartRecv] at received
  cases state : s.curtype with
  | pktUnknown =>
    rw [state] at received
    dsimp only at received
    split at received
    · obtain ⟨stored, put, rfl⟩ := Option.map_eq_some_iff.mp received
      have calls := put_calls put
      exact (uncalled calls called).elim
    · cases received
      exact (uncalled rfl called).elim
  | pktPuredata =>
    rw [state] at received
    obtain ⟨stored, put, rfl⟩ := Option.map_eq_some_iff.mp received
    have calls := put_calls put
    dsimp only at called ⊢
    generalize known_eq : (if 3 = stored.recvdata then { stored with u8CurPktLen := data.toNat }
      else stored) = known at called ⊢
    have kept : known.calls = stored.calls := by
      rw [← known_eq]
      split <;> rfl
    split at called
    · rename_i complete
      rw [if_pos complete]
      split at called
      · rename_i tail
        rw [if_pos tail]
        have packet_eq : known.u8RecvData.bytes.take known.recvdata = packet := by
          rw [McuUart.uartProcess, kept, calls] at called
          exact List.singleton_inj.mp (List.append_cancel_left called)
        exact (List.prefix_iff_eq_take.mp (packet_eq ▸ List.take_prefix ..)).symm
      · exact (uncalled (kept.trans calls) called).elim
    · exact (uncalled (kept.trans calls) called).elim

/-- The report reads the bytes of a packet with its data, and the first thirteen of a packet with the
code `CMD_COMMON`. -/
theorem uartProcessReports_congr {first second : View} (length : ℕ)
    (same : ∀ index < length, first index = second index) (head : 6 ≤ length)
    (announced : (first 2).toNat + 6 ≤ length)
    (common : first 1 = ControlCmdType.common.code → 13 ≤ length) (subDomainId : ℕ)
    (jdArgs : JdNVargs) :
    uartProcessReports subDomainId jdArgs first = uartProcessReports subDomainId jdArgs second := by
  have sent : jdSendData jdArgs first = jdSendData jdArgs second := by
    rw [jdSendData, jdSendData, ← same 1 (by omega), ← same 2 (by omega)]
    split
    · rename_i code
      have long := common code
      simp only [jdValue, same 3 (by omega), same 4 (by omega), same 5 (by omega),
        same 6 (by omega), same 7 (by omega), same 8 (by omega), same 9 (by omega),
        same 11 (by omega), same 12 (by omega)]
    · cases jdStreamId (first 1) with
      | none => rfl
      | some pStreamId =>
        dsimp only
        split
        · rw [same 3 (by omega)]
        · split
          · rename_i two
            rw [two] at announced
            rw [jdValue, jdValue, same 3 (by omega),
              same 4 (show 4 < length from announced.trans' (by decide))]
          · rfl
  rw [uartProcessReports, uartProcessReports, ← same 1 (by omega), sent]

/-- A byte of a packet changes nothing behind the packet. -/
theorem uartRecv_behind (received : uartRecv data s = some t) {length : ℕ} (some_room : 0 < length)
    (inside : s.curtype = .pktPuredata → s.recvdata < length) :
    t.u8RecvData.bytes.drop length = s.u8RecvData.bytes.drop length := by
  have put_behind {u v : McuUart} (put : u.put data = some v) (room : u.recvdata < length) :
      v.u8RecvData.bytes.drop length = u.u8RecvData.bytes.drop length := by
    rw [McuUart.put] at put
    split at put
    · rename_i fits
      cases put
      exact FixedBuffer.drop_overlay fits room
    · cases put
  rw [uartRecv] at received
  cases state : s.curtype with
  | pktUnknown =>
    rw [state] at received
    dsimp only at received
    split at received
    · obtain ⟨stored, put, rfl⟩ := Option.map_eq_some_iff.mp received
      have behind := put_behind put some_room
      exact behind
    · cases received
      rfl
  | pktPuredata =>
    rw [state] at received
    obtain ⟨stored, put, rfl⟩ := Option.map_eq_some_iff.mp received
    rw [← put_behind put (inside state)]
    dsimp only
    repeat' split
    all_goals rfl

/-- A part of a packet is collected. -/
theorem scan_part (valid : IsPacket packet) {before : List UInt8} (within : before <+: packet)
    (shorter : before.length < packet.length) :
    Scan.empty.run mcuFormat before = ⟨before, []⟩ := by
  apply Scan.run_part
  · refine .inr fun byte first => ?_
    obtain ⟨rest, split⟩ := within
    have head := valid.head
    rw [← split, List.head?_append, Option.mem_def.mp first] at head
    exact Option.some.inj head
  · intro part inside
    rw [List.nil_append, List.nil_append] at inside
    have proper : part ≠ packet := by
      rintro rfl
      exact Nat.not_le.mpr shorter inside.length_le
    rcases valid.isFrame.progress_part (inside.trans within) proper with progress | progress
    all_goals
      rw [List.nil_append, progress]
      decide

/-- A packet that comes when none has begun is collected at the start of the array, and nothing behind
it is changed. -/
theorem packet_behind (valid : IsPacket packet) (unknown : s.curtype = .pktUnknown)
    {before : List UInt8} (within : before <+: packet) :
    ∃ t, uartBytes.replay? s before = some t ∧ Tracks s.calls t (Scan.empty.run mcuFormat before) ∧
      t.u8RecvData.bytes.drop packet.length = s.u8RecvData.bytes.drop packet.length := by
  have found : Scan.empty.run mcuFormat packet = ⟨[], [packet]⟩ :=
    Scan.run_frame valid.isFrame valid.head
  have packet_fits : (Scan.empty.run mcuFormat packet).Fits sizeofU8RecvData := by
    rw [found, Scan.Fits, Scan.pieces, if_pos rfl, List.append_nil]
    exact List.forall_mem_singleton.mpr valid.fits
  induction before using List.reverseRecOn with
  | nil => exact ⟨s, rfl, tracks_unknown unknown, rfl⟩
  | append_singleton before data ih =>
    have shorter : before <+: packet := (List.prefix_append ..).trans within
    have size := within.length_le
    rw [List.length_append, List.length_singleton] at size
    obtain ⟨middle, replayed, tracks, behind⟩ := ih shorter
    have collected := scan_part valid shorter (by omega)
    have fits := Scan.fits_of_prefix within packet_fits
    rw [Scan.run_concat, Scan.fits_push] at fits
    obtain ⟨t, received, reached⟩ := tracks.step fits.2
    refine ⟨t, ?_, by rw [Scan.run_concat]; exact reached, ?_⟩
    · rw [PartialMachine.replay?_concat, replayed]
      exact received
    · rw [← behind]
      apply uartRecv_behind received (by omega)
      intro begun
      have started : before ≠ [] := by
        rintro rfl
        rw [tracks.unknown.mpr (by rw [collected])] at begun
        cases begun
      have recvdata := tracks.recvdata (by rw [collected]; exact started)
      rw [recvdata, collected]
      exact size

/-- A packet behind a history that leaves none begun. -/
theorem completed_packet {earlier : List UInt8} (valid : IsPacket packet)
    (replayed : uartBytes.replay? .init earlier = some s) (unknown : s.curtype = .pktUnknown) :
    ∃ t, Completed (earlier ++ packet) packet t ∧
      t.u8RecvData.bytes = packet ++ s.u8RecvData.bytes.drop packet.length := by
  obtain ⟨front, last, rfl⟩ : ∃ front last, packet = front ++ [last] := by
    rcases List.eq_nil_or_concat' packet with rfl | split
    · exact absurd valid.head (by decide)
    · exact split
  obtain ⟨middle, before, reached, -⟩ := packet_behind valid unknown (List.prefix_append front [last])
  obtain ⟨t, whole, tracks, behind⟩ := packet_behind valid unknown List.prefix_rfl
  have received : uartRecv last middle = some t := by
    rw [PartialMachine.replay?_concat, before] at whole
    exact whole
  have found : Scan.empty.run mcuFormat (front ++ [last]) = ⟨[], [front ++ [last]]⟩ :=
    Scan.run_frame valid.isFrame valid.head
  have part := scan_part valid (List.prefix_append front [last])
    (by rw [List.length_append]; exact Nat.lt_succ_self _)
  have tailed : [front ++ [last]].filter Tailed = [front ++ [last]] :=
    List.filter_eq_self.mpr (List.forall_mem_singleton.mpr (decide_eq_true valid.tail))
  have calls : t.calls = middle.calls ++ [front ++ [last]] := by
    rw [tracks.calls, found, tailed, reached.calls, part, List.filter_nil, List.append_nil]
  refine ⟨t, ⟨earlier ++ front, last, middle, (List.append_assoc ..).symm, ?_, received, calls⟩, ?_⟩
  · rw [PartialMachine.replay?_append, replayed]
    exact before
  · calc t.u8RecvData.bytes
        = t.u8RecvData.bytes.take (front ++ [last]).length ++
            t.u8RecvData.bytes.drop (front ++ [last]).length := (List.take_append_drop ..).symm
      _ = _ := by rw [uartRecv_calls received calls, behind]

/-- What a packet lies on does not matter for its own bytes. -/
theorem Completed.byte (completed : Completed history packet s) {index : ℕ}
    (inside : index < packet.length) :
    View.ofList s.u8RecvData.bytes index = packet.getD index 0 := by
  obtain ⟨before, data, middle, -, -, received, calls⟩ := completed
  rw [View.ofList, ← uartRecv_calls received calls, List.getD_eq_getElem?_getD,
    List.getD_eq_getElem?_getD, List.getElem?_take_of_lt inside]

section Packets

variable (code : UInt8) (bytes : List UInt8) (sum : UInt8 × UInt8)

theorem mcuPacket_length : (mcuPacket code bytes sum).length = bytes.length + 6 := by
  simp only [mcuPacket, List.length_append, List.length_cons, List.length_nil]
  omega

theorem mcuPacket_valid (short : bytes.length ≤ 44) : IsPacket (mcuPacket code bytes sum) where
  head := rfl
  announced := by
    rw [mcuPacket_length]
    show bytes.length + 6 = (UInt8.ofNat bytes.length).toNat + 6
    rw [UInt8.toNat_ofNat', Nat.mod_eq_of_lt (by omega)]
  tail := by rw [Tailed, mcuPacket, List.getLast?_append]; rfl
  fits := by
    rw [mcuPacket_length]
    exact Nat.add_le_add_right short 6

end Packets

/-- The remaining time is reported with its second byte. -/
theorem uartProcessReports_differ {first second : View}
    (common : first 1 = ControlCmdType.common.code)
    (same : ∀ index, index ≠ 12 → first index = second index) (differ : first 12 ≠ second 12) :
    uartProcessReports 0 .zero first ≠ uartProcessReports 0 .zero second := by
  have report (data : View) (common : data 1 = ControlCmdType.common.code) :
      uartProcessReports 0 .zero data = .formatted (sprintf formatCommon ([[], [],
        decimal (data 3).toNat, decimal (data 4).toNat, decimal (jdValue data 5),
        decimal (data 7).toNat, decimal (data 8).toNat, decimal (data 9).toNat] ++
          [decimal (jdValue data 11)])) := by
    rw [uartProcessReports, common, if_neg (by decide), if_neg (by decide), if_pos (by decide),
      if_pos rfl, jdSendData, if_pos common]
    exact congrArg PostTx.ofText (sprintf?_map_some formatCommon ([[], [],
      decimal (data 3).toNat, decimal (data 4).toNat, decimal (jdValue data 5),
      decimal (data 7).toNat, decimal (data 8).toNat, decimal (data 9).toNat] ++
        [decimal (jdValue data 11)]))
  intro equal
  rw [report first common, report second ((same 1 (by decide)).symm.trans common)] at equal
  simp only [same 3 (by decide), same 4 (by decide), same 7 (by decide), same 8 (by decide),
    same 9 (by decide), jdValue, Nat.reduceAdd, same 5 (by decide), same 6 (by decide)] at equal
  have left_time := decimal_injective (sprintf_injective (PostTx.formatted.inj equal))
  rw [same 11 (by decide)] at left_time
  exact differ (UInt8.toNat_inj.mp (by omega))

/-- A packet of sixteen bytes, with a byte of its own choice behind the first twelve. -/
def longerPacket (byte : UInt8) : List UInt8 := mcuPacket 1 (List.replicate 9 0 ++ [byte]) (0, 0)

/-- What a longer packet leaves. -/
def leftBehind (byte : UInt8) : McuUart :=
  ⟨.pktUnknown, 0, 0, ⟨longerPacket byte ++ List.replicate 34 0, rfl⟩, 0, [longerPacket byte]⟩

/-- Two longer packets leave the same but for the byte of their choice. -/
theorem leftBehind_same (index : ℕ) (apart : index ≠ 12) :
    (leftBehind 0).u8RecvData.bytes.getD index 0 = (leftBehind 1).u8RecvData.bytes.getD index 0 := by
  have same : ∀ index < 50, index ≠ 12 →
      (leftBehind 0).u8RecvData.bytes.getD index 0 =
        (leftBehind 1).u8RecvData.bytes.getD index 0 := by decide +kernel
  rcases Nat.lt_or_ge index 50 with inside | outside
  · exact same index inside apart
  · rw [List.getD_eq_default _ _ ((leftBehind 0).u8RecvData.size_eq.trans_le outside),
      List.getD_eq_default _ _ ((leftBehind 1).u8RecvData.size_eq.trans_le outside)]

/-- A shorter packet with the code `CMD_COMMON` is reported with what a longer one has left. -/
theorem not_reportsCurrent {bytes : List UInt8} {sum : UInt8 × UInt8} (short : bytes.length < 7) :
    ¬ ReportsCurrent (mcuPacket ControlCmdType.common.code bytes sum) := by
  intro current
  have valid := mcuPacket_valid ControlCmdType.common.code bytes sum (by omega)
  have length := mcuPacket_length ControlCmdType.common.code bytes sum
  obtain ⟨s, one, first⟩ := completed_packet valid
    (show uartBytes.replay? .init (longerPacket 0) = some (leftBehind 0) by decide +kernel) rfl
  obtain ⟨t, other, second⟩ := completed_packet valid
    (show uartBytes.replay? .init (longerPacket 1) = some (leftBehind 1) by decide +kernel) rfl
  have behind (index : ℕ) (outside : bytes.length + 6 ≤ index) :
      View.ofList s.u8RecvData.bytes index = (leftBehind 0).u8RecvData.bytes.getD index 0 ∧
        View.ofList t.u8RecvData.bytes index = (leftBehind 1).u8RecvData.bytes.getD index 0 := by
    constructor
    · rw [first, View.ofList, List.getD_append_right _ _ _ _ (by omega), List.getD_eq_getElem?_getD,
        List.getElem?_drop, Nat.add_sub_cancel' (by omega), ← List.getD_eq_getElem?_getD]
    · rw [second, View.ofList, List.getD_append_right _ _ _ _ (by omega),
        List.getD_eq_getElem?_getD, List.getElem?_drop, Nat.add_sub_cancel' (by omega),
        ← List.getD_eq_getElem?_getD]
  refine uartProcessReports_differ ?_ ?_ ?_ (current 0 .zero _ _ s t one other)
  · exact one.byte (by omega)
  · intro index apart
    rcases Nat.lt_or_ge index (bytes.length + 6) with inside | outside
    · rw [one.byte (by omega), other.byte (by omega)]
    · rw [(behind index outside).1, (behind index outside).2]
      exact leftBehind_same index apart
  · rw [(behind 12 (by omega)).1, (behind 12 (by omega)).2]
    decide

/-- The report is made of the packet alone if and only if the packet has another code than
`CMD_COMMON` or at least seven bytes of data. -/
theorem reportsCurrent_iff (code : UInt8) (bytes : List UInt8) (sum : UInt8 × UInt8) :
    ReportsCurrent (mcuPacket code bytes sum) ↔
      (code = ControlCmdType.common.code → 7 ≤ bytes.length) := by
  constructor
  · rintro current rfl
    by_contra short
    exact not_reportsCurrent (Nat.not_le.mp short) current
  · intro long subDomainId jdArgs first second s t one other
    have length := mcuPacket_length code bytes sum
    have code_eq : View.ofList s.u8RecvData.bytes 1 = code := one.byte (by omega)
    have size_eq : View.ofList s.u8RecvData.bytes 2 = UInt8.ofNat bytes.length :=
      one.byte (by omega)
    refine uartProcessReports_congr (mcuPacket code bytes sum).length ?_ (by omega) ?_ ?_ ..
    · intro index inside
      rw [one.byte inside, other.byte inside]
    · rw [size_eq, UInt8.toNat_ofNat', length]
      exact Nat.add_le_add_right (Nat.mod_le ..) 6
    · rw [code_eq]
      intro common
      have := long common
      omega

/-- A packet without data. -/
theorem reportsCurrent_fails : ¬ ∀ packet, ReportsCurrent packet :=
  fun all => not_reportsCurrent (show [].length < 7 by decide) (all (mcuPacket _ [] (0, 0)))

end ShuangFa
