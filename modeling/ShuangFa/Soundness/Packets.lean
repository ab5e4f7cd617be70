import Mathlib.Data.List.GetD
import Mathlib.Data.List.TakeWhile
import ShuangFa.Model.McuUart

/-! # The packets of the MCU

While a packet fits the array, `UartRecv` finds in the stream what its format says is there. Its
state is a function of the bytes of the packet that has begun, so the packets are found whatever
their bytes, whatever lies between them and whatever chunks they come in.
-/

namespace ShuangFa

open Memory Framing Machine

/-- The format of a packet: the third byte counts the data, and six bytes are not data. -/
def mcuFormat : MarkedFormat where
  headLen := 3
  maxLen := 261
  total bytes := (bytes.getD 2 0).toNat + 6
  mark := 0xAA
  head_le_total _ := by omega
  total_append bytes rest head := by
    rw [List.getD_append _ _ _ _ head]

/-- What the format finds in a stream. -/
def mcuScan (stream : List UInt8) : Scan := Scan.empty.run mcuFormat stream

/-- The packet ends in `55`. -/
def Tailed (packet : List UInt8) : Prop := packet.getLast? = some 0x55

instance : DecidablePred Tailed := fun _ => inferInstanceAs (Decidable (_ = _))

/-- A packet of the MCU that fits the array. -/
structure IsPacket (packet : List UInt8) : Prop where
  head : packet.head? = some 0xAA
  announced : packet.length = (packet.getD 2 0).toNat + 6
  tail : Tailed packet
  fits : packet.length ≤ sizeofU8RecvData

/-- The globals hold what the format has found, and `UartProcess` was called with the packets that
end as they should. -/
structure Tracks (earlier : List (List UInt8)) (s : McuUart) (scan : Scan) : Prop where
  calls : s.calls = earlier ++ scan.frames.filter Tailed
  unknown : s.curtype = .pktUnknown ↔ scan.acc = []
  recvdata : scan.acc ≠ [] → s.recvdata = scan.acc.length
  length : scan.acc ≠ [] → s.u8CurPktLen = (scan.acc.getD 2 0).toNat
  collected : scan.acc ≠ [] → s.u8RecvData.bytes.take scan.acc.length = scan.acc
  pending : scan.acc.length < mcuFormat.total scan.acc
  released : scan.acc = [] → scan.frames ≠ [] → s.recvdata = 0

variable {earlier : List (List UInt8)} {s : McuUart} {scan : Scan} {data : UInt8}

theorem mcuFormat_complete {bytes : List UInt8} : mcuFormat.progress bytes = .complete ↔
    (bytes.getD 2 0).toNat + 6 ≤ bytes.length := by
  have small := (bytes.getD 2 0).toNat_lt
  rw [Format.progress_eq_complete_iff]
  change 3 ≤ _ ∧ (bytes.getD 2 0).toNat + 6 ≤ 261 ∧ (bytes.getD 2 0).toNat + 6 ≤ _ ↔ _
  omega

/-- A byte that lies in front of a packet changes nothing. -/
theorem Tracks.skip (tracks : Tracks earlier s scan) (skips : scan.Skips mcuFormat data) :
    uartRecv data s = some s := by
  rw [uartRecv, tracks.unknown.mpr skips.1]
  exact if_neg skips.2

theorem Tracks.puredata (tracks : Tracks earlier s scan) (started : scan.acc ≠ []) :
    s.curtype = .pktPuredata := by
  cases state : s.curtype with
  | pktUnknown => exact absurd (tracks.unknown.mp state) started
  | pktPuredata => rfl

/-- Where the packet that has begun leaves no room, the store is outside the array. -/
theorem Tracks.overrun (tracks : Tracks earlier s scan)
    (full : sizeofU8RecvData ≤ scan.acc.length) : uartRecv data s = none := by
  have started : scan.acc ≠ [] := List.ne_nil_of_length_pos (Nat.lt_of_lt_of_le (by decide) full)
  have state := tracks.puredata started
  have outside : s.put data = none := by
    rw [McuUart.put, tracks.recvdata started, if_neg (Nat.not_lt.mpr full)]
  rw [uartRecv, state]
  simp only [outside, Option.map_none]

/-- The mark begins a packet. -/
theorem Tracks.begin (tracks : Tracks earlier s scan) (nothing : scan.acc = []) :
    ∃ t, uartRecv 0xAA s = some t ∧ Tracks earlier t (scan.push mcuFormat 0xAA) := by
  have takes : ¬ scan.Skips mcuFormat 0xAA := Scan.takes_mark
  have part : mcuFormat.progress (scan.acc ++ [0xAA]) ≠ .complete := by
    rw [nothing]
    decide
  rw [Scan.push_part takes part, nothing, uartRecv, tracks.unknown.mpr nothing]
  refine ⟨_, rfl, ⟨tracks.calls, by simp, fun _ => rfl, fun _ => rfl, fun _ => ?_, ?_, nofun⟩⟩
  · exact FixedBuffer.take_overlay _ 0 [0xAA] (by decide)
  · exact Nat.succ_lt_succ (Nat.succ_pos _)

/-- The length byte is known once three bytes are there. -/
theorem lengthByte_concat (acc : List UInt8) (data : UInt8) :
    ((acc ++ [data]).getD 2 0).toNat =
      if 3 = acc.length + 1 then data.toNat else (acc.getD 2 0).toNat := by
  rcases Nat.lt_trichotomy acc.length 2 with before | third | after
  · rw [List.getD_eq_default _ _ (by simpa using Nat.succ_le_of_lt before),
      List.getD_eq_default _ _ before.le, if_neg (by omega)]
  · rw [List.getD_append_right _ _ _ _ third.le, third]
    rfl
  · rw [List.getD_append _ _ _ _ after, if_neg (by omega)]

/-- The next byte of an incomplete packet belongs to it. -/
theorem length_concat_le {acc : List UInt8} (pending : acc.length < mcuFormat.total acc)
    (data : UInt8) : (acc ++ [data]).length ≤ mcuFormat.total (acc ++ [data]) := by
  have known : acc.length < (acc.getD 2 0).toNat + 6 := pending
  show _ ≤ ((acc ++ [data]).getD 2 0).toNat + 6
  rw [lengthByte_concat, List.length_append, List.length_singleton]
  split <;> omega

/-- The last byte of a packet decides whether it ends as it should. -/
theorem filter_tailed_concat (frames : List (List UInt8)) (acc : List UInt8) (data : UInt8) :
    (frames ++ [acc ++ [data]]).filter Tailed =
      frames.filter Tailed ++ if data = 0x55 then [acc ++ [data]] else [] := by
  rw [List.filter_append]
  by_cases tail : data = 0x55 <;> simp [Tailed, tail]

/-- A packet that has begun takes the next byte as long as there is room. -/
theorem Tracks.collect {acc : List UInt8} {frames : List (List UInt8)}
    (tracks : Tracks earlier s ⟨acc, frames⟩) (started : acc ≠ [])
    (room : acc.length < sizeofU8RecvData) :
    ∃ t, uartRecv data s = some t ∧ Tracks earlier t (Scan.push mcuFormat ⟨acc, frames⟩ data) := by
  have state := tracks.puredata started
  have next : (acc.length + 1) % 2 ^ 8 = acc.length + 1 :=
    Nat.mod_eq_of_lt (Nat.lt_of_le_of_lt (Nat.succ_le_of_lt room) (by decide))
  let stored : McuUart := { s with
    u8RecvData := s.u8RecvData.overlay acc.length [data]
    recvdata := acc.length + 1 }
  have put : s.put data = some stored := by
    rw [McuUart.put, tracks.recvdata started, if_pos room, next]
  have collected : stored.u8RecvData.bytes.take (acc.length + 1) = acc ++ [data] := by
    have before : s.u8RecvData.bytes.take acc.length = acc := tracks.collected started
    exact (s.u8RecvData.take_overlay acc.length [data] room).trans (by rw [before])
  have known : (if 3 = stored.recvdata then { stored with u8CurPktLen := data.toNat } else stored) =
      { stored with u8CurPktLen := ((acc ++ [data]).getD 2 0).toNat } := by
    rw [lengthByte_concat]
    by_cases third : 3 = acc.length + 1
    · rw [if_pos third, if_pos third]
    · rw [if_neg third, if_neg third, ← show s.u8CurPktLen = _ from tracks.length started]
  have takes : ¬ Scan.Skips mcuFormat ⟨acc, frames⟩ data := Scan.takes_of_started started
  have size : (acc ++ [data]).length = acc.length + 1 := List.length_append
  have within : acc.length + 1 ≤ ((acc ++ [data]).getD 2 0).toNat + 6 :=
    size ▸ length_concat_le tracks.pending data
  rw [uartRecv, state]
  simp only [put, Option.map_some, known]
  refine ⟨_, rfl, ?_⟩
  by_cases complete : acc.length + 1 = ((acc ++ [data]).getD 2 0).toNat + 6
  · have finished : mcuFormat.progress (acc ++ [data]) = .complete :=
      mcuFormat_complete.mpr (by omega)
    rw [Scan.push_last takes finished, if_pos complete]
    refine ⟨?_, by simp, nofun, nofun, nofun, Nat.succ_pos _, fun _ _ => rfl⟩
    rw [filter_tailed_concat, ← List.append_assoc, ← tracks.calls]
    by_cases tail : data = 0x55
    · rw [if_pos tail, if_pos tail]
      exact congrArg (s.calls ++ [·]) collected
    · rw [if_neg tail, if_neg tail, List.append_nil]
  · have part : mcuFormat.progress (acc ++ [data]) ≠ .complete := fun finished =>
      complete (by have := mcuFormat_complete.mp finished; omega)
    rw [Scan.push_part takes part, if_neg complete]
    refine ⟨tracks.calls, by simp [stored, state], fun _ => size.symm, fun _ => rfl,
      fun _ => size.symm ▸ collected, ?_, fun nothing => absurd nothing (List.concat_ne_nil _ _)⟩
    show (acc ++ [data]).length < ((acc ++ [data]).getD 2 0).toNat + 6
    omega

/-- A byte for which there is room. -/
theorem Tracks.step (tracks : Tracks earlier s scan)
    (room : scan.Skips mcuFormat data ∨ scan.acc.length < sizeofU8RecvData) :
    ∃ t, uartRecv data s = some t ∧ Tracks earlier t (scan.push mcuFormat data) := by
  by_cases skips : scan.Skips mcuFormat data
  · exact ⟨s, tracks.skip skips, by rwa [Scan.push_skip skips]⟩
  · by_cases nothing : scan.acc = []
    · obtain rfl : data = 0xAA := not_not.mp fun other => skips ⟨nothing, other⟩
      exact tracks.begin nothing
    · exact tracks.collect nothing (room.resolve_left skips)

section Streams

variable {stream : List UInt8} {t : McuUart}

/-- As long as every packet fits, `UartRecv` finds what is there. -/
theorem Tracks.run (tracks : Tracks earlier s scan)
    (fits : (scan.run mcuFormat stream).Fits sizeofU8RecvData) :
    ∃ t, uartBytes.replay? s stream = some t ∧ Tracks earlier t (scan.run mcuFormat stream) := by
  induction stream using List.reverseRecOn with
  | nil => exact ⟨s, rfl, tracks⟩
  | append_singleton stream data ih =>
    rw [Scan.run_concat] at fits ⊢
    obtain ⟨before, room⟩ := Scan.fits_push.mp fits
    obtain ⟨middle, replayed, reached⟩ := ih before
    obtain ⟨t, received, last⟩ := reached.step room
    refine ⟨t, ?_, last⟩
    rw [PartialMachine.replay?_concat, replayed]
    exact received

/-- Where no store was outside the array, every packet has fitted. -/
theorem Tracks.fits (tracks : Tracks earlier s scan) (start : scan.Fits sizeofU8RecvData)
    (replayed : uartBytes.replay? s stream = some t) :
    (scan.run mcuFormat stream).Fits sizeofU8RecvData := by
  induction stream using List.reverseRecOn generalizing t with
  | nil => exact start
  | append_singleton stream data ih =>
    rw [PartialMachine.replay?_concat] at replayed
    obtain ⟨middle, before, received⟩ := Option.bind_eq_some_iff.mp replayed
    have fits := ih before
    obtain ⟨_, same, reached⟩ := tracks.run fits
    obtain rfl := Option.some.inj (before.symm.trans same)
    rw [Scan.run_concat, Scan.fits_push]
    refine ⟨fits, ?_⟩
    by_contra full
    obtain ⟨_, full⟩ := not_or.mp full
    rw [show uartBytes.step? middle data = none from reached.overrun (Nat.not_lt.mp full)] at received
    cases received

end Streams

/-- Nothing was received yet. -/
theorem tracks_unknown (unknown : s.curtype = .pktUnknown) : Tracks s.calls s .empty :=
  ⟨(List.append_nil _).symm, iff_of_true unknown rfl, nofun, nofun, nofun, Nat.succ_pos _, nofun⟩

theorem tracks_init : Tracks [] .init .empty := tracks_unknown (s := .init) rfl

/-- The packets that are handed to `UartProcess` are those of the stream that end in `55` and lie in
front of the first one that does not fit the array. -/
theorem calls_throughout_iff (P : List UInt8 → Prop) (stream : List UInt8) :
    uartBytes.Throughout (fun s => ∀ packet ∈ s.calls, P packet) .init stream ↔
      ∀ packet ∈ (mcuScan stream).frames.takeWhile fun packet => decide (packet.length ≤ 50),
        Tailed packet → P packet := by
  rw [PartialMachine.throughout_iff_prefix]
  constructor
  · intro checked packet among tailed
    have start : Scan.empty.frames = [] := rfl
    rcases Scan.exists_of_prefix start (List.takeWhile_prefix _) with none | found
    · rw [mcuScan, none] at among
      cases among
    · obtain ⟨before, within, found⟩ := found
      have fits : (Scan.empty.run mcuFormat before).Fits sizeofU8RecvData := by
        rw [found, Scan.Fits, Scan.pieces, if_pos rfl, List.append_nil]
        intro packet among
        have short := List.mem_takeWhile_imp among
        exact of_decide_eq_true short
      obtain ⟨s, replayed, tracks⟩ := tracks_init.run fits
      refine checked before s within replayed packet ?_
      rw [tracks.calls, found]
      exact List.mem_filter.mpr ⟨among, decide_eq_true tailed⟩
  · intro checked before s within replayed packet called
    have fits := tracks_init.fits (List.forall_mem_nil _) replayed
    obtain ⟨_, same, tracks⟩ := tracks_init.run fits
    obtain rfl := Option.some.inj (replayed.symm.trans same)
    rw [tracks.calls] at called
    obtain ⟨found, tailed⟩ := List.mem_filter.mp called
    refine checked packet ?_ (of_decide_eq_true tailed)
    obtain ⟨later, more⟩ : (mcuScan before).frames <+: (mcuScan stream).frames :=
      Scan.frames_prefix within
    rw [← more, List.takeWhile_append_of_pos]
    · exact List.mem_append_left _ found
    · intro packet found
      exact decide_eq_true (fits packet (List.mem_append_left _ found))

theorem mcuScan_concat (stream : List UInt8) (data : UInt8) :
    mcuScan (stream ++ [data]) = (mcuScan stream).push mcuFormat data := Scan.run_concat ..

theorem IsPacket.isFrame {packet : List UInt8} (valid : IsPacket packet) :
    mcuFormat.IsFrame packet := ⟨valid.announced.symm, valid.fits.trans (by decide)⟩

/-- The packets that are sent are found, and they fit. -/
theorem scan_sent {sent : Sent} (packets : ∀ pair ∈ sent, 0xAA ∉ pair.1 ∧ IsPacket pair.2) :
    mcuScan sent.stream = ⟨[], sent.map Prod.snd⟩ := by
  have valid : sent.Valid mcuFormat := fun pair member =>
    ⟨(packets pair member).1, (packets pair member).2.isFrame, (packets pair member).2.head⟩
  exact valid.run []

theorem put_stop {t : McuUart} (stored : s.put data = some t) :
    t.u32StopJdTask = s.u32StopJdTask := by
  rw [McuUart.put] at stored
  split at stored
  · cases stored
    rfl
  · cases stored

/-- `UartRecv` leaves the JD task as it is. -/
theorem uartRecv_stop {t : McuUart} (received : uartRecv data s = some t) :
    t.u32StopJdTask = s.u32StopJdTask := by
  rw [uartRecv] at received
  split at received
  · split at received
    · obtain ⟨stored, put, rfl⟩ := Option.map_eq_some_iff.mp received
      have kept := put_stop put
      exact kept
    · cases received
      rfl
  · obtain ⟨stored, put, rfl⟩ := Option.map_eq_some_iff.mp received
    rw [← put_stop put]
    dsimp only
    repeat' split
    all_goals rfl

/-- The chunks do not matter. -/
theorem replay_chunks (running : s.u32StopJdTask = 0) (chunks : List (List UInt8)) :
    uartChunks.replay? s chunks = uartBytes.replay? s chunks.flatten := by
  induction chunks generalizing s with
  | nil => rfl
  | cons chunk rest ih =>
    have looped : uartChunks.step? s chunk = uartBytes.replay? s chunk := by
      refine if_neg ?_
      rw [running]
      decide
    rw [List.flatten_cons, PartialMachine.replay?_append, PartialMachine.replay?_cons, looped]
    refine Option.bind_congr fun middle replayed => ih ?_
    refine PartialMachine.invariant_replay? (I := fun s => s.u32StopJdTask = 0)
      (C := fun _ _ => True) ?_ running (.of_forall fun _ _ _ => trivial) replayed
    exact fun s data t kept _ received => (uartRecv_stop received).trans kept

/-- The packets of a stream, and bytes without the mark behind them. -/
theorem receives_sent {sent : Sent} {gap : List UInt8} (unknown : s.curtype = .pktUnknown)
    (packets : ∀ pair ∈ sent, 0xAA ∉ pair.1 ∧ IsPacket pair.2) (behind : 0xAA ∉ gap) :
    ∃ t, uartBytes.replay? s (sent.stream ++ gap) = some t ∧ t.curtype = .pktUnknown ∧
      t.calls = s.calls ++ sent.map Prod.snd ∧ (sent ≠ [] → t.recvdata = 0) := by
  have found : Scan.empty.run mcuFormat (sent.stream ++ gap) = ⟨[], sent.map Prod.snd⟩ := by
    rw [Scan.run_append]
    exact (congrArg (Scan.run mcuFormat · gap) (scan_sent packets)).trans (Scan.run_gap behind)
  have member : ∀ packet ∈ sent.map Prod.snd, IsPacket packet := by
    intro packet member
    obtain ⟨pair, among, rfl⟩ := List.mem_map.mp member
    exact (packets pair among).2
  have fits : (Scan.empty.run mcuFormat (sent.stream ++ gap)).Fits sizeofU8RecvData := by
    rw [found, Scan.Fits, Scan.pieces, if_pos rfl, List.append_nil]
    exact fun packet among => (member packet among).fits
  obtain ⟨t, replayed, tracks⟩ := (tracks_unknown unknown).run fits
  rw [found] at tracks
  have tailed : (sent.map Prod.snd).filter Tailed = sent.map Prod.snd :=
    List.filter_eq_self.mpr fun packet among => decide_eq_true (member packet among).tail
  refine ⟨t, replayed, tracks.unknown.mpr rfl, tailed ▸ tracks.calls, fun some => ?_⟩
  exact tracks.released rfl (mt List.map_eq_nil_iff.mp some)

/-- Every packet is handed to `UartProcess` once, in order, whatever lies between the packets and
whatever chunks they come in. -/
theorem packets_received {sent : Sent} {gap : List UInt8} {chunks : List (List UInt8)}
    (unknown : s.curtype = .pktUnknown) (running : s.u32StopJdTask = 0)
    (packets : ∀ pair ∈ sent, 0xAA ∉ pair.1 ∧ IsPacket pair.2) (behind : 0xAA ∉ gap)
    (cut : chunks.flatten = sent.stream ++ gap) :
    (∃ t, uartChunks.replay? s chunks = some t ∧ t.curtype = .pktUnknown ∧
      t.calls = s.calls ++ sent.map Prod.snd) ∧
    ∀ first : Sent, first <+: sent → first ≠ [] → ∃ t,
      uartBytes.replay? s first.stream = some t ∧ t.curtype = .pktUnknown ∧ t.recvdata = 0 ∧
        t.calls = s.calls ++ first.map Prod.snd := by
  constructor
  · obtain ⟨t, replayed, state, calls, _⟩ := receives_sent unknown packets behind
    exact ⟨t, by rw [replay_chunks running, cut, replayed], state, calls⟩
  · intro first within some
    have valid := fun pair member => packets pair (within.subset member)
    obtain ⟨t, replayed, state, calls, released⟩ :=
      receives_sent unknown valid (List.not_mem_nil (a := 0xAA))
    rw [List.append_nil] at replayed
    exact ⟨t, replayed, state, released some, calls⟩

/-- Two packets, one with the mark and the tail among its data. -/
def twoPackets : Sent := [([0x01], [0xAA, 0x02, 0x02, 0xAA, 0x55, 0x00, 0x00, 0x55]),
  ([0x33], [0xAA, 0x04, 0x00, 0x00, 0x00, 0x55])]

/-- They come in three chunks. -/
theorem packets_received_chunks :
    (∃ t, uartChunks.replay? .init [[0x01, 0xAA, 0x02], [0x02, 0xAA, 0x55, 0x00],
      [0x00, 0x55, 0x33, 0xAA, 0x04, 0x00, 0x00, 0x00, 0x55]] = some t ∧
      t.curtype = .pktUnknown ∧ t.calls = McuUart.init.calls ++ twoPackets.map Prod.snd) ∧
    ∀ first : Sent, first <+: twoPackets → first ≠ [] → ∃ t,
      uartBytes.replay? .init first.stream = some t ∧ t.curtype = .pktUnknown ∧ t.recvdata = 0 ∧
        t.calls = McuUart.init.calls ++ first.map Prod.snd := by
  have packets : ∀ pair ∈ twoPackets, 0xAA ∉ pair.1 ∧ IsPacket pair.2 := by
    rw [twoPackets, List.forall_mem_cons, List.forall_mem_singleton]
    exact ⟨⟨by decide, rfl, rfl, by decide, by decide⟩, ⟨by decide, rfl, rfl, by decide, by decide⟩⟩
  exact packets_received rfl rfl packets (List.not_mem_nil (a := 0xAA)) rfl

end ShuangFa
