import ShuangFa.Model.Adapter
import ShuangFa.Model.ClientManager
import ShuangFa.Proofs.MessageQueue

/-! # Clients and their frames

As long as the part of a frame in `g_struClientBuffer` is that of the client that is busy, nobody
else can add to it. That fails when the descriptor of the client has more than the one byte that is
kept of it, when data comes from a client that is not connected, and when the client goes and leaves
its part behind.
-/

namespace ShuangFa

open Memory Framing Machine

/-- The client has an entry. -/
def ZcClientInfo.Connected (info : ZcClientInfo) (u32ClientId : ℕ) : Prop :=
  ∃ u32Index, info.u32ClientVaildFlag u32Index = .invaild ∧ info.u32ClientFd u32Index = u32ClientId

/-- Bytes there are of a frame that is not complete. -/
def LeavesPart (bytes : List UInt8) : Prop :=
  bytes ≠ [] ∧ (frameFormat.progress bytes = .head ∨ frameFormat.progress bytes = .body)

namespace ClientSys

/-- All bytes of a part of a frame came from one client, which is connected; its data is accepted,
and that of any other client is refused. -/
structure Separate (s : ClientSys) : Prop where
  bytes : s.held.map Prod.snd = s.sys.clientBuffer.collected
  owner : s.held ≠ [] → ∃ client, s.info.Connected client ∧ (∀ byte ∈ s.held, byte.1 = client) ∧
    zcCheckClientIdle client s.info = .ok ∧
      ∀ other, other ≠ client → zcCheckClientIdle other s.info = .error

/-- The part is that of the client that is busy. -/
structure Owned (s : ClientSys) : Prop where
  sound : s.sys.clientBuffer.Sound
  awaited : s.sys.clientBuffer.u8Status ≠ .full
  bytes : s.held.map Prod.snd = s.sys.clientBuffer.collected
  busy : s.held ≠ [] → s.info.u8ClientStates = .busy
  connected : s.held ≠ [] → s.info.Connected s.info.u32ClientBusyId.toNat
  sender : ∀ byte ∈ s.held, byte.1 = s.info.u32ClientBusyId.toNat

/-- The busy client stays while a part of its frame is there, and a part is left only by a client that
is connected and whose descriptor has one byte. -/
def Keeps (s : ClientSys) : ClientEvent → Prop
  | .connect _ => True
  | .disconnect u32ClientId =>
    s.sys.clientBuffer.collected ≠ [] → u32ClientId ≠ s.info.u32ClientBusyId.toNat
  | .recvData _ clientId pu8Data => zcCheckClientIdle clientId s.info = .ok →
    LeavesPart (s.sys.clientBuffer.collected ++ pu8Data) → s.info.Connected clientId ∧ clientId < 2 ^ 8

end ClientSys

section Table

variable {info : ZcClientInfo} {u32ClientId other : ℕ}

theorem zcCheckClientIdle_busy (busy : info.u8ClientStates = .busy) :
    zcCheckClientIdle other info = .ok ↔ other = info.u32ClientBusyId.toNat := by
  rw [zcCheckClientIdle, busy, if_neg (by decide)]
  split
  · exact iff_of_true rfl ‹_›
  · exact iff_of_false nofun ‹_›

/-- A client that connects takes a free entry. -/
theorem ZcClientInfo.Connected.connect (connected : info.Connected other) (u32ClientId : ℕ) :
    (zcClientConnect u32ClientId info).2.Connected other := by
  obtain ⟨place, taken, named⟩ := connected
  rw [zcClientConnect]
  cases free : (List.finRange zcMaxClientNum).find? fun u32Index =>
      decide (info.u32ClientVaildFlag u32Index = .vaild) with
  | none => exact ⟨place, taken, named⟩
  | some u32Index =>
    have found := List.find?_some free
    have vaild : info.u32ClientVaildFlag u32Index = .vaild := of_decide_eq_true found
    have apart : place ≠ u32Index := by
      rintro rfl
      rw [taken] at vaild
      cases vaild
    refine ⟨place, ?_, ?_⟩
    · exact (Function.update_of_ne apart ..).trans taken
    · exact (Function.update_of_ne apart ..).trans named

theorem zcClientConnect_states : (zcClientConnect u32ClientId info).2.u8ClientStates =
    info.u8ClientStates := by
  rw [zcClientConnect]
  split <;> rfl

theorem zcClientConnect_busyId : (zcClientConnect u32ClientId info).2.u32ClientBusyId =
    info.u32ClientBusyId := by
  rw [zcClientConnect]
  split <;> rfl

/-- What a client that goes leaves of the table and of the owner. -/
structure Leaves (u32ClientId : ℕ) (info after : ZcClientInfo) : Prop where
  fd : after.u32ClientFd = info.u32ClientFd
  busyId : after.u32ClientBusyId = info.u32ClientBusyId
  flags : ∀ place, info.u32ClientFd place ≠ u32ClientId →
    after.u32ClientVaildFlag place = info.u32ClientVaildFlag place
  states : u32ClientId ≠ info.u32ClientBusyId.toNat → after.u8ClientStates = info.u8ClientStates

theorem leaves_entry (u32ClientId : ℕ) (info : ZcClientInfo) (u32Index : Fin zcMaxClientNum) :
    Leaves u32ClientId info (disconnectEntry u32ClientId info u32Index) := by
  rw [disconnectEntry]
  split
  · rename_i named
    have flags : ∀ place, info.u32ClientFd place ≠ u32ClientId →
        Function.update info.u32ClientVaildFlag u32Index .vaild place =
          info.u32ClientVaildFlag place := by
      intro place differs
      refine Function.update_of_ne ?_ ..
      rintro rfl
      exact differs named.symm
    dsimp only
    split
    · rename_i owner
      exact ⟨rfl, rfl, flags, fun differs => absurd owner.2 differs⟩
    · exact ⟨rfl, rfl, flags, fun _ => rfl⟩
  · exact ⟨rfl, rfl, fun _ _ => rfl, fun _ => rfl⟩

theorem leaves_fold (entries : List (Fin zcMaxClientNum)) :
    Leaves u32ClientId info (entries.foldl (disconnectEntry u32ClientId) info) := by
  induction entries generalizing info with
  | nil => exact ⟨rfl, rfl, fun _ _ => rfl, fun _ => rfl⟩
  | cons u32Index rest ih =>
    have first := leaves_entry u32ClientId info u32Index
    have later : Leaves u32ClientId (disconnectEntry u32ClientId info u32Index) _ := ih
    refine ⟨later.fd.trans first.fd, later.busyId.trans first.busyId, ?_, ?_⟩
    · intro place differs
      exact (later.flags place (first.fd ▸ differs)).trans (first.flags place differs)
    · intro differs
      exact (later.states (first.busyId ▸ differs)).trans (first.states differs)

theorem leaves_disconnect (u32ClientId : ℕ) (info : ZcClientInfo) :
    Leaves u32ClientId info (zcClientDisconnect u32ClientId info) := leaves_fold _

/-- Who goes does not take the entry of another client. -/
theorem ZcClientInfo.Connected.disconnect (connected : info.Connected other)
    (differs : u32ClientId ≠ other) : (zcClientDisconnect u32ClientId info).Connected other := by
  obtain ⟨place, taken, named⟩ := connected
  have leaves := leaves_disconnect u32ClientId info
  refine ⟨place, ?_, leaves.fd ▸ named⟩
  rw [leaves.flags place (named.trans_ne differs.symm), taken]

theorem disconnectEntry_idle (idle : info.u8ClientStates = .idle) (u32Index : Fin zcMaxClientNum) :
    (disconnectEntry u32ClientId info u32Index).u8ClientStates = .idle := by
  rw [disconnectEntry]
  split
  · split
    · rfl
    · exact idle
  · exact idle

/-- When the busy client goes, nobody is busy. -/
theorem disconnect_fold_frees (entries : List (Fin zcMaxClientNum))
    (busy : info.u8ClientStates = .busy) (owner : u32ClientId = info.u32ClientBusyId.toNat)
    (listed : ∃ place ∈ entries, info.u32ClientFd place = u32ClientId) :
    (entries.foldl (disconnectEntry u32ClientId) info).u8ClientStates = .idle := by
  induction entries with
  | nil =>
    obtain ⟨_, member, _⟩ := listed
    cases member
  | cons u32Index rest ih =>
    rw [List.foldl_cons]
    by_cases named : u32ClientId = info.u32ClientFd u32Index
    · have freed : (disconnectEntry u32ClientId info u32Index).u8ClientStates = .idle := by
        rw [disconnectEntry, if_pos named]
        exact congrArg ZcClientInfo.u8ClientStates (if_pos ⟨busy, owner⟩)
      generalize disconnectEntry u32ClientId info u32Index = after at freed
      clear ih listed
      induction rest generalizing after with
      | nil => exact freed
      | cons next rest ih => exact ih _ (disconnectEntry_idle freed next)
    · have same : disconnectEntry u32ClientId info u32Index = info := if_neg named
      rw [same]
      apply ih
      obtain ⟨place, member, this⟩ := listed
      rcases List.mem_cons.mp member with rfl | later
      · exact absurd this.symm named
      · exact ⟨place, later, this⟩

theorem zcClientDisconnect_frees (busy : info.u8ClientStates = .busy)
    (connected : info.Connected info.u32ClientBusyId.toNat) :
    (zcClientDisconnect info.u32ClientBusyId.toNat info).u8ClientStates = .idle := by
  obtain ⟨place, _, named⟩ := connected
  exact disconnect_fold_frees _ busy rfl ⟨place, List.mem_finRange place, named⟩

end Table

section Frames

variable {fw : Firmware} {env : Env} {clientId : ℕ} {pu8Data : List UInt8} {s t : ClientSys}

namespace ClientSys

/-- What the busy client has sent is apart from everything else. -/
theorem Owned.separate (owned : s.Owned) : s.Separate where
  bytes := owned.bytes
  owner some := by
    refine ⟨_, owned.connected some, owned.sender, (zcCheckClientIdle_busy (owned.busy some)).mpr rfl,
      fun other differs => ?_⟩
    cases check : zcCheckClientIdle other s.info with
    | error => rfl
    | ok => exact absurd ((zcCheckClientIdle_busy (owned.busy some)).mp check) differs

/-- No client has sent what is not there. -/
theorem owned_of_nil (sound : s.sys.clientBuffer.Sound) (awaited : s.sys.clientBuffer.u8Status ≠ .full)
    (nothing : s.sys.clientBuffer.collected = []) (none : s.held = []) : s.Owned where
  sound := sound
  awaited := awaited
  bytes := by rw [none, nothing, List.map_nil]
  busy some := absurd none some
  connected some := absurd none some
  sender := by simp [none]

theorem Owned.connect (owned : s.Owned) (u32ClientId : ℕ) :
    Owned { s with info := (zcClientConnect u32ClientId s.info).2 } where
  sound := owned.sound
  awaited := owned.awaited
  bytes := owned.bytes
  busy some := zcClientConnect_states.trans (owned.busy some)
  connected some := by
    rw [zcClientConnect_busyId]
    exact (owned.connected some).connect u32ClientId
  sender := by
    rw [zcClientConnect_busyId]
    exact owned.sender

theorem Owned.held_iff (owned : s.Owned) : s.held = [] ↔ s.sys.clientBuffer.collected = [] := by
  rw [← owned.bytes, List.map_eq_nil_iff]

theorem Owned.disconnect (owned : s.Owned) {u32ClientId : ℕ}
    (keeps : s.Keeps (.disconnect u32ClientId)) :
    Owned { s with info := zcClientDisconnect u32ClientId s.info } := by
  have leaves := leaves_disconnect u32ClientId s.info
  have stays (some : s.held ≠ []) := keeps (mt owned.held_iff.mpr some)
  refine ⟨owned.sound, owned.awaited, owned.bytes, fun some => ?_, fun some => ?_, ?_⟩
  · exact (leaves.states (stays some)).trans (owned.busy some)
  · rw [leaves.busyId]
    exact (owned.connected some).disconnect (stays some)
  · rw [leaves.busyId]
    exact owned.sender

/-- An accepted chunk goes behind what the same client has sent. -/
theorem Owned.sent (owned : s.Owned) (accepted : zcCheckClientIdle clientId s.info = .ok) :
    ∀ byte ∈ s.held, byte.1 = clientId := by
  intro byte member
  have some : s.held ≠ [] := List.ne_nil_of_mem member
  exact (owned.sender byte member).trans
    ((zcCheckClientIdle_busy (owned.busy some)).mp accepted).symm

/-- A part that is left is that of a client whose descriptor is kept whole. -/
theorem Owned.leave (owned : s.Owned) {clientBuffer : MsgBuffer}
    (accepted : zcCheckClientIdle clientId s.info = .ok)
    (keeps : s.Keeps (.recvData env clientId pu8Data)) (sound : clientBuffer.Sound)
    (awaited : clientBuffer.u8Status ≠ .full)
    (collected : clientBuffer.collected = s.sys.clientBuffer.collected ++ pu8Data)
    (part : frameFormat.progress (s.sys.clientBuffer.collected ++ pu8Data) = .head ∨
      frameFormat.progress (s.sys.clientBuffer.collected ++ pu8Data) = .body) :
    Owned ⟨zcSetClientBusy clientId s.info, { s.sys with clientBuffer := clientBuffer },
      s.held ++ pu8Data.map (clientId, ·)⟩ := by
  have bytes : (s.held ++ pu8Data.map (clientId, ·)).map Prod.snd = clientBuffer.collected := by
    rw [List.map_append, owned.bytes, List.map_map, collected]
    exact congrArg _ (List.map_id _)
  have whole (some : s.held ++ pu8Data.map (clientId, ·) ≠ []) :
      s.info.Connected clientId ∧ clientId < 2 ^ 8 := by
    refine keeps accepted ⟨?_, part⟩
    rw [← collected, ← bytes]
    exact mt List.map_eq_nil_iff.mp some
  have kept (some : s.held ++ pu8Data.map (clientId, ·) ≠ []) :
      (UInt8.ofNat clientId).toNat = clientId := UInt8.toNat_ofNat_of_lt' (whole some).2
  refine ⟨sound, awaited, bytes, fun _ => rfl, fun some => ?_, ?_⟩
  · obtain ⟨place, taken, named⟩ := (whole some).1
    exact ⟨place, taken, named.trans (kept some).symm⟩
  · intro byte member
    have sender : byte.1 = clientId := by
      rcases List.mem_append.mp member with before | added
      · exact owned.sent accepted byte before
      · obtain ⟨_, _, rfl⟩ := List.mem_map.mp added
        rfl
    exact sender.trans (kept (List.ne_nil_of_mem member)).symm

/-- Data leaves what it leaves to its sender. -/
theorem Owned.recvData (owned : s.Owned) (keeps : s.Keeps (.recvData env clientId pu8Data))
    (received : zcRecvDataFromClient fw env clientId pu8Data s = some t) : t.Owned := by
  rw [zcRecvDataFromClient] at received
  split at received
  · cases received
    exact ⟨owned.sound, owned.awaited, owned.bytes, owned.busy, owned.connected, owned.sender⟩
  · have accepted : zcCheckClientIdle clientId s.info = .ok := Ret.ne_error.mp ‹_›
    obtain ⟨⟨ret, clientBuffer⟩, collected, received⟩ := Option.bind_eq_some_iff.mp received
    have outcome := msgRecvData_outcome owned.sound owned.awaited collected
    dsimp only at received
    split at received
    · obtain ⟨handled, _, rfl⟩ := Option.map_eq_some_iff.mp received
      exact owned_of_nil (.of_idle rfl) nofun rfl rfl
    · rename_i unfinished
      cases received
      have sound := outcome.sound
      cases outcome with
      | head progress status len same =>
        obtain ⟨awaited, collected⟩ := RecvOutcome.collected_of_part (.head progress status len same)
          (.inl progress)
        rw [if_pos (show clientBuffer.Segment from .inl status)]
        exact owned.leave accepted keeps sound awaited collected (.inl progress)
      | body progress status len same =>
        obtain ⟨awaited, collected⟩ := RecvOutcome.collected_of_part (.body progress status len same)
          (.inr progress)
        rw [if_pos (show clientBuffer.Segment from .inr status)]
        exact owned.leave accepted keeps sound awaited collected (.inr progress)
      | complete _ status _ _ => exact absurd ⟨status, rfl⟩ unfinished
      | oversize _ status _ =>
        refine owned_of_nil sound (by simp [status]) (by simp only [MsgBuffer.collected, status]) ?_
        exact if_neg (by simp [MsgBuffer.Segment, status])

/-- A chunk that is accepted and does not complete the frame is taken. -/
theorem Owned.takes (fw : Firmware) (env : Env) (owned : s.Owned) (accepted : zcCheckClientIdle clientId s.info = .ok)
    (part : frameFormat.progress (s.sys.clientBuffer.collected ++ pu8Data) = .head ∨
      frameFormat.progress (s.sys.clientBuffer.collected ++ pu8Data) = .body) :
    ∃ clientBuffer, zcRecvDataFromClient fw env clientId pu8Data s =
      some ⟨zcSetClientBusy clientId s.info, { s.sys with clientBuffer := clientBuffer },
        s.held ++ pu8Data.map (clientId, ·)⟩ := by
  have short : (s.sys.clientBuffer.collected ++ pu8Data).length ≤ msgBufferMaxLen := by
    rcases part with head | body
    · exact Nat.le_trans (Nat.le_of_lt (Format.progress_eq_head_iff.mp head)) (by decide)
    · obtain ⟨_, fits, before⟩ := Format.progress_eq_body_iff.mp body
      exact Nat.le_trans (Nat.le_of_lt before) fits
  have small : pu8Data.length + s.sys.clientBuffer.u32Len < 2 ^ 32 := by
    have room := s.sys.clientBuffer.len_le
    have bound : msgBufferMaxLen = 424 := rfl
    rw [List.length_append] at short
    omega
  obtain ⟨⟨ret, clientBuffer⟩, collected⟩ :=
    Option.isSome_iff_exists.mp (msgRecvData_isSome owned.sound small)
  have outcome := msgRecvData_outcome owned.sound owned.awaited collected
  have segment : clientBuffer.Segment := by
    cases outcome with
    | head _ status => exact .inl status
    | body _ status => exact .inr status
    | complete progress | oversize progress => simp [progress] at part
  have awaited := (outcome.collected_of_part part).1
  refine ⟨clientBuffer, ?_⟩
  rw [zcRecvDataFromClient, if_neg (Ret.ne_error.mpr accepted), collected, Option.bind_some]
  dsimp only
  rw [if_neg (fun finished => awaited finished.1), if_pos segment]

/-- Whatever a client does that breaks the condition breaks the separation. -/
theorem Owned.breaks (fw : Firmware) (owned : s.Owned) (event : ClientEvent)
    (fails : ¬ s.Keeps event) :
    ∃ t, (clients fw).step? s event = some t ∧ ¬ t.Separate := by
  cases event with
  | connect => exact absurd trivial fails
  | disconnect u32ClientId =>
    obtain ⟨pending, gone⟩ := Classical.not_imp.mp fails
    obtain rfl := not_not.mp gone
    have some := mt owned.held_iff.mp pending
    refine ⟨_, rfl, fun separate => ?_⟩
    obtain ⟨client, _, _, _, refused⟩ := separate.owner some
    have idle := zcClientDisconnect_frees (owned.busy some) (owned.connected some)
    have other := refused (client + 1) (Nat.succ_ne_self client)
    rw [zcCheckClientIdle, if_pos idle] at other
    cases other
  | recvData env clientId pu8Data =>
    obtain ⟨accepted, fails⟩ := Classical.not_imp.mp fails
    obtain ⟨⟨nonempty, part⟩, fails⟩ := Classical.not_imp.mp fails
    obtain ⟨clientBuffer, taken⟩ := owned.takes fw env accepted part
    refine ⟨_, taken, fun separate => fails ?_⟩
    have some : s.held ++ pu8Data.map (clientId, ·) ≠ [] := by
      rw [← owned.bytes] at nonempty
      simpa using nonempty
    obtain ⟨client, connected, sender, check, _⟩ := separate.owner some
    -- the last byte came from the client itself, be it now or before
    have same : clientId = client := by
      obtain ⟨byte, member⟩ := List.exists_mem_of_ne_nil _ some
      refine Eq.trans ?_ (sender byte member)
      rcases List.mem_append.mp member with before | added
      · exact (owned.sent accepted byte before).symm
      · obtain ⟨_, _, rfl⟩ := List.mem_map.mp added
        rfl
    subst same
    obtain ⟨place, taken, named⟩ := connected
    refine ⟨⟨place, taken, named⟩, ?_⟩
    have kept : clientId = (UInt8.ofNat clientId).toNat := (zcCheckClientIdle_busy rfl).mp check
    rw [kept]
    exact UInt8.toNat_lt _

end ClientSys

end Frames

open ClientSys in
/-- In every sequence of calls the parts of frames stay apart if and only if each call keeps the
client that is busy. -/
theorem clients_separate_iff (fw : Firmware) {start : ClientSys} {tape : List ClientEvent}
    (idle : start.sys.clientBuffer.u8Status = .idle) (nothing : start.held = []) :
    (clients fw).Throughout Separate start tape ↔ (clients fw).EachStep Keeps start tape := by
  refine PartialMachine.throughout_iff_eachStep_of_defined (I := Owned) (A := fun _ => True)
    (fun _ => Owned.separate) ?_ (fun _ event owned _ => owned.breaks fw event) ?_ fun _ _ => trivial
  · intro s event t owned _ keeps step
    cases event with
    | connect u32ClientId =>
      cases step
      exact owned.connect u32ClientId
    | disconnect u32ClientId =>
      cases step
      exact owned.disconnect keeps
    | recvData env clientId pu8Data => exact owned.recvData keeps step
  · have empty : start.sys.clientBuffer.collected = [] := by simp only [MsgBuffer.collected, idle]
    exact owned_of_nil (.of_idle idle) (by simp [idle]) empty nothing

/-- The table when the device has begun to listen, and nothing was received. -/
def ClientSys.listening : ClientSys where
  info := ⟨.idle, 0, fun _ => .vaild, fun _ => 0⟩
  sys := hfInit none .zero
  held := []

theorem ClientSys.owned_listening : ClientSys.listening.Owned :=
  owned_of_nil (.of_idle rfl) nofun rfl rfl

/-- A client connects and sends the first byte of a frame. -/
theorem clients_separate_byte : (clients .plain).Throughout ClientSys.Separate .listening
    [.connect 5, .recvData .calm 5 [0]] := by
  refine (clients_separate_iff .plain rfl rfl).mpr ⟨trivial, fun connected step => ⟨?_, ?_⟩⟩
  · cases step
    exact fun _ _ => ⟨⟨⟨0, by decide⟩, rfl, rfl⟩, by decide⟩
  · exact fun _ _ => trivial

/-- The descriptor of a client that does the same has more than one byte. -/
theorem clients_separate_fails : ¬ ∀ (fw : Firmware) (start : ClientSys) (tape : List ClientEvent),
    start.info.u8ClientStates = .idle → start.sys.clientBuffer.u8Status = .idle → start.held = [] →
      (clients fw).Throughout ClientSys.Separate start tape := by
  intro all
  obtain ⟨_, separate⟩ := all .plain .listening [.connect 300, .recvData .calm 300 [0]] rfl rfl rfl
  obtain ⟨_, separate⟩ := separate _ rfl
  have owned := ClientSys.owned_listening.connect 300
  obtain ⟨t, step, mixed⟩ := owned.breaks .plain (.recvData .calm 300 [0])
    fun keeps => absurd (keeps rfl ⟨by decide, .inl (by decide)⟩).2 (by decide)
  exact mixed (separate t step)

end ShuangFa
