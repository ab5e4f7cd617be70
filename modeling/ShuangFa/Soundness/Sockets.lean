import ShuangFa.Lasting.Effect
import ShuangFa.Machine.Ownership

/-! # The socket of the cloud connection

Between the iterations of the cloud thread the connection owns the only open socket. It is opened
where the device leaves the access state, closed where it gives the connection up or loses its link,
and everything in between leaves it alone; the main state says whether there is one.
-/

namespace ShuangFa

open Memory Machine

/-- A socket that is opened or closed. -/
def AdapterCall.claim : AdapterCall → Option (Claim ℕ)
  | .socket fd => some (.acquired fd)
  | .close fd => some (.released fd)
  | _ => none

/-- What was done with sockets. -/
def socketClaims (calls : List AdapterCall) : List (Claim ℕ) := calls.filterMap AdapterCall.claim

/-- The socket of a connection. -/
def PtcConnection.owner (connection : PtcConnection) : Option ℕ :=
  if connection.u32Socket = pctInvaildSocket then none else some connection.u32Socket

/-- The main states with a socket. -/
def MainState.Linked : MainState → Prop
  | .sleep | .init | .accessNet => False
  | _ => True

instance : DecidablePred MainState.Linked := fun main => by
  cases main <;> unfold MainState.Linked <;> infer_instance

/-- A step of the cloud thread, the receive thread, a timer, the module or the link in one piece. -/
inductive LinkStep where
  | cloudfunc (run rest : Env)
  | cloudRecvfunc (env : Env) (received : Option (List UInt8))
  | timerCallback (env : Env) (slot : TimerIndex)
  | moudleEvent (env : Env) (pu8Msg : View) (u16DataLen : ℕ)
  | recvDataFromMoudle (env : Env) (pu8Data : View) (u16DataLen : ℕ)
  | hfSleep
  | hfWakeUp

namespace LinkStep

/-- An iteration of the cloud thread is its two halves. -/
def actions : LinkStep → List Action
  | cloudfunc run rest => [.cloudfuncRun run, .cloudfuncRest rest]
  | cloudRecvfunc env received => [.cloudRecvfunc env received]
  | timerCallback env slot => [.timerCallback env slot]
  | moudleEvent env pu8Msg u16DataLen => [.moudleEvent env pu8Msg u16DataLen]
  | recvDataFromMoudle env pu8Data u16DataLen => [.recvDataFromMoudle env pu8Data u16DataLen]
  | hfSleep => [.hfSleep]
  | hfWakeUp => [.hfWakeUp]

/-- What `socket` returns to the step is an `int` that is not negative. -/
def IntSocket : LinkStep → Prop
  | cloudfunc run _ => ∀ fd, run.socket = some fd → fd < 2 ^ 31
  | _ => True

end LinkStep

/-- The firmware between the iterations of the cloud thread. -/
def link (fw : Firmware) : PartialMachine Sys LinkStep :=
  ⟨fun s step => (firmware fw).replay? s step.actions⟩

theorem step?_cloudfunc (fw : Firmware) (run rest : Env) (s : Sys) :
    (link fw).step? s (.cloudfunc run rest) =
      some (hfCloudfuncRest rest (hfCloudfuncRun fw run s)) := rfl

namespace Ctl

variable {c d : Ctl} {slot : TimerIndex} {type : TimerType}

theorem linked_timeout {again : Bool} (core : c.Core) (run : c.running slot = true)
    (carries : c.slots slot = some type) (timeout : (c.elapse slot).Timeout type again d) :
    d.main.Linked ↔ c.main.Linked := by
  cases timeout with
  | reconnect =>
    have named := core.named slot run carries
    rcases core.waiting (by rw [named]; nofun) with main | main <;> simp [main, MainState.Linked]
  | reaccess =>
    have allowed := core.phased slot _ carries
    simp only [disconnected, MainState.Linked, true_iff]
    cases main : c.main <;> simp [main, MainState.Allows] at allowed ⊢
  | givenUp => rfl
  | sendMoudle | sendHeart | register | sendUbind =>
    rw [set_main]
    rfl

theorem Step.main_of_connect {randMsg : FixedBuffer zcHsMsgLen}
    (step : c.Step (.connect randMsg) d) : c.main = .accessNet := by
  cases step with
  | connect _ main _ => exact main

/-- Connecting, starting anew and losing the link apart, no transition changes whether there is a
socket. -/
theorem linked_step {label : Label} (core : c.Core) (step : c.Step label d)
    (connect : ∀ randMsg, label ≠ .connect randMsg) (reconnect : label ≠ .reconnect)
    (sleep : label ≠ .sleep) : d.main.Linked ↔ c.main.Linked := by
  cases step with
  | stay | callbackStop _ | reply _ => rfl
  | connect randMsg _ _ => exact absurd rfl (connect randMsg)
  | access1Sent main => simp [main, MainState.Linked]
  | access1Failed main | networkReset main => simp [main, disconnected, MainState.Linked]
  | access2 main outcome =>
    cases outcome <;> simp [main, disconnected, MainState.Linked]
  | access4 main outcome =>
    rw [set_main, stopHandle_main]
    cases outcome <;> simp [main, disconnected, MainState.Linked]
  | unbindStart main => simp [main, MainState.Linked]
  | unbindMessage main outcome =>
    rw [set_main]
    cases outcome <;> simp [main, MainState.Linked]
  | command main => simp
  | reconnect _ _ => exact absurd rfl reconnect
  | peerClosed up =>
    simp only [List.mem_cons, List.not_mem_nil, or_false] at up
    rcases up with main | main | main | main <;> simp [main, disconnected, MainState.Linked]
  | sleep => exact absurd rfl sleep
  | wakeUp main => simp [main, wokenUp, MainState.Linked]
  | register early =>
    rw [registered_main]
    rcases early with main | main <;> simp [main, MainState.Linked]
  | fire _ run carries timeout | action _ run carries timeout =>
    exact (linked_timeout core run (core.carries run carries) timeout :)

end Ctl

/-- An effect that has nothing to do with sockets. -/
def Effect.Quiet : Effect → Prop
  | opened _ | refused _ _ _ | lost _ _ | slept => False
  | called call => call.claim = none
  | _ => True

theorem Effect.Cause.quiet {s : Sys} {a : Action} {e : Effect} (cause : e.Cause s a)
    (run : ∀ env, a = .cloudfuncRun env → s.con.u8MainState ≠ .accessNet)
    (rest : ∀ env, a ≠ .cloudfuncRest env) (sleep : a ≠ .hfSleep) : e.Quiet := by
  cases e with
  | opened fd =>
    obtain ⟨env, same, connected, _⟩ := cause
    exact run env same connected.1
  | refused fd db times =>
    obtain ⟨env, same, main, _⟩ := cause
    exact run env same main
  | lost fd pending =>
    obtain ⟨⟨env, same⟩, _⟩ := cause
    exact rest env same
  | slept => exact sleep cause
  | called call =>
    obtain ⟨_, member⟩ := cause
    simp only [List.mem_cons, List.not_mem_nil, or_false] at member
    rcases member with rfl | rfl <;> rfl
  | _ => trivial

namespace Store

variable {store : Store} {main : MainState}

theorem socketClaims_append (first second : List AdapterCall) :
    socketClaims (first ++ second) = socketClaims first ++ socketClaims second :=
  List.filterMap_append ..

/-- What an effect has done with sockets. -/
theorem socketClaims_after (store : Store) (e : Effect) : socketClaims (store.after e).calls =
    socketClaims store.calls ++ socketClaims (e.calls store) := by
  rw [e.after_calls, socketClaims_append]

/-- What an effect without sockets leaves alone. -/
theorem after_quiet (store : Store) {e : Effect} (quiet : e.Quiet) :
    (store.after e).cloud = store.cloud ∧ (store.after e).client = store.client ∧
      socketClaims (store.after e).calls = socketClaims store.calls := by
  rw [socketClaims_after, List.append_right_eq_self]
  cases e with
  | config db restarts => cases restarts <;> exact ⟨rfl, rfl, rfl⟩
  | called call =>
    have silent : call.claim = none := quiet
    exact ⟨rfl, rfl, by simp [Effect.calls, socketClaims, silent]⟩
  | otaChunk pu8FileData taken => cases taken <;> exact ⟨rfl, rfl, rfl⟩
  | otaEnd finished => cases finished <;> exact ⟨rfl, rfl, rfl⟩
  | opened | refused | lost | slept => exact quiet.elim
  | _ => exact ⟨rfl, rfl, rfl⟩

/-- The connection owns the only open socket, and the main state says whether there is one. -/
structure SocketOwned (store : Store) (main : MainState) : Prop where
  client : store.client.u32Socket = pctInvaildSocket
  owned : Claim.Owned (socketClaims store.calls) store.cloud.owner
  linked : store.cloud.u32Socket ≠ pctInvaildSocket ↔ main.Linked

namespace SocketOwned

theorem of_quiet {e : Effect} {next : MainState} (holds : store.SocketOwned main) (quiet : e.Quiet)
    (same : next.Linked ↔ main.Linked) : (store.after e).SocketOwned next := by
  obtain ⟨cloud, client, claims⟩ := after_quiet store quiet
  constructor
  · rw [client]
    exact holds.client
  · rw [claims, cloud]
    exact holds.owned
  · rw [cloud, same]
    exact holds.linked

/-- Without a connection the place is empty. -/
theorem empty (holds : store.SocketOwned main) (apart : ¬ main.Linked) :
    store.cloud.u32Socket = pctInvaildSocket ∧ Claim.Owned (socketClaims store.calls) none := by
  have invalid : store.cloud.u32Socket = pctInvaildSocket :=
    Decidable.not_not.mp fun valid => apart (holds.linked.mp valid)
  have owned := holds.owned
  rw [PtcConnection.owner, if_pos invalid] at owned
  exact ⟨invalid, owned⟩

theorem opened {fd : ℕ} {next : MainState} (holds : store.SocketOwned main)
    (apart : ¬ main.Linked) (valid : fd ≠ pctInvaildSocket) (linked : next.Linked) :
    (store.after (.opened fd)).SocketOwned next := by
  obtain ⟨_, owned⟩ := holds.empty apart
  constructor
  · exact holds.client
  · have owner : (store.after (.opened fd)).cloud.owner = some fd := if_neg valid
    rw [socketClaims_after, owner]
    exact owned.acquire fd
  · exact iff_of_true valid linked

theorem refused {fd times : ℕ} {db : ZcConfigDb} (holds : store.SocketOwned main)
    (apart : ¬ main.Linked) : (store.after (.refused fd db times)).SocketOwned main := by
  obtain ⟨invalid, owned⟩ := holds.empty apart
  constructor
  · exact holds.client
  · have owner : (store.after (.refused fd db times)).cloud.owner = none := if_pos invalid
    rw [socketClaims_after, owner]
    exact owned.attempt fd
  · exact iff_of_false (not_not_intro invalid) apart

/-- The socket of a connection is closed and given up. -/
theorem lost {next : MainState} (holds : store.SocketOwned main) (linked : main.Linked)
    (apart : ¬ next.Linked) :
    (store.after (.lost store.cloud.u32Socket false)).SocketOwned next := by
  have valid := holds.linked.mpr linked
  have owned := holds.owned
  rw [PtcConnection.owner, if_neg valid] at owned
  constructor
  · exact holds.client
  · have owner : (store.after (.lost store.cloud.u32Socket false)).cloud.owner = none := if_pos rfl
    rw [socketClaims_after, owner]
    exact owned.release
  · exact iff_of_false (not_not_intro rfl) apart

/-- A loss of the link closes the socket, if there is one. -/
theorem slept {next : MainState} (holds : store.SocketOwned main) (apart : ¬ next.Linked) :
    (store.after .slept).SocketOwned next := by
  have claims : socketClaims (Effect.slept.calls store) =
      socketClaims (closing store.cloud.u32Socket) := by
    have client : closing store.client.u32Socket = [] := if_neg (not_not_intro holds.client)
    rw [Effect.calls, client, List.nil_append]
    rfl
  have owned := holds.owned
  constructor
  · rfl
  · have owner : (store.after .slept).cloud.owner = none := if_pos rfl
    rw [socketClaims_after, claims, owner]
    by_cases valid : store.cloud.u32Socket = pctInvaildSocket
    · rw [PtcConnection.owner, if_pos valid] at owned
      rw [closing, if_neg (not_not_intro valid), show socketClaims [] = [] from rfl, List.append_nil]
      exact owned
    · rw [PtcConnection.owner, if_neg valid] at owned
      rw [closing, if_pos valid]
      exact owned.release
  · exact iff_of_false (not_not_intro rfl) apart

end SocketOwned

end Store

/-- What holds of the connection between the iterations of the cloud thread. -/
structure Connected (s : Sys) : Prop where
  core : s.ctl.Core
  socket : s.store.SocketOwned s.con.u8MainState

namespace Connected

variable {fw : Firmware} {s t : Sys}

/-- A step that neither connects nor starts anew nor loses the link. -/
theorem of_quiet {a : Action} (connected : Connected s) (scheduled : a.Scheduled)
    (step : (firmware fw).step? s a = some t)
    (run : ∀ env, a = .cloudfuncRun env → s.con.u8MainState ≠ .accessNet)
    (rest : ∀ env, a ≠ .cloudfuncRest env) (sleep : a ≠ .hfSleep) : Connected t := by
  obtain ⟨core, socket⟩ := connected
  obtain ⟨e, store, cause⟩ := lasting fw s a t scheduled step
  obtain ⟨label, moved, ⟨_, shown⟩, source⟩ := explained_source fw s a t scheduled step
  constructor
  · exact core.step moved
  · rw [store]
    apply socket.of_quiet (cause.quiet run rest sleep)
    apply Ctl.linked_step core moved
    · rintro randMsg rfl
      cases a with
      | cloudfuncRun env => exact run env rfl moved.main_of_connect
      | _ => cases shown
    · rintro rfl
      obtain ⟨env, same⟩ := source
      exact rest env same
    · rintro rfl
      exact sleep source

/-- `PCT_Run` leaves the socket it has read in the connection, unless it makes one. -/
theorem cloudfuncRun (fw : Firmware) {env : Env} (connected : Connected s)
    (int : ∀ fd, env.socket = some fd → fd < 2 ^ 31) :
    Connected (hfCloudfuncRun fw env s) ∧
      ((hfCloudfuncRun fw env s).con.u8MainState = .disconnectCloud →
        (hfCloudfuncRun fw env s).cloudFd = (hfCloudfuncRun fw env s).store.cloud.u32Socket) := by
  have step : (firmware fw).step? s (.cloudfuncRun env) = some (hfCloudfuncRun fw env s) := rfl
  have core : (hfCloudfuncRun fw env s).ctl.Core := by
    obtain ⟨label, moved, _⟩ := explained_pctRun fw env s
    exact connected.core.step moved
  by_cases main : s.con.u8MainState = .accessNet
  · have run : pctRun fw env s = pctConnectCloud env s := by rw [pctRun, main]
    have shown : (hfCloudfuncRun fw env s).con.u8MainState = (pctRun fw env s).ctl.main := rfl
    have kept : (hfCloudfuncRun fw env s).store = (pctRun fw env s).store := rfl
    rw [run] at shown kept
    have apart : ¬ s.con.u8MainState.Linked := by rw [main]; exact id
    rw [ctl_pctConnectCloud env s main] at shown
    rcases effect_pctConnectCloud env s main with
      ⟨made, fd, named, store⟩ | ⟨failed, same | ⟨fd, db, times, named, store⟩⟩
    · rw [if_pos made] at shown
      refine ⟨⟨core, ?_⟩, fun lost => by cases shown.symm.trans lost⟩
      rw [kept, store, shown]
      have small := int fd named
      exact connected.socket.opened apart (by rw [pctInvaildSocket]; omega) trivial
    · rw [if_neg failed] at shown
      have shown : (hfCloudfuncRun fw env s).con.u8MainState = s.con.u8MainState := shown
      refine ⟨⟨core, ?_⟩, fun lost => by cases (main.symm.trans shown.symm).trans lost⟩
      rw [kept, same, shown]
      exact connected.socket
    · rw [if_neg failed] at shown
      have shown : (hfCloudfuncRun fw env s).con.u8MainState = s.con.u8MainState := shown
      refine ⟨⟨core, ?_⟩, fun lost => by cases (main.symm.trans shown.symm).trans lost⟩
      rw [kept, store, shown]
      exact connected.socket.refused apart
  · have access (other : Env) (_ : Action.cloudfuncRun env = .cloudfuncRun other) :
        s.con.u8MainState ≠ .accessNet := main
    have scheduled : (Action.cloudfuncRun env).Scheduled := trivial
    have rest (other : Env) : Action.cloudfuncRun env ≠ .cloudfuncRest other := by rintro ⟨⟩
    have sleep : Action.cloudfuncRun env ≠ .hfSleep := by rintro ⟨⟩
    refine ⟨connected.of_quiet scheduled step access rest sleep, fun _ => ?_⟩
    obtain ⟨e, store, cause⟩ := lasting fw s _ _ scheduled step
    rw [store, (Store.after_quiet _ (cause.quiet access rest sleep)).1]
    rfl

/-- The rest of the iteration closes the socket of a connection that is lost. -/
theorem cloudfuncRest {env : Env} (connected : Connected s)
    (fd : s.con.u8MainState = .disconnectCloud → s.cloudFd = s.store.cloud.u32Socket) :
    Connected (hfCloudfuncRest env s) := by
  have core : (hfCloudfuncRest env s).ctl.Core := by
    rcases step_hfCloudfuncRest env s with moved | moved <;> exact connected.core.step moved
  refine ⟨core, ?_⟩
  rw [store_hfCloudfuncRest]
  by_cases main : s.con.u8MainState = .disconnectCloud
  · have none : s.con.u8ReconnectTimer = none :=
      connected.core.no_reconnect (fun init => nomatch main.symm.trans init)
        (fun access => nomatch main.symm.trans access)
    have started : (hfCloudfuncRest env s).con.u8MainState = .init :=
      congrArg Ctl.main ((ctl_hfCloudfuncRest env s).trans (if_pos ⟨main, none⟩))
    rw [if_pos main, if_pos none, started, fd main]
    exact connected.socket.lost (by rw [main]; trivial) id
  · have same : (hfCloudfuncRest env s).con.u8MainState = s.con.u8MainState :=
      congrArg Ctl.main ((ctl_hfCloudfuncRest env s).trans (if_neg fun both => main both.1))
    rw [if_neg main, same]
    exact connected.socket

theorem hfSleep (connected : Connected s) : Connected (ShuangFa.hfSleep s) := by
  refine ⟨?_, ?_⟩
  · rw [ctl_hfSleep]
    exact connected.core.slept
  · have main : (ShuangFa.hfSleep s).con.u8MainState = .init := congrArg Ctl.main (ctl_hfSleep s)
    rw [store_hfSleep, main]
    exact connected.socket.slept id

end Connected

/-- Every step in one piece keeps what holds of the connection. -/
theorem Connected.step {fw : Firmware} {s t : Sys} {step : LinkStep} (connected : Connected s)
    (int : step.IntSocket) (taken : (link fw).step? s step = some t) : Connected t := by
  have single (a : Action) (replayed : (firmware fw).replay? s [a] = some t) :
      (firmware fw).step? s a = some t := by
    obtain ⟨next, step, last⟩ := Option.bind_eq_some_iff.mp replayed
    cases last
    exact step
  have other (a : Action) (scheduled : a.Scheduled) (run : ∀ env, a ≠ .cloudfuncRun env)
      (rest : ∀ env, a ≠ .cloudfuncRest env) (sleep : a ≠ .hfSleep)
      (replayed : (firmware fw).replay? s [a] = some t) : Connected t :=
    connected.of_quiet scheduled (single a replayed) (fun env same => absurd same (run env)) rest
      sleep
  cases step with
  | cloudfunc run rest =>
    obtain rfl := Option.some.inj ((step?_cloudfunc fw run rest s).symm.trans taken)
    obtain ⟨ran, fd⟩ := connected.cloudfuncRun fw int
    exact ran.cloudfuncRest fd
  | cloudRecvfunc env received =>
    exact other (.cloudRecvfunc env received) trivial nofun nofun nofun taken
  | timerCallback env slot => exact other (.timerCallback env slot) trivial nofun nofun nofun taken
  | moudleEvent env pu8Msg u16DataLen =>
    exact other (.moudleEvent env pu8Msg u16DataLen) trivial nofun nofun nofun taken
  | recvDataFromMoudle env pu8Data u16DataLen =>
    exact other (.recvDataFromMoudle env pu8Data u16DataLen) trivial nofun nofun nofun taken
  | hfSleep =>
    obtain rfl := Option.some.inj (single .hfSleep taken)
    exact connected.hfSleep
  | hfWakeUp => exact other .hfWakeUp trivial nofun nofun nofun taken

/-- The record of the calls that are no messages has all of the sockets. -/
theorem socketClaims_store (s : Sys) : socketClaims s.store.calls = socketClaims s.calls := by
  simp only [Sys.store, socketClaims, List.filterMap_filter]
  apply List.filterMap_congr
  intro call _
  cases call <;> rfl

theorem linked_iff {main : MainState} : main.Linked ↔ main ∈ [.waitAccess, .waitAccessRsp, .waitMsg4,
    .connectCloud, .waitUnbind, .disconnectCloud] := by
  cases main <;> simp [MainState.Linked]

/-- In every state between the iterations of the cloud thread, every socket that was opened for the
connection was closed exactly once before the next one was opened, but for the one the connection
holds; and it holds one exactly in the states from the first access to the disconnection. -/
theorem socketOwned (fw : Firmware) (flash : Option ZcConfigDb) (registerInfo : ZcRegisterInfo)
    (tape : List LinkStep) (int : ∀ step ∈ tape, step.IntSocket) (target : Sys)
    (replayed : (link fw).replay? (hfInit flash registerInfo) tape = some target) :
    Claim.Owned (socketClaims target.calls) target.con.struCloudConnection.owner ∧
      (target.con.struCloudConnection.u32Socket ≠ pctInvaildSocket ↔
        target.con.u8MainState ∈ [.waitAccess, .waitAccessRsp, .waitMsg4, .connectCloud, .waitUnbind,
          .disconnectCloud]) := by
  have start : Connected (hfInit flash registerInfo) :=
    ⟨core_hfInit flash registerInfo, rfl, Claim.owned_nil, iff_of_false (not_not_intro rfl) id⟩
  have connected : Connected target :=
    PartialMachine.invariant_replay? (I := Connected)
      (fun _ _ _ connected int taken => connected.step int taken) start
      (PartialMachine.EachStep.of_forall fun _ => int) replayed
  rw [← linked_iff, ← socketClaims_store]
  exact ⟨connected.socket.owned, connected.socket.linked⟩

/-- A device that connects, is disconnected by the cloud, and connects again. -/
def connectingTwice : List LinkStep :=
  [.hfWakeUp, .cloudfunc .calm .calm, .cloudfunc .calm .calm, .cloudRecvfunc .calm none,
    .cloudfunc .calm .calm, .timerCallback .calm 0, .timerCallback .calm 0, .cloudfunc .calm .calm]

theorem socketOwned_connectingTwice : ∃ target,
    (link .plain).replay? (hfInit none .zero) connectingTwice = some target ∧
      target.con.u8MainState = .waitAccess ∧ Claim.Owned (socketClaims target.calls) (some 1) := by
  have reconnected : ((link .plain).replay? (hfInit none .zero) connectingTwice).map
      (fun s => (s.con.u8MainState, s.con.struCloudConnection.owner)) = some (.waitAccess, some 1) := by
    decide +kernel
  obtain ⟨target, replayed, shown⟩ := Option.map_eq_some_iff.mp reconnected
  obtain ⟨main, owner⟩ := Prod.mk.inj shown
  obtain ⟨owned, _⟩ := socketOwned .plain none .zero connectingTwice (by
    simp [connectingTwice, LinkStep.IntSocket, Env.calm]) target replayed
  exact ⟨target, replayed, main, owner ▸ owned⟩

end ShuangFa
