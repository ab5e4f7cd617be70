import ShuangFa.Control.Refinement

/-! # The handshake

The key flag says that the controller is past the second handshake message. What an observer has
seen since the last connection is then exactly one accepted second message, which brought the key
in use, and past the fourth one an accepted fourth message behind it; both echoed the `RandMsg` in
use. A handshake message of an earlier connection cannot be among them.
-/

namespace ShuangFa

open Memory Machine

/-- The events from the last connection on. -/
def sinceConnected (seen : List HandshakeEvent) : List HandshakeEvent :=
  seen.foldl (fun session event => match event with
    | .connected => [.connected]
    | event => session ++ [event]) []

theorem sinceConnected_concat (seen : List HandshakeEvent) (event : HandshakeEvent) :
    sinceConnected (seen ++ [event]) = match event with
      | .connected => [.connected]
      | event => sinceConnected seen ++ [event] := by
  rw [sinceConnected, List.foldl_append]
  rfl

/-- The states in which the key of the cloud has been received. -/
def MainState.Keyed : MainState → Prop
  | .waitMsg4 | .connectCloud | .waitUnbind => True
  | _ => False

/-- One key decrypts, encrypts and starts both chains. -/
def Session.Uses (session : Session) (key : FixedBuffer zcHsSessionKeyLen) : Prop :=
  session.sessionKey = key ∧ session.ivSend = key ∧ session.ivRecv = key

namespace Ctl

/-- What the observer of a run has seen and what the controller has agreed on. -/
structure Agreed (seen : List HandshakeEvent) (c : Ctl) : Prop where
  key_iff : c.keyRecv = true ↔ c.main.Keyed
  connected : c.main = .waitAccess ∨ c.main = .waitAccessRsp →
    sinceConnected seen = [.connected]
  keyed : c.main = .waitMsg4 → ∃ key, c.session.Uses key ∧
    sinceConnected seen = [.connected, .handshake2 c.session.randMsg key]
  bound : c.main = .connectCloud ∨ c.main = .waitUnbind → ∃ key, c.session.Uses key ∧
    sinceConnected seen =
      [.connected, .handshake2 c.session.randMsg key, .handshake4 c.session.randMsg]

namespace Agreed

variable {seen : List HandshakeEvent} {c d : Ctl}

/-- Timers and handles play no part. -/
theorem congr (agreed : c.Agreed seen) (main : d.main = c.main) (keyRecv : d.keyRecv = c.keyRecv)
    (session : d.session = c.session) : d.Agreed seen := by
  obtain ⟨key_iff, connected, keyed, bound⟩ := agreed
  refine ⟨?_, ?_, ?_, ?_⟩
  · rwa [main, keyRecv]
  · rwa [main]
  · rwa [main, session]
  · rwa [main, session]

/-- Without a connection nothing has to be agreed on. -/
theorem apart (main : d.main ∈ [.sleep, .init, .accessNet, .disconnectCloud])
    (keyRecv : d.keyRecv = false) : d.Agreed seen := by
  simp only [List.mem_cons, List.not_mem_nil, or_false] at main
  rcases main with main | main | main | main <;>
    exact ⟨by simp [main, keyRecv, MainState.Keyed], by simp [main], by simp [main], by simp [main]⟩

theorem disconnected : c.disconnected.Agreed seen := apart (by simp [Ctl.disconnected]) rfl

theorem no_key (agreed : c.Agreed seen) {main : MainState} (now : c.main = main)
    (early : ¬ main.Keyed) : c.keyRecv = false := by
  rw [Bool.eq_false_iff]
  exact fun key => early (now ▸ agreed.key_iff.mp key)

theorem has_key (agreed : c.Agreed seen) {main : MainState} (now : c.main = main)
    (late : main.Keyed) : c.keyRecv = true := agreed.key_iff.mpr (now ▸ late)

/-- The timeout action of a slot in use. -/
theorem timeout {slot : TimerIndex} {type : TimerType} {again : Bool} (agreed : c.Agreed seen)
    (core : c.Core) (run : c.running slot = true) (carries : c.slots slot = some type)
    (timeout : (c.elapse slot).Timeout type again d) : d.Agreed seen := by
  cases timeout with
  | reconnect =>
    have pending := core.named slot run carries
    refine apart (by simp) ?_
    rcases core.waiting fun none => by simp [none] at pending with main | main
    · exact agreed.no_key main id
    · exact agreed.no_key main id
  | reaccess => exact disconnected
  | givenUp => exact agreed.congr rfl rfl rfl
  | sendMoudle | sendHeart | register | sendUbind =>
    exact agreed.congr set_main set_keyRecv set_session

/-- The heart timer starts again behind the fourth handshake message. -/
theorem heart (agreed : c.Agreed seen) :
    ((c.stopHandle .heart c.heart).set .sendHeart .heart).Agreed seen :=
  agreed.congr (set_main.trans (stopHandle_main _)) (set_keyRecv.trans (stopHandle_keyRecv _))
    (set_session.trans (stopHandle_session _))

/-- A transition that shows nothing. -/
theorem quiet {label : Label} (nothing : label.events c = []) (agreed : d.Agreed seen) :
    d.Agreed (seen ++ label.events c) := by
  rwa [nothing, List.append_nil]

/-- Every transition keeps the controller and the observer of the handshake in agreement. -/
theorem step {label : Label} (agreed : c.Agreed seen) (core : c.Core)
    (step : c.Step label d) : d.Agreed (seen ++ label.events c) := by
  cases step with
  | stay | callbackStop _ | reply _ => exact quiet rfl (agreed.congr rfl rfl rfl)
  | connect randMsg _ _ =>
    refine ⟨by simp [MainState.Keyed], fun _ => ?_, nofun, by simp⟩
    exact sinceConnected_concat seen .connected
  | access1Sent main =>
    refine quiet rfl ⟨?_, fun _ => agreed.connected (.inl main), by simp, by simp⟩
    simp [agreed.no_key main id, MainState.Keyed]
  | access1Failed _ | networkReset _ | peerClosed _ => exact quiet rfl disconnected
  | access2 main outcome =>
    cases outcome with
    | ignored => exact quiet rfl agreed
    | corrupt | refused => exact quiet rfl disconnected
    | accepted key =>
      have session := sinceConnected_concat seen (.handshake2 c.session.randMsg key)
      simp only [agreed.connected (.inr main)] at session
      refine ⟨by simp [MainState.Keyed], by simp, fun _ => ⟨key, ?_, ?_⟩, by simp⟩
      · rw [set_session]
        exact ⟨rfl, rfl, rfl⟩
      · rw [set_session]
        exact session
  | access4 main outcome =>
    cases outcome with
    | ignored => exact quiet rfl agreed.heart
    | corrupt | refused => exact quiet rfl disconnected.heart
    | accepted =>
      obtain ⟨key, uses, keyed⟩ := agreed.keyed main
      have session := sinceConnected_concat seen (.handshake4 c.session.randMsg)
      simp only [keyed] at session
      exact heart ⟨⟨fun _ => trivial, fun _ => agreed.has_key main trivial⟩, by simp, nofun,
        fun _ => ⟨key, uses, session⟩⟩
  | unbindStart main =>
    have moved : { c with main := .waitUnbind }.Agreed seen :=
      ⟨⟨fun _ => trivial, fun _ => agreed.has_key main trivial⟩, by simp, nofun,
        fun _ => agreed.bound (.inl main)⟩
    exact quiet rfl (moved.congr (set_main.trans (stopHandle_main _))
      (set_keyRecv.trans (stopHandle_keyRecv _)) (set_session.trans (stopHandle_session _)))
  | unbindMessage main outcome =>
    cases outcome with
    | other => exact quiet rfl (agreed.congr set_main set_keyRecv set_session)
    | answered =>
      have moved : { c with main := .connectCloud }.Agreed seen :=
        ⟨⟨fun _ => trivial, fun _ => agreed.has_key main trivial⟩, by simp, nofun,
          fun _ => agreed.bound (.inr main)⟩
      exact quiet rfl (moved.congr set_main (set_keyRecv.trans (stopHandle_keyRecv _))
        (set_session.trans (stopHandle_session _)))
  | command _ =>
    exact quiet rfl (agreed.congr (set_main.trans ((stopHandle_main _).trans set_main))
      (set_keyRecv.trans ((stopHandle_keyRecv _).trans set_keyRecv))
      (set_session.trans ((stopHandle_session _).trans set_session)))
  | reconnect _ _ => exact quiet rfl (apart (by simp [reconnected_eq]) rfl)
  | sleep => exact quiet rfl (apart (by simp [slept]) clear_keyRecv)
  | wakeUp main =>
    exact quiet rfl (apart (by simp [wokenUp]) (set_keyRecv.trans (agreed.no_key main id)))
  | register early =>
    refine quiet rfl (apart (by simp) ?_)
    rw [registered_keyRecv]
    rcases early with main | main <;> exact agreed.no_key main id
  | fire _ run carries timeout =>
    exact quiet rfl ((agreed.timeout core run (core.carries run carries) timeout).congr rfl rfl rfl)
  | action _ run carries timeout =>
    exact quiet rfl ((agreed.timeout core run (core.carries run carries) timeout).congr rfl rfl rfl)

end Agreed

end Ctl

/-- In every state of a run the controller and the observer of the handshake agree. -/
theorem agreed_replay? {fw : Firmware} {flash : Option ZcConfigDb} {registerInfo : ZcRegisterInfo}
    {tape : List Action} {target : Sys} (scheduled : ∀ a ∈ tape, a.Scheduled)
    (replayed : (firmware fw).replay? (hfInit flash registerInfo) tape = some target) :
    target.ctl.Core ∧ target.ctl.Agreed
      ((firmware fw).history handshakeEvents (hfInit flash registerInfo) tape) := by
  have start : (fun seen (c : Ctl) => c.Core ∧ c.Agreed seen) [] (hfInit flash registerInfo).ctl :=
    ⟨core_hfInit flash registerInfo, .apart (by simp [Sys.ctl, hfInit, PtcProtocolCon.pctInit]) rfl⟩
  exact (explained fw).history_invariant (fun _ _ _ reason => reason.2)
    (I := fun seen (c : Ctl) => c.Core ∧ c.Agreed seen)
    (fun before x k y holds moved => ⟨holds.1.step moved, holds.2.step holds.1 moved⟩) start
    (PartialMachine.EachStep.of_forall fun _ => scheduled) replayed

/-- In every state of a run the key flag is set exactly past the second handshake message; from
there on the key in use is the one of the only second message accepted since the last connection;
and past the fourth message one has been accepted behind it. Both echoed the `RandMsg` in use. -/
theorem handshake_sound (fw : Firmware) (flash : Option ZcConfigDb)
    (registerInfo : ZcRegisterInfo) (tape : List Action) (target : Sys)
    (scheduled : ∀ a ∈ tape, a.Scheduled)
    (replayed : (firmware fw).replay? (hfInit flash registerInfo) tape = some target) :
    let seen := sinceConnected
      ((firmware fw).history handshakeEvents (hfInit flash registerInfo) tape)
    (target.con.u8keyRecv = true ↔
      target.con.u8MainState ∈ [.waitMsg4, .connectCloud, .waitUnbind]) ∧
    (target.con.u8MainState = .waitMsg4 → ∃ key, target.con.u8SessionKey = key ∧
      target.con.ivSend = key ∧ target.con.ivRecv = key ∧
        seen = [.connected, .handshake2 target.con.randMsg key]) ∧
    (target.con.u8MainState = .connectCloud ∨ target.con.u8MainState = .waitUnbind →
      ∃ key, target.con.u8SessionKey = key ∧ target.con.ivSend = key ∧ target.con.ivRecv = key ∧
        seen = [.connected, .handshake2 target.con.randMsg key,
          .handshake4 target.con.randMsg]) := by
  obtain ⟨_, key_iff, _, keyed, bound⟩ := agreed_replay? scheduled replayed
  refine ⟨key_iff.trans ?_, fun main => ?_, fun main => ?_⟩
  · change target.con.u8MainState.Keyed ↔ _
    cases target.con.u8MainState <;> simp [MainState.Keyed]
  · obtain ⟨key, ⟨sessionKey, ivSend, ivRecv⟩, session⟩ := keyed main
    exact ⟨key, sessionKey, ivSend, ivRecv, session⟩
  · obtain ⟨key, ⟨sessionKey, ivSend, ivRecv⟩, session⟩ := bound main
    exact ⟨key, sessionKey, ivSend, ivRecv, session⟩

/-- A device that has just been connected holds the key of its only second message. -/
theorem handshake_sound_connecting : ∃ target,
    (firmware .plain).replay? (hfInit none .zero) connecting = some target ∧
      target.con.u8keyRecv = true ∧ ∃ key, target.con.u8SessionKey = key ∧
        sinceConnected ((firmware .plain).history handshakeEvents (hfInit none .zero) connecting) =
          [.connected, .handshake2 target.con.randMsg key, .handshake4 target.con.randMsg] := by
  have connected : ((firmware .plain).replay? (hfInit none .zero) connecting).map
      (fun s => s.con.u8MainState) = some .connectCloud := by decide +kernel
  obtain ⟨target, replayed, main⟩ := Option.map_eq_some_iff.mp connected
  obtain ⟨key_iff, _, bound⟩ := handshake_sound .plain none .zero connecting target
    (by simp [connecting, Action.Scheduled]) replayed
  obtain ⟨key, sessionKey, _, _, session⟩ := bound (.inl main)
  exact ⟨target, replayed, key_iff.mpr (by simp [main]), key, sessionKey, session⟩

end ShuangFa
