import ShuangFa.Lasting.Calls
import ShuangFa.Proofs.SecEngine
import ShuangFa.Soundness.Downgrade
import ShuangFa.Soundness.Handshake

/-! # Events of the module on the way to the cloud

An event reaches the controller by two ways. One of them asks whether the device is connected, the
other one leaves that to the encryption, which asks for the key of the session only. The key is
there from the second handshake message on, so on that way an event can be sent before the cloud
has shown with the fourth message that it has the key, too.
-/

namespace ShuangFa

open Memory Machine

section Events

variable (fw : Firmware) (env : Env) (pu8Msg : View) (u16DataLen : ℕ) (s : Sys)

/-- What is asked of the environment for the event itself, or for a message of the module on the
other way. -/
def eventCalls : Action → List AdapterCall
  | .moudleEvent env pu8Msg u16DataLen =>
    match eventReleased fw env pu8Msg s, pctHandleMoudleEvent fw env pu8Msg u16DataLen s with
    | some released, some t => t.calls.drop released.calls.length
    | _, _ => []
  | .recvDataFromMoudle env pu8Data u16DataLen =>
    match zcRecvDataFromMoudle fw env pu8Data u16DataLen s with
    | some t => t.calls.drop s.calls.length
    | none => []
  | _ => []

/-- The length check lets an event of this length through. -/
def eventFits : Prop :=
  (zcHtons (zcHtons u16DataLen) + sizeofSecHead + secPaddingCheck
    s.zcConfigDb.struSwitchInfo.u32SecSwitch zcSecAlgAes (zcHtons (zcHtons u16DataLen))) % 2 ^ 16 ≤
      msgBufferMaxLen

instance : Decidable (eventFits u16DataLen s) := inferInstanceAs (Decidable (_ ≤ _))

end Events

/-- No event comes on the direct way while the fourth handshake message is awaited. -/
def AwaitsMsg4 (s : Sys) : Action → Prop
  | .moudleEvent _ _ u16DataLen => s.con.u8MainState = .waitMsg4 → ¬ eventFits u16DataLen s
  | _ => True

instance (s : Sys) : (a : Action) → Decidable (AwaitsMsg4 s a)
  | .moudleEvent _ _ _ => inferInstanceAs (Decidable (_ → _))
  | .cloudfuncRun _ | .cloudRecvfunc _ _ | .cloudfuncRest _ | .recvDataFromCloud _ _
  | .timerCallback _ _ | .timerAction _ _ | .timerStop | .recvDataFromMoudle _ _ _
  | .disConnectCloud | .reconnectCloud _ | .sleep | .hfSleep | .hfWakeUp => isTrue trivial

section Steps

variable {fw : Firmware} {env : Env} {s t : Sys}

/-- A message goes to the cloud only when it fits and when it can be encrypted. -/
theorem sent_of_toCloud {head : ZcSecHead} {pu8PlainData : View} {ret : Ret} {call : AdapterCall}
    (sent : pctSendMsgToCloud? fw env head pu8PlainData s = some (ret, t))
    (emitted : call ∈ t.calls.drop s.calls.length) :
    (zcHtons head.u16TotalMsg + sizeofSecHead + secPaddingCheck
        s.zcConfigDb.struSwitchInfo.u32SecSwitch head.u8SecType (zcHtons head.u16TotalMsg)) %
          2 ^ 16 ≤ msgBufferMaxLen ∧
      (secEncrypt fw.crypto s.secContext env.pads head pu8PlainData).ret = .ok := by
  simp only [pctSendMsgToCloud?] at sent
  split_ifs at sent with long idle outside failed <;> cases sent
  · simp only [List.drop_length] at emitted
    cases emitted
  · simp only [List.drop_length] at emitted
    cases emitted
  · exact ⟨Nat.le_of_not_lt long, Ret.ne_error.mp failed⟩
  · simp only [List.drop_length] at emitted
    cases emitted

/-- With the switch on a message of an event is encrypted only with the key of a session. -/
theorem keyRecv_of_secEncrypt {head : ZcSecHead} {pu8PlainData : View}
    (aes : head.u8SecType = zcSecAlgAes) (secured : s.zcConfigDb.struSwitchInfo.u32SecSwitch = 1)
    (encrypted : (secEncrypt fw.crypto s.secContext env.pads head pu8PlainData).ret = .ok) :
    s.con.u8keyRecv = true := by
  have on : s.secContext.u32SecSwitch ≠ 0 := by
    change s.zcConfigDb.struSwitchInfo.u32SecSwitch ≠ 0
    rw [secured]
    decide
  rw [secEncrypt_aes ((if_neg on).trans aes), secAesEncrypt] at encrypted
  by_contra noKey
  have missing : ¬ s.secContext.u8keyRecv = true := noKey
  rw [if_neg missing] at encrypted
  cases encrypted

/-- The end of a command changes neither the configuration nor the key. -/
theorem eventReleased_same {pu8Msg : View} (released : eventReleased fw env pu8Msg s = some t) :
    t.zcConfigDb = s.zcConfigDb ∧ t.con.u8keyRecv = s.con.u8keyRecv := by
  cases eventReleased_cases released with
  | kept => exact ⟨rfl, rfl⟩
  | replied slot pointer =>
    obtain ⟨_, _, _, same⟩ := pctSendEmptyMsg_onlySends fw env (releasedMoudle s slot pointer)
      (ZcMessageHead.load pu8Msg).msgId zcSecAlgAes
    rw [same]
    cases pointer <;> exact ⟨rfl, rfl⟩

/-- An event that is sent on the direct way fits, and there is a key. -/
theorem eventCalls_moudleEvent {pu8Msg : View} {u16DataLen : ℕ} {call : AdapterCall}
    (secured : s.zcConfigDb.struSwitchInfo.u32SecSwitch = 1)
    (emitted : call ∈ eventCalls fw s (.moudleEvent env pu8Msg u16DataLen)) :
    eventFits u16DataLen s ∧ s.con.u8keyRecv = true := by
  simp only [eventCalls, pctHandleMoudleEvent_eq] at emitted
  cases release : eventReleased fw env pu8Msg s with
  | none =>
    rw [release] at emitted
    cases emitted
  | some released =>
    obtain ⟨db, key⟩ := eventReleased_same release
    rw [← db] at secured
    cases sent : pctSendMsgToCloud? fw env ⟨zcHtons u16DataLen, zcSecAlgAes, env.u8Resver⟩ pu8Msg
      released with
    | none =>
      simp only [release, Option.bind_some, sent, Option.map_none] at emitted
      cases emitted
    | some result =>
      simp only [release, Option.bind_some, sent, Option.map_some] at emitted
      obtain ⟨fits, encrypted⟩ := sent_of_toCloud sent emitted
      rw [eventFits, ← db, ← key]
      exact ⟨fits, keyRecv_of_secEncrypt rfl secured encrypted⟩

/-- A call that is no message to the cloud. -/
def AdapterCall.Local (call : AdapterCall) : Prop := ¬ call.ToCloud

theorem local_pctSendNotifyMsg (s : Sys) (u8NotifyCode : UInt8) :
    Emits AdapterCall.Local s (pctSendNotifyMsg u8NotifyCode s) := emits_pctSendNotifyMsg s id

theorem local_registerAnswer {stored : Sys → Sys} (kept : (stored s).calls = s.calls) :
    Emits AdapterCall.Local s (registerAnswer stored s) := by
  rw [registerAnswer]
  split_ifs
  · exact local_pctSendNotifyMsg s _
  · exact local_pctSendNotifyMsg s _
  · exact .of_eq ((calls_stopHandle _ _ _).trans kept)

theorem local_pctModuleOtaFileChunkMsg (pstruMsg : ZcMessageHead) (pu8Msg : View) :
    Emits AdapterCall.Local s (pctModuleOtaFileChunkMsg env pstruMsg pu8Msg s) := by
  have updated (u32RecvOffset u32FileLen : ℕ) : Emits AdapterCall.Local s
      (otaUpdate pu8Msg u32RecvOffset u32FileLen s) := .call s id
  simp only [pctModuleOtaFileChunkMsg]
  split_ifs
  · exact local_pctSendNotifyMsg s _
  · exact local_pctSendNotifyMsg s _
  · refine Emits.trans ?_ (local_pctSendNotifyMsg _ _)
    exact updated _ _
  · refine Emits.trans ?_ (local_pctSendNotifyMsg _ _)
    refine Emits.trans ?_ (.of_eq (calls_struOtaInfo ..))
    exact updated _ _

theorem local_pctModuleOtaFileEndMsg :
    Emits AdapterCall.Local s (pctModuleOtaFileEndMsg env s) := by
  have finished : Emits AdapterCall.Local s
      (s.call (.updateFinish s.con.struOtaInfo.u32TotalLen)) := .call s id
  simp only [pctModuleOtaFileEndMsg]
  split_ifs
  · exact finished.trans (local_pctSendNotifyMsg _ _)
  · exact finished.trans (local_pctSendNotifyMsg _ _)

theorem local_writeFlash (db : ZcConfigDb) :
    Emits AdapterCall.Local s { s with zcConfigDb := db }.writeFlash :=
  .call { s with zcConfigDb := db } id

theorem local_zcDealExtCode (pu8Data : View) :
    Emits AdapterCall.Local s (zcDealExtCode env pu8Data s) := by
  rw [zcDealExtCode]
  split_ifs
  · exact local_registerAnswer rfl
  · exact .call s id
  · exact .of_eq rfl

/-- A message of the module on the other way goes on to the cloud only from a connected device. -/
theorem local_zcRecvDataFromMoudle {pu8Data : View} {u16DataLen : ℕ}
    (step : zcRecvDataFromMoudle fw env pu8Data u16DataLen s = some t) :
    s.con.u8MainState = .connectCloud ∨ Emits AdapterCall.Local s t := by
  cases zcRecvDataFromMoudle_cases step with
  | dropped => exact .inr (.of_eq rfl)
  | registered => exact .inr (local_registerAnswer rfl)
  | begun => exact .inr (local_pctSendNotifyMsg s _)
  | begunOnline => exact .inr ((local_pctSendNotifyMsg s _).trans (local_pctSendNotifyMsg _ _))
  | fileBegun =>
    right
    refine Emits.trans ?_ (local_pctSendNotifyMsg _ _)
    exact .of_eq (calls_struOtaInfo ..)
  | chunk => exact .inr (local_pctModuleOtaFileChunkMsg _ _)
  | fileEnded => exact .inr (local_pctModuleOtaFileEndMsg.trans (local_pctSendNotifyMsg _ _))
  | rested =>
    right
    exact .call s id
  | configured | unbound => exact .inr (local_writeFlash _)
  | unboundRested =>
    right
    refine (local_writeFlash (s := s) (zcConfigUnBind zcMagicFlag s.zcConfigDb)).trans ?_
    exact .call _ id
  | extended => exact .inr (local_zcDealExtCode _)
  | relayed relays => exact .inl relays.1
  | refused => exact .inr (local_pctSendNotifyMsg s _)

theorem eventCalls_recvDataFromMoudle {pu8Data : View} {u16DataLen : ℕ} {call : AdapterCall}
    (emitted : call ∈ eventCalls fw s (.recvDataFromMoudle env pu8Data u16DataLen))
    (cloud : call.ToCloud) : s.con.u8MainState = .connectCloud := by
  simp only [eventCalls] at emitted
  cases step : zcRecvDataFromMoudle fw env pu8Data u16DataLen s with
  | none =>
    rw [step] at emitted
    cases emitted
  | some t =>
    rw [step] at emitted
    rcases local_zcRecvDataFromMoudle step with main | ⟨calls, same, nowhere⟩
    · exact main
    · simp only [same, List.drop_left] at emitted
      exact absurd cloud (nowhere call emitted)

end Steps

/-- In a run with the switch on in which no event comes on the direct way while the fourth handshake
message is awaited, an event is sent to the cloud only by a connected device, and so behind the
fourth message of the session. -/
theorem events_authenticated (fw : Firmware) (flash : Option ZcConfigDb)
    (registerInfo : ZcRegisterInfo) (tape : List Action) (a : Action) (s : Sys)
    (scheduled : ∀ b ∈ tape ++ [a], b.Scheduled)
    (secured : (firmware fw).EachStep (fun s _ => s.zcConfigDb.struSwitchInfo.u32SecSwitch = 1)
      (hfInit flash registerInfo) (tape ++ [a]))
    (awaits : (firmware fw).EachStep AwaitsMsg4 (hfInit flash registerInfo) (tape ++ [a]))
    (replayed : (firmware fw).replay? (hfInit flash registerInfo) tape = some s) :
    ∀ call ∈ eventCalls fw s a, call.ToCloud →
      s.con.u8MainState ∈ [.connectCloud, .waitUnbind] ∧
        .handshake4 s.con.randMsg ∈ sinceConnected
          ((firmware fw).history handshakeEvents (hfInit flash registerInfo) tape) := by
  intro call emitted cloud
  have on := ((PartialMachine.eachStep_append.mp secured).2 s replayed).1
  have late := ((PartialMachine.eachStep_append.mp awaits).2 s replayed).1
  obtain ⟨_, agreed⟩ := agreed_replay? (fun b member => scheduled b (List.mem_append_left _ member))
    replayed
  have main : s.con.u8MainState = .connectCloud ∨ s.con.u8MainState = .waitUnbind := by
    cases a with
    | moudleEvent env pu8Msg u16DataLen =>
      obtain ⟨fits, key⟩ := eventCalls_moudleEvent on emitted
      have keyed : s.con.u8MainState.Keyed := agreed.key_iff.mp key
      cases main : s.con.u8MainState with
      | waitMsg4 => exact absurd fits (late main)
      | connectCloud => exact .inl rfl
      | waitUnbind => exact .inr rfl
      | sleep | init | accessNet | waitAccess | waitAccessRsp | disconnectCloud =>
        rw [main] at keyed
        exact keyed.elim
    | recvDataFromMoudle env pu8Data u16DataLen =>
      exact .inl (eventCalls_recvDataFromMoudle emitted cloud)
    | _ => cases emitted
  obtain ⟨key, _, seen⟩ := agreed.bound main
  refine ⟨by simpa using main, ?_⟩
  rw [seen]
  exact List.mem_cons_of_mem _ (List.mem_cons_of_mem _ (List.mem_cons_self ..))

/-- An event on the direct way. -/
def directEvent : Action :=
  .moudleEvent .calm (.ofList (messageBytes Code.eventBase 1 [])) sizeofMessageHead

/-- A connected device sends an event behind the fourth message. -/
theorem events_authenticated_connected : ∃ s,
    (firmware .plain).replay? (hfInit none .zero) connectingSecured = some s ∧
      (∃ call ∈ eventCalls .plain s directEvent, call.ToCloud) ∧
        .handshake4 s.con.randMsg ∈ sinceConnected ((firmware .plain).history handshakeEvents
          (hfInit none .zero) connectingSecured) := by
  have sends : ((firmware .plain).replay? (hfInit none .zero) connectingSecured).map
      (fun s => (eventCalls .plain s directEvent).any fun call => call.ToCloud) = some true := by
    decide +kernel
  obtain ⟨s, replayed, some⟩ := Option.map_eq_some_iff.mp sends
  obtain ⟨call, emitted, cloud⟩ := List.any_eq_true.mp some
  obtain ⟨_, seen⟩ := events_authenticated .plain none .zero connectingSecured directEvent s
    (by simp [connectingSecured, directEvent, Action.Scheduled]) (by decide +kernel)
    (by decide +kernel) replayed call emitted (of_decide_eq_true cloud)
  exact ⟨s, replayed, ⟨call, emitted, of_decide_eq_true cloud⟩, seen⟩

/-- The steps of a device that has the key of a session and awaits the fourth message. -/
def awaitingMsg4 : List Action := connectingSecured.take 5

/-- With the switch on an event is sent while the fourth message is awaited. -/
theorem events_authenticated_fails : (∀ a ∈ awaitingMsg4 ++ [directEvent], a.Scheduled) ∧
    (firmware .plain).EachStep (fun s _ => s.zcConfigDb.struSwitchInfo.u32SecSwitch = 1)
      (hfInit none .zero) (awaitingMsg4 ++ [directEvent]) ∧
    ∃ s, (firmware .plain).replay? (hfInit none .zero) awaitingMsg4 = some s ∧
      s.con.u8MainState ∉ [.connectCloud, .waitUnbind] ∧
        ∃ call ∈ eventCalls .plain s directEvent, call.ToCloud := by
  have leaks : ((firmware .plain).replay? (hfInit none .zero) awaitingMsg4).map
      (fun s => (s.con.u8MainState,
        (eventCalls .plain s directEvent).any fun call => call.ToCloud)) =
          some (.waitMsg4, true) := by decide +kernel
  obtain ⟨s, replayed, shown⟩ := Option.map_eq_some_iff.mp leaks
  obtain ⟨main, some⟩ := Prod.mk.inj shown
  obtain ⟨call, emitted, cloud⟩ := List.any_eq_true.mp some
  refine ⟨by simp [awaitingMsg4, connectingSecured, directEvent, Action.Scheduled],
    by decide +kernel, s, replayed, ?_, call, emitted, of_decide_eq_true cloud⟩
  rw [main]
  decide

end ShuangFa
