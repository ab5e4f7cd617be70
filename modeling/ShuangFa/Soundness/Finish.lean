import ShuangFa.Lasting.Calls
import ShuangFa.Lasting.Effect

/-! # The end of an update

`pfunUpdateFinish` is called where the cloud or the module says that the image has ended, whatever
has been received of it: that the image is complete is left to the firmware library. On the way of
the cloud nothing says that the update has ended, and nothing restarts the device, before that call
has succeeded.
-/

namespace ShuangFa

open Memory Machine

/-- The notification that an update has ended. -/
def otaEndNotice : List UInt8 := eventBuildMsg Code.zotaEnd 0 []

/-- A call that neither restarts the device nor says that an update has ended. -/
def AdapterCall.Ordinary : AdapterCall → Prop
  | .reboot => False
  | .sendToMoudle pu8Data => pu8Data ≠ otaEndNotice
  | _ => True

theorem AdapterCall.ToCloud.ordinary {call : AdapterCall} (cloud : call.ToCloud) :
    call.Ordinary := by
  cases call <;> trivial

section Senders

variable (s : Sys)

/-- Any notification but that of the end is ordinary. -/
theorem ordinary_pctSendNotifyMsg {u8NotifyCode : UInt8} (other : u8NotifyCode ≠ Code.zotaEnd) :
    Emits AdapterCall.Ordinary s (pctSendNotifyMsg u8NotifyCode s) := by
  apply emits_pctSendNotifyMsg
  intro same
  exact other (Option.some.inj (congrArg (fun bytes : List UInt8 => bytes[2]?) same))

theorem emits_pctDisConnectCloud : Emits AdapterCall.Ordinary s (pctDisConnectCloud s) :=
  ordinary_pctSendNotifyMsg _ (by decide)

end Senders

section Controller

variable (fw : Firmware) (env : Env) (s : Sys)

theorem emits_hfConnectToCloud : Emits AdapterCall.Ordinary s (hfConnectToCloud env s).2 := by
  rw [hfConnectToCloud]
  by_cases unresolved : s.zcConfigDb.struSwitchInfo.u32ServerAddrConfig ≠ 1 ∧ env.dns = false
  · rw [if_pos unresolved]
    exact .of_eq rfl
  rw [if_neg unresolved]
  cases env.socket with
  | none => exact .of_eq rfl
  | some fd =>
    have opened : Emits AdapterCall.Ordinary s (s.call (.socket fd)) := .call _ trivial
    have closed : Emits AdapterCall.Ordinary (s.call (.socket fd))
        ((s.call (.socket fd)).call (.close fd)) := .call _ trivial
    cases env.connected with
    | true => exact opened
    | false => exact opened.trans closed

theorem emits_pctConnectCloud : Emits AdapterCall.Ordinary s (pctConnectCloud env s) := by
  have attempt := emits_hfConnectToCloud env s
  rw [pctConnectCloud]
  split_ifs
  · exact .of_eq rfl
  rcases result : hfConnectToCloud env s with ⟨_ | _, t⟩
  · rw [result] at attempt
    exact attempt
  · rw [result] at attempt
    exact attempt

theorem emits_pctSendCloudAccessMsg1 :
    Emits AdapterCall.Ordinary s (pctSendCloudAccessMsg1 fw env s) := by
  simp only [pctSendCloudAccessMsg1]
  have idle : Emits AdapterCall.Ordinary s
      (stopHandle .reconnect s.con.u8ReconnectTimer s) := .of_eq (calls_stopHandle ..)
  generalize stopHandle .reconnect s.con.u8ReconnectTimer s = stopped at idle ⊢
  have sent := fun t message => (emits_pctSendMsgToCloud fw env t zcSecAlgRsa 0x5A message).mono
    fun _ => AdapterCall.ToCloud.ordinary
  split_ifs
  · refine Emits.trans ?_ (emits_pctDisConnectCloud _)
    refine Emits.trans ?_ (sent _ _)
    exact idle
  · refine Emits.trans ?_ (.of_eq (calls_hfSetTimer ..))
    refine Emits.trans (t := (pctSendMsgToCloud fw env _ _ _ _).2) ?_ (.of_eq rfl)
    refine Emits.trans ?_ (sent _ _)
    exact idle

theorem emits_pctSendCloudAccessMsg3 :
    Emits AdapterCall.Ordinary s (pctSendCloudAccessMsg3 fw env s) := by
  have sent := fun t message => (emits_pctSendMsgToCloud fw env t zcSecAlgAes env.u8Resver
    message).mono fun _ => AdapterCall.ToCloud.ordinary
  simp only [pctSendCloudAccessMsg3]
  refine Emits.trans ?_ (.of_eq (calls_hfSetTimer ..))
  refine Emits.trans (t := (pctSendMsgToCloud fw env _ _ _ _).2) ?_ (.of_eq rfl)
  refine Emits.trans ?_ (sent _ _)
  exact .of_eq rfl

theorem emits_pctRecvAccessMsg2 : Emits AdapterCall.Ordinary s (pctRecvAccessMsg2 fw env s) := by
  rw [pctRecvAccessMsg2]
  rcases msgPopMsg s.recvQueue with ⟨_ | pointer, next⟩
  · exact .of_eq rfl
  simp only
  refine Emits.trans ?_ (.of_eq (calls_resetBuffer ..))
  split_ifs
  · exact emits_pctDisConnectCloud _
  · refine Emits.trans ?_ (emits_pctSendCloudAccessMsg3 ..)
    exact .of_eq rfl
  · refine Emits.trans ?_ (emits_pctDisConnectCloud _)
    exact ⟨[_], rfl, List.forall_mem_singleton.mpr trivial⟩
  · exact emits_pctDisConnectCloud _
  · exact .of_eq rfl

theorem emits_pctRecvAccessMsg4 : Emits AdapterCall.Ordinary s (pctRecvAccessMsg4 env s) := by
  rw [pctRecvAccessMsg4]
  rcases msgPopMsg s.recvQueue with ⟨_ | pointer, next⟩
  · exact .of_eq rfl
  simp only
  refine Emits.trans ?_ (.of_eq ((calls_hfSetTimer ..).trans
    ((calls_stopHandle ..).trans (calls_resetBuffer ..))))
  split_ifs
  · exact emits_pctDisConnectCloud _
  · exact ordinary_pctSendNotifyMsg _ (by decide)
  · exact emits_pctDisConnectCloud _
  · exact .of_eq rfl

theorem emits_pctHandleUnbindMsg : Emits AdapterCall.Ordinary s (pctHandleUnbindMsg env s) := by
  rw [pctHandleUnbindMsg]
  rcases msgPopMsg s.recvQueue with ⟨_ | pointer, next⟩
  · exact .of_eq rfl
  simp only
  refine Emits.trans ?_ (.of_eq ((calls_hfSetTimer ..).trans (calls_resetBuffer ..)))
  split_ifs
  · have stopped : Emits AdapterCall.Ordinary s
        (stopHandle .sendUnbind s.con.u8SendUnbindTimer { s with recvQueue := next }) :=
      .of_eq (calls_stopHandle ..)
    exact stopped.trans ⟨[_], rfl, List.forall_mem_singleton.mpr trivial⟩
  · exact .of_eq rfl

/-- A command is passed to the module as it came, so its code is not that of the end. -/
theorem emits_pctHandleMoudleMsg {pstruBuffer : BufPtr}
    (other : (ZcMessageHead.load ((s.buffer pstruBuffer).u8MsgBuffer.view env.beyond)).msgCode ≠
      Code.zotaEnd) : Emits AdapterCall.Ordinary s (pctHandleMoudleMsg pstruBuffer s) := by
  simp only [pctHandleMoudleMsg]
  refine Emits.trans ?_ (.of_eq ((calls_hfSetTimer ..).trans (calls_stopHandle ..)))
  have armed : Emits AdapterCall.Ordinary s
    (hfSetTimer .sendMoudle pctTimerIntervalSendMoudle .sendMoudle s) := .of_eq (calls_hfSetTimer ..)
  refine armed.trans ⟨[_], rfl, List.forall_mem_singleton.mpr fun same => other ?_⟩
  generalize s.buffer pstruBuffer = buffer at same ⊢
  have third : (buffer.u8MsgBuffer.bytes.take buffer.u32Len)[2]? = some Code.zotaEnd :=
    congrArg (fun bytes : List UInt8 => bytes[2]?) same
  rw [List.getElem?_take] at third
  split_ifs at third
  obtain ⟨_, code⟩ := List.getElem?_eq_some_iff.mp third
  exact (buffer.u8MsgBuffer.view_inside env.beyond 2 (by decide)).trans code

theorem emits_otaUpdate (pstruOta : View) (u32RecvOffset u32FileLen : ℕ) :
    Emits AdapterCall.Ordinary s (otaUpdate pstruOta u32RecvOffset u32FileLen s) := .call s trivial

/-- The end of an update says so, and restarts the device, where the library has finished it. -/
theorem calls_pctHandleOtaEndMsg (msgId : UInt8) : ∃ sent : List AdapterCall,
    (∀ call ∈ sent, call.ToCloud) ∧ (pctHandleOtaEndMsg fw env msgId s).calls = s.calls ++
      .updateFinish s.con.struOtaInfo.u32TotalLen :: sent ++
        if env.updateFinish = .ok then [.sendToMoudle otaEndNotice, .reboot] else [] := by
  simp only [pctHandleOtaEndMsg]
  cases env.updateFinish with
  | error =>
    obtain ⟨sent, calls, cloud⟩ := emits_pctSendErrorMsg fw env
      (s.call (.updateFinish s.con.struOtaInfo.u32TotalLen)) msgId
    refine ⟨sent, cloud, ?_⟩
    rw [if_pos rfl, calls, if_neg (by decide), List.append_nil, Sys.call, List.append_assoc]
    rfl
  | ok =>
    obtain ⟨sent, calls, cloud⟩ := emits_pctSendAckToCloud fw env
      (s.call (.updateFinish s.con.struOtaInfo.u32TotalLen)) msgId
    refine ⟨sent, cloud, ?_⟩
    rw [if_neg (by decide), if_pos rfl]
    simp only [Sys.call, pctSendNotifyMsg, Sys.build] at calls ⊢
    rw [calls]
    simp [otaEndNotice]

/-- What the switch on any other code emits is ordinary. -/
theorem emits_pctDispatch {pstruMsg : ZcMessageHead} (payload : View) (pstruBuffer : BufPtr)
    (head : pstruMsg = ZcMessageHead.load ((s.buffer pstruBuffer).u8MsgBuffer.view env.beyond))
    (other : pstruMsg.msgCode ≠ Code.zotaEnd) :
    Emits AdapterCall.Ordinary s (pctDispatch fw env pstruMsg payload pstruBuffer s) := by
  have acked := fun t => (emits_pctSendAckToCloud fw env t pstruMsg.msgId).mono
    fun _ => AdapterCall.ToCloud.ordinary
  have failed := fun t => (emits_pctSendErrorMsg fw env t pstruMsg.msgId).mono
    fun _ => AdapterCall.ToCloud.ordinary
  have emptied := fun t => (emits_pctSendEmptyMsg fw env t pstruMsg.msgId zcSecAlgAes).mono
    fun _ => AdapterCall.ToCloud.ordinary
  simp only [pctDispatch, if_neg other]
  split_ifs
  · refine Emits.trans ?_ (ordinary_pctSendNotifyMsg _ (by decide))
    refine Emits.trans ?_ (acked _)
    exact .of_eq rfl
  · refine Emits.trans ?_ (acked _)
    exact .of_eq (calls_struOtaInfo ..)
  · simp only [pctHandleOtaFileChunkMsg]
    split_ifs
    · exact failed s
    · refine Emits.trans ?_ (failed _)
      exact emits_otaUpdate ..
    · refine Emits.trans ?_ (acked _)
      refine Emits.trans ?_ (.of_eq (calls_struOtaInfo ..))
      exact emits_otaUpdate ..
  · exact acked s
  · refine Emits.trans ?_ (acked _)
    refine Emits.trans ?_ (emptied _)
    exact .call { s with zcConfigDb := _ } trivial
  · refine Emits.trans ?_ (acked _)
    refine Emits.trans ?_ (emptied _)
    refine Emits.trans ?_ (emits_pctDisConnectCloud _)
    exact .of_eq rfl
  · exact .of_eq rfl
  · exact emits_pctHandleMoudleMsg env s (head ▸ other)

/-- A connected device handles the end of an update, or emits nothing out of the ordinary. -/
theorem calls_pctHandleEvent :
    Emits AdapterCall.Ordinary s (pctHandleEvent fw env s) ∨ ∃ sent : List AdapterCall,
      (∀ call ∈ sent, call.ToCloud) ∧ (pctHandleEvent fw env s).calls = s.calls ++
        .updateFinish s.con.struOtaInfo.u32TotalLen :: sent ++
          if env.updateFinish = .ok then [.sendToMoudle otaEndNotice, .reboot] else [] := by
  rw [pctHandleEvent]
  by_cases asked : s.zcConfigDb.struDeviceInfo.u32UnBindFlag = zcMagicFlag
  · rw [if_pos asked, pctSendUnbindMsg]
    left
    refine Emits.trans ?_ (.of_eq (calls_hfSetTimer ..))
    refine Emits.trans ?_ ((emits_pctSendMsgToCloud ..).mono fun _ => AdapterCall.ToCloud.ordinary)
    exact .of_eq (calls_stopHandle ..)
  rw [if_neg asked]
  rcases msgPopMsg s.recvQueue with ⟨_ | pointer, next⟩
  · exact .inl (.of_eq rfl)
  simp only [calls_resetBuffer]
  by_cases corrupt : pctCheckCrc
      (ZcMessageHead.load ((s.buffer pointer).u8MsgBuffer.view env.beyond)).totalMsgCrc
      (((s.buffer pointer).u8MsgBuffer.view env.beyond).read sizeofMessageHead
        (zcHtons (ZcMessageHead.load ((s.buffer pointer).u8MsgBuffer.view env.beyond)).payloadlen)) =
          .error
  · left
    rw [if_pos corrupt]
    refine Emits.trans ?_ (.of_eq (calls_resetBuffer ..))
    refine Emits.trans ?_ ((emits_pctSendErrorMsg ..).mono fun _ => AdapterCall.ToCloud.ordinary)
    refine Emits.trans ?_ ((emits_pctSendEmptyMsg ..).mono fun _ => AdapterCall.ToCloud.ordinary)
    exact .of_eq rfl
  · rw [if_neg corrupt]
    by_cases code : (ZcMessageHead.load ((s.buffer pointer).u8MsgBuffer.view env.beyond)).msgCode =
        Code.zotaEnd
    · right
      rw [pctDispatch, code]
      exact calls_pctHandleOtaEndMsg fw env { s with recvQueue := next } _
    · left
      refine Emits.trans ?_ (.of_eq (calls_resetBuffer ..))
      exact emits_pctDispatch fw env { s with recvQueue := next } _ pointer rfl code

/-- What an iteration of the controller emits. -/
theorem calls_pctRun : Emits AdapterCall.Ordinary s (pctRun fw env s) ∨ ∃ sent : List AdapterCall,
    (∀ call ∈ sent, call.ToCloud) ∧ (pctRun fw env s).calls = s.calls ++
      .updateFinish s.con.struOtaInfo.u32TotalLen :: sent ++
        if env.updateFinish = .ok then [.sendToMoudle otaEndNotice, .reboot] else [] := by
  rw [pctRun]
  cases s.con.u8MainState with
  | sleep | init | disconnectCloud => exact .inl (.of_eq rfl)
  | accessNet => exact .inl (emits_pctConnectCloud env s)
  | waitAccess => exact .inl (emits_pctSendCloudAccessMsg1 fw env s)
  | waitAccessRsp => exact .inl (emits_pctRecvAccessMsg2 fw env s)
  | waitMsg4 => exact .inl (emits_pctRecvAccessMsg4 env s)
  | connectCloud => exact calls_pctHandleEvent fw env s
  | waitUnbind => exact .inl (emits_pctHandleUnbindMsg env s)

end Controller

/-- The cloud or the module says that the image has ended. -/
def asksFinish (s : Sys) (a : Action) : Prop :=
  (∃ env, a = .cloudfuncRun env ∧ handlesCode env s Code.zotaEnd) ∨
    ∃ env pu8Data u16DataLen, a = .recvDataFromMoudle env pu8Data u16DataLen ∧
      endsFile pu8Data u16DataLen

namespace Effect

variable {s : Sys} {a : Action} {e : Effect}

/-- An update is finished only where that is asked for, with the length that was announced. -/
theorem Cause.asks {u32TotalLen : ℕ} (cause : e.Cause s a)
    (finishes : .updateFinish u32TotalLen ∈ e.calls s.store) :
    asksFinish s a ∧ u32TotalLen = s.store.ota.u32TotalLen := by
  cases e with
  | stay | forgotten | otaBegin | otaFileBegin => cases finishes
  | opened | refused | lost | otaChunk => simp [calls] at finishes
  | config db restarts => cases restarts <;> simp [calls] at finishes
  | called call =>
    obtain ⟨_, member⟩ := cause
    obtain rfl := List.mem_singleton.mp finishes
    simp at member
  | slept =>
    simp only [calls, List.mem_cons, reduceCtorEq, List.mem_append, false_or] at finishes
    rcases finishes with member | member <;> cases mem_closing member
  | otaEnd finished =>
    obtain ⟨env, same, handles, _⟩ := cause
    refine ⟨.inl ⟨env, same, handles⟩, ?_⟩
    cases finished <;> simpa [calls] using finishes
  | moudleEnd => exact ⟨.inr cause, by simpa [calls] using finishes⟩

/-- What has been received of an image never passes its announced length. -/
theorem Cause.within (cause : e.Cause s a)
    (within : s.con.struOtaInfo.u32RecvOffset ≤ s.con.struOtaInfo.u32TotalLen) :
    (s.store.after e).ota.u32RecvOffset ≤ (s.store.after e).ota.u32TotalLen := by
  cases e with
  | otaFileBegin info =>
    have start : info.u32RecvOffset = 0 := cause
    exact start ▸ Nat.zero_le _
  | otaChunk pu8FileData taken =>
    cases taken with
    | false => exact within
    | true => exact cause rfl
  | config db restarts => cases restarts <;> exact within
  | lost fd pending => cases pending <;> exact within
  | otaEnd finished => cases finished <;> exact within
  | _ => exact within

end Effect

/-- In every run what has been received of an image is within its announced length. -/
theorem received_within (fw : Firmware) {flash : Option ZcConfigDb} {registerInfo : ZcRegisterInfo}
    {tape : List Action} (scheduled : ∀ a ∈ tape, a.Scheduled) {s : Sys}
    (replayed : (firmware fw).replay? (hfInit flash registerInfo) tape = some s) :
    s.con.struOtaInfo.u32RecvOffset ≤ s.con.struOtaInfo.u32TotalLen := by
  refine PartialMachine.invariant_replay?
    (I := fun s => s.con.struOtaInfo.u32RecvOffset ≤ s.con.struOtaInfo.u32TotalLen) ?_ (le_refl 0)
    (PartialMachine.EachStep.of_forall (C := fun _ a => a.Scheduled) fun _ => scheduled) replayed
  intro s a t within scheduled step
  obtain ⟨e, store, cause⟩ := lasting fw s a t scheduled step
  have ota : t.con.struOtaInfo = (s.store.after e).ota := congrArg Store.ota store
  rw [ota]
  exact cause.within within

/-- In every run of the threads the library is told to finish an update only where the cloud or the
module says that it has ended, with the announced length, of which no more has been received. On the
way of the cloud the module is told, and the device restarted, only behind a call that succeeded. -/
theorem finished_as_asked (fw : Firmware) (flash : Option ZcConfigDb)
    (registerInfo : ZcRegisterInfo) (tape : List Action) (a : Action) (s t : Sys)
    (scheduled : ∀ b ∈ a :: tape, b.Scheduled)
    (replayed : (firmware fw).replay? (hfInit flash registerInfo) tape = some s)
    (step : (firmware fw).step? s a = some t) :
    (∃ calls, t.store.calls = s.store.calls ++ calls ∧
      ∀ u32TotalLen, .updateFinish u32TotalLen ∈ calls → asksFinish s a ∧
        u32TotalLen = s.con.struOtaInfo.u32TotalLen ∧
          s.con.struOtaInfo.u32RecvOffset ≤ u32TotalLen) ∧
    ∀ env, a = .cloudfuncRun env → ∃ calls, t.calls = s.calls ++ calls ∧
      (.reboot ∈ calls ∨ .sendToMoudle otaEndNotice ∈ calls →
        env.updateFinish = .ok ∧ ∃ sent : List AdapterCall, (∀ call ∈ sent, call.ToCloud) ∧
          calls = .updateFinish s.con.struOtaInfo.u32TotalLen :: sent ++
            [.sendToMoudle otaEndNotice, .reboot]) := by
  constructor
  · obtain ⟨e, store, cause⟩ := lasting fw s a t (scheduled a (List.mem_cons_self ..)) step
    refine ⟨e.calls s.store, (congrArg Store.calls store).trans (e.after_calls s.store), ?_⟩
    intro u32TotalLen finishes
    obtain ⟨asks, rfl⟩ := cause.asks finishes
    have within := received_within fw (fun b member => scheduled b (List.mem_cons_of_mem _ member))
      replayed
    exact ⟨asks, rfl, within⟩
  · rintro env rfl
    cases step
    have run : (hfCloudfuncRun fw env s).calls = (pctRun fw env s).calls := rfl
    rw [run]
    rcases calls_pctRun fw env s with ⟨calls, same, ordinary⟩ | ⟨sent, cloud, same⟩
    · refine ⟨calls, same, ?_⟩
      rintro (restarts | tells)
      · exact (ordinary _ restarts).elim
      · exact absurd rfl (ordinary _ tells)
    · refine ⟨_, same.trans (List.append_assoc ..), ?_⟩
      cases result : env.updateFinish with
      | ok => exact fun _ => ⟨rfl, sent, cloud, by simp⟩
      | error =>
        intro unusual
        have quiet (call : AdapterCall) (member : call ∈ sent) : call.Ordinary :=
          (cloud call member).ordinary
        simp only [reduceCtorEq, if_false, List.append_nil, List.mem_cons, false_or] at unusual
        rcases unusual with restarts | tells
        · exact (quiet _ restarts).elim
        · exact absurd rfl (quiet _ tells)

/-- On the way of the module the end is told behind a call that failed as well, after the error. -/
theorem moudle_told_end (fw : Firmware) (env : Env) {pu8Data : View} {u16DataLen : ℕ}
    (ends : endsFile pu8Data u16DataLen) (s : Sys) :
    ∃ t, zcRecvDataFromMoudle fw env pu8Data u16DataLen s = some t ∧ t.calls = s.calls ++
      [.updateFinish s.con.struOtaInfo.u32TotalLen,
        .sendToMoudle (eventBuildMsg
          (if env.updateFinish = .error then Code.err else Code.ack) 0 []),
        .sendToMoudle otaEndNotice] := by
  obtain ⟨nonempty, checksum, code⟩ := ends
  refine ⟨pctSendNotifyMsg Code.zotaEnd (pctModuleOtaFileEndMsg env s), ?_, ?_⟩
  · have holds := fun fails => payloadFails_iff.mp fails checksum
    simp only [zcRecvDataFromMoudle, if_neg nonempty, if_neg holds, code]
    rfl
  · cases result : env.updateFinish <;>
      simp [pctModuleOtaFileEndMsg, result, pctSendNotifyMsg, Sys.call, Sys.build, otaEndNotice]

/-! ## An image of which nothing has been received -/

/-- A call that finishes an update. -/
def AdapterCall.isFinish : AdapterCall → Bool
  | .updateFinish _ => true
  | _ => false

/-- A step that finishes an update. -/
def finishes (fw : Firmware) (s : Sys) (a : Action) : Prop :=
  ((firmware fw).step? s a).any fun t => (t.calls.drop s.calls.length).any AdapterCall.isFinish

instance (fw : Firmware) (s : Sys) (a : Action) : Decidable (finishes fw s a) :=
  inferInstanceAs (Decidable (_ = true))

/-- An update that is finished is complete. -/
def FinishesComplete (fw : Firmware) (s : Sys) (a : Action) : Prop :=
  finishes fw s a → s.con.struOtaInfo.u32RecvOffset = s.con.struOtaInfo.u32TotalLen

instance (fw : Firmware) (s : Sys) (a : Action) : Decidable (FinishesComplete fw s a) :=
  inferInstanceAs (Decidable (_ → _))

/-- A message of the cloud comes in and is handled. -/
def handling (message : List UInt8) : List Action :=
  [.cloudRecvfunc .calm (some (plainFrame message)), .cloudfuncRun .calm]

/-- An image of seven bytes is announced, and then the update ends. -/
def emptyUpdate : List Action :=
  connecting ++ handling (messageBytes Code.zotaFileBegin 1 [0, 0, 0, 0, 0, 0, 0, 7]) ++
    handling (messageBytes Code.zotaEnd 2 [])

theorem finishesComplete_fails : ¬ (firmware .plain).EachStep (FinishesComplete .plain)
    (hfInit none .zero) emptyUpdate := by
  decide +kernel

/-- The end of such an update comes with an announced length of seven. -/
theorem finished_emptyUpdate : ∃ s t,
    (firmware .plain).replay? (hfInit none .zero) emptyUpdate.dropLast = some s ∧
      (firmware .plain).step? s (.cloudfuncRun .calm) = some t ∧
        s.con.struOtaInfo.u32TotalLen = 7 ∧ ∃ calls, t.store.calls = s.store.calls ++ calls ∧
          ∀ u32TotalLen, .updateFinish u32TotalLen ∈ calls → u32TotalLen = 7 := by
  have begun : ((firmware .plain).replay? (hfInit none .zero) emptyUpdate.dropLast).map
      (fun s => s.con.struOtaInfo.u32TotalLen) = some 7 := by decide +kernel
  obtain ⟨s, replayed, announced⟩ := Option.map_eq_some_iff.mp begun
  obtain ⟨⟨calls, same, finishes⟩, _⟩ := finished_as_asked .plain none .zero emptyUpdate.dropLast
    (.cloudfuncRun .calm) s (hfCloudfuncRun .plain .calm s)
    (by simp [emptyUpdate, handling, connecting, Action.Scheduled]) replayed rfl
  refine ⟨s, _, replayed, rfl, announced, calls, same, fun u32TotalLen member => ?_⟩
  exact (finishes u32TotalLen member).2.1.trans announced

end ShuangFa
