import ShuangFa.Lasting.Store
import ShuangFa.Control.Refinement

/-! # What a step does to what lasts

A step has one effect: it opens, loses or closes a connection, it stores a configuration, it moves
an update on, or it leaves everything as it is. Each effect says what the store is afterwards and
what the firmware has checked when it has it.
-/

namespace ShuangFa

open Memory

inductive Effect where
  | stay
  | opened (fd : ℕ)
  | refused (fd : ℕ) (db : ZcConfigDb) (u32ConnectionTimes : ℕ)
  | lost (fd : ℕ) (pending : Bool)
  | slept
  | config (db : ZcConfigDb) (restarts : Bool)
  | forgotten
  | called (call : AdapterCall)
  | otaBegin
  | otaFileBegin (struOtaInfo : PtcOtaInfo)
  | otaChunk (pu8FileData : List UInt8) (taken : Bool)
  | otaEnd (finished : Bool)
  | moudleEnd

/-- The offset of an update after a chunk. -/
def PtcOtaInfo.advance (info : PtcOtaInfo) (u32FileLen : ℕ) : PtcOtaInfo :=
  { info with u32RecvOffset := addU32 info.u32RecvOffset u32FileLen }

/-- A configuration is set and written to flash. -/
def Store.flash (store : Store) (db : ZcConfigDb) : Store :=
  { store with db := db }.call (.writeFlash db)

def Store.after (store : Store) : Effect → Store
  | .stay => store
  | .opened fd => (store.call (.socket fd)).link store.db ⟨fd, 0⟩
  | .refused fd db times => ((store.call (.socket fd)).call (.close fd)).link db
      { store.cloud with u32ConnectionTimes := times }
  | .lost fd pending =>
    let closed := store.call (.close fd)
    if pending then closed else closed.unlink
  | .slept => { store.unlink with
      client := { store.client with u32Socket := pctInvaildSocket }
      calls := store.calls ++ .closeBc :: (closing store.client.u32Socket ++
        closing store.cloud.u32Socket) }
  | .config db restarts => if restarts then (store.flash db).call .rest else store.flash db
  | .forgotten => { store with db := zcConfigInitPara store.db }
  | .called call => store.call call
  | .otaBegin => { store with stopJdTask := 1 }
  | .otaFileBegin info => { store with ota := info }
  | .otaChunk pu8FileData taken =>
    let updated := store.call (.update pu8FileData store.ota.u32RecvOffset)
    if taken then { updated with ota := store.ota.advance pu8FileData.length } else updated
  | .otaEnd finished =>
    let ended := store.call (.updateFinish store.ota.u32TotalLen)
    if finished then { ended.call .reboot with stopJdTask := 0 } else ended
  | .moudleEnd => store.call (.updateFinish store.ota.u32TotalLen)

/-- A connected device handles a message with a good checksum and this code. -/
def handlesCode (env : Env) (s : Sys) (msgCode : UInt8) : Prop :=
  s.con.u8MainState = .connectCloud ∧
    s.zcConfigDb.struDeviceInfo.u32UnBindFlag ≠ zcMagicFlag ∧
      ∃ message ∈ takenMessage env s, checksumHolds message ∧
        (ZcMessageHead.load message).msgCode = msgCode

instance (env : Env) (s : Sys) (msgCode : UInt8) : Decidable (handlesCode env s msgCode) :=
  decidable_of_iff (s.con.u8MainState = .connectCloud ∧
    s.zcConfigDb.struDeviceInfo.u32UnBindFlag ≠ zcMagicFlag ∧
      (takenMessage env s).any fun message => checksumHolds message ∧
        (ZcMessageHead.load message).msgCode = msgCode) (by
    simp only [handlesCode, Option.any_eq_true, decide_eq_true_eq, Option.mem_def])

namespace Effect

/-- The calls of an effect. -/
def calls (store : Store) : Effect → List AdapterCall
  | stay | forgotten | otaBegin | otaFileBegin _ => []
  | opened fd => [.socket fd]
  | refused fd _ _ => [.socket fd, .close fd]
  | lost fd _ => [.close fd]
  | slept => .closeBc :: (closing store.client.u32Socket ++ closing store.cloud.u32Socket)
  | config db restarts => .writeFlash db :: if restarts then [.rest] else []
  | called call => [call]
  | otaChunk pu8FileData _ => [.update pu8FileData store.ota.u32RecvOffset]
  | otaEnd finished =>
    .updateFinish store.ota.u32TotalLen :: if finished then [.reboot] else []
  | moudleEnd => [.updateFinish store.ota.u32TotalLen]

theorem after_calls (store : Store) (e : Effect) :
    (store.after e).calls = store.calls ++ e.calls store := by
  cases e with
  | stay | forgotten | otaBegin | otaFileBegin => exact (List.append_nil _).symm
  | opened | called | moudleEnd => rfl
  | slept => rfl
  | refused fd db times => exact List.append_assoc ..
  | lost fd pending => cases pending <;> rfl
  | otaChunk pu8FileData taken => cases taken <;> rfl
  | config db restarts =>
    cases restarts with
    | false => rfl
    | true => exact List.append_assoc ..
  | otaEnd finished =>
    cases finished with
    | false => rfl
    | true => exact List.append_assoc ..

/-- A socket is closed where there is one. -/
theorem mem_closing {u32Socket : ℕ} {call : AdapterCall} (member : call ∈ closing u32Socket) :
    call = .close u32Socket := by
  rw [closing] at member
  split_ifs at member
  · exact List.mem_singleton.mp member
  · cases member

/-- What the code of a message says about the effect of the switch on it. -/
def Dispatched (env : Env) (s : Sys) (msgCode : UInt8) : Effect → Prop
  | stay => True
  | config _ restarts => restarts = false
  | forgotten => msgCode = Code.resetNetwork
  | otaBegin => msgCode = Code.zotaBegin
  | otaFileBegin info => info.u32RecvOffset = 0
  | otaChunk pu8FileData taken => taken = true →
      addU32 s.con.struOtaInfo.u32RecvOffset pu8FileData.length ≤ s.con.struOtaInfo.u32TotalLen
  | otaEnd finished => msgCode = Code.zotaEnd ∧ (finished = true ↔ env.updateFinish = .ok)
  | _ => False

/-- What an effect says about the action that has it. -/
def Cause (s : Sys) (a : Action) : Effect → Prop
  | stay => True
  | opened fd => ∃ env, a = .cloudfuncRun env ∧ connects env s ∧ env.socket = some fd
  | refused fd _ _ => ∃ env, a = .cloudfuncRun env ∧ s.con.u8MainState = .accessNet ∧
      env.socket = some fd
  | lost fd pending => (∃ env, a = .cloudfuncRest env) ∧ s.con.u8MainState = .disconnectCloud ∧
      fd = s.cloudFd ∧ (pending = true ↔ s.con.u8ReconnectTimer ≠ none)
  | slept => a = .hfSleep
  | config _ _ => True
  | forgotten => ∃ env, a = .cloudfuncRun env ∧ handlesCode env s Code.resetNetwork
  | called call => (∃ env pu8Data u16DataLen, a = .recvDataFromMoudle env pu8Data u16DataLen) ∧
      call ∈ [.rest, .reboot]
  | otaBegin => ∃ env, a = .cloudfuncRun env ∧ handlesCode env s Code.zotaBegin
  | otaFileBegin info => info.u32RecvOffset = 0
  | otaChunk pu8FileData taken => taken = true →
      addU32 s.con.struOtaInfo.u32RecvOffset pu8FileData.length ≤ s.con.struOtaInfo.u32TotalLen
  | otaEnd finished => ∃ env, a = .cloudfuncRun env ∧ handlesCode env s Code.zotaEnd ∧
      (finished = true ↔ env.updateFinish = .ok)
  | moudleEnd => ∃ env pu8Data u16DataLen, a = .recvDataFromMoudle env pu8Data u16DataLen ∧
      endsFile pu8Data u16DataLen

end Effect

section Handlers

variable (fw : Firmware) (env : Env) (s : Sys)

theorem store_writeFlash (db : ZcConfigDb) :
    { s with zcConfigDb := db }.writeFlash.store = s.store.flash db := store_call _ _ rfl

/-- The state of an update that a begin message sets up. -/
def fileBeginInfo (pstruOta : View) : PtcOtaInfo :=
  ⟨zcHtonl (loadU32 pstruOta 4), 0, (pstruOta 2, pstruOta 3)⟩

theorem store_struOtaInfo (info : PtcOtaInfo) :
    { s with con := { s.con with struOtaInfo := info } }.store = { s.store with ota := info } := rfl

theorem store_otaFileBegin (pstruOta : View) : (otaFileBegin pstruOta s).store =
    s.store.after (.otaFileBegin (fileBeginInfo pstruOta)) := store_struOtaInfo s _

theorem store_otaUpdate (pstruOta : View) (u32RecvOffset u32FileLen : ℕ) :
    (otaUpdate pstruOta u32RecvOffset u32FileLen s).store =
      s.store.call (.update (pstruOta.read 4 u32FileLen) u32RecvOffset) := store_call _ _ rfl

theorem store_otaAdvance (u32FileLen : ℕ) : (otaAdvance u32FileLen s).store =
    { s.store with ota := s.store.ota.advance u32FileLen } := rfl

/-- The second handshake message may name another access point. -/
theorem effect_pctRecvAccessMsg2 : (pctRecvAccessMsg2 fw env s).store = s.store ∨
    ∃ db, (pctRecvAccessMsg2 fw env s).store = s.store.after (.config db false) := by
  rw [pctRecvAccessMsg2]
  rcases msgPopMsg s.recvQueue with ⟨_ | pointer, next⟩
  · exact .inl rfl
  simp only [store_resetBuffer]
  split_ifs
  · exact .inl (store_pctDisConnectCloud _)
  · left
    rw [store_pctSendCloudAccessMsg3]
    rfl
  · right
    simp only [store_pctDisConnectCloud]
    exact ⟨_, store_writeFlash (timerStopTimer (some .access) s.con.u8AccessTimer
      { s with recvQueue := next }) _⟩
  · exact .inl (store_pctDisConnectCloud _)
  · exact .inl rfl

theorem store_pctRecvAccessMsg4 : (pctRecvAccessMsg4 env s).store = s.store := by
  rw [pctRecvAccessMsg4]
  rcases msgPopMsg s.recvQueue with ⟨_ | pointer, next⟩
  · rfl
  simp only [store_hfSetTimer, store_stopHandle, store_resetBuffer]
  split_ifs
  · exact store_pctDisConnectCloud _
  · exact store_pctSendNotifyMsg _ _
  · exact store_pctDisConnectCloud _
  · rfl

/-- An unbinding that is answered is stored. -/
theorem effect_pctHandleUnbindMsg : (pctHandleUnbindMsg env s).store = s.store ∨
    ∃ db, (pctHandleUnbindMsg env s).store = s.store.after (.config db false) := by
  rw [pctHandleUnbindMsg]
  rcases msgPopMsg s.recvQueue with ⟨_ | pointer, next⟩
  · exact .inl rfl
  simp only [store_hfSetTimer, store_resetBuffer]
  split_ifs
  · right
    refine ⟨zcConfigUnBind 0xFFFFFFFF s.zcConfigDb, (store_call _ _ rfl).trans ?_⟩
    cases s.con.u8SendUnbindTimer <;> rfl
  · exact .inl rfl

/-- The store after a chunk that is accepted, and after one that `pfunUpdate` took. -/
theorem store_otaChunk (pstruOta : View) (u32FileLen : ℕ)
    (accepted : ¬ otaChunkRefused (zcHtonl (loadU32 pstruOta 0)) u32FileLen s) :
    (otaUpdate pstruOta (zcHtonl (loadU32 pstruOta 0)) u32FileLen s).store =
        s.store.after (.otaChunk (pstruOta.read 4 u32FileLen) false) ∧
      (otaAdvance u32FileLen (otaUpdate pstruOta (zcHtonl (loadU32 pstruOta 0)) u32FileLen s)).store =
        s.store.after (.otaChunk (pstruOta.read 4 u32FileLen) true) := by
  have offset : zcHtonl (loadU32 pstruOta 0) = s.con.struOtaInfo.u32RecvOffset := by
    by_contra differs
    exact accepted (.inl differs)
  have updated := store_otaUpdate s pstruOta (zcHtonl (loadU32 pstruOta 0)) u32FileLen
  rw [offset] at updated ⊢
  refine ⟨updated, ?_⟩
  rw [store_otaAdvance, updated, Store.after, View.read_length]
  rfl

/-- What comes of a chunk: nothing when it is refused, else what `pfunUpdate` says. -/
def Effect.ofChunk (env : Env) (refused : Prop) [Decidable refused] (pu8FileData : List UInt8) :
    Effect :=
  if refused then .stay else .otaChunk pu8FileData (env.update = .ok)

theorem Effect.ofChunk_refused {refused : Prop} [Decidable refused] (refuses : refused)
    (pu8FileData : List UInt8) : Effect.ofChunk env refused pu8FileData = .stay := if_pos refuses

theorem Effect.ofChunk_accepted {refused : Prop} [Decidable refused] (accepts : ¬ refused)
    (pu8FileData : List UInt8) : Effect.ofChunk env refused pu8FileData =
      .otaChunk pu8FileData (env.update = .ok) := if_neg accepts

theorem store_pctHandleOtaFileChunkMsg (pstruMsg : ZcMessageHead) (pstruOta : View) :
    (pctHandleOtaFileChunkMsg fw env pstruMsg pstruOta s).store = s.store.after (.ofChunk env
      (otaChunkRefused (zcHtonl (loadU32 pstruOta 0)) (subU32 (zcHtons pstruMsg.payloadlen) 4) s)
      (pstruOta.read 4 (subU32 (zcHtons pstruMsg.payloadlen) 4))) := by
  simp only [pctHandleOtaFileChunkMsg]
  split_ifs with refused failed
  · rw [Effect.ofChunk_refused env refused]
    exact store_pctSendErrorMsg ..
  · rw [Effect.ofChunk_accepted env refused, failed]
    exact (store_pctSendErrorMsg ..).trans (store_otaChunk s pstruOta _ refused).1
  · rw [Effect.ofChunk_accepted env refused, Ret.ne_error.mp failed]
    exact (store_pctSendAckToCloud ..).trans (store_otaChunk s pstruOta _ refused).2

/-- The offset of a chunk that is accepted stays within the image. -/
theorem Effect.ofChunk_fits {refused : Prop} [Decidable refused] {u32RecvOffset u32FileLen : ℕ}
    (checked : ¬ refused → ¬ otaChunkRefused u32RecvOffset u32FileLen s)
    {pu8FileData : List UInt8} (length : pu8FileData.length = u32FileLen) :
    Effect.ofChunk env refused pu8FileData = .stay ∨
      ∃ taken, Effect.ofChunk env refused pu8FileData = .otaChunk pu8FileData taken ∧
        addU32 s.con.struOtaInfo.u32RecvOffset pu8FileData.length ≤
          s.con.struOtaInfo.u32TotalLen := by
  by_cases refuses : refused
  · exact .inl (ofChunk_refused env refuses _)
  · have accepted := checked refuses
    simp only [otaChunkRefused, not_or, not_not, not_lt] at accepted
    obtain ⟨offset, fits, _⟩ := accepted
    rw [offset, ← length] at fits
    exact .inr ⟨_, ofChunk_accepted env refuses _, fits⟩

theorem effect_pctHandleOtaFileChunkMsg (pstruMsg : ZcMessageHead) (pstruOta : View) :
    ∃ e : Effect, (pctHandleOtaFileChunkMsg fw env pstruMsg pstruOta s).store = s.store.after e ∧
      e.Dispatched env s Code.zotaFileChunk := by
  refine ⟨_, store_pctHandleOtaFileChunkMsg fw env s pstruMsg pstruOta, ?_⟩
  rcases Effect.ofChunk_fits env s id (View.read_length pstruOta 4 _) with
    stays | ⟨taken, chunk, fits⟩
  · rw [stays]
    trivial
  · rw [chunk]
    exact fun _ => fits

theorem effect_pctHandleOtaEndMsg (msgId : UInt8) : ∃ e : Effect,
    (pctHandleOtaEndMsg fw env msgId s).store = s.store.after e ∧
      e.Dispatched env s Code.zotaEnd := by
  have ended := store_call s (.updateFinish s.con.struOtaInfo.u32TotalLen) rfl
  simp only [pctHandleOtaEndMsg]
  split_ifs with failed
  · exact ⟨.otaEnd false, (store_pctSendErrorMsg ..).trans ended, rfl, by simp [failed]⟩
  · refine ⟨.otaEnd true, ?_, rfl, ?_⟩
    · have sent := (store_call _ .reboot rfl).trans (congrArg (Store.call · .reboot)
        ((store_pctSendNotifyMsg _ Code.zotaEnd).trans ((store_pctSendAckToCloud fw env _ msgId).trans
          ended)))
      exact congrArg (fun store : Store => { store with stopJdTask := 0 }) sent
    · cases result : env.updateFinish with
      | ok => simp
      | error => exact absurd result failed

/-- What the switch on the code of a message does. -/
theorem effect_pctDispatch (pstruMsg : ZcMessageHead) (payload : View) (pstruBuffer : BufPtr) :
    ∃ e : Effect, (pctDispatch fw env pstruMsg payload pstruBuffer s).store = s.store.after e ∧
      e.Dispatched env s pstruMsg.msgCode := by
  simp only [pctDispatch]
  split_ifs with zotaBegin fileBegin fileChunk fileEnd zotaEnd tokenSet resetNetwork unbind
  · refine ⟨.otaBegin, ?_, zotaBegin⟩
    rw [pctHandleOtaBeginMsg, store_pctSendNotifyMsg, store_pctSendAckToCloud]
    rfl
  · refine ⟨.otaFileBegin (fileBeginInfo payload), ?_, rfl⟩
    rw [pctHandleOtaFileBeginMsg, store_pctSendAckToCloud, store_otaFileBegin]
  · rw [fileChunk]
    exact effect_pctHandleOtaFileChunkMsg fw env s pstruMsg payload
  · exact ⟨.stay, store_pctSendAckToCloud .., trivial⟩
  · rw [zotaEnd]
    exact effect_pctHandleOtaEndMsg fw env s pstruMsg.msgId
  · refine ⟨.config (zcStoreTokenKey payload s.zcConfigDb) false, ?_, rfl⟩
    rw [pctSetTokenKey, store_pctSendAckToCloud, store_pctSendEmptyMsg, store_writeFlash]
    rfl
  · refine ⟨.forgotten, ?_, resetNetwork⟩
    rw [pctResetNetWork, store_pctSendAckToCloud, store_pctSendEmptyMsg, store_pctDisConnectCloud]
    rfl
  · exact ⟨.stay, rfl, trivial⟩
  · refine ⟨.stay, ?_, trivial⟩
    rw [pctHandleMoudleMsg, store_hfSetTimer, store_stopHandle, store_sendToMoudle]
    exact store_hfSetTimer s _ _ _

theorem effect_pctHandleEvent (main : s.con.u8MainState = .connectCloud) :
    ∃ e : Effect, (pctHandleEvent fw env s).store = s.store.after e ∧
      e.Cause s (.cloudfuncRun env) := by
  rw [pctHandleEvent]
  by_cases asked : s.zcConfigDb.struDeviceInfo.u32UnBindFlag = zcMagicFlag
  · refine ⟨.stay, ?_, trivial⟩
    rw [if_pos asked, store_pctSendUnbindMsg, store_stopHandle]
    rfl
  rw [if_neg asked]
  rcases popped : msgPopMsg s.recvQueue with ⟨_ | pointer, next⟩
  · exact ⟨.stay, rfl, trivial⟩
  have taken : takenMessage env s = some ((s.buffer pointer).u8MsgBuffer.view env.beyond) := by
    simp [takenMessage, popped]
  simp only [store_resetBuffer]
  generalize (s.buffer pointer).u8MsgBuffer.view env.beyond = message at taken ⊢
  by_cases checksum : checksumHolds message
  · rw [if_neg fun fails => not_checksumHolds.mpr fails checksum]
    obtain ⟨e, store, dispatched⟩ := effect_pctDispatch fw env { s with recvQueue := next }
      (ZcMessageHead.load message) (message.shift sizeofMessageHead) pointer
    have handles {msgCode : UInt8} (code : (ZcMessageHead.load message).msgCode = msgCode) :
        handlesCode env s msgCode := ⟨main, asked, message, taken, checksum, code⟩
    refine ⟨e, store, ?_⟩
    cases e with
    | stay | config => trivial
    | forgotten => exact ⟨env, rfl, handles dispatched⟩
    | otaBegin => exact ⟨env, rfl, handles dispatched⟩
    | otaFileBegin | otaChunk => exact dispatched
    | otaEnd finished => exact ⟨env, rfl, handles dispatched.1, dispatched.2⟩
    | opened | refused | lost | slept | called | moudleEnd => exact dispatched.elim
  · refine ⟨.stay, ?_, trivial⟩
    rw [if_pos (not_checksumHolds.mp checksum), store_pctSendErrorMsg, store_pctSendEmptyMsg]
    rfl

/-- A connection is made, or the next iteration tries again. -/
theorem effect_pctConnectCloud (main : s.con.u8MainState = .accessNet) :
    (connects env s ∧ ∃ fd, env.socket = some fd ∧
        (pctConnectCloud env s).store = s.store.after (.opened fd)) ∨
      ¬ connects env s ∧ ((pctConnectCloud env s).store = s.store ∨
        ∃ fd db times, env.socket = some fd ∧
          (pctConnectCloud env s).store = s.store.after (.refused fd db times)) := by
  by_cases pending : s.con.u8ReconnectTimer = none
  · rw [pctConnectCloud, if_neg (not_not_intro pending)]
    have attempt := store_hfConnectToCloud env s
    rcases result : hfConnectToCloud env s with ⟨ret, t⟩
    rw [result] at attempt
    have refused (failed : ret = .error) : ¬ connects env s := by
      intro connected
      have made := connected.2.2
      rw [result] at made
      cases made.symm.trans failed
    rcases attempt with
      ⟨failed, store⟩ | ⟨fd, named, ⟨made, store⟩ | ⟨failed, db, times, store⟩⟩
    · obtain rfl : ret = .error := failed
      exact .inr ⟨refused rfl, .inl store⟩
    · obtain rfl : ret = .ok := made
      exact .inl ⟨⟨main, pending, congrArg Prod.fst result⟩, fd, named, store⟩
    · obtain rfl : ret = .error := failed
      exact .inr ⟨refused rfl, .inr ⟨fd, db, times, named, store⟩⟩
  · rw [pctConnectCloud, if_pos pending]
    exact .inr ⟨fun connected => pending connected.2.1, .inl rfl⟩

/-- What `PCT_Run` does in the main state it finds. -/
theorem effect_pctRun : ∃ e : Effect, (pctRun fw env s).store = s.store.after e ∧
    e.Cause s (.cloudfuncRun env) := by
  rw [pctRun]
  cases main : s.con.u8MainState with
  | sleep | init | disconnectCloud => exact ⟨.stay, rfl, trivial⟩
  | accessNet =>
    rcases effect_pctConnectCloud env s main with
      ⟨made, fd, named, store⟩ | ⟨_, same | ⟨fd, db, times, named, store⟩⟩
    · exact ⟨_, store, env, rfl, made, named⟩
    · exact ⟨.stay, same, trivial⟩
    · exact ⟨_, store, env, rfl, main, named⟩
  | waitAccess => exact ⟨.stay, store_pctSendCloudAccessMsg1 fw env s, trivial⟩
  | waitAccessRsp =>
    rcases effect_pctRecvAccessMsg2 fw env s with same | ⟨db, store⟩
    · exact ⟨.stay, same, trivial⟩
    · exact ⟨_, store, trivial⟩
  | waitMsg4 => exact ⟨.stay, store_pctRecvAccessMsg4 env s, trivial⟩
  | connectCloud => exact effect_pctHandleEvent fw env s main
  | waitUnbind =>
    rcases effect_pctHandleUnbindMsg env s with same | ⟨db, store⟩
    · exact ⟨.stay, same, trivial⟩
    · exact ⟨_, store, trivial⟩

theorem effect_hfCloudfuncRest : ∃ e : Effect, (hfCloudfuncRest env s).store = s.store.after e ∧
    e.Cause s (.cloudfuncRest env) := by
  rw [store_hfCloudfuncRest]
  by_cases main : s.con.u8MainState = .disconnectCloud
  · rw [if_pos main]
    by_cases pending : s.con.u8ReconnectTimer = none
    · rw [if_pos pending]
      exact ⟨.lost s.cloudFd false, rfl, ⟨env, rfl⟩, main, rfl, by simp [pending]⟩
    · rw [if_neg pending]
      exact ⟨.lost s.cloudFd true, rfl, ⟨env, rfl⟩, main, rfl, by simp [pending]⟩
  · rw [if_neg main]
    exact ⟨.stay, rfl, trivial⟩

end Handlers

section Moudle

variable (fw : Firmware) (env : Env) (s : Sys)

theorem store_registerAnswer (stored : Sys → Sys) (kept : (stored s).store = s.store) :
    (registerAnswer stored s).store = s.store := by
  rw [registerAnswer]
  split_ifs
  · exact store_pctSendNotifyMsg ..
  · exact store_pctSendNotifyMsg ..
  · rw [← kept]
    cases s.con.u8RegisterTimer <;> rfl

/-- An extended message registers the device or starts it anew. -/
theorem effect_zcDealExtCode (pu8Data : View) :
    (zcDealExtCode env pu8Data s).store = s.store ∨
      (zcDealExtCode env pu8Data s).store = s.store.call .reboot := by
  rw [zcDealExtCode]
  split_ifs
  · exact .inl (store_registerAnswer s _ rfl)
  · exact .inr (store_call s .reboot rfl)
  · exact .inl rfl

/-- The checks of a chunk that comes from the module. -/
def moudleChunkRefused (pstruMsg : ZcMessageHead) (pu8Msg : View) : Prop :=
  otaChunkRefused (zcHtonl (loadU32 pu8Msg 0)) (subU32 (zcHtons pstruMsg.payloadlen) 4) s ∨
    pctCheckCrc pstruMsg.totalMsgCrc (pu8Msg.read 0 (zcHtons pstruMsg.payloadlen)) = .error

instance (pstruMsg : ZcMessageHead) (pu8Msg : View) :
    Decidable (moudleChunkRefused s pstruMsg pu8Msg) := inferInstanceAs (Decidable (_ ∨ _))

theorem store_pctModuleOtaFileChunkMsg (pstruMsg : ZcMessageHead) (pu8Msg : View) :
    (pctModuleOtaFileChunkMsg env pstruMsg pu8Msg s).store = s.store.after (.ofChunk env
      (moudleChunkRefused s pstruMsg pu8Msg)
      (pu8Msg.read 4 (subU32 (zcHtons pstruMsg.payloadlen) 4))) := by
  simp only [pctModuleOtaFileChunkMsg]
  split_ifs with refused corrupt failed
  · have refuses : moudleChunkRefused s pstruMsg pu8Msg := .inl refused
    rw [Effect.ofChunk_refused env refuses]
    exact store_pctSendNotifyMsg ..
  · have refuses : moudleChunkRefused s pstruMsg pu8Msg := .inr corrupt
    rw [Effect.ofChunk_refused env refuses]
    exact store_pctSendNotifyMsg ..
  · have accepts : ¬ moudleChunkRefused s pstruMsg pu8Msg := not_or.mpr ⟨refused, corrupt⟩
    rw [Effect.ofChunk_accepted env accepts, failed]
    exact (store_pctSendNotifyMsg ..).trans (store_otaChunk s pu8Msg _ refused).1
  · have accepts : ¬ moudleChunkRefused s pstruMsg pu8Msg := not_or.mpr ⟨refused, corrupt⟩
    rw [Effect.ofChunk_accepted env accepts, Ret.ne_error.mp failed]
    exact (store_pctSendNotifyMsg ..).trans (store_otaChunk s pu8Msg _ refused).2

theorem effect_pctModuleOtaFileChunkMsg (a : Action) (pstruMsg : ZcMessageHead) (pu8Msg : View) :
    ∃ e : Effect, (pctModuleOtaFileChunkMsg env pstruMsg pu8Msg s).store = s.store.after e ∧
      e.Cause s a := by
  refine ⟨_, store_pctModuleOtaFileChunkMsg env s pstruMsg pu8Msg, ?_⟩
  have checked (accepts : ¬ moudleChunkRefused s pstruMsg pu8Msg) : ¬ otaChunkRefused
      (zcHtonl (loadU32 pu8Msg 0)) (subU32 (zcHtons pstruMsg.payloadlen) 4) s :=
    fun refused => accepts (.inl refused)
  rcases Effect.ofChunk_fits env s checked (View.read_length pu8Msg 4 _) with
    stays | ⟨taken, chunk, fits⟩
  · rw [stays]
    trivial
  · rw [chunk]
    exact fun _ => fits

theorem store_pctModuleOtaFileEndMsg : (pctModuleOtaFileEndMsg env s).store =
    s.store.after .moudleEnd := by
  have ended := store_call s (.updateFinish s.con.struOtaInfo.u32TotalLen) rfl
  simp only [pctModuleOtaFileEndMsg]
  split_ifs
  · exact (store_pctSendNotifyMsg ..).trans ended
  · exact (store_pctSendNotifyMsg ..).trans ended

/-- What a message of the module does. -/
theorem effect_zcRecvDataFromMoudle {pu8Data : View} {u16DataLen : ℕ} {t : Sys}
    (step : zcRecvDataFromMoudle fw env pu8Data u16DataLen s = some t) :
    ∃ e : Effect, t.store = s.store.after e ∧
      e.Cause s (.recvDataFromMoudle env pu8Data u16DataLen) := by
  cases zcRecvDataFromMoudle_cases step with
  | dropped => exact ⟨.stay, rfl, trivial⟩
  | registered => exact ⟨.stay, store_registerAnswer s _ rfl, trivial⟩
  | begun => exact ⟨.stay, store_pctSendNotifyMsg .., trivial⟩
  | begunOnline =>
    exact ⟨.stay, (store_pctSendNotifyMsg ..).trans (store_pctSendNotifyMsg ..), trivial⟩
  | fileBegun => exact ⟨_, (store_pctSendNotifyMsg ..).trans (store_otaFileBegin s _), rfl⟩
  | chunk =>
    exact effect_pctModuleOtaFileChunkMsg env s (.recvDataFromMoudle env pu8Data u16DataLen) _ _
  | fileEnded ends =>
    exact ⟨.moudleEnd, (store_pctSendNotifyMsg ..).trans (store_pctModuleOtaFileEndMsg ..),
      env, pu8Data, u16DataLen, rfl, ends⟩
  | rested => exact ⟨.called .rest, store_call s .rest rfl, ⟨env, pu8Data, u16DataLen, rfl⟩, by simp⟩
  | configured | unbound => exact ⟨.config _ false, store_writeFlash s _, trivial⟩
  | unboundRested =>
    exact ⟨.config _ true, (store_call _ .rest rfl).trans
      (congrArg (Store.call · .rest) (store_writeFlash s _)), trivial⟩
  | extended =>
    rcases effect_zcDealExtCode env s (pu8Data.shift sizeofMessageHead) with same | rebooted
    · exact ⟨.stay, same, trivial⟩
    · exact ⟨.called .reboot, rebooted, ⟨env, pu8Data, u16DataLen, rfl⟩, by simp⟩
  | relayed _ event => exact ⟨.stay, store_pctHandleMoudleEvent fw env s event, trivial⟩
  | refused => exact ⟨.stay, store_pctSendNotifyMsg .., trivial⟩

end Moudle

/-- Every step of the threads has one effect, and what it has checked is its cause. -/
theorem lasting (fw : Firmware) (s : Sys) (a : Action) (t : Sys) (scheduled : a.Scheduled)
    (step : (firmware fw).step? s a = some t) :
    ∃ e : Effect, t.store = s.store.after e ∧ e.Cause s a := by
  cases a with
  | cloudfuncRun env =>
    cases step
    exact effect_pctRun fw env s
  | cloudfuncRest env =>
    cases step
    exact effect_hfCloudfuncRest env s
  | recvDataFromCloud env pu8Data =>
    exact ⟨.stay, store_msgRecvDataFromCloud fw env s step, trivial⟩
  | cloudRecvfunc env received => exact ⟨.stay, store_hfCloudRecvfunc fw env s step, trivial⟩
  | timerCallback env slot => exact ⟨.stay, store_hfTimerCallback fw env s step, trivial⟩
  | timerAction env slot => exact ⟨.stay, store_hfTimerCallbackAction fw env s step, trivial⟩
  | timerStop =>
    cases step
    exact ⟨.stay, store_hfTimerCallbackStop s, trivial⟩
  | moudleEvent env pu8Msg u16DataLen =>
    exact ⟨.stay, store_pctHandleMoudleEvent fw env s step, trivial⟩
  | recvDataFromMoudle env pu8Data u16DataLen => exact effect_zcRecvDataFromMoudle fw env s step
  | disConnectCloud => exact absurd scheduled id
  | reconnectCloud _ => exact absurd scheduled id
  | sleep => exact absurd scheduled id
  | hfSleep =>
    cases step
    exact ⟨.slept, store_hfSleep s, rfl⟩
  | hfWakeUp =>
    cases step
    exact ⟨.stay, store_pctWakeUp s, trivial⟩

end ShuangFa
