import ShuangFa.Lasting.Effect
import ShuangFa.Receive.Refill
import ShuangFa.Soundness.Corruption

/-! # Payloads that are shorter than the structure

Six handlers cast the payload of a message to a structure. None of them compares its length with the
size of the structure: what they do with a short payload depends on what is left in the buffer behind
it, of an earlier message, and a checksum says nothing about these bytes.
-/

namespace ShuangFa

open Memory

/-- The structures that a payload is cast to. -/
inductive Parsed
  | handShakeMsg2
  | accessPoint
  | handShakeMsg4
  | otaFileBeginReq
  | otaFileChunkReq
  | tokenSetReq
deriving DecidableEq

/-- The structure that the handler of the main state casts the payload of a message to, by its code. -/
def parsed (s : Sys) (message : View) : Option Parsed :=
  let msgCode := (ZcMessageHead.load message).msgCode
  match s.con.u8MainState with
  | .waitAccessRsp =>
    if msgCode = Code.handshake2 then some .handShakeMsg2
    else if msgCode = Code.accessPointRsp then some .accessPoint
    else none
  | .waitMsg4 => if msgCode = Code.handshake4 then some .handShakeMsg4 else none
  | .connectCloud =>
    if msgCode = Code.zotaFileBegin then some .otaFileBeginReq
    else if msgCode = Code.zotaFileChunk then some .otaFileChunkReq
    else if msgCode = Code.tokenSet then some .tokenSetReq
    else none
  | _ => none

/-- The bytes that the checksum of a message covers. -/
def payloadLength (message : View) : ℕ := zcHtons (ZcMessageHead.load message).payloadlen

/-- What the messages of the cloud may set: the session key, the stored server address, the state of
an update and the token key. -/
structure CloudSettings where
  u8SessionKey : FixedBuffer zcHsSessionKeyLen
  u32ServerAddrConfig : ℕ
  u32ServerIp : ℕ
  u16ServerPort : ℕ
  struOtaInfo : PtcOtaInfo
  u8TokenKey : FixedBuffer zcHsSessionKeyLen

def Sys.cloudSettings (s : Sys) : CloudSettings where
  u8SessionKey := s.con.u8SessionKey
  u32ServerAddrConfig := s.zcConfigDb.struSwitchInfo.u32ServerAddrConfig
  u32ServerIp := s.zcConfigDb.struSwitchInfo.u32ServerIp
  u16ServerPort := s.zcConfigDb.struSwitchInfo.u16ServerPort
  struOtaInfo := s.con.struOtaInfo
  u8TokenKey := s.zcConfigDb.struCloudInfo.u8TokenKey

namespace Parsed

/-- The size of the structure, with the bytes that align it. -/
def size : Parsed → ℕ
  | .handShakeMsg2 => 48
  | .accessPoint => 40
  | .handShakeMsg4 => 32
  | .otaFileBeginReq => 8
  | .otaFileChunkReq => 4
  | .tokenSetReq => 16

section Handlers

variable (env : Env) (s : Sys) (message : View)

/-- The payload begins with the `RandMsg` of the handshake. -/
def Echoes : Prop := message.read sizeofMessageHead zcHsMsgLen = s.con.randMsg.bytes

instance : Decidable (Echoes s message) := inferInstanceAs (Decidable (_ = _))

/-- The checks of a chunk fail. -/
def Refuses : Prop :=
  otaChunkRefused (zcHtonl (loadU32 message sizeofMessageHead)) (subU32 (payloadLength message) 4) s

instance : Decidable (Refuses s message) := inferInstanceAs (Decidable (otaChunkRefused ..))

/-- The server address that an access point names. -/
def serverIp : ℕ := zcHtonl (loadU32 message (sizeofMessageHead + 32))

def serverPort : ℕ := zcHtons (loadU16 message (sizeofMessageHead + 36))

/-- What a handler sets. -/
def settings : Parsed → CloudSettings
  | .handShakeMsg2 =>
    if Echoes s message then
      { s.cloudSettings with u8SessionKey := .ofView message (sizeofMessageHead + 32) _ }
    else s.cloudSettings
  | .accessPoint =>
    if Echoes s message then
      { s.cloudSettings with
        u32ServerAddrConfig := 1, u32ServerIp := serverIp message, u16ServerPort := serverPort message }
    else s.cloudSettings
  | .handShakeMsg4 => s.cloudSettings
  | .otaFileBeginReq =>
    { s.cloudSettings with struOtaInfo := fileBeginInfo (message.shift sizeofMessageHead) }
  | .otaFileChunkReq =>
    if Refuses s message ∨ env.update = .error then s.cloudSettings
    else { s.cloudSettings with
      struOtaInfo := s.con.struOtaInfo.advance (subU32 (payloadLength message) 4) }
  | .tokenSetReq => { s.cloudSettings with u8TokenKey := .ofView message sizeofMessageHead _ }

/-- The access point that a message names is the one that is stored. -/
def NamesStored : Prop :=
  s.zcConfigDb.struSwitchInfo.u32ServerAddrConfig = 1 ∧
    s.zcConfigDb.struSwitchInfo.u32ServerIp = serverIp message ∧
      s.zcConfigDb.struSwitchInfo.u16ServerPort = serverPort message

/-- As far as the payload goes, it begins with the `RandMsg` of the handshake. -/
def BeginsEcho : Prop :=
  (message.read sizeofMessageHead zcHsMsgLen).take (payloadLength message) =
    s.con.randMsg.bytes.take (payloadLength message)

/-- The payload is as long as what its handler reads. Behind a payload that differs from `RandMsg`
nothing is read. The last two bytes of an access point are not read; without them it is still shorter
than the structure, and may name what is stored only. A chunk that is shorter than its head fails the
check of its length, whatever lies where its offset should. -/
def Covered : Parsed → Prop
  | .handShakeMsg2 => BeginsEcho s message → 48 ≤ payloadLength message
  | .accessPoint => BeginsEcho s message →
    40 ≤ payloadLength message ∨ 38 ≤ payloadLength message ∧ NamesStored s message
  | .handShakeMsg4 => BeginsEcho s message → 32 ≤ payloadLength message
  | .otaFileBeginReq => 8 ≤ payloadLength message
  | .otaFileChunkReq => True
  | .tokenSetReq => 16 ≤ payloadLength message

variable (fw : Firmware)

/-- Whatever lies behind the payload of the message, in the receive buffer and behind it: the
controller does the same, and leaves these bytes there. -/
def Independent : Prop :=
  ∀ (bytes : FixedBuffer msgBufferMaxLen) (beyond : View),
    Agree (sizeofMessageHead + payloadLength message) (bytes.view beyond) message →
      pctRun fw (env.behind beyond) (s.refill bytes) = (pctRun fw env s).refill bytes

/-- Of the bytes behind the head the handler reads those only that the checksum covers, and a payload
that is shorter than the structure changes none of the settings. -/
structure Validated (form : Parsed) : Prop where
  inside : Independent env s message fw
  unchanged : payloadLength message < form.size → (pctRun fw env s).cloudSettings = s.cloudSettings

end Handlers

end Parsed

section Settings

variable (fw : Firmware) (env : Env) {s t : Sys} {message : View}

/-- The settings are a part of what lasts, and of the session. -/
theorem cloudSettings_congr (store : t.store = s.store) (session : t.ctl.session = s.ctl.session) :
    t.cloudSettings = s.cloudSettings := by
  have db : t.zcConfigDb = s.zcConfigDb := congrArg Store.db store
  have ota : t.con.struOtaInfo = s.con.struOtaInfo := congrArg Store.ota store
  have key : t.con.u8SessionKey = s.con.u8SessionKey := congrArg Session.sessionKey session
  simp only [Sys.cloudSettings, db, ota, key]

variable (s)

@[simp] theorem cloudSettings_resetBuffer (pointer : BufPtr) :
    (s.resetBuffer pointer).cloudSettings = s.cloudSettings :=
  cloudSettings_congr (store_resetBuffer s pointer) (by rw [ctl_resetBuffer])

@[simp] theorem cloudSettings_timerStopTimer (via : Option TimerField) (slot : TimerIndex) :
    (timerStopTimer via slot s).cloudSettings = s.cloudSettings :=
  cloudSettings_congr (store_timerStopTimer s via slot) (by rw [ctl_timerStopTimer, Ctl.stop])

@[simp] theorem cloudSettings_pctDisConnectCloud :
    (pctDisConnectCloud s).cloudSettings = s.cloudSettings :=
  cloudSettings_congr (store_pctDisConnectCloud s) (by rw [ctl_pctDisConnectCloud, Ctl.disconnected])

@[simp] theorem cloudSettings_pctSendCloudAccessMsg3 :
    (pctSendCloudAccessMsg3 fw env s).cloudSettings = s.cloudSettings :=
  cloudSettings_congr (store_pctSendCloudAccessMsg3 fw env s)
    (by rw [ctl_pctSendCloudAccessMsg3, Ctl.set_session])

theorem OnlySends.cloudSettings (only : OnlySends s t) : t.cloudSettings = s.cloudSettings := by
  obtain ⟨_, _, _, rfl⟩ := only
  rfl

/-- A handler reads the queue and the buffer that the message lies in. -/
theorem popped_of_takenMessage {s : Sys} {env : Env} (taken : takenMessage env s = some message) :
    ∃ pointer next, msgPopMsg s.recvQueue = (some pointer, next) ∧
      (s.buffer pointer).u8MsgBuffer.view env.beyond = message := by
  obtain ⟨pointer, popped, same⟩ := Option.map_eq_some_iff.mp taken
  exact ⟨pointer, _, Prod.ext popped rfl, same⟩

variable {s}

/-- What the second message of a handshake, and an access point, set. -/
theorem settings_pctRecvAccessMsg2 (taken : takenMessage env s = some message)
    (valid : checksumHolds message) :
    (pctRecvAccessMsg2 fw env s).cloudSettings =
      if (ZcMessageHead.load message).msgCode = Code.handshake2 then
        Parsed.settings env s message .handShakeMsg2
      else if (ZcMessageHead.load message).msgCode = Code.accessPointRsp then
        Parsed.settings env s message .accessPoint
      else s.cloudSettings := by
  obtain ⟨pointer, next, popped, shown⟩ := popped_of_takenMessage taken
  have succeeds := mt not_checksumHolds.mpr (not_not_intro valid)
  have stopped : (timerStopTimer (some .access) s.con.u8AccessTimer
      { s with recvQueue := next }).cloudSettings = s.cloudSettings :=
    cloudSettings_timerStopTimer { s with recvQueue := next } (some .access) s.con.u8AccessTimer
  have echoed : message.read sizeofMessageHead zcHsMsgLen = s.con.randMsg.bytes ↔
      Parsed.Echoes s message := Iff.rfl
  rw [pctRecvAccessMsg2, popped]
  simp only [cloudSettings_resetBuffer, shown, if_neg succeeds, Parsed.settings]
  by_cases handshake : (ZcMessageHead.load message).msgCode = Code.handshake2
  · rw [if_pos (.inl handshake), if_pos handshake]
    simp only [if_pos handshake]
    by_cases echo : Parsed.Echoes s message
    · rw [if_pos (echoed.mpr echo), if_pos echo, cloudSettings_pctSendCloudAccessMsg3]
      rfl
    · rw [if_neg (mt echoed.mp echo), if_neg echo, cloudSettings_pctDisConnectCloud, stopped]
  · by_cases access : (ZcMessageHead.load message).msgCode = Code.accessPointRsp
    · rw [if_pos (.inr access), if_pos access]
      simp only [if_neg handshake]
      by_cases echo : Parsed.Echoes s message
      · rw [if_pos (echoed.mpr echo), if_pos echo, cloudSettings_pctDisConnectCloud]
        rfl
      · rw [if_neg (mt echoed.mp echo), if_neg echo, cloudSettings_pctDisConnectCloud, stopped]
    · rw [if_neg (not_or.mpr ⟨handshake, access⟩), if_neg handshake, if_neg access]
      rfl

/-- The fourth message of a handshake sets nothing. -/
theorem settings_pctRecvAccessMsg4 : (pctRecvAccessMsg4 env s).cloudSettings = s.cloudSettings := by
  apply cloudSettings_congr (store_pctRecvAccessMsg4 env s)
  rw [pctRecvAccessMsg4]
  rcases msgPopMsg s.recvQueue with ⟨_ | pointer, next⟩
  · rfl
  simp only [ctl_hfSetTimer, Ctl.set_session, ctl_stopHandle, Ctl.stopHandle_session,
    ctl_resetBuffer]
  split_ifs
  · rw [ctl_pctDisConnectCloud]
    rfl
  · rw [ctl_pctSendNotifyMsg]
    rfl
  · rw [ctl_pctDisConnectCloud, ctl_timerStopTimer]
    rfl
  · rfl

theorem settings_pctHandleOtaFileBeginMsg (msgId : UInt8) (pstruOta : View) :
    (pctHandleOtaFileBeginMsg fw env msgId pstruOta s).cloudSettings =
      { s.cloudSettings with struOtaInfo := fileBeginInfo pstruOta } :=
  (pctSendAckToCloud_onlySends fw env (otaFileBegin pstruOta s) msgId).cloudSettings

theorem settings_pctHandleOtaFileChunkMsg (pstruMsg : ZcMessageHead) (pstruOta : View) :
    (pctHandleOtaFileChunkMsg fw env pstruMsg pstruOta s).cloudSettings =
      if otaChunkRefused (zcHtonl (loadU32 pstruOta 0)) (subU32 (zcHtons pstruMsg.payloadlen) 4) s ∨
          env.update = .error then s.cloudSettings
      else { s.cloudSettings with
        struOtaInfo := s.con.struOtaInfo.advance (subU32 (zcHtons pstruMsg.payloadlen) 4) } := by
  simp only [pctHandleOtaFileChunkMsg]
  by_cases refused : otaChunkRefused (zcHtonl (loadU32 pstruOta 0))
      (subU32 (zcHtons pstruMsg.payloadlen) 4) s
  · rw [if_pos refused, if_pos (.inl refused)]
    exact (pctSendErrorMsg_onlySends fw env s pstruMsg.msgId).cloudSettings
  · by_cases failed : env.update = .error
    · rw [if_neg refused, if_pos failed, if_pos (.inr failed)]
      exact (pctSendErrorMsg_onlySends fw env _ pstruMsg.msgId).cloudSettings
    · rw [if_neg refused, if_neg failed, if_neg (not_or.mpr ⟨refused, failed⟩)]
      exact (pctSendAckToCloud_onlySends fw env _ pstruMsg.msgId).cloudSettings

theorem settings_pctSetTokenKey (msgId : UInt8) (pstruSetKey : View) :
    (pctSetTokenKey fw env msgId pstruSetKey s).cloudSettings =
      { s.cloudSettings with u8TokenKey := .ofView pstruSetKey 0 _ } :=
  ((pctSendEmptyMsg_onlySends fw env _ msgId zcSecAlgAes).trans
    (pctSendAckToCloud_onlySends fw env _ msgId)).cloudSettings

theorem pctDispatch_fileBegin {pstruMsg : ZcMessageHead} (payload : View) (pstruBuffer : BufPtr)
    (s : Sys) (code : pstruMsg.msgCode = Code.zotaFileBegin) :
    pctDispatch fw env pstruMsg payload pstruBuffer s =
      pctHandleOtaFileBeginMsg fw env pstruMsg.msgId payload s := by
  rw [pctDispatch, code, if_neg (by decide), if_pos rfl]

theorem pctDispatch_fileChunk {pstruMsg : ZcMessageHead} (payload : View) (pstruBuffer : BufPtr)
    (s : Sys) (code : pstruMsg.msgCode = Code.zotaFileChunk) :
    pctDispatch fw env pstruMsg payload pstruBuffer s =
      pctHandleOtaFileChunkMsg fw env pstruMsg payload s := by
  rw [pctDispatch, code, if_neg (by decide), if_neg (by decide), if_pos rfl]

theorem pctDispatch_tokenSet {pstruMsg : ZcMessageHead} (payload : View) (pstruBuffer : BufPtr)
    (s : Sys) (code : pstruMsg.msgCode = Code.tokenSet) :
    pctDispatch fw env pstruMsg payload pstruBuffer s =
      pctSetTokenKey fw env pstruMsg.msgId payload s := by
  rw [pctDispatch, code, if_neg (by decide), if_neg (by decide), if_neg (by decide),
    if_neg (by decide), if_neg (by decide), if_pos rfl]

/-- What a run of the controller makes of a message with a good checksum. -/
theorem settings_pctRun {form : Parsed} (consumed : consumedMessage env s = some message)
    (valid : checksumHolds message) (parses : parsed s message = some form) :
    (pctRun fw env s).cloudSettings = form.settings env s message := by
  rw [parsed] at parses
  rw [consumedMessage] at consumed
  cases main : s.con.u8MainState with
  | sleep | init | accessNet | waitAccess | waitUnbind | disconnectCloud =>
    rw [main] at parses
    cases parses
  | waitAccessRsp =>
    rw [main] at consumed
    have set := settings_pctRecvAccessMsg2 fw env consumed valid
    simp only [main] at parses
    simp only [pctRun, main, set]
    split_ifs at parses with handshake access
    · cases parses
      rw [if_pos handshake]
    · cases parses
      rw [if_neg handshake, if_pos access]
  | waitMsg4 =>
    simp only [main] at parses
    simp only [pctRun, main, settings_pctRecvAccessMsg4]
    split_ifs at parses
    cases parses
    rfl
  | connectCloud =>
    simp only [main] at consumed parses
    split_ifs at consumed with unbinding
    obtain ⟨pointer, next, _, handled⟩ := pctRun_of_taken fw main unbinding consumed valid
    rw [handled, cloudSettings_resetBuffer]
    have popped : { s with recvQueue := next }.cloudSettings = s.cloudSettings := rfl
    split_ifs at parses with begins chunk token
    · cases parses
      rw [pctDispatch_fileBegin fw env _ _ _ begins, settings_pctHandleOtaFileBeginMsg, popped]
      rfl
    · cases parses
      rw [pctDispatch_fileChunk fw env _ _ _ chunk, settings_pctHandleOtaFileChunkMsg, popped]
      rfl
    · cases parses
      have key : FixedBuffer.ofView (message.shift sizeofMessageHead) 0 zcHsSessionKeyLen =
          .ofView message sizeofMessageHead _ :=
        FixedBuffer.ext (View.read_shift ..)
      rw [pctDispatch_tokenSet fw env _ _ _ token, settings_pctSetTokenKey, popped, key]
      rfl

end Settings

/-- A fourth message of a handshake is taken if it echoes, and ends the connection if not. -/
theorem main_pctRecvAccessMsg4 {env : Env} {s : Sys} {message : View}
    (taken : takenMessage env s = some message) (valid : checksumHolds message)
    (code : (ZcMessageHead.load message).msgCode = Code.handshake4) :
    (pctRecvAccessMsg4 env s).con.u8MainState =
      if Parsed.Echoes s message then .connectCloud else .disconnectCloud := by
  obtain ⟨pointer, next, popped, shown⟩ := popped_of_takenMessage taken
  have succeeds := mt not_checksumHolds.mpr (not_not_intro valid)
  have echoed : message.read sizeofMessageHead zcHsMsgLen = s.con.randMsg.bytes ↔
      Parsed.Echoes s message := Iff.rfl
  change (pctRecvAccessMsg4 env s).ctl.main = _
  rw [pctRecvAccessMsg4, popped]
  simp only [ctl_hfSetTimer, Ctl.set_main, ctl_stopHandle, Ctl.stopHandle_main, ctl_resetBuffer,
    shown, code, if_true, if_neg succeeds, echoed]
  split_ifs <;> rfl

namespace Parsed

section Agreement

variable {env : Env} {s : Sys} {message other : View} {beyond : View}
  {bytes : FixedBuffer msgBufferMaxLen}

theorem payloadLength_agree
    (agree : Agree (sizeofMessageHead + payloadLength message) other message) :
    payloadLength other = payloadLength message := by
  rw [payloadLength, agree.head (Nat.le_add_right ..), payloadLength]

theorem checksumHolds_agree
    (agree : Agree (sizeofMessageHead + payloadLength message) other message)
    (valid : checksumHolds message) : checksumHolds other := by
  have head := agree.head (Nat.le_add_right ..)
  have payload : other.read sizeofMessageHead (payloadLength message) =
      message.read sizeofMessageHead (payloadLength message) := agree.read (Nat.le_refl _)
  rw [checksumHolds, head]
  exact (congrArg (fun read => pctCheckCrc (ZcMessageHead.load message).totalMsgCrc read = .ok)
    payload).mpr valid

/-- How a payload begins does not depend on what is behind it. -/
theorem beginsEcho_agree
    (agree : Agree (sizeofMessageHead + payloadLength message) other message) :
    BeginsEcho s other ↔ BeginsEcho s message := by
  have begins : (other.read sizeofMessageHead zcHsMsgLen).take (payloadLength message) =
      (message.read sizeofMessageHead zcHsMsgLen).take (payloadLength message) := by
    rw [View.take_read, View.take_read]
    exact agree.read (by omega)
  rw [BeginsEcho, payloadLength_agree agree, begins, BeginsEcho]

theorem beginsEcho_of_echoes (echo : Echoes s message) : BeginsEcho s message :=
  congrArg (List.take (payloadLength message)) echo

theorem echoes_of_beginsEcho (whole : zcHsMsgLen ≤ payloadLength message)
    (begins : BeginsEcho s message) : Echoes s message := by
  have size := s.con.randMsg.size_eq
  rwa [BeginsEcho, List.take_of_length_le (by rwa [View.read_length]),
    List.take_of_length_le (by rwa [size])] at begins

/-- Whether a message echoes depends on its payload only, unless the payload is a beginning of
`RandMsg`. -/
theorem echoes_agree (agree : Agree (sizeofMessageHead + payloadLength message) other message)
    (whole : BeginsEcho s message → zcHsMsgLen ≤ payloadLength message) :
    Echoes s other ↔ Echoes s message := by
  have length := payloadLength_agree agree
  have begins := beginsEcho_agree (s := s) agree
  constructor
  · intro echo
    have begun := begins.mp (beginsEcho_of_echoes echo)
    exact echoes_of_beginsEcho (whole begun) begun
  · intro echo
    have begun := beginsEcho_of_echoes echo
    exact echoes_of_beginsEcho (by rw [length]; exact whole begun) (begins.mpr begun)

/-- With other bytes in the receive buffer the controller takes these. -/
theorem consumedMessage_refill (whole : s.inbox.Whole)
    (consumed : consumedMessage env s = some message) :
    consumedMessage (env.behind beyond) (s.refill bytes) = some (bytes.view beyond) := by
  have taken (first : takenMessage env s = some message) :
      takenMessage (env.behind beyond) (s.refill bytes) = some (bytes.view beyond) := by
    obtain ⟨next, popped, _⟩ := popped_of_taken whole first
    have queue : (s.refill bytes).recvQueue = s.recvQueue := rfl
    rw [takenMessage, queue, popped]
    rfl
  have main : (s.refill bytes).con.u8MainState = s.con.u8MainState := rfl
  have config : (s.refill bytes).zcConfigDb = s.zcConfigDb := rfl
  rw [consumedMessage] at consumed ⊢
  rw [main, config]
  cases state : s.con.u8MainState with
  | sleep | init | accessNet | waitAccess | disconnectCloud =>
    rw [state] at consumed
    cases consumed
  | waitAccessRsp | waitMsg4 | waitUnbind =>
    rw [state] at consumed
    exact taken consumed
  | connectCloud =>
    simp only [state] at consumed ⊢
    split_ifs at consumed with unbinding
    rw [if_neg unbinding]
    exact taken consumed

end Agreement

section Reads

variable (fw : Firmware) {env : Env} {s : Sys} {message : View} {form : Parsed}

/-- A payload that is as long as what its handler reads is all that the handler reads. -/
theorem independent_of_covered (whole : s.inbox.Whole)
    (consumed : consumedMessage env s = some message) (parses : parsed s message = some form)
    (covered : Covered s message form) : Independent env s message fw := by
  intro bytes beyond agree
  have state : (s.refill bytes).con.u8MainState = s.con.u8MainState := rfl
  rw [consumedMessage] at consumed
  rw [parsed] at parses
  cases main : s.con.u8MainState with
  | sleep | init | accessNet | waitAccess | waitUnbind | disconnectCloud =>
    rw [main] at parses
    cases parses
  | waitAccessRsp =>
    rw [main] at consumed
    obtain ⟨next, popped, shown⟩ := popped_of_taken whole consumed
    simp only [main] at parses
    simp only [pctRun, state, main]
    split_ifs at parses with handshake access
    · cases parses
      have long : BeginsEcho s message → zcHsMsgLen ≤ payloadLength message := fun begins =>
        Nat.le_trans (by decide) (covered begins)
      refine refill_pctRecvAccessMsg2 fw popped shown.symm rfl agree (echoes_agree agree long)
        (fun echo _ => ?_) (fun _ other => absurd handshake other)
      exact agree.ofView (Nat.add_le_add_left (covered (beginsEcho_of_echoes echo)) _)
    · cases parses
      have port (begins : BeginsEcho s message) : 38 ≤ payloadLength message := by
        rcases covered begins with read | ⟨read, _⟩ <;> omega
      have long : BeginsEcho s message → zcHsMsgLen ≤ payloadLength message := fun begins =>
        Nat.le_trans (by decide) (port begins)
      refine refill_pctRecvAccessMsg2 fw popped shown.symm rfl agree (echoes_agree agree long)
        (fun _ code => absurd code handshake) (fun echo _ => ?_)
      have read := Nat.add_le_add_left (port (beginsEcho_of_echoes echo)) sizeofMessageHead
      exact ⟨agree.loadU32 (Nat.le_trans (by decide) read), agree.loadU16 read⟩
  | waitMsg4 =>
    rw [main] at consumed
    obtain ⟨next, popped, shown⟩ := popped_of_taken whole consumed
    simp only [main] at parses
    simp only [pctRun, state, main]
    split_ifs at parses
    cases parses
    exact refill_pctRecvAccessMsg4 popped shown.symm rfl agree (echoes_agree agree covered)
  | connectCloud =>
    simp only [main] at consumed parses
    split_ifs at consumed with bound
    obtain ⟨next, popped, shown⟩ := popped_of_taken whole consumed
    simp only [pctRun, state, main]
    refine refill_pctHandleEvent fw popped shown.symm rfl agree bound fun t => ?_
    have payload : Agree (payloadLength message) ((bytes.view beyond).shift sizeofMessageHead)
        (message.shift sizeofMessageHead) := agree.shift
    split_ifs at parses with begins chunk token
    · cases parses
      rw [pctDispatch_fileBegin fw _ _ _ _ begins, pctDispatch_fileBegin fw _ _ _ _ begins]
      exact refill_pctHandleOtaFileBeginMsg fw _ (payload.mono covered)
    · cases parses
      rw [pctDispatch_fileChunk fw _ _ _ _ chunk, pctDispatch_fileChunk fw _ _ _ _ chunk]
      exact refill_pctHandleOtaFileChunkMsg fw _ payload
    · cases parses
      rw [pctDispatch_tokenSet fw _ _ _ _ token, pctDispatch_tokenSet fw _ _ _ _ token]
      exact refill_pctSetTokenKey fw _ (payload.mono covered)

/-- If nothing behind the payload is read, then another message with this payload could lie in the
buffer and the controller would do the same. -/
theorem exists_twin (whole : s.inbox.Whole) (consumed : consumedMessage env s = some message)
    (valid : checksumHolds message) (parses : parsed s message = some form)
    (independent : Independent env s message fw) {chosen : View}
    (agree : Agree (sizeofMessageHead + payloadLength message) chosen message) :
    ∃ bytes beyond, consumedMessage (env.behind beyond) (s.refill bytes) = some chosen ∧
      checksumHolds chosen ∧ parsed (s.refill bytes) chosen = some form ∧
      pctRun fw (env.behind beyond) (s.refill bytes) = (pctRun fw env s).refill bytes := by
  obtain ⟨bytes, beyond, rfl⟩ := FixedBuffer.exists_view msgBufferMaxLen chosen
  refine ⟨bytes, beyond, consumedMessage_refill whole consumed, checksumHolds_agree agree valid, ?_,
    independent bytes beyond agree⟩
  rw [← parses, parsed, agree.head (Nat.le_add_right ..), parsed]
  rfl

/-- If nothing behind the payload is read, then what is set does not depend on it. -/
theorem settings_of_independent (whole : s.inbox.Whole)
    (consumed : consumedMessage env s = some message) (valid : checksumHolds message)
    (parses : parsed s message = some form) (independent : Independent env s message fw)
    {chosen : View} (agree : Agree (sizeofMessageHead + payloadLength message) chosen message) :
    form.settings env s chosen = form.settings env s message := by
  obtain ⟨bytes, beyond, taken, holds, reparsed, same⟩ :=
    exists_twin fw whole consumed valid parses independent agree
  calc form.settings env s chosen
      = form.settings (env.behind beyond) (s.refill bytes) chosen := by cases form <;> rfl
    _ = (pctRun fw (env.behind beyond) (s.refill bytes)).cloudSettings :=
        (settings_pctRun fw (env.behind beyond) taken holds reparsed).symm
    _ = (pctRun fw env s).cloudSettings := by rw [same]; rfl
    _ = form.settings env s message := settings_pctRun fw env consumed valid parses

/-- Whether the fourth message of a handshake is taken shows in the main state. -/
theorem main_pctRun (consumed : consumedMessage env s = some message) (valid : checksumHolds message)
    (parses : parsed s message = some .handShakeMsg4) : (pctRun fw env s).con.u8MainState =
      if Echoes s message then .connectCloud else .disconnectCloud := by
  rw [consumedMessage] at consumed
  rw [parsed] at parses
  cases main : s.con.u8MainState with
  | sleep | init | accessNet | waitAccess | waitUnbind | disconnectCloud =>
    rw [main] at parses
    cases parses
  | waitAccessRsp | connectCloud =>
    simp only [main] at parses
    split_ifs at parses <;> cases parses
  | waitMsg4 =>
    rw [main] at consumed
    simp only [main] at parses
    split_ifs at parses with handshake
    simp only [pctRun, main]
    exact main_pctRecvAccessMsg4 consumed valid handshake

theorem echoes_of_independent (whole : s.inbox.Whole)
    (consumed : consumedMessage env s = some message) (valid : checksumHolds message)
    (parses : parsed s message = some .handShakeMsg4) (independent : Independent env s message fw)
    {chosen : View} (agree : Agree (sizeofMessageHead + payloadLength message) chosen message) :
    Echoes s chosen ↔ Echoes s message := by
  obtain ⟨bytes, beyond, taken, holds, reparsed, same⟩ :=
    exists_twin fw whole consumed valid parses independent agree
  have chosen_main := main_pctRun fw taken holds reparsed
  have main := main_pctRun fw consumed valid parses
  have shared : Echoes (s.refill bytes) chosen ↔ Echoes s chosen := Iff.rfl
  have kept : ((pctRun fw env s).refill bytes).con.u8MainState = (pctRun fw env s).con.u8MainState :=
    rfl
  rw [same, kept, main] at chosen_main
  simp only [shared] at chosen_main
  split_ifs at chosen_main with first second
  · exact iff_of_true second first
  · exact iff_of_false ‹_› first

end Reads

section Continued

/-- The last byte of a field in network order is the last of the number. -/
theorem zcHtonl_mod (memory : View) (offset : ℕ) :
    zcHtonl (loadU32 memory offset) % 2 ^ 8 = (memory (offset + 3)).toNat := by
  have last := (memory (offset + 3)).toNat_lt
  rw [zcHtonl_loadU32]
  omega

theorem serverPort_mod (message : View) :
    serverPort message % 2 ^ 8 = (message (sizeofMessageHead + 37)).toNat := by
  have first := (message (sizeofMessageHead + 36)).toNat_lt
  have last := (message (sizeofMessageHead + 37)).toNat_lt
  rw [serverPort, loadU16, zcHtons_split first last]
  omega

/-- A message with other bytes behind its payload. -/
def continued (message rest : View) : View := fun index =>
  if index < sizeofMessageHead + payloadLength message then message index else rest index

/-- The rest of an echo, and a byte behind it. -/
def echoing (s : Sys) (byte : UInt8) : View := fun index =>
  if index < sizeofMessageHead + zcHsMsgLen then s.con.randMsg.bytes.getD (index - sizeofMessageHead) 0
  else byte

variable {s : Sys} {message : View}

theorem continued_agree (rest : View) :
    Agree (sizeofMessageHead + payloadLength message) (continued message rest) message :=
  fun _ before => if_pos before

theorem continued_behind (rest : View) {index : ℕ}
    (behind : sizeofMessageHead + payloadLength message ≤ index) :
    continued message rest index = rest index := if_neg (Nat.not_lt.mpr behind)

/-- A byte of an array that is read from behind the payload. -/
theorem ofView_continued (rest : View) {offset size index : ℕ} (inside : index < size)
    (behind : sizeofMessageHead + payloadLength message ≤ offset + index) :
    (FixedBuffer.ofView (continued message rest) offset size).bytes.getD index 0 =
      rest (offset + index) :=
  (View.read_getD _ _ _ inside).trans (continued_behind rest behind)

/-- A payload that begins `RandMsg` can go on with it. -/
theorem echoes_continued (begins : BeginsEcho s message) (byte : UInt8) :
    Echoes s (continued message (echoing s byte)) := by
  have size := s.con.randMsg.size_eq
  apply List.ext_getElem
  · rw [View.read_length, size]
  · intro index inside within
    rw [View.read_getElem]
    rw [View.read_length] at inside
    rcases Nat.lt_or_ge index (payloadLength message) with covered | behind
    · have shown := (List.ext_getElem_iff.mp begins).2 index (by simp; omega) (by simp; omega)
      rw [List.getElem_take, View.read_getElem, List.getElem_take] at shown
      rw [continued, if_pos (by omega), shown]
    · rw [continued_behind _ (by omega), echoing, if_pos (by omega), Nat.add_sub_cancel_left,
        List.getD_eq_getElem _ _ within]

end Continued

section Necessity

variable (fw : Firmware) {env : Env} {s : Sys} {message : View}

/-- A handler that sets the last byte behind the payload depends on it. -/
theorem covered_of_independent {form : Parsed} (whole : s.inbox.Whole)
    (consumed : consumedMessage env s = some message) (valid : checksumHolds message)
    (parses : parsed s message = some form) (independent : Independent env s message fw)
    (unchanged : payloadLength message < form.size →
      (pctRun fw env s).cloudSettings = s.cloudSettings) : Covered s message form := by
  have set := settings_pctRun fw env consumed valid parses
  have same (first second : View) : form.settings env s (continued message first) =
      form.settings env s (continued message second) :=
    (settings_of_independent fw whole consumed valid parses independent
      (continued_agree first)).trans
    (settings_of_independent fw whole consumed valid parses independent
      (continued_agree second)).symm
  cases form with
  | handShakeMsg2 =>
    intro begins
    by_contra short
    have key := congrArg (fun set : CloudSettings => set.u8SessionKey.bytes.getD 15 0)
      (same (echoing s 0) (echoing s 1))
    simp only [settings, echoes_continued begins, if_true] at key
    rw [ofView_continued _ (by decide) (by omega), ofView_continued _ (by decide) (by omega)] at key
    exact absurd key (by decide : (0 : UInt8) ≠ 1)
  | accessPoint =>
    intro begins
    by_contra uncovered
    obtain ⟨short, unnamed⟩ := not_or.mp uncovered
    have port : 38 ≤ payloadLength message := by
      by_contra before
      have last := congrArg (fun set : CloudSettings => set.u16ServerPort % 2 ^ 8)
        (same (echoing s 0) (echoing s 1))
      simp only [settings, echoes_continued begins, if_true, serverPort_mod] at last
      rw [continued_behind _ (by omega), continued_behind _ (by omega)] at last
      exact absurd last (by decide : (0 : UInt8).toNat ≠ (1 : UInt8).toNat)
    have echo : Echoes s message := echoes_of_beginsEcho (Nat.le_trans (by decide) port) begins
    have kept := set.symm.trans (unchanged (Nat.lt_of_not_le short))
    simp only [settings, echo, if_true] at kept
    exact unnamed ⟨port, (congrArg CloudSettings.u32ServerAddrConfig kept).symm,
      (congrArg CloudSettings.u32ServerIp kept).symm,
      (congrArg CloudSettings.u16ServerPort kept).symm⟩
  | handShakeMsg4 =>
    intro begins
    by_contra short
    have echoed (rest : View) : Echoes s (continued message rest) ↔ Echoes s message :=
      echoes_of_independent fw whole consumed valid parses independent (continued_agree rest)
    have other : Echoes s (continued message fun _ => s.con.randMsg.bytes.getD 31 0 + 1) :=
      (echoed _).mpr ((echoed _).mp (echoes_continued begins 0))
    have last := congrArg (fun bytes : List UInt8 => bytes.getD 31 0) other
    rw [View.read_getD _ _ _ (by decide), continued_behind _ (by omega)] at last
    exact absurd last (by simp)
  | otaFileBeginReq =>
    by_contra short
    have short : payloadLength message < 8 := Nat.lt_of_not_le short
    have last := congrArg (fun set : CloudSettings => set.struOtaInfo.u32TotalLen % 2 ^ 8)
      (same (fun _ => 0) (fun _ => 1))
    simp only [settings, fileBeginInfo, zcHtonl_mod, View.shift] at last
    rw [continued_behind _ (by omega), continued_behind _ (by omega)] at last
    exact absurd last (by decide : (0 : UInt8).toNat ≠ (1 : UInt8).toNat)
  | otaFileChunkReq => trivial
  | tokenSetReq =>
    by_contra short
    have short : payloadLength message < 16 := Nat.lt_of_not_le short
    have key := congrArg (fun set : CloudSettings => set.u8TokenKey.bytes.getD 15 0)
      (same (fun _ => 0) (fun _ => 1))
    simp only [settings] at key
    rw [ofView_continued _ (by decide) (by omega), ofView_continued _ (by decide) (by omega)] at key
    exact absurd key (by decide : (0 : UInt8) ≠ 1)

/-- A short payload that its handler accepts or refuses by what it covers sets nothing new. -/
theorem unchanged_of_covered {form : Parsed} (covered : Covered s message form)
    (short : payloadLength message < form.size) :
    form.settings env s message = s.cloudSettings := by
  cases form with
  | handShakeMsg2 =>
    have silent : ¬ Echoes s message := fun echo =>
      absurd (covered (beginsEcho_of_echoes echo)) (Nat.not_le.mpr short)
    exact if_neg silent
  | accessPoint =>
    by_cases echo : Echoes s message
    · rcases covered (beginsEcho_of_echoes echo) with whole | ⟨_, configured, ip, port⟩
      · exact absurd whole (Nat.not_le.mpr short)
      · simp only [settings, echo, if_true, Sys.cloudSettings, configured, ip, port]
    · exact if_neg echo
  | handShakeMsg4 => rfl
  | otaFileBeginReq => exact absurd covered (Nat.not_le.mpr short)
  | otaFileChunkReq =>
    have short : payloadLength message < 4 := short
    have long : zcOtaMaxChunkLen < subU32 (payloadLength message) 4 := by
      rw [subU32, zcOtaMaxChunkLen]
      omega
    exact if_pos (.inl (.inr (.inr long)))
  | tokenSetReq => exact absurd covered (Nat.not_le.mpr short)

end Necessity

/-- In every reachable state, for every message with a good checksum that the controller takes there
and the structure its handler casts the payload to: what the controller does depends on no byte behind
the payload, and a payload that is shorter than the structure changes no setting, if and only if the
payload is as long as what is read. -/
theorem validated_iff_covered (fw : Firmware) (flash : Option ZcConfigDb)
    (registerInfo : ZcRegisterInfo) (tape : List Action) (s : Sys) (env : Env) (message : View)
    (form : Parsed) (reached : (firmware fw).replay? (hfInit flash registerInfo) tape = some s)
    (consumed : consumedMessage env s = some message) (valid : checksumHolds message)
    (parses : parsed s message = some form) :
    Validated env s message fw form ↔ Covered s message form := by
  have whole := whole_replay reached
  constructor
  · rintro ⟨inside, unchanged⟩
    exact covered_of_independent fw whole consumed valid parses inside unchanged
  · intro covered
    refine ⟨independent_of_covered fw whole consumed parses covered, fun short => ?_⟩
    rw [settings_pctRun fw env consumed valid parses, unchanged_of_covered covered short]

/-- A token set reaches a connected device. -/
def settingToken (payload : List UInt8) : List Action :=
  connecting ++ [.cloudRecvfunc .calm (some (plainFrame (messageBytes Code.tokenSet 1 payload)))]

/-- A key of sixteen bytes is taken from the payload. -/
theorem validated_iff_covered_token : ∃ s message,
    (firmware .plain).replay? (hfInit none .zero) (settingToken (List.replicate 16 3)) = some s ∧
      consumedMessage .calm s = some message ∧ checksumHolds message ∧
      parsed s message = some .tokenSetReq ∧ Validated .calm s message .plain .tokenSetReq := by
  have ran : ((firmware .plain).replay? (hfInit none .zero)
      (settingToken (List.replicate 16 3))).any fun s =>
        (consumedMessage .calm s).any fun message => checksumHolds message ∧
          parsed s message = some .tokenSetReq ∧ payloadLength message = 16 := by decide +kernel
  obtain ⟨s, reached, found⟩ := Option.any_eq_true .. |>.mp ran
  obtain ⟨message, consumed, found⟩ := Option.any_eq_true .. |>.mp found
  obtain ⟨valid, parses, length⟩ := of_decide_eq_true found
  refine ⟨s, message, reached, consumed, valid, parses, ?_⟩
  exact (validated_iff_covered .plain none .zero _ s .calm message .tokenSetReq reached consumed valid
    parses).mpr (Nat.le_of_eq length.symm)

/-- An empty token set sets the key to what its own frame and the handshake have left in the buffer. -/
theorem validated_fails : ∃ s message,
    (firmware .plain).replay? (hfInit none .zero) (settingToken []) = some s ∧
      consumedMessage .calm s = some message ∧ checksumHolds message ∧
      parsed s message = some .tokenSetReq ∧ payloadLength message = 0 ∧
      (pctRun .plain .calm s).cloudSettings.u8TokenKey ≠ s.cloudSettings.u8TokenKey ∧
      (pctRun .plain .calm s).cloudSettings.u8TokenKey.bytes =
        List.replicate 4 0 ++ List.replicate 12 65 ∧
      ¬ Validated .calm s message .plain .tokenSetReq := by
  have ran : ((firmware .plain).replay? (hfInit none .zero) (settingToken [])).any fun s =>
      (consumedMessage .calm s).any fun message => checksumHolds message ∧
        parsed s message = some .tokenSetReq ∧ payloadLength message = 0 ∧
        (pctRun .plain .calm s).cloudSettings.u8TokenKey ≠ s.cloudSettings.u8TokenKey ∧
        (pctRun .plain .calm s).cloudSettings.u8TokenKey.bytes =
          List.replicate 4 0 ++ List.replicate 12 65 := by
    decide +kernel
  obtain ⟨s, reached, found⟩ := Option.any_eq_true .. |>.mp ran
  obtain ⟨message, consumed, found⟩ := Option.any_eq_true .. |>.mp found
  obtain ⟨valid, parses, empty, changed, stale⟩ := of_decide_eq_true found
  refine ⟨s, message, reached, consumed, valid, parses, empty, changed, stale, ?_⟩
  intro validated
  have kept := validated.unchanged (by rw [empty]; decide)
  exact changed (congrArg CloudSettings.u8TokenKey kept)

end Parsed

end ShuangFa
