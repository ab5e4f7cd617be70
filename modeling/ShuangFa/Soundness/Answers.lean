import ShuangFa.Lasting.Calls
import ShuangFa.Send.SendBuffer
import ShuangFa.Soundness.Link

/-! # The answers to the requests of the cloud

A request that the controller serves itself is answered with `ZC_CODE_ACK` or `ZC_CODE_ERR` under
its own id. The answer goes out under the key of the session, so it goes out only while the device
is in one: `PCT_ResetNetWork` leaves the session before it answers.
-/

namespace ShuangFa

open Memory

/-- The cloud's end of the session a device is in. -/
def cloudEnd (context : SecContext) : SecContext :=
  { context with u8keyRecv := true, ivRecv := context.ivSend }

/-- The message the other end reads in a frame, if the frame opens. -/
def frameMessage (crypto : Crypto) (peer : SecContext) (stale : Stale) (frame : List UInt8) :
    Option (List UInt8) :=
  let memory := View.ofList frame
  let opened := secDecrypt crypto peer stale (.load memory) (memory.shift sizeofSecHead)
  if opened.ret = .ok then some (opened.plain.take opened.u16PlainLen) else none

/-- `ZC_CODE_ACK` or `ZC_CODE_ERR` with an id. -/
def isAnswer (msgId : UInt8) (message : List UInt8) : Prop :=
  let head := ZcMessageHead.load (.ofList message)
  (head.msgCode = Code.ack ∨ head.msgCode = Code.err) ∧ head.msgId = msgId

instance (msgId : UInt8) (message : List UInt8) : Decidable (isAnswer msgId message) :=
  inferInstanceAs (Decidable (_ ∧ _))

/-- A frame for the cloud in which the other end reads a message of some kind. -/
def AdapterCall.Reads (crypto : Crypto) (peer : SecContext) (stale : Stale)
    (kind : List UInt8 → Prop) : AdapterCall → Prop
  | .sendTcpData _ frame => ∃ message ∈ frameMessage crypto peer stale frame, kind message
  | _ => False

instance (crypto : Crypto) (peer : SecContext) (stale : Stale) (kind : List UInt8 → Prop)
    [DecidablePred kind] : DecidablePred (AdapterCall.Reads crypto peer stale kind) :=
  fun call => decidable_of_iff
    ((match call with
      | .sendTcpData _ frame =>
        (frameMessage crypto peer stale frame).any fun message => decide (kind message)
      | _ => false) = true) (by cases call <;> simp [AdapterCall.Reads, Option.any_eq_true])

theorem AdapterCall.Reads.toCloud {crypto : Crypto} {peer : SecContext} {stale : Stale}
    {kind : List UInt8 → Prop} {call : AdapterCall} (reads : call.Reads crypto peer stale kind) :
    call.ToCloud := by
  cases call <;> first | exact trivial | exact reads

/-- How many messages of some kind the cloud reads in the frames that a step hands to
`pfunSendTcpData`. -/
def framesRead (fw : Firmware) (stale : Stale) (kind : List UInt8 → Prop) [DecidablePred kind]
    (s t : Sys) : ℕ :=
  (t.calls.drop s.calls.length).countP
    (AdapterCall.Reads fw.crypto (cloudEnd s.secContext) stale kind ·)

/-- How often `PCT_Run` answers the request with an id. -/
def answersSent (fw : Firmware) (env : Env) (stale : Stale) (msgId : UInt8) (s : Sys) : ℕ :=
  framesRead fw stale (isAnswer msgId) s (pctRun fw env s)

/-- The codes of the requests that the controller serves and answers. -/
def requestCodes : List UInt8 :=
  [Code.zotaBegin, Code.zotaFileBegin, Code.zotaFileChunk, Code.zotaFileEnd, Code.zotaEnd,
    Code.tokenSet, Code.resetNetwork]

/-- A connected device in a session, which is not to be unbound and has nothing in its send buffer,
handles a valid message. -/
def ServesRequest (env : Env) (s : Sys) (msgCode msgId : UInt8) : Prop :=
  s.con.u8MainState = .connectCloud ∧
    s.zcConfigDb.struDeviceInfo.u32UnBindFlag ≠ zcMagicFlag ∧ s.con.u8keyRecv = true ∧
      s.sendBuffer.u8Status = .idle ∧ s.zcConfigDb.struSwitchInfo.u32SecSwitch = 1 ∧
        ∃ message ∈ takenMessage env s, checksumHolds message ∧
          (ZcMessageHead.load message).msgCode = msgCode ∧
            (ZcMessageHead.load message).msgId = msgId

instance (env : Env) (s : Sys) (msgCode msgId : UInt8) :
    Decidable (ServesRequest env s msgCode msgId) :=
  inferInstanceAs (Decidable (_ ∧ _ ∧ _ ∧ _ ∧ _ ∧ _))

/-- A state in the session with nothing in the send buffer. -/
structure InSession (context : SecContext) (s : Sys) : Prop where
  context : s.secContext = context
  idle : s.sendBuffer.u8Status = .idle

/-- A message that is short enough for the send buffer once it is encrypted for AES. -/
def aesTextMax : ℕ := 415

section Sealing

variable (fw : Firmware) (env : Env) {context : SecContext} {s t : Sys} {message : List UInt8}
  (u8Resver : UInt8)

/-- The head with which the controller sends a message it has built. -/
def aesHead (u8Resver : UInt8) (message : List UInt8) : ZcSecHead :=
  ⟨zcHtons message.length, zcSecAlgAes, u8Resver⟩

theorem aesHead_total (short : message.length ≤ aesTextMax) :
    zcHtons (aesHead u8Resver message).u16TotalMsg = message.length := by
  apply zcHtons_zcHtons
  exact Nat.lt_of_le_of_lt short (by decide)

theorem OnlySends.secContext (only : OnlySends s t) : t.secContext = s.secContext := by
  obtain ⟨_, _, _, rfl⟩ := only
  rfl

/-- What lies behind the head of a frame. -/
theorem read_behind (head : ZcSecHead) (cipher : List UInt8) :
    ((View.ofList (head.bytes ++ cipher)).shift sizeofSecHead).read 0 cipher.length = cipher := by
  have whole : sizeofSecHead + cipher.length ≤ (head.bytes ++ cipher).length := frame_length.ge
  rw [View.read_shift, Nat.add_zero, ← View.read_part _ (Nat.le_refl _), View.read_ofList _ whole,
    List.take_of_length_le frame_length.le]
  exact List.take_length

/-- A message for AES is encrypted for AES or, with the switch off, not at all. -/
theorem aesHead_cases (encrypts : (secEncrypt fw.crypto context env.pads (aesHead u8Resver message)
      (.ofList message)).ret = .ok) :
    secEncryptType context.u32SecSwitch zcSecAlgAes = zcSecAlgNone ∨
      secEncryptType context.u32SecSwitch zcSecAlgAes = zcSecAlgAes ∧ context.u8keyRecv = true := by
  rcases secEncrypt_cases encrypts with type | type | type
  · exact .inl type
  · exact .inr type
  · simp only [aesHead, secEncryptType] at type
    split_ifs at type <;> cases type

/-- What is encrypted for AES is no longer than the blocks of the text. -/
theorem aes_cipher_fits (short : message.length ≤ aesTextMax)
    (encrypts : (secEncrypt fw.crypto context env.pads (aesHead u8Resver message)
      (.ofList message)).ret = .ok) :
    (secEncrypt fw.crypto context env.pads (aesHead u8Resver message)
      (.ofList message)).cipher.length + sizeofSecHead ≤ msgBufferMaxLen := by
  have bound : message.length ≤ 415 := short
  have total := aesHead_total u8Resver short
  rw [sizeofSecHead, msgBufferMaxLen]
  rcases aesHead_cases fw env u8Resver encrypts with type | ⟨type, keyed⟩
  · rw [secEncrypt_none type, View.read_length]
    omega
  · rw [secEncrypt_aes type, secAesEncrypt, if_pos keyed]
    simp only [aesCbcCoreEncrypt_length]
    omega

/-- The other end reads the message that was sealed. -/
theorem frameMessage_sealed (short : message.length ≤ aesTextMax)
    (encrypts : (secEncrypt fw.crypto context env.pads (aesHead u8Resver message)
      (.ofList message)).ret = .ok)
    (aes : ∀ block, fw.crypto.aesDecrypt context.u8SessionKey
      (fw.crypto.aesEncrypt context.u8SessionKey block) = block) {head : ZcSecHead}
    (type : head.u8SecType = secEncryptType context.u32SecSwitch zcSecAlgAes)
    (total : head.u16TotalMsg = zcHtons (secEncrypt fw.crypto context env.pads
      (aesHead u8Resver message) (.ofList message)).cipher.length) (stale : Stale) :
    frameMessage fw.crypto (cloudEnd context) stale (head.bytes ++
      (secEncrypt fw.crypto context env.pads (aesHead u8Resver message)
        (.ofList message)).cipher) = some message := by
  have fits : (secEncrypt fw.crypto context env.pads (aesHead u8Resver message)
      (.ofList message)).cipher.length + 4 ≤ 424 := aes_cipher_fits fw env u8Resver short encrypts
  have loaded := load_bytes head (secEncrypt fw.crypto context env.pads (aesHead u8Resver message)
    (.ofList message)).cipher (total ▸ zcHtons_lt _)
  have announced : zcHtons head.u16TotalMsg = (secEncrypt fw.crypto context env.pads
      (aesHead u8Resver message) (.ofList message)).cipher.length := by
    rw [total]
    exact zcHtons_zcHtons _ (by omega)
  have behind := read_behind head (secEncrypt fw.crypto context env.pads (aesHead u8Resver message)
    (.ofList message)).cipher
  have text : (View.ofList message).read 0 (zcHtons (aesHead u8Resver message).u16TotalMsg) =
      message := by
    rw [aesHead_total u8Resver short, View.read_ofList _ (Nat.le_refl _), List.take_length]
  have peerKeyed : context.u8keyRecv = true → (cloudEnd context).u8keyRecv = true := fun _ => rfl
  have sessionKey : (cloudEnd context).u8SessionKey = context.u8SessionKey := rfl
  have iv : (cloudEnd context).ivRecv = context.ivSend := rfl
  have other : secEncryptType context.u32SecSwitch zcSecAlgAes ≠ zcSecAlgRsa := by
    rw [secEncryptType]
    split_ifs <;> decide
  have agreed : secFlag (cloudEnd context).u32SecSwitch head.u8SecType =
      secEncryptType context.u32SecSwitch zcSecAlgAes := by
    have flag := secFlag_eq context.u32SecSwitch head.u8SecType
    rw [type, secEncryptType_idem, if_neg fun both => other both.2] at flag
    rw [type]
    exact flag
  obtain ⟨rest, opened⟩ := secDecrypt_secEncrypt_shared peerKeyed sessionKey iv aes encrypts other
    agreed announced stale behind
  simp only [frameMessage]
  rw [loaded, opened, if_pos rfl, text, aesHead_total u8Resver short, List.take_left' rfl]

/-- A message of the controller that is encrypted goes out, and the other end reads it. -/
theorem sealed_of_returns (short : message.length ≤ aesTextMax)
    (returns : SendReturnsOk fw env (aesHead u8Resver message) (.ofList message) s) :
    ∃ sent frame, pctSendMsgToCloud? fw env (aesHead u8Resver message) (.ofList message) s =
        some (.ok, sent) ∧
      sent.calls = s.calls ++ [.sendTcpData s.con.struCloudConnection.u32Socket frame] ∧
      ((∀ block, fw.crypto.aesDecrypt s.con.u8SessionKey
          (fw.crypto.aesEncrypt s.con.u8SessionKey block) = block) →
        ∀ stale, frameMessage fw.crypto (cloudEnd s.secContext) stale frame = some message) := by
  obtain ⟨sent, defined, calls⟩ := returns.sends (aes_cipher_fits fw env u8Resver short
    returns.encrypts)
  exact ⟨sent, _, defined, calls, fun aes stale =>
    frameMessage_sealed fw env u8Resver short returns.encrypts aes rfl rfl stale⟩

/-- A message that is refused does not go out. -/
theorem calls_of_error {head : ZcSecHead} {pu8PlainData : View}
    (refused : pctSendMsgToCloud? fw env head pu8PlainData s = some (.error, t)) :
    t.calls = s.calls := by
  simp only [pctSendMsgToCloud?] at refused
  split_ifs at refused <;> cases refused <;> rfl

/-- Neither does a message that is not encrypted. -/
theorem calls_of_refused (refused : (secEncrypt fw.crypto s.secContext env.pads
      (aesHead u8Resver message) (.ofList message)).ret = .error) :
    (pctSendMsgToCloud fw env zcSecAlgAes u8Resver message s).2.calls = s.calls := by
  rw [pctSendMsgToCloud]
  rcases sent : pctSendMsgToCloud? fw env ⟨zcHtons message.length, zcSecAlgAes, u8Resver⟩
    (.ofList message) s with _ | ⟨_ | _, t⟩
  · rfl
  · exact absurd refused (Ret.ne_error.mpr (SendReturnsOk.of_sent sent).encrypts)
  · exact calls_of_error fw env sent

/-- With the switch at 1 AES stays AES. -/
theorem aesHead_type (on : context.u32SecSwitch = 1) :
    secEncryptType context.u32SecSwitch (aesHead u8Resver message).u8SecType = zcSecAlgAes := by
  rw [on]
  rfl

/-- Without a key nothing is encrypted for AES. -/
theorem refused_of_unkeyed (on : s.secContext.u32SecSwitch = 1)
    (unkeyed : s.secContext.u8keyRecv = false) :
    (secEncrypt fw.crypto s.secContext env.pads (aesHead u8Resver message)
      (.ofList message)).ret = .error := by
  rw [secEncrypt_aes (aesHead_type u8Resver on), secAesEncrypt, if_neg (by rw [unkeyed]; decide)]

/-- With a key every message that is short enough is sent, whatever the switch. -/
theorem returns_of_keyed (keyed : s.con.u8keyRecv = true) (idle : s.sendStatus = .idle)
    (short : message.length ≤ aesTextMax) :
    SendReturnsOk fw env (aesHead u8Resver message) (.ofList message) s := by
  have bound : message.length ≤ 415 := short
  have total := aesHead_total u8Resver short
  have flag := secFlag_eq s.secContext.u32SecSwitch zcSecAlgAes
  refine ⟨?_, idle, ?_⟩
  · rw [PassesLengthCheck, predictedLen_of_flag flag, total, msgBufferMaxLen]
    split_ifs <;> omega
  · by_cases off : s.secContext.u32SecSwitch = 0
    · rw [secEncrypt_none (if_pos off)]
    · have type : secEncryptType s.secContext.u32SecSwitch (aesHead u8Resver message).u8SecType =
          zcSecAlgAes := if_neg off
      rw [secEncrypt_aes type, secAesEncrypt]
      exact congrArg SecCipher.ret (if_pos keyed)

/-- Such a message goes out in one frame, in which the other end reads it. -/
theorem frame_of_keyed (keyed : s.con.u8keyRecv = true) (idle : s.sendStatus = .idle)
    (short : message.length ≤ aesTextMax)
    (aes : ∀ block, fw.crypto.aesDecrypt s.con.u8SessionKey
      (fw.crypto.aesEncrypt s.con.u8SessionKey block) = block) (stale : Stale) :
    ∃ frame, (pctSendMsgToCloud fw env zcSecAlgAes u8Resver message s).2.calls =
        s.calls ++ [.sendTcpData s.con.struCloudConnection.u32Socket frame] ∧
      frameMessage fw.crypto (cloudEnd s.secContext) stale frame = some message := by
  have returns := returns_of_keyed fw env u8Resver keyed idle short
  obtain ⟨sent, frame, defined, calls, reads⟩ := sealed_of_returns fw env u8Resver short returns
  have result : pctSendMsgToCloud fw env zcSecAlgAes u8Resver message s = (.ok, sent) :=
    congrArg (Option.getD · (Ret.error, s)) defined
  refine ⟨frame, ?_, reads aes stale⟩
  rw [result, calls]

end Sealing

section Answering

variable {fw : Firmware} {env : Env} {context : SecContext} {stale : Stale} {msgId : UInt8}
  {s t u : Sys} {first second : ℕ}

variable (fw context stale msgId) in
/-- A step that answers `count` times and stays in the session. -/
structure Answering (count : ℕ) (s t : Sys) : Prop where
  counts : Counts (AdapterCall.Reads fw.crypto (cloudEnd context) stale (isAnswer msgId)) count s t
  session : InSession context t

theorem Answering.trans (before : Answering fw context stale msgId first s t)
    (after : Answering fw context stale msgId second t u) :
    Answering fw context stale msgId (first + second) s u :=
  ⟨before.counts.trans after.counts, after.session⟩

/-- A change that leaves the session and the calls alone. -/
theorem Answering.silent (same : t.calls = s.calls) (session : InSession context t) :
    Answering fw context stale msgId 0 s t := ⟨.of_eq same, session⟩

/-- A call that is not a frame for the cloud. -/
theorem Answering.call (call : AdapterCall) (other : ¬ call.ToCloud)
    (session : InSession context s) : Answering fw context stale msgId 0 s (s.call call) := by
  have counted : Counts
    (AdapterCall.Reads fw.crypto (cloudEnd context) stale (isAnswer msgId)) _ s (s.call call) :=
    .call s call
  rw [if_neg (mt AdapterCall.Reads.toCloud other)] at counted
  exact ⟨counted, session.1, session.2⟩

/-- The state of an update is not part of the session. -/
theorem Answering.struOtaInfo (info : PtcOtaInfo) (session : InSession context s) :
    Answering fw context stale msgId 0 s { s with con := { s.con with struOtaInfo := info } } :=
  .silent rfl ⟨session.1, session.2⟩

/-- Whether the module takes part in an update is not either. -/
theorem Answering.u32StopJdTask (value : ℕ) (session : InSession context s) :
    Answering fw context stale msgId 0 s { s with u32StopJdTask := value } :=
  .silent rfl ⟨session.1, session.2⟩

theorem Answering.notify (u8NotifyCode : UInt8) (session : InSession context s) :
    Answering fw context stale msgId 0 s (pctSendNotifyMsg u8NotifyCode s) := by
  have built : InSession context (s.build (eventBuildMsg u8NotifyCode 0 [])) :=
    ⟨session.1, session.2⟩
  have notified : Answering fw context stale msgId 0 (s.build (eventBuildMsg u8NotifyCode 0 []))
    (pctSendNotifyMsg u8NotifyCode s) := .call _ id built
  exact ⟨notified.counts, notified.session⟩

section Session

variable (on : context.u32SecSwitch = 1) (keyed : context.u8keyRecv = true)
  (aes : ∀ block, fw.crypto.aesDecrypt context.u8SessionKey
    (fw.crypto.aesEncrypt context.u8SessionKey block) = block)

include on keyed aes

variable (env) in
/-- A message of the controller counts where it is an answer. -/
theorem Answering.send (u8Resver : UInt8) {message : List UInt8}
    (short : message.length ≤ aesTextMax) (session : InSession context s) :
    Answering fw context stale msgId (if isAnswer msgId message then 1 else 0) s
      (pctSendMsgToCloud fw env zcSecAlgAes u8Resver message s).2 := by
  obtain ⟨rfl, idle⟩ := session
  obtain ⟨frame, calls, reads⟩ := frame_of_keyed fw env u8Resver keyed idle short aes stale
  have after : InSession s.secContext (pctSendMsgToCloud fw env zcSecAlgAes u8Resver message s).2 :=
    ⟨(pctSendMsgToCloud_onlySends fw env s zcSecAlgAes u8Resver message).secContext,
      (sendStatus_pctSendMsgToCloud fw env s zcSecAlgAes u8Resver message).trans idle⟩
  refine ⟨⟨_, calls, ?_⟩, after⟩
  have counts : AdapterCall.Reads fw.crypto (cloudEnd s.secContext) stale (isAnswer msgId)
      (.sendTcpData s.con.struCloudConnection.u32Socket frame) ↔ isAnswer msgId message := by
    simp only [AdapterCall.Reads, reads, Option.mem_def, Option.some.injEq, exists_eq_left']
  rw [List.countP_singleton]
  simp only [counts, decide_eq_true_eq]

/-- So does a message without a payload that is built for it. -/
theorem Answering.sendBuilt (msgCode : UInt8) (session : InSession context s) :
    Answering fw context stale msgId (if msgCode = Code.ack ∨ msgCode = Code.err then 1 else 0) s
      (pctSendMsgToCloud fw env zcSecAlgAes env.u8Resver (eventBuildMsg msgCode msgId [])
        (s.build (eventBuildMsg msgCode msgId []))).2 := by
  have built : InSession context (s.build (eventBuildMsg msgCode msgId [])) :=
    ⟨session.1, session.2⟩
  have short : (eventBuildMsg msgCode msgId []).length ≤ aesTextMax := Nat.le_of_ble_eq_true rfl
  have answer : isAnswer msgId (eventBuildMsg msgCode msgId []) ↔
      msgCode = Code.ack ∨ msgCode = Code.err := and_iff_left rfl
  have sent : Answering fw context stale msgId _ _ _ :=
    .send env on keyed aes env.u8Resver short built
  simp only [answer] at sent
  exact ⟨sent.counts, sent.session⟩

variable (env)

theorem Answering.ack (session : InSession context s) :
    Answering fw context stale msgId 1 s (pctSendAckToCloud fw env msgId s) :=
  .sendBuilt on keyed aes Code.ack session

theorem Answering.error (session : InSession context s) :
    Answering fw context stale msgId 1 s (pctSendErrorMsg fw env msgId s) :=
  .sendBuilt on keyed aes Code.err session

/-- `ZC_CODE_EMPTY` is no answer. -/
theorem Answering.empty (session : InSession context s) :
    Answering fw context stale msgId 0 s (pctSendEmptyMsg fw env msgId zcSecAlgAes s) := by
  have short : (eventBuildEmptyMsg msgId).length ≤ aesTextMax := Nat.le_of_ble_eq_true rfl
  have other : ¬ isAnswer msgId (eventBuildEmptyMsg msgId) := by
    rintro ⟨code | code, _⟩ <;> cases code
  have sent : Answering fw context stale msgId _ _ _ :=
    .send env on keyed aes env.u8Resver short session
  rwa [if_neg other] at sent

variable {env}

theorem answering_pctHandleOtaBeginMsg (session : InSession context s) :
    Answering fw context stale msgId 1 s (pctHandleOtaBeginMsg fw env msgId s) := by
  have stopped : Answering fw context stale msgId 0 s { s with u32StopJdTask := 1 } :=
    .u32StopJdTask 1 session
  have acked := stopped.trans (.ack env on keyed aes stopped.session)
  exact acked.trans (.notify Code.zotaBegin acked.session)

theorem answering_pctHandleOtaFileBeginMsg (pstruOta : View) (session : InSession context s) :
    Answering fw context stale msgId 1 s (pctHandleOtaFileBeginMsg fw env msgId pstruOta s) := by
  rw [pctHandleOtaFileBeginMsg]
  have begun : Answering fw context stale msgId 0 s (otaFileBegin pstruOta s) :=
    .struOtaInfo _ session
  exact begun.trans (.ack env on keyed aes begun.session)

/-- Whether it is refused, fails or is taken, a chunk is answered once. -/
theorem answering_pctHandleOtaFileChunkMsg (pstruMsg : ZcMessageHead) (pstruOta : View)
    (session : InSession context s) : Answering fw context stale pstruMsg.msgId 1 s
      (pctHandleOtaFileChunkMsg fw env pstruMsg pstruOta s) := by
  simp only [pctHandleOtaFileChunkMsg]
  generalize subU32 (zcHtons pstruMsg.payloadlen) 4 = u32FileLen
  generalize zcHtonl (loadU32 pstruOta 0) = u32RecvOffset
  have updated : Answering fw context stale pstruMsg.msgId 0 s
    (otaUpdate pstruOta u32RecvOffset u32FileLen s) := .call _ id session
  split_ifs
  · exact .error env on keyed aes session
  · exact updated.trans (.error env on keyed aes updated.session)
  · have advanced : Answering fw context stale pstruMsg.msgId 0 s
        (otaAdvance u32FileLen (otaUpdate pstruOta u32RecvOffset u32FileLen s)) :=
      updated.trans (.struOtaInfo _ updated.session)
    exact advanced.trans (.ack env on keyed aes advanced.session)

theorem answering_pctHandleOtaEndMsg (session : InSession context s) :
    Answering fw context stale msgId 1 s (pctHandleOtaEndMsg fw env msgId s) := by
  simp only [pctHandleOtaEndMsg]
  have finished : Answering fw context stale msgId 0 s
    (s.call (.updateFinish s.con.struOtaInfo.u32TotalLen)) := .call _ id session
  split_ifs
  · exact finished.trans (.error env on keyed aes finished.session)
  · have acked := finished.trans (.ack env on keyed aes finished.session)
    have notified := acked.trans (.notify Code.zotaEnd acked.session)
    have rebooted : Answering fw context stale msgId _ s _ :=
      notified.trans (.call .reboot id notified.session)
    exact rebooted.trans (.u32StopJdTask 0 rebooted.session)

/-- A token is confirmed with `ZC_CODE_EMPTY` before it is answered. -/
theorem answering_pctSetTokenKey (pstruSetKey : View) (session : InSession context s) :
    Answering fw context stale msgId 1 s (pctSetTokenKey fw env msgId pstruSetKey s) := by
  have stored : Answering fw context stale msgId 0 s
    { s with zcConfigDb := zcStoreTokenKey pstruSetKey s.zcConfigDb } :=
    .silent rfl ⟨session.1, session.2⟩
  have written : Answering fw context stale msgId 0 s
      { s with zcConfigDb := zcStoreTokenKey pstruSetKey s.zcConfigDb }.writeFlash :=
    stored.trans (.call _ id stored.session)
  have emptied := written.trans (.empty env on keyed aes written.session)
  exact emptied.trans (.ack env on keyed aes emptied.session)

/-- Every request but a reset is answered once, whatever the update makes of it. -/
theorem answering_pctDispatch {pstruMsg : ZcMessageHead} (payload : View) (pstruBuffer : BufPtr)
    (request : pstruMsg.msgCode ∈ requestCodes) (other : pstruMsg.msgCode ≠ Code.resetNetwork)
    (session : InSession context s) : Answering fw context stale pstruMsg.msgId 1 s
      (pctDispatch fw env pstruMsg payload pstruBuffer s) := by
  simp only [pctDispatch, if_neg other]
  split_ifs with begins fileBegins chunk fileEnds ends token unbind
  · exact answering_pctHandleOtaBeginMsg on keyed aes session
  · exact answering_pctHandleOtaFileBeginMsg on keyed aes payload session
  · exact answering_pctHandleOtaFileChunkMsg on keyed aes pstruMsg payload session
  · exact .ack env on keyed aes session
  · exact answering_pctHandleOtaEndMsg on keyed aes session
  · exact answering_pctSetTokenKey on keyed aes payload session
  · rw [unbind] at request
    exact absurd request (by decide)
  · simp only [requestCodes, List.mem_cons, List.not_mem_nil, or_false] at request
    tauto

end Session

/-- A reset has left the session before it answers, and nothing goes out. -/
theorem counts_pctResetNetWork (crypto : Crypto) (peer : SecContext) :
    Counts (AdapterCall.Reads crypto peer stale (isAnswer msgId)) 0 s
      (pctResetNetWork fw env msgId s) := by
  simp only [pctResetNetWork]
  generalize left : pctDisConnectCloud { s with zcConfigDb := zcConfigInitPara s.zcConfigDb } = t
  have disconnected : Counts (AdapterCall.Reads crypto peer stale (isAnswer msgId)) 0 s t := by
    rw [← left]
    exact .call { s with zcConfigDb := zcConfigInitPara s.zcConfigDb } (.sendToMoudle _)
  have quiet (u : Sys) (u8Resver : UInt8) (message : List UInt8) (only : OnlySends t u) :
      (pctSendMsgToCloud fw env zcSecAlgAes u8Resver message u).2.calls = u.calls := by
    apply calls_of_refused
    apply refused_of_unkeyed
    · rw [only.secContext, ← left]
      rfl
    · rw [only.secContext, ← left]
      rfl
  have empty : (pctSendEmptyMsg fw env msgId zcSecAlgAes t).calls = t.calls := quiet t _ _ (.refl t)
  have ack (u : Sys) (only : OnlySends t u) : (pctSendAckToCloud fw env msgId u).calls = u.calls :=
    quiet (u.build _) _ _ (only.trans (build_onlySends ..))
  refine (disconnected.trans (.of_eq ?_))
  exact (ack _ (pctSendEmptyMsg_onlySends ..)).trans empty

theorem pctDispatch_reset {pstruMsg : ZcMessageHead} {payload : View} {pstruBuffer : BufPtr}
    (reset : pstruMsg.msgCode = Code.resetNetwork) :
    pctDispatch fw env pstruMsg payload pstruBuffer s =
      pctResetNetWork fw env pstruMsg.msgId s := by
  rw [pctDispatch, reset]
  rfl

end Answering

/-- For every request that the controller serves in a session, every payload and every result of the
update: the cloud reads exactly one answer with the id of the request if and only if the request is
not a reset. -/
theorem answered_iff (fw : Firmware) (env : Env) (stale : Stale) (s : Sys) (msgCode msgId : UInt8)
    (aes : ∀ block, fw.crypto.aesDecrypt s.con.u8SessionKey
      (fw.crypto.aesEncrypt s.con.u8SessionKey block) = block)
    (serves : ServesRequest env s msgCode msgId) (request : msgCode ∈ requestCodes) :
    answersSent fw env stale msgId s = 1 ↔ msgCode ≠ Code.resetNetwork := by
  obtain ⟨connected, bound, keyed, idle, switch, message, taken, valid, rfl, rfl⟩ := serves
  obtain ⟨pointer, next, _, handled⟩ := pctRun_of_taken fw connected bound taken valid
  generalize ZcMessageHead.load message = pstruMsg at handled request ⊢
  have session : InSession s.secContext { s with recvQueue := next } := ⟨rfl, idle⟩
  have counted {count : ℕ} (counts : Counts
      (AdapterCall.Reads fw.crypto (cloudEnd s.secContext) stale (isAnswer pstruMsg.msgId)) count
      { s with recvQueue := next } (pctDispatch fw env pstruMsg
        (message.shift sizeofMessageHead) pointer { s with recvQueue := next })) :
      answersSent fw env stale pstruMsg.msgId s = count := by
    have answers := (counts.trans (.of_eq (calls_resetBuffer _ pointer))).eq_countP
    rw [answersSent, framesRead, handled]
    exact answers
  constructor
  · intro once reset
    have none := counted (by
      rw [pctDispatch_reset reset]
      exact counts_pctResetNetWork ..)
    omega
  · intro other
    exact counted (answering_pctDispatch switch keyed aes _ pointer request other session).counts

/-- A request comes in while the device is connected. -/
def requesting (msgCode msgId : UInt8) : List Action :=
  connecting ++ [.cloudRecvfunc .calm (some (plainFrame (messageBytes msgCode msgId [])))]

/-- A token is confirmed and answered. -/
theorem answered_token : ∃ s, (firmware .plain).replay? (hfInit none .zero)
      (requesting Code.tokenSet 5) = some s ∧ ServesRequest .calm s Code.tokenSet 5 ∧
    answersSent .plain .calm Env.calm.stale 5 s = 1 := by
  have came : ((firmware .plain).replay? (hfInit none .zero) (requesting Code.tokenSet 5)).map
      (fun s => decide (ServesRequest .calm s Code.tokenSet 5)) = some true := by
    decide +kernel
  obtain ⟨s, replayed, serves⟩ := Option.map_eq_some_iff.mp came
  have serves := of_decide_eq_true serves
  refine ⟨s, replayed, serves, ?_⟩
  have answered := answered_iff .plain .calm Env.calm.stale s Code.tokenSet 5 (fun _ => rfl) serves
    (by decide)
  exact answered.mpr (by decide)

/-- A reset is not. -/
theorem answered_fails : ∃ s, (firmware .plain).replay? (hfInit none .zero)
      (requesting Code.resetNetwork 5) = some s ∧ ServesRequest .calm s Code.resetNetwork 5 ∧
    answersSent .plain .calm Env.calm.stale 5 s ≠ 1 := by
  have came : ((firmware .plain).replay? (hfInit none .zero) (requesting Code.resetNetwork 5)).map
      (fun s => (decide (ServesRequest .calm s Code.resetNetwork 5),
        answersSent .plain .calm Env.calm.stale 5 s)) = some (true, 0) := by
    decide +kernel
  obtain ⟨s, replayed, shown⟩ := Option.map_eq_some_iff.mp came
  obtain ⟨serves, none⟩ := Prod.mk.inj shown
  refine ⟨s, replayed, of_decide_eq_true serves, ?_⟩
  rw [none]
  decide

end ShuangFa
