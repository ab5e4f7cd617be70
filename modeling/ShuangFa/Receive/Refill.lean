import ShuangFa.Memory.Store
import ShuangFa.Receive.Inbox

/-! # Other bytes in the receive buffer

The bytes of the receive buffer are read through the message that a handler takes, and by nothing
else: with other bytes in the buffer every operation does the same, and leaves these bytes there. So
a handler that reads the same through both messages does the same.
-/

namespace ShuangFa

open Memory

/-- The memory in front of `count` is the same. -/
def Agree (count : ℕ) (first second : View) : Prop := ∀ index < count, first index = second index

namespace Agree

variable {count offset length : ℕ} {first second : View}

theorem mono {fewer : ℕ} (agree : Agree count first second) (inside : fewer ≤ count) :
    Agree fewer first second := fun index before => agree index (Nat.lt_of_lt_of_le before inside)

theorem read (agree : Agree count first second) (inside : offset + length ≤ count) :
    first.read offset length = second.read offset length :=
  View.read_congr fun index before => agree (offset + index) (by omega)

theorem ofView (agree : Agree count first second) (inside : offset + length ≤ count) :
    FixedBuffer.ofView first offset length = .ofView second offset length :=
  FixedBuffer.ext (agree.read inside)

theorem loadU16 (agree : Agree count first second) (inside : offset + 2 ≤ count) :
    loadU16 first offset = ShuangFa.loadU16 second offset := by
  rw [ShuangFa.loadU16, ShuangFa.loadU16, agree offset (by omega), agree (offset + 1) (by omega)]

theorem loadU32 (agree : Agree count first second) (inside : offset + 4 ≤ count) :
    loadU32 first offset = ShuangFa.loadU32 second offset := by
  rw [ShuangFa.loadU32, ShuangFa.loadU32, agree.loadU16 (by omega), agree.loadU16 (by omega)]

theorem head (agree : Agree count first second) (whole : sizeofMessageHead ≤ count) :
    ZcMessageHead.load first = ZcMessageHead.load second := by
  have byte (index : ℕ) (inside : index < sizeofMessageHead) : first index = second index :=
    agree index (by omega)
  simp only [ZcMessageHead.load, byte 0 (by decide), byte 1 (by decide), byte 2 (by decide),
    byte 3 (by decide), byte 6 (by decide), byte 7 (by decide),
    agree.loadU16 (show 4 + 2 ≤ count from Nat.le_trans (by decide) whole)]

theorem shift (agree : Agree (offset + count) first second) :
    Agree count (first.shift offset) (second.shift offset) :=
  fun index before => agree (offset + index) (by omega)

end Agree

/-- The receive buffer with other bytes in it. -/
def Sys.refill (s : Sys) (bytes : FixedBuffer msgBufferMaxLen) : Sys :=
  { s with recvBuffer := { s.recvBuffer with u8MsgBuffer := bytes } }

/-- The same calls with other bytes behind the receive buffer. -/
def Env.behind (env : Env) (beyond : View) : Env := { env with beyond := beyond }

section Operations

variable (fw : Firmware) (env : Env) (beyond : View) (s : Sys) (bytes : FixedBuffer msgBufferMaxLen)

theorem refill_hfSetTimer (u8Type : TimerType) (u32Interval : ℕ) (field : TimerField) :
    hfSetTimer u8Type u32Interval field (s.refill bytes) =
      (hfSetTimer u8Type u32Interval field s).refill bytes := by
  have same : (s.refill bytes).timers = s.timers := rfl
  rw [hfSetTimer, hfSetTimer, same]
  cases s.timers.timerFindIdleTimer <;> rfl

theorem refill_stopHandle (via : TimerField) (handle : Option TimerIndex) :
    stopHandle via handle (s.refill bytes) = (stopHandle via handle s).refill bytes := by
  cases handle <;> rfl

theorem refill_resetBuffer : (s.refill bytes).resetBuffer .recvBuffer =
    (s.resetBuffer .recvBuffer).refill bytes := rfl

/-- What is sent does not come from the receive buffer. -/
theorem refill_pctSendMsgToCloud? (head : ZcSecHead) (pu8PlainData : View) :
    pctSendMsgToCloud? fw (env.behind beyond) head pu8PlainData (s.refill bytes) =
      (pctSendMsgToCloud? fw env head pu8PlainData s).map fun sent =>
        (sent.1, sent.2.refill bytes) := by
  simp only [pctSendMsgToCloud?]
  have context : (s.refill bytes).secContext = s.secContext := rfl
  have buffer : (s.refill bytes).sendBuffer = s.sendBuffer := rfl
  have config : (s.refill bytes).zcConfigDb = s.zcConfigDb := rfl
  have pads : (env.behind beyond).pads = env.pads := rfl
  rw [context, buffer, config, pads]
  split_ifs <;> rfl

theorem refill_pctSendMsgToCloud (u8SecType u8Resver : UInt8) (message : List UInt8) :
    (pctSendMsgToCloud fw (env.behind beyond) u8SecType u8Resver message (s.refill bytes)).2 =
      (pctSendMsgToCloud fw env u8SecType u8Resver message s).2.refill bytes := by
  rw [pctSendMsgToCloud, pctSendMsgToCloud, refill_pctSendMsgToCloud?]
  cases pctSendMsgToCloud? fw env ⟨zcHtons message.length, u8SecType, u8Resver⟩ (.ofList message) s <;>
    rfl

theorem refill_pctSendEmptyMsg (u8MsgId u8SecType : UInt8) :
    pctSendEmptyMsg fw (env.behind beyond) u8MsgId u8SecType (s.refill bytes) =
      (pctSendEmptyMsg fw env u8MsgId u8SecType s).refill bytes :=
  refill_pctSendMsgToCloud ..

theorem refill_pctSendErrorMsg (u8MsgId : UInt8) :
    pctSendErrorMsg fw (env.behind beyond) u8MsgId (s.refill bytes) =
      (pctSendErrorMsg fw env u8MsgId s).refill bytes :=
  refill_pctSendMsgToCloud fw env beyond (s.build (eventBuildMsg Code.err u8MsgId [])) bytes ..

theorem refill_pctSendAckToCloud (u8MsgId : UInt8) :
    pctSendAckToCloud fw (env.behind beyond) u8MsgId (s.refill bytes) =
      (pctSendAckToCloud fw env u8MsgId s).refill bytes :=
  refill_pctSendMsgToCloud fw env beyond (s.build (eventBuildMsg Code.ack u8MsgId [])) bytes ..

theorem refill_pctSendCloudAccessMsg3 :
    pctSendCloudAccessMsg3 fw (env.behind beyond) (s.refill bytes) =
      (pctSendCloudAccessMsg3 fw env s).refill bytes := by
  let awaits (sent : Sys) : Sys := hfSetTimer .reaccess (pctTimerIntervalReconnect * 10) .access
    { sent with con := { sent.con with u8MainState := .waitMsg4 } }
  let message := eventBuildMsg Code.handshake3 1
    (s.con.randMsg.bytes ++ s.registerInfo.u8EqVersion.bytes ++
      [UInt8.ofNat (fw.moduleVersion / 2 ^ 24), UInt8.ofNat (fw.moduleVersion / 2 ^ 16),
        UInt8.ofNat (fw.moduleVersion / 2 ^ 8), UInt8.ofNat fw.moduleVersion, fw.moduleType] ++
      env.u8Pad.bytes)
  let keyed := { s with con := { s.con with u8keyRecv := true } }.build message
  calc pctSendCloudAccessMsg3 fw (env.behind beyond) (s.refill bytes)
      = awaits (pctSendMsgToCloud fw (env.behind beyond) zcSecAlgAes env.u8Resver message
          (keyed.refill bytes)).2 := rfl
    _ = awaits ((pctSendMsgToCloud fw env zcSecAlgAes env.u8Resver message keyed).2.refill bytes) := by
      rw [refill_pctSendMsgToCloud]
    _ = (awaits (pctSendMsgToCloud fw env zcSecAlgAes env.u8Resver message keyed).2).refill bytes :=
      refill_hfSetTimer { (pctSendMsgToCloud fw env zcSecAlgAes env.u8Resver message keyed).2 with
        con := { (pctSendMsgToCloud fw env zcSecAlgAes env.u8Resver message keyed).2.con with
          u8MainState := .waitMsg4 } } bytes ..
    _ = (pctSendCloudAccessMsg3 fw env s).refill bytes := rfl

end Operations

section Handlers

variable (fw : Firmware) {env : Env} {beyond : View} {s : Sys} {bytes : FixedBuffer msgBufferMaxLen}
  {next : MsgQueue msgQueueMaxLen BufPtr} {message other : View}

/-- The second message of a handshake, or an access point, is read the same. -/
theorem refill_pctRecvAccessMsg2 (popped : msgPopMsg s.recvQueue = (some .recvBuffer, next))
    (shown : s.recvBuffer.u8MsgBuffer.view env.beyond = message) (shows : bytes.view beyond = other)
    (agree : Agree (sizeofMessageHead + zcHtons (ZcMessageHead.load message).payloadlen) other message)
    (echo : other.read sizeofMessageHead zcHsMsgLen = s.con.randMsg.bytes ↔
      message.read sizeofMessageHead zcHsMsgLen = s.con.randMsg.bytes)
    (key : message.read sizeofMessageHead zcHsMsgLen = s.con.randMsg.bytes →
      (ZcMessageHead.load message).msgCode = Code.handshake2 →
        FixedBuffer.ofView other (sizeofMessageHead + zcHsMsgLen) zcHsSessionKeyLen =
          .ofView message (sizeofMessageHead + zcHsMsgLen) _)
    (address : message.read sizeofMessageHead zcHsMsgLen = s.con.randMsg.bytes →
      (ZcMessageHead.load message).msgCode ≠ Code.handshake2 →
        loadU32 other (sizeofMessageHead + zcHsMsgLen) =
          loadU32 message (sizeofMessageHead + zcHsMsgLen) ∧
        loadU16 other (sizeofMessageHead + zcHsMsgLen + 4) =
          loadU16 message (sizeofMessageHead + zcHsMsgLen + 4)) :
    pctRecvAccessMsg2 fw (env.behind beyond) (s.refill bytes) =
      (pctRecvAccessMsg2 fw env s).refill bytes := by
  have head := agree.head (Nat.le_add_right ..)
  have payload : other.read sizeofMessageHead (zcHtons (ZcMessageHead.load message).payloadlen) =
      message.read sizeofMessageHead (zcHtons (ZcMessageHead.load message).payloadlen) :=
    agree.read (Nat.le_refl _)
  have queue : (s.refill bytes).recvQueue = s.recvQueue := rfl
  have kept : (s.buffer .recvBuffer).u8MsgBuffer.view env.beyond = message := shown
  have refilled : ((s.refill bytes).buffer .recvBuffer).u8MsgBuffer.view (env.behind beyond).beyond =
      other := shows
  have same : (s.refill bytes).con = s.con := rfl
  rw [pctRecvAccessMsg2, pctRecvAccessMsg2, queue, popped]
  simp only [kept, refilled, head, payload, echo, same]
  rw [← refill_resetBuffer]
  refine congrArg (Sys.resetBuffer · .recvBuffer) ?_
  split_ifs with known corrupt echoed handshake
  · rfl
  · rw [key echoed handshake]
    exact refill_pctSendCloudAccessMsg3 fw env beyond { timerStopTimer (some .access)
      s.con.u8AccessTimer { s with recvQueue := next } with con := { s.con with
        u8SessionKey := .ofView message (sizeofMessageHead + zcHsMsgLen) zcHsSessionKeyLen
        ivRecv := .ofView message (sizeofMessageHead + zcHsMsgLen) zcHsSessionKeyLen
        ivSend := .ofView message (sizeofMessageHead + zcHsMsgLen) zcHsSessionKeyLen } } bytes
  · rw [(address echoed handshake).1, (address echoed handshake).2]
    rfl
  · rfl
  · rfl

/-- The fourth message of a handshake is read the same. -/
theorem refill_pctRecvAccessMsg4 (popped : msgPopMsg s.recvQueue = (some .recvBuffer, next))
    (shown : s.recvBuffer.u8MsgBuffer.view env.beyond = message) (shows : bytes.view beyond = other)
    (agree : Agree (sizeofMessageHead + zcHtons (ZcMessageHead.load message).payloadlen) other message)
    (echo : other.read sizeofMessageHead zcHsMsgLen = s.con.randMsg.bytes ↔
      message.read sizeofMessageHead zcHsMsgLen = s.con.randMsg.bytes) :
    pctRecvAccessMsg4 (env.behind beyond) (s.refill bytes) =
      (pctRecvAccessMsg4 env s).refill bytes := by
  have head := agree.head (Nat.le_add_right ..)
  have payload : other.read sizeofMessageHead (zcHtons (ZcMessageHead.load message).payloadlen) =
      message.read sizeofMessageHead (zcHtons (ZcMessageHead.load message).payloadlen) :=
    agree.read (Nat.le_refl _)
  have queue : (s.refill bytes).recvQueue = s.recvQueue := rfl
  have kept : (s.buffer .recvBuffer).u8MsgBuffer.view env.beyond = message := shown
  have refilled : ((s.refill bytes).buffer .recvBuffer).u8MsgBuffer.view (env.behind beyond).beyond =
      other := shows
  have same : (s.refill bytes).con = s.con := rfl
  rw [pctRecvAccessMsg4, pctRecvAccessMsg4, queue, popped]
  simp only [kept, refilled, head, payload, echo, same]
  rw [← refill_hfSetTimer, ← refill_stopHandle, ← refill_resetBuffer]
  refine congrArg (fun t : Sys => hfSetTimer .sendHeart pctTimerIntervalHeart .heart
    (stopHandle .heart s.con.u8HeartTimer (t.resetBuffer .recvBuffer))) ?_
  split_ifs <;> rfl

/-- The beginning of a file is read the same. -/
theorem refill_pctHandleOtaFileBeginMsg (msgId : UInt8) {pstruOta another : View}
    (agree : Agree 8 another pstruOta) :
    pctHandleOtaFileBeginMsg fw (env.behind beyond) msgId another (s.refill bytes) =
      (pctHandleOtaFileBeginMsg fw env msgId pstruOta s).refill bytes := by
  have begun : otaFileBegin another (s.refill bytes) = (otaFileBegin pstruOta s).refill bytes := by
    rw [otaFileBegin, otaFileBegin, agree.loadU32 (by decide), agree 2 (by decide), agree 3 (by decide)]
    rfl
  rw [pctHandleOtaFileBeginMsg, pctHandleOtaFileBeginMsg, begun, refill_pctSendAckToCloud]

/-- A chunk is read the same, or refused for its length before anything depends on its bytes. -/
theorem refill_pctHandleOtaFileChunkMsg (pstruMsg : ZcMessageHead) {pstruOta another : View}
    (agree : Agree (zcHtons pstruMsg.payloadlen) another pstruOta) :
    pctHandleOtaFileChunkMsg fw (env.behind beyond) pstruMsg another (s.refill bytes) =
      (pctHandleOtaFileChunkMsg fw env pstruMsg pstruOta s).refill bytes := by
  have range : zcHtons pstruMsg.payloadlen < 2 ^ 16 := zcHtons_lt _
  simp only [pctHandleOtaFileChunkMsg]
  rcases Nat.lt_or_ge (zcHtons pstruMsg.payloadlen) 4 with short | whole
  · have long : zcOtaMaxChunkLen < subU32 (zcHtons pstruMsg.payloadlen) 4 := by
      rw [subU32, zcOtaMaxChunkLen]
      omega
    have refused (u32RecvOffset : ℕ) (t : Sys) :
        otaChunkRefused u32RecvOffset (subU32 (zcHtons pstruMsg.payloadlen) 4) t := .inr (.inr long)
    rw [if_pos (refused _ _), if_pos (refused _ _), refill_pctSendErrorMsg]
  · have data : another.read 4 (subU32 (zcHtons pstruMsg.payloadlen) 4) =
        pstruOta.read 4 (subU32 (zcHtons pstruMsg.payloadlen) 4) := by
      apply agree.read
      rw [subU32]
      omega
    have refused (u32RecvOffset u32FileLen : ℕ) : otaChunkRefused u32RecvOffset u32FileLen
        (s.refill bytes) ↔ otaChunkRefused u32RecvOffset u32FileLen s := Iff.rfl
    have update : (env.behind beyond).update = env.update := rfl
    have updated (u32RecvOffset : ℕ) :
        otaUpdate another u32RecvOffset (subU32 (zcHtons pstruMsg.payloadlen) 4) (s.refill bytes) =
          (otaUpdate pstruOta u32RecvOffset (subU32 (zcHtons pstruMsg.payloadlen) 4) s).refill bytes := by
      rw [otaUpdate, otaUpdate, data]
      rfl
    have advanced (u32FileLen : ℕ) (t : Sys) :
        otaAdvance u32FileLen (t.refill bytes) = (otaAdvance u32FileLen t).refill bytes := rfl
    rw [agree.loadU32 (by omega)]
    simp only [refused, update, updated, advanced]
    split_ifs
    · exact refill_pctSendErrorMsg ..
    · exact refill_pctSendErrorMsg ..
    · exact refill_pctSendAckToCloud ..

/-- A token is read the same. -/
theorem refill_pctSetTokenKey (msgId : UInt8) {pstruSetKey another : View}
    (agree : Agree zcHsSessionKeyLen another pstruSetKey) :
    pctSetTokenKey fw (env.behind beyond) msgId another (s.refill bytes) =
      (pctSetTokenKey fw env msgId pstruSetKey s).refill bytes := by
  have key : FixedBuffer.ofView another 0 zcHsSessionKeyLen = .ofView pstruSetKey 0 _ :=
    agree.ofView (by decide)
  have stored : { s.refill bytes with
        zcConfigDb := zcStoreTokenKey another (s.refill bytes).zcConfigDb }.writeFlash =
      { s with zcConfigDb := zcStoreTokenKey pstruSetKey s.zcConfigDb }.writeFlash.refill bytes := by
    rw [zcStoreTokenKey, zcStoreTokenKey, key]
    rfl
  simp only [pctSetTokenKey]
  rw [stored, refill_pctSendEmptyMsg, refill_pctSendAckToCloud]

/-- An event is handled the same, if its dispatch is. -/
theorem refill_pctHandleEvent (popped : msgPopMsg s.recvQueue = (some .recvBuffer, next))
    (shown : s.recvBuffer.u8MsgBuffer.view env.beyond = message) (shows : bytes.view beyond = other)
    (agree : Agree (sizeofMessageHead + zcHtons (ZcMessageHead.load message).payloadlen) other message)
    (bound : s.zcConfigDb.struDeviceInfo.u32UnBindFlag ≠ zcMagicFlag)
    (dispatched : ∀ t : Sys,
      pctDispatch fw (env.behind beyond) (ZcMessageHead.load message) (other.shift sizeofMessageHead)
          .recvBuffer (t.refill bytes) =
        (pctDispatch fw env (ZcMessageHead.load message) (message.shift sizeofMessageHead)
          .recvBuffer t).refill bytes) :
    pctHandleEvent fw (env.behind beyond) (s.refill bytes) =
      (pctHandleEvent fw env s).refill bytes := by
  have head := agree.head (Nat.le_add_right ..)
  have payload : other.read sizeofMessageHead (zcHtons (ZcMessageHead.load message).payloadlen) =
      message.read sizeofMessageHead (zcHtons (ZcMessageHead.load message).payloadlen) :=
    agree.read (Nat.le_refl _)
  have queue : (s.refill bytes).recvQueue = s.recvQueue := rfl
  have config : (s.refill bytes).zcConfigDb = s.zcConfigDb := rfl
  have kept : (s.buffer .recvBuffer).u8MsgBuffer.view env.beyond = message := shown
  have refilled : ((s.refill bytes).buffer .recvBuffer).u8MsgBuffer.view (env.behind beyond).beyond =
      other := shows
  rw [pctHandleEvent, pctHandleEvent, config, if_neg bound, if_neg bound, queue, popped]
  simp only [kept, refilled, head, payload]
  rw [← refill_resetBuffer]
  refine congrArg (Sys.resetBuffer · .recvBuffer) ?_
  split_ifs
  · rw [← refill_pctSendErrorMsg, ← refill_pctSendEmptyMsg]
    rfl
  · exact dispatched { s with recvQueue := next }

end Handlers

end ShuangFa
