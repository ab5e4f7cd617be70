import ShuangFa.Model.Adapter

/-! # The calls of a step

What the firmware asks of its environment is on record in the order of the calls. A step only adds
to the record, and what it adds is described by a property of each call.
-/

namespace ShuangFa

open Memory

/-- A later state with further calls, each of which is `P`. -/
def Emits (P : AdapterCall → Prop) (s t : Sys) : Prop :=
  ∃ calls, t.calls = s.calls ++ calls ∧ ∀ call ∈ calls, P call

namespace Emits

variable {P Q : AdapterCall → Prop} {s t u : Sys}

theorem of_eq (same : t.calls = s.calls) : Emits P s t := ⟨[], by rw [same, List.append_nil], nofun⟩

theorem trans (first : Emits P s t) (second : Emits P t u) : Emits P s u := by
  obtain ⟨before, same, early⟩ := first
  obtain ⟨after, last, late⟩ := second
  refine ⟨before ++ after, by rw [last, same, List.append_assoc], fun call member => ?_⟩
  rcases List.mem_append.mp member with member | member
  · exact early call member
  · exact late call member

theorem mono (weaker : ∀ call, P call → Q call) (emits : Emits P s t) : Emits Q s t := by
  obtain ⟨calls, same, all⟩ := emits
  exact ⟨calls, same, fun call member => weaker call (all call member)⟩

theorem call (s : Sys) {call : AdapterCall} (allowed : P call) : Emits P s (s.call call) := by
  refine ⟨[call], rfl, fun other member => ?_⟩
  rwa [List.mem_singleton.mp member]

end Emits

/-- A later state with further calls, `count` of which are `P`. -/
def Counts (P : AdapterCall → Prop) [DecidablePred P] (count : ℕ) (s t : Sys) : Prop :=
  ∃ calls, t.calls = s.calls ++ calls ∧ calls.countP (P ·) = count

namespace Counts

variable {P : AdapterCall → Prop} [DecidablePred P] {s t u : Sys} {first second : ℕ}

theorem of_eq (same : t.calls = s.calls) : Counts P 0 s t :=
  ⟨[], by rw [same, List.append_nil], rfl⟩

theorem trans (before : Counts P first s t) (after : Counts P second t u) :
    Counts P (first + second) s u := by
  obtain ⟨early, same, earlyCount⟩ := before
  obtain ⟨late, last, lateCount⟩ := after
  refine ⟨early ++ late, by rw [last, same, List.append_assoc], ?_⟩
  rw [List.countP_append, earlyCount, lateCount]

theorem call (s : Sys) (call : AdapterCall) :
    Counts P (if P call then 1 else 0) s (s.call call) := by
  refine ⟨[call], rfl, ?_⟩
  rw [List.countP_singleton]
  simp only [decide_eq_true_eq]

/-- The count is that of the calls behind those of the first state. -/
theorem eq_countP (counts : Counts P first s t) :
    (t.calls.drop s.calls.length).countP (P ·) = first := by
  obtain ⟨calls, same, count⟩ := counts
  rw [same, List.drop_left, count]

end Counts

section Senders

variable (fw : Firmware) (env : Env) (s : Sys)

@[simp] theorem calls_hfSetTimer (u8Type : TimerType) (u32Interval : ℕ) (field : TimerField) :
    (hfSetTimer u8Type u32Interval field s).calls = s.calls := by
  rw [hfSetTimer]
  cases s.timers.timerFindIdleTimer <;> rfl

@[simp] theorem calls_stopHandle (via : TimerField) (handle : Option TimerIndex) :
    (stopHandle via handle s).calls = s.calls := by
  cases handle <;> rfl

@[simp] theorem calls_resetBuffer (pointer : BufPtr) : (s.resetBuffer pointer).calls = s.calls := by
  cases pointer <;> rfl

/-- A message to the cloud. -/
def AdapterCall.ToCloud : AdapterCall → Prop
  | .sendTcpData _ _ => True
  | _ => False

instance : DecidablePred AdapterCall.ToCloud := fun call => by
  cases call <;> unfold AdapterCall.ToCloud <;> infer_instance

theorem emits_pctSendMsgToCloud? {head : ZcSecHead} {pu8PlainData : View} {s t : Sys} {ret : Ret}
    (sent : pctSendMsgToCloud? fw env head pu8PlainData s = some (ret, t)) :
    Emits AdapterCall.ToCloud s t := by
  simp only [pctSendMsgToCloud?] at sent
  split_ifs at sent <;> cases sent
  · exact .of_eq rfl
  · exact .of_eq rfl
  · exact .call { s with sendBuffer := _ } trivial
  · exact .of_eq rfl

theorem emits_pctSendMsgToCloud (u8SecType u8Resver : UInt8) (message : List UInt8) :
    Emits AdapterCall.ToCloud s (pctSendMsgToCloud fw env u8SecType u8Resver message s).2 := by
  rw [pctSendMsgToCloud]
  rcases sent : pctSendMsgToCloud? fw env ⟨zcHtons message.length, u8SecType, u8Resver⟩
    (.ofList message) s with _ | ⟨ret, t⟩
  · exact .of_eq rfl
  · exact emits_pctSendMsgToCloud? fw env sent

/-- A notification goes to the module. -/
theorem emits_pctSendNotifyMsg {P : AdapterCall → Prop} {u8NotifyCode : UInt8}
    (allowed : P (.sendToMoudle (eventBuildMsg u8NotifyCode 0 []))) :
    Emits P s (pctSendNotifyMsg u8NotifyCode s) := .call (s.build _) allowed

theorem emits_pctSendErrorMsg (u8MsgId : UInt8) :
    Emits AdapterCall.ToCloud s (pctSendErrorMsg fw env u8MsgId s) := by
  rw [pctSendErrorMsg]
  have built : Emits AdapterCall.ToCloud s (s.build (eventBuildMsg Code.err u8MsgId [])) := .of_eq rfl
  exact built.trans (emits_pctSendMsgToCloud ..)

theorem emits_pctSendAckToCloud (u8MsgId : UInt8) :
    Emits AdapterCall.ToCloud s (pctSendAckToCloud fw env u8MsgId s) := by
  rw [pctSendAckToCloud]
  have built : Emits AdapterCall.ToCloud s (s.build (eventBuildMsg Code.ack u8MsgId [])) := .of_eq rfl
  exact built.trans (emits_pctSendMsgToCloud ..)

theorem emits_pctSendEmptyMsg (u8MsgId u8SecType : UInt8) :
    Emits AdapterCall.ToCloud s (pctSendEmptyMsg fw env u8MsgId u8SecType s) :=
  emits_pctSendMsgToCloud ..

theorem calls_struOtaInfo (info : PtcOtaInfo) :
    { s with con := { s.con with struOtaInfo := info } }.calls = s.calls := rfl

end Senders

end ShuangFa
