import ShuangFa.Model.System

/-! # The timer pool

Five slots over one-shot timers of the SDK. `HF_SetTimer` takes the first idle slot and stores its
index through a pointer; when there is none it stores nothing. `TIMER_StopTimer` frees whatever slot
it is given. A slot keeps the type it had when it is freed.
-/

namespace ShuangFa

namespace TimerBank

/-- The zero-initialised globals. -/
def zero : TimerBank := ⟨fun _ => ⟨.idle, .reconnect⟩, fun _ => ⟨false, none⟩⟩

/-- `TIMER_Init`. -/
def timerInit (bank : TimerBank) : TimerBank :=
  { bank with struTimer := fun slot => { bank.struTimer slot with u8Status := .idle } }

/-- `TIMER_FindIdleTimer`. -/
def timerFindIdleTimer (bank : TimerBank) : Option TimerIndex :=
  (List.finRange 5).find? fun slot => decide ((bank.struTimer slot).u8Status = .idle)

/-- `TIMER_AllocateTimer` and the SDK timer that `HF_SetTimer` creates and starts. -/
def allocate (bank : TimerBank) (slot : TimerIndex) (u8Type : TimerType) (u32Interval : ℕ) :
    TimerBank where
  struTimer := Function.update bank.struTimer slot ⟨.used, u8Type⟩
  struHfTimer := Function.update bank.struHfTimer slot ⟨true, some ⟨u32Interval, true⟩⟩

/-- `TIMER_StopTimer` with `HF_StopTimer`, which stops and deletes the SDK timer. -/
def stop (bank : TimerBank) (slot : TimerIndex) : TimerBank where
  struTimer := Function.update bank.struTimer slot { bank.struTimer slot with u8Status := .idle }
  struHfTimer := Function.update bank.struHfTimer slot
    { bank.struHfTimer slot with struHandle := none }

/-- Whether the SDK timer of a slot can elapse. -/
def running (bank : TimerBank) (slot : TimerIndex) : Bool :=
  (bank.struHfTimer slot).struHandle.any SdkTimer.running

/-- A one-shot timer that has elapsed does not run any more. -/
def elapse (bank : TimerBank) (slot : TimerIndex) : TimerBank :=
  { bank with
    struHfTimer := Function.update bank.struHfTimer slot
      { bank.struHfTimer slot with
        struHandle := (bank.struHfTimer slot).struHandle.map fun timer => { timer with running := false } } }

/-- `hftimer_start` with the first flag cleared. -/
def restart (bank : TimerBank) (slot : TimerIndex) : TimerBank :=
  { bank with
    struHfTimer := Function.update bank.struHfTimer slot
      { u32FirstFlag := false
        struHandle := (bank.struHfTimer slot).struHandle.map fun timer => { timer with running := true } } }

end TimerBank

/-- `HF_SetTimer` through `pfunSetTimer`; the callers drop its return code. -/
def hfSetTimer (u8Type : TimerType) (u32Interval : ℕ) (field : TimerField) (s : Sys) : Sys :=
  match s.timers.timerFindIdleTimer with
  | none => s
  | some slot => { s with
      timers := s.timers.allocate slot u8Type u32Interval
      con := s.con.setHandle slot field }

/-- `TIMER_StopTimer`, noting the handle it is called through. -/
def timerStopTimer (via : Option TimerField) (slot : TimerIndex) (s : Sys) : Sys :=
  { s with
    timers := s.timers.stop slot
    stops := s.stops ++ [⟨via, slot, s.timers.struTimer slot⟩] }

/-- Stop through a handle unless it is `PCT_TIMER_INVAILD`. -/
def stopHandle (via : TimerField) (handle : Option TimerIndex) (s : Sys) : Sys :=
  match handle with
  | none => s
  | some slot => timerStopTimer (some via) slot s

/-- The loop of `PCT_ReconnectCloud` and `PCT_Sleep` over the used slots. -/
def timerStopUsed (s : Sys) : Sys :=
  (List.finRange 5).foldl (fun s slot =>
    if (s.timers.struTimer slot).u8Status = .used then timerStopTimer none slot s else s) s

/-- `TIMER_Init` on the globals. -/
def timerInit (s : Sys) : Sys := { s with timers := s.timers.timerInit }

end ShuangFa
