import ShuangFa.Model.Adapter
import ShuangFa.Model.Settings

/-! # The configuration in flash

A reboot goes on with the image that was written last. That is the configuration of the moment as
long as every setter writes when it has made all its assignments. The first call of
`ZC_StoreFeedInfo` does not; a later one finds the flag set.
-/

namespace ShuangFa

open Memory Machine

/-- The image a call hands to `pfunWriteFlash`. -/
def AdapterCall.writtenDb : AdapterCall → Option ZcConfigDb
  | .writeFlash db => some db
  | _ => none

namespace Sys

/-- The image last given to `pfunWriteFlash`. -/
def lastWritten (s : Sys) : Option ZcConfigDb := (s.calls.filterMap AdapterCall.writtenDb).getLast?

/-- The image in flash is the live configuration. -/
def Stored (s : Sys) : Prop := s.lastWritten = some s.zcConfigDb

instance (s : Sys) : Decidable s.Stored := inferInstanceAs (Decidable (_ = _))

theorem lastWritten_writeFlash (s : Sys) : s.writeFlash.lastWritten = some s.zcConfigDb := by
  rw [lastWritten, writeFlash, call, List.filterMap_append]
  exact List.getLast?_concat ..

theorem stored_writeFlash (s : Sys) : s.writeFlash.Stored := s.lastWritten_writeFlash

end Sys

section Setters

variable {s : Sys} {setter : Setter}

/-- The write comes before the flag. -/
theorem stored_zcStoreFeedInfo (pu8FeedId : View) : (zcStoreFeedInfo pu8FeedId s).Stored ↔
    s.zcConfigDb.struJdInfo.u32MagicFlag = zcMagicFlag := by
  have written : (zcStoreFeedInfo pu8FeedId s).lastWritten = some { s.zcConfigDb with
      struJdInfo := { s.zcConfigDb.struJdInfo with u8Feedid := .ofView pu8FeedId 0 _ } } :=
    Sys.lastWritten_writeFlash _
  rw [Sys.Stored, written]
  constructor
  · intro same
    exact congrArg (fun db : ZcConfigDb => db.struJdInfo.u32MagicFlag) (Option.some.inj same)
  · intro flag
    have live : (zcStoreFeedInfo pu8FeedId s).zcConfigDb = { s.zcConfigDb with
        struJdInfo := ⟨zcMagicFlag, .ofView pu8FeedId 0 _⟩ } := rfl
    rw [live, ← flag]

/-- A setter leaves its image in flash, but for the one that writes too early. -/
theorem stored_run : (setter.run s).Stored ↔
    (setter.StoresFeed → s.zcConfigDb.struJdInfo.u32MagicFlag = zcMagicFlag) := by
  cases setter with
  | storeFeedInfo pu8FeedId =>
    rw [Setter.run, stored_zcStoreFeedInfo]
    exact ⟨fun flag _ => flag, fun flag => flag trivial⟩
  | configPara | storeTokenKey | storeConnectionInfo | storeAccessInfo | configUnBind =>
    exact iff_of_true (Sys.stored_writeFlash _) nofun

/-- Nothing but that setter changes the flag. -/
theorem run_flag : (setter.run s).zcConfigDb.struJdInfo.u32MagicFlag =
    if setter.StoresFeed then zcMagicFlag else s.zcConfigDb.struJdInfo.u32MagicFlag := by
  cases setter <;> rfl

theorem run_magic : (setter.run s).zcConfigDb.u32MagicFlag = s.zcConfigDb.u32MagicFlag := by
  cases setter <;> rfl

end Setters

/-- After each call of a sequence of setters the live configuration is stored if and only if the
flag of the feed information was set before, or no feed information is stored. -/
theorem stored_iff_flag (s : Sys) (setters : List Setter) :
    settings.EachStep (fun s setter => (setter.run s).Stored) s setters ↔
      ((∃ setter ∈ setters, setter.StoresFeed) →
        s.zcConfigDb.struJdInfo.u32MagicFlag = zcMagicFlag) := by
  induction setters generalizing s with
  | nil => exact iff_of_true trivial fun ⟨_, member, _⟩ => nomatch member
  | cons setter rest ih =>
    have later : settings.step? s setter = some (setter.run s) := rfl
    rw [PartialMachine.EachStep, PartialMachine.forall_step?_iff later, stored_run, ih, run_flag,
      List.exists_mem_cons_iff]
    by_cases feed : setter.StoresFeed
    · simp only [feed, if_true, true_or, forall_const, implies_true, and_true]
    · simp only [feed, if_false, false_or, false_implies, true_and]

/-- With both flags set a reboot after any sequence of setters goes on with the live configuration. -/
theorem reread_settings (s : Sys) (setters : List Setter)
    (flag : s.zcConfigDb.u32MagicFlag = zcMagicFlag)
    (feed : s.zcConfigDb.struJdInfo.u32MagicFlag = zcMagicFlag) (last : Setter) :
    let target := last.run (setters.foldl Setter.run s)
    ∃ image, target.lastWritten = some image ∧
      ∀ db, hfReadDataFormFlash image db = target.zcConfigDb := by
  induction setters generalizing s with
  | nil =>
    refine ⟨_, stored_run.mpr fun _ => feed, fun _ => if_pos ?_⟩
    rw [List.foldl_nil, run_magic, flag]
  | cons setter setters ih =>
    apply ih (setter.run s)
    · rw [run_magic, flag]
    · rw [run_flag]
      split_ifs
      · rfl
      · exact feed

/-- The first feed information that is stored after a start without an image. -/
theorem stored_fails : ¬ ∀ (s : Sys) (setters : List Setter),
    settings.EachStep (fun s setter => (setter.run s).Stored) s setters := by
  intro all
  obtain ⟨stored, _⟩ := all (hfInit none .zero) [.storeFeedInfo fun _ => 1]
  exact absurd (stored_run.mp stored trivial) (by decide)

end ShuangFa
