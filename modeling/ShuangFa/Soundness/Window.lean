import Mathlib.Data.List.Induction
import ShuangFa.Soundness.Discovery

/-! # The window for provisioning

The clock counts milliseconds modulo 2^32, and starts again after fifty days. A request that comes
when the clock has passed two minutes clears the flag, and nothing sets it before the next start. So
the window stays closed if the first request after the two minutes does not wait until the clock has
started again.
-/

namespace ShuangFa

open Memory Coding Machine

/-- A datagram, and the milliseconds since the start when it comes. -/
structure JdDatagram where
  time : ℕ
  rxMessage : View
  rLength : ℕ

/-- `hfsys_get_time` -/
def JdDatagram.clock (datagram : JdDatagram) : ℕ := datagram.time % 2 ^ 32

/-- The state behind a datagram, where nothing undefined has happened. -/
def Searched.next? (left : Searched) : Option JdDevice := do
  let jdArgs ← left.jdArgs
  let userbin ← left.userbin
  if left.answer = .undefined then none else some ⟨jdArgs, left.smtlk, userbin⟩

variable (env : JdUdpEnvironment)

def JdDevice.handle (s : JdDevice) (datagram : JdDatagram) : Searched :=
  appSearchDevice env datagram.clock datagram.rxMessage datagram.rLength s

/-- The device from its start on. -/
def jdUdp : PartialMachine JdDevice JdDatagram := ⟨fun s datagram => (s.handle env datagram).next?⟩

/-- A search or a request. -/
def JdDatagram.IsRequest (datagram : JdDatagram) : Prop :=
  ∃ type jDevice, packetAnalyse env.cJson.parse datagram.rxMessage datagram.rLength =
    some (type, jDevice) ∧ (type = 1 ∨ type = 3)

/-- Two minutes since the start. -/
def windowEnd : ℕ := 2000 * 60

/-- After two minutes no datagram changes `jdArgs`, and none is answered. -/
def StaysClosed (boot : JdDevice) (datagrams : List JdDatagram) : Prop :=
  ∀ before datagram after s, datagrams = before ++ datagram :: after →
    (jdUdp env).replay? boot before = some s → windowEnd ≤ datagram.time →
      (s.handle env datagram).jdArgs = some s.jdArgs ∧ (s.handle env datagram).answer = .nothing

/-- Every request after two minutes that comes early on the clock has one before it that came late
on the clock, or the flag was not set at the start. -/
def ClosedInTime (boot : JdDevice) (datagrams : List JdDatagram) : Prop :=
  ∀ before datagram after, datagrams = before ++ datagram :: after → datagram.IsRequest env →
    windowEnd ≤ datagram.time → datagram.clock < windowEnd →
      boot.smtlk = 1 → ∃ late ∈ before, late.IsRequest env ∧ windowEnd ≤ late.clock

section Runs

variable {env} {boot s next : JdDevice} {datagram : JdDatagram} {datagrams : List JdDatagram}

/-- A datagram outside the window, or one that is no request, changes nothing and is not answered.
-/
theorem handle_closed (closed : datagram.IsRequest env → ¬ Provisioning datagram.clock s) :
    (s.handle env datagram).jdArgs = some s.jdArgs ∧ (s.handle env datagram).answer = .nothing := by
  rw [JdDevice.handle, appSearchDevice]
  split
  · exact ⟨rfl, rfl⟩
  · rename_i type jDevice accepted
    split_ifs with search early request early
    · exact absurd early (closed ⟨type, jDevice, accepted, .inl search⟩)
    · exact ⟨rfl, rfl⟩
    · exact absurd early (closed ⟨type, jDevice, accepted, .inr request⟩)
    · exact ⟨rfl, rfl⟩
    · exact ⟨rfl, rfl⟩

/-- A flag that is set was set before, and no request has come late on the clock. -/
theorem handle_smtlk (kept : (s.handle env datagram).smtlk = 1) :
    s.smtlk = 1 ∧ (datagram.IsRequest env → datagram.clock < windowEnd) := by
  rw [JdDevice.handle, appSearchDevice] at kept
  split at kept
  · rename_i refused
    refine ⟨kept, ?_⟩
    rintro ⟨type, jDevice, accepted, _⟩
    rw [refused] at accepted
    cases accepted
  · rename_i type jDevice accepted
    split_ifs at kept with search early request early
    · exact ⟨early.2, fun _ => early.1⟩
    · cases kept
    · exact ⟨early.2, fun _ => early.1⟩
    · cases kept
    · refine ⟨kept, ?_⟩
      rintro ⟨other, document, accepted_other, kind⟩
      obtain rfl := (Prod.mk.inj (Option.some.inj (accepted.symm.trans accepted_other))).1
      exact (kind.elim search request).elim

/-- The word in the nonvolatile memory is that of what a datagram leaves. -/
theorem next?_smtlk {left : Searched} (defined : left.next? = some next) :
    next.smtlk = left.smtlk := by
  rw [Searched.next?] at defined
  obtain ⟨jdArgs, _, defined⟩ := Option.bind_eq_some_iff.mp defined
  obtain ⟨userbin, _, defined⟩ := Option.bind_eq_some_iff.mp defined
  split_ifs at defined
  rw [← Option.some.inj defined]

/-- The flag is set only as long as no request has come late on the clock. -/
theorem replay?_smtlk (run : (jdUdp env).replay? boot datagrams = some s) (flag : s.smtlk = 1) :
    boot.smtlk = 1 ∧ ∀ datagram ∈ datagrams, datagram.IsRequest env →
      datagram.clock < windowEnd := by
  induction datagrams using List.reverseRecOn generalizing s with
  | nil =>
    cases run
    exact ⟨flag, fun _ absent => absurd absent List.not_mem_nil⟩
  | append_singleton datagrams datagram ih =>
    rw [PartialMachine.replay?_concat] at run
    obtain ⟨middle, first, last⟩ := Option.bind_eq_some_iff.mp run
    rw [next?_smtlk last] at flag
    obtain ⟨set, early⟩ := handle_smtlk flag
    obtain ⟨boot_set, all_early⟩ := ih first set
    refine ⟨boot_set, fun other member => ?_⟩
    rcases List.mem_append.mp member with inside | rest
    · exact all_early other inside
    · obtain rfl := List.mem_singleton.mp rest
      exact early

end Runs

/-- The window stays closed in every run where the requests that come early on the clock after two
minutes find the flag cleared by one that came late. -/
theorem staysClosed_of_closedInTime (boot : JdDevice) (datagrams : List JdDatagram)
    (closed : ClosedInTime env boot datagrams) : StaysClosed env boot datagrams := by
  intro before datagram after s split run passed
  apply handle_closed
  intro request early
  obtain ⟨boot_set, all_early⟩ := replay?_smtlk run early.2
  obtain ⟨late, member, late_request, late_clock⟩ :=
    closed before datagram after split request passed early.1 boot_set
  exact absurd (all_early late member late_request) (Nat.not_lt.mpr late_clock)

/-- A search for the product of the device. -/
def searchAt (time : ℕ) : JdDatagram := ⟨time, searchDatagram "5IUP6T", 28⟩

theorem searchAt_accepted (time : ℕ) : packetAnalyse (searchEnvironment "5IUP6T").cJson.parse
    (searchAt time).rxMessage (searchAt time).rLength = some (1, searchDocument "5IUP6T") := by
  rw [searchAt]
  exact searchDatagram_accepted "5IUP6T" 28

theorem searchAt_isRequest (time : ℕ) : (searchAt time).IsRequest (searchEnvironment "5IUP6T") :=
  ⟨1, searchDocument "5IUP6T", searchAt_accepted time, .inl rfl⟩

/-- A search in the fourth minute, and one when the clock has started again. -/
theorem staysClosed_fourth_minute : StaysClosed (searchEnvironment "5IUP6T") .fresh
    [searchAt (2000 * 120), searchAt (2 ^ 32)] := by
  apply staysClosed_of_closedInTime
  intro before datagram after split _ _ early _
  cases before with
  | nil =>
    cases split
    exact absurd early (by decide)
  | cons first rest =>
    obtain ⟨rfl, _⟩ := List.cons.inj split
    exact ⟨_, List.mem_cons_self .., searchAt_isRequest _, by decide⟩

/-- A first search when the clock has started again. -/
theorem staysClosed_fails : ¬ ∀ (env : JdUdpEnvironment) (boot : JdDevice)
    (datagrams : List JdDatagram), StaysClosed env boot datagrams := by
  intro all
  have closed := all (searchEnvironment "5IUP6T") .fresh [searchAt (2 ^ 32)] [] (searchAt (2 ^ 32)) []
    .fresh rfl rfl (by decide)
  have answer := closed.2
  rw [JdDevice.handle, appSearchDevice, searchAt_accepted] at answer
  exact absurd answer (by decide)

end ShuangFa
