import ShuangFa.Framing.LengthPrefix
import Mathlib.Data.List.Induction

/-! # Frames behind a mark

A receiver that takes a stream byte by byte skips what comes before the mark that begins a frame,
and then collects bytes until the frame they announce is complete. What it has found is a function
of the bytes alone, so it does not matter in which chunks they come, and a frame may contain the
mark. How much room the receiver has for the bytes of a frame is left open.
-/

namespace Framing

/-- A frame format whose frames begin with a mark. -/
structure MarkedFormat extends Format where
  mark : UInt8

/-- The bytes of a frame collected so far, and the frames in front of it. -/
structure Scan where
  acc : List UInt8
  frames : List (List UInt8)

namespace Scan

/-- Nothing was found yet. -/
def empty : Scan := ⟨[], []⟩

/-- The pieces of the stream that begin with the mark: all but the last are frames. -/
def pieces (scan : Scan) : List (List UInt8) :=
  scan.frames ++ if scan.acc = [] then [] else [scan.acc]

/-- No piece is longer than the room. -/
def Fits (room : ℕ) (scan : Scan) : Prop := ∀ piece ∈ scan.pieces, piece.length ≤ room

variable (F : MarkedFormat)

/-- The byte lies in front of a frame. -/
def Skips (scan : Scan) (byte : UInt8) : Prop := scan.acc = [] ∧ byte ≠ F.mark

instance (scan : Scan) (byte : UInt8) : Decidable (scan.Skips F byte) :=
  inferInstanceAs (Decidable (_ ∧ _))

def push (scan : Scan) (byte : UInt8) : Scan :=
  if scan.Skips F byte then scan
  else if F.progress (scan.acc ++ [byte]) = .complete then
    ⟨[], scan.frames ++ [scan.acc ++ [byte]]⟩
  else ⟨scan.acc ++ [byte], scan.frames⟩

/-- What is found in a run of bytes. -/
def run (scan : Scan) (bytes : List UInt8) : Scan := bytes.foldl (push F) scan

variable {F} {scan : Scan} {byte : UInt8} {acc bytes : List UInt8} {frames : List (List UInt8)}
  {room : ℕ}

@[simp] theorem run_nil (scan : Scan) : scan.run F [] = scan := rfl

theorem run_cons (scan : Scan) (byte : UInt8) (bytes : List UInt8) :
    scan.run F (byte :: bytes) = (scan.push F byte).run F bytes := rfl

theorem run_append (scan : Scan) (first second : List UInt8) :
    scan.run F (first ++ second) = (scan.run F first).run F second := List.foldl_append

theorem run_concat (scan : Scan) (bytes : List UInt8) (byte : UInt8) :
    scan.run F (bytes ++ [byte]) = (scan.run F bytes).push F byte := run_append ..

section Steps

theorem push_skip (skips : scan.Skips F byte) : scan.push F byte = scan := if_pos skips

theorem push_last (takes : ¬ scan.Skips F byte)
    (complete : F.progress (scan.acc ++ [byte]) = .complete) :
    scan.push F byte = ⟨[], scan.frames ++ [scan.acc ++ [byte]]⟩ := by
  rw [push, if_neg takes, if_pos complete]

theorem push_part (takes : ¬ scan.Skips F byte)
    (part : F.progress (scan.acc ++ [byte]) ≠ .complete) :
    scan.push F byte = ⟨scan.acc ++ [byte], scan.frames⟩ := by
  rw [push, if_neg takes, if_neg part]

theorem takes_of_started (started : acc ≠ []) : ¬ Skips F ⟨acc, frames⟩ byte :=
  fun skips => started skips.1

theorem takes_mark : ¬ Skips F scan F.mark := fun skips => skips.2 rfl

/-- A byte that is taken is the last of a piece. -/
theorem pieces_push (takes : ¬ scan.Skips F byte) :
    (scan.push F byte).pieces = scan.frames ++ [scan.acc ++ [byte]] := by
  by_cases complete : F.progress (scan.acc ++ [byte]) = .complete
  · rw [push_last takes complete, pieces, if_pos rfl, List.append_nil]
  · rw [push_part takes complete, pieces, if_neg (List.concat_ne_nil _ _)]

/-- There is room for a byte that is skipped, and for one that is taken if the piece it belongs to
does not fill the room. -/
theorem fits_push : (scan.push F byte).Fits room ↔
    scan.Fits room ∧ (scan.Skips F byte ∨ scan.acc.length < room) := by
  by_cases skips : scan.Skips F byte
  · rw [push_skip skips]
    exact ⟨fun fits => ⟨fits, .inl skips⟩, And.left⟩
  · rw [Fits, Fits, pieces_push skips, pieces, List.forall_mem_append, List.forall_mem_append,
      List.forall_mem_singleton, List.length_append, List.length_singleton]
    constructor
    · rintro ⟨before, last⟩
      refine ⟨⟨before, fun piece member => ?_⟩, .inr last⟩
      split at member
      · cases member
      · rw [List.mem_singleton.mp member]
        omega
    · rintro ⟨⟨before, _⟩, taken⟩
      exact ⟨before, taken.resolve_left skips⟩

end Steps

section Runs

/-- Bytes without the mark in front of a frame are skipped. -/
theorem run_gap (unmarked : F.mark ∉ bytes) : run F ⟨[], frames⟩ bytes = ⟨[], frames⟩ := by
  induction bytes with
  | nil => rfl
  | cons byte rest ih =>
    obtain ⟨first, later⟩ := not_or.mp (mt List.mem_cons.mpr unmarked)
    rw [run_cons, push_skip ⟨rfl, Ne.symm first⟩, ih later]

/-- Bytes that leave the frame incomplete are collected. -/
theorem run_part (started : acc ≠ [] ∨ ∀ byte ∈ bytes.head?, byte = F.mark)
    (part : ∀ before, acc ++ before <+: acc ++ bytes → F.progress (acc ++ before) ≠ .complete) :
    run F ⟨acc, frames⟩ bytes = ⟨acc ++ bytes, frames⟩ := by
  induction bytes generalizing acc with
  | nil => rw [run_nil, List.append_nil]
  | cons byte rest ih =>
    have takes : ¬ Skips F ⟨acc, frames⟩ byte := fun skips =>
      started.elim (· skips.1) fun marked => skips.2 (marked byte rfl)
    have split : acc ++ byte :: rest = acc ++ [byte] ++ rest := by
      rw [List.append_assoc, List.singleton_append]
    rw [run_cons, push_part takes (part [byte] ⟨rest, split.symm⟩), split]
    refine ih (.inl (List.concat_ne_nil _ _)) fun before within => ?_
    rw [List.append_assoc] at within ⊢
    exact part _ (split ▸ within)

/-- The bytes that are missing of a frame complete it. -/
theorem run_rest (valid : F.IsFrame (acc ++ bytes)) (missing : bytes ≠ [])
    (started : acc ≠ [] ∨ ∀ byte ∈ bytes.head?, byte = F.mark) :
    run F ⟨acc, frames⟩ bytes = ⟨[], frames ++ [acc ++ bytes]⟩ := by
  obtain ⟨front, last, rfl⟩ := (List.eq_nil_or_concat' bytes).resolve_left missing
  rw [← List.append_assoc] at valid ⊢
  have marked : acc ≠ [] ∨ ∀ byte ∈ front.head?, byte = F.mark := by
    refine started.imp_right fun first byte member => first byte ?_
    rw [List.head?_append, Option.mem_def.mp member]
    rfl
  have part : ∀ before, acc ++ before <+: acc ++ front →
      F.progress (acc ++ before) ≠ .complete := by
    intro before within
    have proper : acc ++ before ≠ acc ++ front ++ [last] := by
      intro same
      have shorter := within.length_le
      rw [same] at shorter
      exact absurd shorter (by simp)
    rcases valid.progress_part (within.trans (List.prefix_append ..)) proper with progress | progress
    all_goals rw [progress]; decide
  rw [run_concat, run_part marked part, push_last ?_ valid.progress_self]
  intro skips
  obtain ⟨nothing, noFront⟩ := List.append_eq_nil_iff.mp skips.1
  subst nothing noFront
  exact started.elim (· rfl) fun first => skips.2 (first last rfl)

/-- A frame is found. -/
theorem run_frame {frame : List UInt8} (valid : F.IsFrame frame) (marked : frame.head? = some F.mark) :
    run F ⟨[], frames⟩ frame = ⟨[], frames ++ [frame]⟩ := by
  have nonempty : frame ≠ [] := by
    rintro rfl
    cases marked
  refine run_rest valid nonempty (.inr fun byte member => ?_)
  exact Option.some.inj (member.symm.trans marked)

/-- What fits when all of a stream was taken has fitted before. -/
theorem fits_of_prefix {before : List UInt8} (within : before <+: bytes)
    (fits : (scan.run F bytes).Fits room) : (scan.run F before).Fits room := by
  obtain ⟨rest, rfl⟩ := within
  induction rest using List.reverseRecOn with
  | nil => rwa [List.append_nil] at fits
  | append_singleton rest byte ih =>
    rw [← List.append_assoc, run_concat] at fits
    exact ih (fits_push.mp fits).1

/-- A frame that was found is not lost. -/
theorem frames_push : scan.frames <+: (scan.push F byte).frames := by
  rw [push]
  split
  · exact List.prefix_rfl
  · split
    · exact List.prefix_append ..
    · exact List.prefix_rfl

theorem frames_prefix {before : List UInt8} (within : before <+: bytes) :
    (scan.run F before).frames <+: (scan.run F bytes).frames := by
  obtain ⟨rest, rfl⟩ := within
  induction rest using List.reverseRecOn with
  | nil => exact (List.append_nil before).symm ▸ List.prefix_rfl
  | append_singleton rest byte ih =>
    apply ih.trans
    rw [← List.append_assoc, run_concat]
    exact frames_push

/-- The frames found at the start of a stream are found where the last of them ends. -/
theorem exists_of_prefix {front : List (List UInt8)} (start : scan.frames = [])
    (within : front <+: (scan.run F bytes).frames) :
    front = [] ∨ ∃ before, before <+: bytes ∧ scan.run F before = ⟨[], front⟩ := by
  induction bytes using List.reverseRecOn with
  | nil => exact .inl (List.prefix_nil.mp (start ▸ within))
  | append_singleton bytes byte ih =>
    have earlier : front <+: (scan.run F bytes).frames → front = [] ∨
        ∃ before, before <+: bytes ++ [byte] ∧ scan.run F before = ⟨[], front⟩ := fun within =>
      (ih within).imp_right fun ⟨before, shorter, found⟩ =>
        ⟨before, shorter.trans (List.prefix_append ..), found⟩
    rw [run_concat] at within
    by_cases skips : (scan.run F bytes).Skips F byte
    · exact earlier (push_skip skips ▸ within)
    · by_cases complete : F.progress ((scan.run F bytes).acc ++ [byte]) = .complete
      · rw [push_last skips complete] at within
        rcases List.prefix_concat_iff.mp within with whole | part
        · refine .inr ⟨bytes ++ [byte], List.prefix_rfl, ?_⟩
          rw [run_concat, push_last skips complete, whole]
        · exact earlier part
      · rw [push_part skips complete] at within
        exact earlier within

end Runs

end Scan

/-- Frames with bytes in front of each of them. -/
abbrev Sent := List (List UInt8 × List UInt8)

namespace Sent

/-- The bytes of the frames and of what is between them. -/
def stream (sent : Sent) : List UInt8 := sent.flatMap fun pair => pair.1 ++ pair.2

/-- What is between the frames does not contain the mark, and the frames begin with it. -/
def Valid (F : MarkedFormat) (sent : Sent) : Prop :=
  ∀ pair ∈ sent, F.mark ∉ pair.1 ∧ F.IsFrame pair.2 ∧ pair.2.head? = some F.mark

/-- All frames that are sent are found. -/
theorem Valid.run {F : MarkedFormat} {sent : Sent} (valid : sent.Valid F)
    (frames : List (List UInt8)) :
    Scan.run F ⟨[], frames⟩ sent.stream = ⟨[], frames ++ sent.map Prod.snd⟩ := by
  induction sent generalizing frames with
  | nil => rw [stream, List.flatMap_nil, Scan.run_nil, List.map_nil, List.append_nil]
  | cons pair rest ih =>
    obtain ⟨unmarked, frame, marked⟩ := valid pair (List.mem_cons_self ..)
    have later : Valid F rest := fun pair member => valid pair (List.mem_cons_of_mem _ member)
    rw [stream, List.flatMap_cons, Scan.run_append, Scan.run_append, Scan.run_gap unmarked,
      Scan.run_frame frame marked, ← stream, ih later, List.map_cons, List.append_assoc,
      List.singleton_append]

end Sent

end Framing
