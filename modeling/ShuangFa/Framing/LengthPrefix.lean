import ShuangFa.Machine.Replay
import Mathlib.Tactic.SplitIfs

/-! # Reassembling length-prefixed frames from a chunked stream

A frame starts with a head of fixed length that announces the frame's whole length. A receiver
with room for one frame collects chunks until a frame is complete, then holds it until a consumer
takes it. Bytes that arrive while a frame is held, and bytes behind the end of a frame in the same
chunk, are lost. When no chunk reaches over the end of a frame and none arrives while a frame is
held, the consumer takes exactly the frames that were sent, in order, whatever the interleaving.
-/

namespace Framing

open Machine

/-- A chunk as one receive call delivers it. -/
abbrev Chunk := List UInt8

/-- A length-prefixed frame format with a bound on the frames a receiver can hold. -/
structure Format where
  headLen : ℕ
  maxLen : ℕ
  total : List UInt8 → ℕ
  head_le_total : ∀ bytes, headLen ≤ total bytes
  total_append : ∀ bytes rest, headLen ≤ bytes.length → total (bytes ++ rest) = total bytes

/-- What the bytes collected so far amount to. -/
inductive Progress where
  | head
  | body
  | complete
  | oversize
deriving DecidableEq, Repr

namespace Format

variable (F : Format)

/-- The head is awaited, then the announced length decides. -/
def progress (bytes : List UInt8) : Progress :=
  if bytes.length < F.headLen then .head
  else if F.maxLen < F.total bytes then .oversize
  else if F.total bytes ≤ bytes.length then .complete
  else .body

section Progress

variable {F} {bytes : List UInt8}

theorem progress_head (short : bytes.length < F.headLen) : F.progress bytes = .head :=
  if_pos short

theorem progress_oversize (head : ¬ bytes.length < F.headLen)
    (large : F.maxLen < F.total bytes) : F.progress bytes = .oversize := by
  rw [progress, if_neg head, if_pos large]

theorem progress_complete (head : ¬ bytes.length < F.headLen)
    (fits : ¬ F.maxLen < F.total bytes) (whole : F.total bytes ≤ bytes.length) :
    F.progress bytes = .complete := by
  rw [progress, if_neg head, if_neg fits, if_pos whole]

theorem progress_body (head : ¬ bytes.length < F.headLen)
    (fits : ¬ F.maxLen < F.total bytes) (part : ¬ F.total bytes ≤ bytes.length) :
    F.progress bytes = .body := by
  rw [progress, if_neg head, if_neg fits, if_neg part]

theorem progress_eq_head_iff : F.progress bytes = .head ↔ bytes.length < F.headLen := by
  rw [progress]
  split_ifs <;> simp [*]

theorem progress_eq_body_iff : F.progress bytes = .body ↔ F.headLen ≤ bytes.length ∧
    F.total bytes ≤ F.maxLen ∧ bytes.length < F.total bytes := by
  rw [progress]
  split_ifs <;> simp only [true_iff, false_iff] <;> omega

theorem progress_eq_complete_iff : F.progress bytes = .complete ↔ F.headLen ≤ bytes.length ∧
    F.total bytes ≤ F.maxLen ∧ F.total bytes ≤ bytes.length := by
  rw [progress]
  split_ifs <;> simp only [true_iff, false_iff] <;> omega

/-- What comes behind the end of a frame changes nothing. -/
theorem progress_append_of_complete (complete : F.progress bytes = .complete)
    (rest : List UInt8) : F.progress (bytes ++ rest) = .complete := by
  obtain ⟨head, fits, whole⟩ := progress_eq_complete_iff.mp complete
  rw [progress_eq_complete_iff, F.total_append bytes rest head, List.length_append]
  exact ⟨Nat.le_add_right_of_le head, fits, Nat.le_add_right_of_le whole⟩

end Progress

/-- A frame announces its own length and fits the receiver. -/
structure IsFrame (frame : List UInt8) : Prop where
  announced : F.total frame = frame.length
  fits : frame.length ≤ F.maxLen

variable {F}

theorem IsFrame.head_le {frame : List UInt8} (valid : F.IsFrame frame) :
    F.headLen ≤ frame.length := valid.announced ▸ F.head_le_total frame

/-- The announced length of a frame is known as soon as its head is. -/
theorem IsFrame.total_of_prefix {frame bytes : List UInt8} (valid : F.IsFrame frame)
    (within : bytes <+: frame) (head : F.headLen ≤ bytes.length) :
    F.total bytes = frame.length := by
  obtain ⟨rest, rfl⟩ := within
  rw [← F.total_append bytes rest head, valid.announced]

theorem IsFrame.progress_self {frame : List UInt8} (valid : F.IsFrame frame) :
    F.progress frame = .complete := by
  have head := valid.head_le
  have fits := valid.fits
  simp only [progress, valid.announced, Nat.not_lt.mpr head, Nat.not_lt.mpr fits, ↓reduceIte,
    Nat.le_refl]

/-- A proper part of a frame is an awaited head or an awaited body, never anything else. -/
theorem IsFrame.progress_part {frame bytes : List UInt8} (valid : F.IsFrame frame)
    (within : bytes <+: frame) (proper : bytes ≠ frame) :
    F.progress bytes = .head ∨ F.progress bytes = .body := by
  have shorter : bytes.length < frame.length :=
    Nat.lt_of_le_of_ne within.length_le fun same => proper (within.eq_of_length same)
  by_cases head : bytes.length < F.headLen
  · exact .inl (if_pos head)
  · have total := valid.total_of_prefix within (Nat.not_lt.mp head)
    have fits := valid.fits
    right
    simp only [progress, head, total, ↓reduceIte, Nat.not_lt.mpr fits, Nat.not_le.mpr shorter]

end Format

/-- Cutting a stream of frames so that no chunk reaches over the end of a frame; `acc` is the part
of the first frame that came before. -/
inductive Tiles : List UInt8 → List Chunk → List (List UInt8) → Prop
  | done : Tiles [] [] []
  | more {acc : List UInt8} {chunk : Chunk} {chunks : List Chunk} {frame : List UInt8}
      {frames : List (List UInt8)} : acc ++ chunk <+: frame → acc ++ chunk ≠ frame →
      Tiles (acc ++ chunk) chunks (frame :: frames) → Tiles acc (chunk :: chunks) (frame :: frames)
  | last {acc : List UInt8} {chunk : Chunk} {chunks : List Chunk} {frame : List UInt8}
      {frames : List (List UInt8)} : acc ++ chunk = frame → Tiles [] chunks frames →
      Tiles acc (chunk :: chunks) (frame :: frames)

/-- Chunks that tile the frames carry exactly the bytes of the frames. -/
theorem Tiles.flatten {acc : List UInt8} {chunks : List Chunk} {frames : List (List UInt8)}
    (tiles : Tiles acc chunks frames) : acc ++ chunks.flatten = frames.flatten := by
  induction tiles with
  | done => rfl
  | more _ _ _ ih => simpa only [List.flatten_cons, List.append_assoc] using ih
  | last whole _ ih =>
    rw [List.nil_append] at ih
    rw [List.flatten_cons, List.flatten_cons, ← List.append_assoc, whole, ih]

/-- No chunks are left over only when no frames are. -/
theorem Tiles.frames_nil {acc : List UInt8} {frames : List (List UInt8)}
    (tiles : Tiles acc [] frames) : frames = [] := by
  cases tiles
  rfl

/-- A receiver with room for one frame. -/
structure Receiver where
  acc : List UInt8
  ready : Option (List UInt8)

/-- What happens to a receiver: a chunk arrives, or the consumer looks for a frame. -/
inductive Op where
  | feed (chunk : Chunk)
  | consume

namespace Receiver

variable (F : Format)

/-- Collect a chunk; a held frame makes the receiver deaf, a complete one ends the chunk. -/
def feed (receiver : Receiver) (chunk : Chunk) : Receiver :=
  if receiver.ready.isSome then receiver
  else
    let bytes := receiver.acc ++ chunk
    match F.progress bytes with
    | .head => ⟨bytes, none⟩
    | .body => ⟨bytes, none⟩
    | .complete => ⟨[], some (bytes.take (F.total bytes))⟩
    | .oversize => ⟨[], none⟩

/-- The receiver after an operation; a look leaves no frame. -/
def after (receiver : Receiver) : Op → Receiver
  | .feed chunk => receiver.feed F chunk
  | .consume => ⟨receiver.acc, none⟩

/-- The frames a look takes. -/
def taken (receiver : Receiver) : Op → List (List UInt8)
  | .feed _ => []
  | .consume => receiver.ready.toList

/-- No chunk arrives while a frame is held. -/
def Paced (receiver : Receiver) : Op → Prop
  | .feed _ => receiver.ready = none
  | .consume => True

/-- A chunk goes on with one of the frames and does not reach over its end. -/
def Within (frames : List (List UInt8)) (receiver : Receiver) : Op → Prop
  | .feed chunk => ∃ frame ∈ frames, receiver.acc ++ chunk <+: frame
  | .consume => True

/-- The chunks among the operations. -/
def fed (ops : List Op) : List Chunk :=
  ops.filterMap fun op => match op with
    | .feed chunk => some chunk
    | .consume => none

variable {F}

/-- A chunk that stays short of the end of the frame is collected. -/
theorem feed_part {acc : List UInt8} {chunk : Chunk} {frame : List UInt8}
    (valid : F.IsFrame frame) (within : acc ++ chunk <+: frame) (proper : acc ++ chunk ≠ frame) :
    feed F ⟨acc, none⟩ chunk = ⟨acc ++ chunk, none⟩ := by
  rcases valid.progress_part within proper with progress | progress <;>
    simp [feed, progress]

/-- A chunk that ends the frame makes the frame ready. -/
theorem feed_last {acc : List UInt8} {chunk : Chunk} {frame : List UInt8}
    (valid : F.IsFrame frame) (whole : acc ++ chunk = frame) :
    feed F ⟨acc, none⟩ chunk = ⟨[], some frame⟩ := by
  simp [feed, whole, valid.progress_self, valid.announced]

/-- The frames still to be taken: the one held, then those the remaining chunks tile. -/
def Owes (receiver : Receiver) (chunks : List Chunk) (frames : List (List UInt8)) : Prop :=
  ∃ rest, frames = receiver.ready.toList ++ rest ∧ Tiles receiver.acc chunks rest

section Owing

variable {receiver : Receiver} {chunk : Chunk} {chunks : List Chunk} {frames : List (List UInt8)}

/-- An arrival leaves the frames owed. -/
theorem Owes.feed (owes : receiver.Owes (chunk :: chunks) frames)
    (valid : ∀ frame ∈ frames, F.IsFrame frame) (paced : receiver.ready = none) :
    receiver.Within frames (.feed chunk) ∧ (receiver.feed F chunk).Owes chunks frames := by
  obtain ⟨acc, ready⟩ := receiver
  obtain rfl : ready = none := paced
  obtain ⟨rest, split, tiles⟩ := owes
  obtain rfl : frames = rest := split
  cases tiles with
  | more within proper tiles =>
    refine ⟨⟨_, List.mem_cons_self .., within⟩, ?_⟩
    rw [feed_part (valid _ (List.mem_cons_self ..)) within proper]
    exact ⟨_, rfl, tiles⟩
  | last whole tiles =>
    refine ⟨⟨_, List.mem_cons_self .., whole ▸ List.prefix_rfl⟩, ?_⟩
    rw [feed_last (valid _ (List.mem_cons_self ..)) whole]
    exact ⟨_, rfl, tiles⟩

/-- A look takes the first of the frames owed, if it is there. -/
theorem Owes.consume (owes : receiver.Owes chunks frames) :
    ∃ left, frames = receiver.ready.toList ++ left ∧ Owes ⟨receiver.acc, none⟩ chunks left := by
  obtain ⟨rest, split, tiles⟩ := owes
  exact ⟨rest, split, rest, rfl, tiles⟩

/-- What happens next leaves the frames owed but for those it takes. -/
theorem Owes.step {op : Op} {later : List Chunk} {ops : List Op}
    (owes : receiver.Owes (fed (op :: ops) ++ later) frames)
    (valid : ∀ frame ∈ frames, F.IsFrame frame) (paced : receiver.Paced op) :
    receiver.Within frames op ∧ ∃ left, frames = receiver.taken op ++ left ∧
      (receiver.after F op).Owes (fed ops ++ later) left := by
  cases op with
  | consume => exact ⟨trivial, owes.consume⟩
  | feed chunk =>
    obtain ⟨within, still⟩ := owes.feed valid paced
    exact ⟨within, frames, rfl, still⟩

end Owing

/-- A machine whose steps are arrivals and looks, and that keeps up with a receiver as long as no
chunk arrives while a frame is held and every chunk stays inside one of the frames. -/
structure Implemented {σ ε ω : Type*} (F : Format) (m : PartialMachine σ ε) (label : ε → Op)
    (observe : σ → ε → List ω) (frames : List (List UInt8)) (image : List UInt8 → ω)
    (C : σ → ε → Prop) (related : σ → Receiver → Prop) : Prop where
  paced : ∀ {s x e}, related s x → C s e → x.Paced (label e)
  follows : ∀ {s x e}, related s x → x.Paced (label e) → x.Within frames (label e) →
    ∃ t, m.step? s e = some t ∧ related t (x.after F (label e))
  shows : ∀ {s x e}, related s x → observe s e = (x.taken (label e)).map image

namespace Implemented

variable {σ ε ω : Type*} {m : PartialMachine σ ε} {label : ε → Op} {observe : σ → ε → List ω}
  {all : List (List UInt8)} {image : List UInt8 → ω} {C : σ → ε → Prop}
  {related : σ → Receiver → Prop} {later : List Chunk}

/-- Whatever the interleaving, the frames taken and those still owed are the frames sent. -/
theorem owes (implemented : Implemented F m label observe all image C related)
    (valid : ∀ frame ∈ all, F.IsFrame frame) {source : σ} {start : Receiver} {tape : List ε}
    {frames : List (List UInt8)} (sent : frames ⊆ all) (initially : related source start)
    (owes : start.Owes (fed (tape.map label) ++ later) frames) (steps : m.EachStep C source tape) :
    ∃ target final owed, m.replay? source tape = some target ∧ related target final ∧
      frames.map image = m.history observe source tape ++ owed.map image ∧
      final.Owes later owed := by
  induction tape generalizing source start frames with
  | nil => exact ⟨source, start, frames, rfl, initially, rfl, owes⟩
  | cons event rest ih =>
    have paced := implemented.paced initially steps.1
    obtain ⟨within, left, split, still⟩ := owes.step (fun frame member => valid _ (sent member)) paced
    have inside : start.Within all (label event) := by
      cases op : label event with
      | consume => trivial
      | feed chunk =>
        rw [op] at within
        obtain ⟨frame, member, goes⟩ := within
        exact ⟨frame, sent member, goes⟩
    obtain ⟨next, step, moved⟩ := implemented.follows initially paced inside
    have fewer : left ⊆ all := fun frame member =>
      sent (split ▸ List.mem_append_right _ member)
    obtain ⟨target, final, owed, replayed, last, shown, owing⟩ :=
      ih fewer moved still (steps.2 next step)
    refine ⟨target, final, owed, ?_, last, ?_, owing⟩
    · rw [PartialMachine.replay?_cons, step]
      exact replayed
    · rw [split, List.map_append, shown, PartialMachine.history, step, implemented.shows initially,
        List.append_assoc]

/-- The replay is defined, and the frames taken are always a prefix of the frames sent; once every
chunk is in and no frame is held they are all of them. -/
theorem delivery (implemented : Implemented F m label observe all image C related)
    (valid : ∀ frame ∈ all, F.IsFrame frame) {source : σ} {tape : List ε}
    (initially : related source ⟨[], none⟩) (tiles : Tiles [] (fed (tape.map label) ++ later) all)
    (steps : m.EachStep C source tape) :
    ∃ target final, m.replay? source tape = some target ∧ related target final ∧
      m.history observe source tape <+: all.map image ∧
      (later = [] → final.ready = none → m.history observe source tape = all.map image) := by
  obtain ⟨target, final, owed, replayed, last, shown, rest, held, left⟩ :=
    implemented.owes valid (List.Subset.refl _) initially ⟨all, rfl, tiles⟩ steps
  refine ⟨target, final, replayed, last, ⟨_, shown.symm⟩, ?_⟩
  rintro rfl idle
  have finished : rest = [] := left.frames_nil
  rw [shown, held, idle, finished]
  simp only [Option.toList_none, List.append_nil, List.map_nil]

end Implemented

end Receiver

end Framing
