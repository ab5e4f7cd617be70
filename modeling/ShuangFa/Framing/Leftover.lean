import ShuangFa.Machine.Replay

/-! # Splitting a stream with what a chunk leaves

A receiver puts one frame together, and when a chunk reaches over its end it starts again with what
is left of the chunk. Between two chunks it holds a proper part of the next frame. Whatever the
cuts, empty chunks and chunks with many frames included, it hands on the frames of the stream, and
it calls itself at most once for every byte of a chunk.
-/

namespace Framing

open Machine

/-- The frames that are still to come, of the first of which `acc` is there, and `later` is not. -/
structure Owing {α : Type*} (acc later : List α) (frames : List (List α)) : Prop where
  nonempty : ∀ frame ∈ frames, frame ≠ []
  stream : acc ++ later = frames.flatten
  begun : ∀ frame ∈ frames.head?, acc <+: frame ∧ acc ≠ frame

variable {α σ : Type*} {acc chunk later : List α} {frames : List (List α)}

namespace Owing

/-- Between two frames nothing is there of the next one. -/
theorem of_flatten (nonempty : ∀ frame ∈ frames, frame ≠ []) (stream : later = frames.flatten) :
    Owing [] later frames :=
  ⟨nonempty, stream, fun frame first =>
    ⟨List.nil_prefix, (nonempty frame (List.mem_of_mem_head? first)).symm⟩⟩

/-- When all of the stream was there, all of the frames were. -/
theorem finished (owing : Owing acc [] frames) : frames = [] ∧ acc = [] := by
  have stream := owing.stream
  rw [List.append_nil] at stream
  cases frames with
  | nil => exact ⟨rfl, stream⟩
  | cons frame rest =>
    obtain ⟨within, proper⟩ := owing.begun frame rfl
    rw [List.flatten_cons] at stream
    exact absurd (within.eq_of_length_le (stream ▸ List.length_append ▸ Nat.le_add_right ..)) proper

/-- A chunk stays short of the end of the next frame, or it completes the frame. -/
theorem next (owing : Owing acc (chunk ++ later) frames) (some : chunk ≠ []) :
    ∃ frame rest, frames = frame :: rest ∧
      ((acc ++ chunk <+: frame ∧ acc ++ chunk ≠ frame ∧ Owing (acc ++ chunk) later frames) ∨
        ∃ first left, chunk = first ++ left ∧ first ≠ [] ∧ acc ++ first = frame ∧
          Owing [] (left ++ later) rest) := by
  have stream := owing.stream
  cases frames with
  | nil => exact absurd (List.append_eq_nil_iff.mp (List.append_eq_nil_iff.mp stream).2).1 some
  | cons frame rest =>
    refine ⟨frame, rest, rfl, ?_⟩
    obtain ⟨⟨missing, rfl⟩, proper⟩ := owing.begun frame rfl
    rw [List.flatten_cons, List.append_assoc, List.append_right_inj] at stream
    have filled := fun frame member => owing.nonempty frame (List.mem_cons_of_mem _ member)
    rcases List.append_eq_append_iff.mp stream with ⟨more, rfl, split⟩ | ⟨left, rfl, split⟩
    · by_cases last : more = []
      · subst last
        refine .inr ⟨chunk, [], (List.append_nil _).symm, some, by rw [List.append_nil], ?_⟩
        exact of_flatten filled split
      · refine .inl ⟨⟨more, List.append_assoc ..⟩, ?_, owing.nonempty, ?_, ?_⟩
        · rw [← List.append_assoc]
          simpa using last
        · rw [List.flatten_cons, List.append_assoc, List.append_assoc, List.append_assoc, split]
        · rintro _ ⟨⟩
          refine ⟨⟨more, List.append_assoc ..⟩, ?_⟩
          rw [← List.append_assoc]
          simpa using last
    · refine .inr ⟨missing, left, rfl, ?_, rfl, of_flatten filled split.symm⟩
      rintro rfl
      exact proper (List.append_nil acc).symm

end Owing

/-- A receiver that calls itself with what a chunk leaves behind the end of a frame; `holds` relates
its states to what is there of the next frame and to the frames handed on. -/
structure Splits (valid : List α → Prop) (bound : ℕ) (feed : ℕ → List α → σ → Option σ)
    (holds : σ → List α → List (List α) → Prop) : Prop where
  empty : ∀ depth s, feed (depth + 1) [] s = some s
  part : ∀ {s acc out chunk frame}, holds s acc out → valid frame → chunk ≠ [] →
    chunk.length ≤ bound → acc ++ chunk <+: frame → acc ++ chunk ≠ frame →
      ∃ t, holds t (acc ++ chunk) out ∧ ∀ depth, feed (depth + 1) chunk s = some t
  last : ∀ {s acc out first left frame}, holds s acc out → valid frame → first ≠ [] →
    (first ++ left).length ≤ bound → acc ++ first = frame →
      ∃ t, holds t [] (out ++ [frame]) ∧ ∀ depth,
        feed (depth + 1) (first ++ left) s = if left = [] then some t else feed depth left t

namespace Splits

variable {valid : List α → Prop} {bound : ℕ} {feed : ℕ → List α → σ → Option σ}
  {holds : σ → List α → List (List α) → Prop} {s : σ} {out : List (List α)}

/-- A chunk hands on the frames that end in it. -/
theorem feed_chunk (splits : Splits valid bound feed holds) {depth : ℕ} (deep : chunk.length < depth)
    (small : chunk.length ≤ bound) (frame_valid : ∀ frame ∈ frames, valid frame)
    (held : holds s acc out) (owing : Owing acc (chunk ++ later) frames) :
    ∃ t done rest acc', feed depth chunk s = some t ∧ frames = done ++ rest ∧
      holds t acc' (out ++ done) ∧ Owing acc' later rest := by
  induction depth generalizing s acc chunk frames out with
  | zero => cases deep
  | succ depth ih =>
    by_cases nothing : chunk = []
    · subst nothing
      exact ⟨s, [], frames, acc, splits.empty depth s, rfl, by rwa [List.append_nil], owing⟩
    · obtain ⟨frame, rest, rfl, ⟨within, proper, still⟩ | ⟨first, left, rfl, some, whole, still⟩⟩ :=
        owing.next nothing
      · obtain ⟨t, kept, fed⟩ := splits.part held (frame_valid _ (List.mem_cons_self ..)) nothing
          small within proper
        exact ⟨t, [], frame :: rest, _, fed depth, rfl, by rwa [List.append_nil], still⟩
      · obtain ⟨t, kept, fed⟩ := splits.last held (frame_valid _ (List.mem_cons_self ..)) some small
          whole
        rw [fed depth]
        by_cases excess : left = []
        · subst excess
          exact ⟨t, [frame], rest, [], if_pos rfl, rfl, kept, still⟩
        · have shorter : left.length < (first ++ left).length := by
            rw [List.length_append]
            exact Nat.lt_add_of_pos_left (List.length_pos_of_ne_nil some)
          obtain ⟨u, done, after, acc', finished, rfl, holding, owed⟩ := ih (by omega) (by omega)
            (fun frame member => frame_valid frame (List.mem_cons_of_mem _ member)) kept still
          refine ⟨u, frame :: done, after, acc', by rw [if_neg excess, finished], rfl, ?_, owed⟩
          rwa [List.append_assoc, List.singleton_append] at holding

/-- However the stream of frames is cut, exactly the frames are handed on, in order. -/
theorem replay (splits : Splits valid bound feed holds) {chunks : List (List α)}
    (small : ∀ chunk ∈ chunks, chunk.length ≤ bound) (frame_valid : ∀ frame ∈ frames, valid frame)
    (held : holds s acc out) (owing : Owing acc chunks.flatten frames) :
    ∃ t, (PartialMachine.mk fun s chunk => feed (chunk.length + 1) chunk s).replay? s chunks =
      some t ∧ holds t [] (out ++ frames) := by
  induction chunks generalizing s acc frames out with
  | nil =>
    obtain ⟨rfl, rfl⟩ := owing.finished
    exact ⟨s, rfl, by rwa [List.append_nil]⟩
  | cons chunk later ih =>
    obtain ⟨t, done, rest, acc', fed, rfl, kept, still⟩ := splits.feed_chunk (Nat.lt_succ_self _)
      (small _ (List.mem_cons_self ..)) frame_valid held owing
    obtain ⟨u, replayed, finished⟩ := ih
      (fun chunk member => small chunk (List.mem_cons_of_mem _ member))
      (fun frame member => frame_valid frame (List.mem_append_right _ member)) kept still
    refine ⟨u, ?_, by rwa [← List.append_assoc]⟩
    rw [PartialMachine.replay?_cons]
    exact (congrArg (Option.bind · _) fed).trans replayed

end Splits

end Framing
