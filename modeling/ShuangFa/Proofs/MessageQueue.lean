import ShuangFa.Model.MessageQueue
import ShuangFa.Framing.LengthPrefix

/-! # The message queue is a list and the reassembler a length-prefix receiver

Whatever node the head has reached, a queue represents the list of the pointers from the head to
the tail; pushing appends to it unless it has `MSG_QUEUE_MAXLEN` members, popping takes its head.
The four branches of `MSG_RecvData` have one meaning: the bytes collected so far and the new ones
decide together whether a head, a body, a frame or an oversized frame is there.
-/

namespace ShuangFa

open Memory Framing

namespace MsgQueue

variable {maxLen : ℕ} {α : Type}

/-- The node `steps` links behind `node`. -/
def back (node : Fin (maxLen + 1)) (steps : ℕ) : Fin (maxLen + 1) :=
  if before : steps ≤ node.val then ⟨node.val - steps, by omega⟩
  else ⟨node.val + (maxLen + 1) - steps, by omega⟩

theorem back_val (node : Fin (maxLen + 1)) (steps : ℕ) : (back node steps).val =
    if steps ≤ node.val then node.val - steps else node.val + (maxLen + 1) - steps := by
  rw [back]
  split_ifs <;> rfl

@[simp] theorem back_zero (node : Fin (maxLen + 1)) : back node 0 = node := by
  apply Fin.ext
  simp only [back_val, Nat.zero_le, ↓reduceIte, Nat.sub_zero]

theorem back_back (node : Fin (maxLen + 1)) {first second : ℕ}
    (short : first + second ≤ maxLen + 1) : back (back node first) second =
      back node (first + second) := by
  apply Fin.ext
  have bound := node.isLt
  simp only [back_val]
  split_ifs <;> omega

theorem back_injective (node : Fin (maxLen + 1)) {first second : ℕ} (left : first ≤ maxLen)
    (right : second ≤ maxLen) (same : back node first = back node second) : first = second := by
  have bound := node.isLt
  have values := congrArg Fin.val same
  simp only [back_val] at values
  split_ifs at values <;> omega

/-- The queue links its nodes in a ring and holds `messages` from the head to the tail. -/
structure Represents (queue : MsgQueue maxLen α) (messages : List α) : Prop where
  linked : ∀ node, (queue.struQueue node).pstruNext = back node 1
  bounded : messages.length ≤ maxLen
  tail_eq : queue.pstruTail = back queue.pstruHead messages.length
  holds : ∀ place (inside : place < messages.length),
    (queue.struQueue (back queue.pstruHead place)).pu8Msg = some messages[place]

/-- The pointers from the head to the tail. -/
def contents (queue : MsgQueue maxLen α) : List α :=
  (List.range (if queue.pstruTail.val ≤ queue.pstruHead.val
    then queue.pstruHead.val - queue.pstruTail.val
    else queue.pstruHead.val + (maxLen + 1) - queue.pstruTail.val)).filterMap fun place =>
      (queue.struQueue (back queue.pstruHead place)).pu8Msg

namespace Represents

variable {queue : MsgQueue maxLen α} {messages : List α}

theorem contents_eq (represents : queue.Represents messages) : queue.contents = messages := by
  have bounded := represents.bounded
  have head := queue.pstruHead.isLt
  have tail := congrArg Fin.val represents.tail_eq
  rw [back_val] at tail
  have count : (if queue.pstruTail.val ≤ queue.pstruHead.val
      then queue.pstruHead.val - queue.pstruTail.val
      else queue.pstruHead.val + (maxLen + 1) - queue.pstruTail.val) = messages.length := by
    split_ifs at tail ⊢ <;> omega
  rw [contents, count]
  have walk : ∀ length (short : length ≤ messages.length), (List.range length).filterMap
      (fun place => (queue.struQueue (back queue.pstruHead place)).pu8Msg) =
        messages.take length := by
    intro length short
    induction length with
    | zero => rfl
    | succ length ih =>
      rw [List.range_succ, List.filterMap_append, ih (by omega), List.take_succ_eq_append_getElem
        (by omega), List.filterMap_cons, represents.holds length (by omega)]
      rfl
  rw [walk _ (Nat.le_refl _), List.take_length]

theorem init : (msgInitQueue maxLen α).Represents [] where
  linked node := by
    apply Fin.ext
    have bound := node.isLt
    by_cases first : node = 0
    · simp [msgInitQueue, back_val, first]
    · have positive : 1 ≤ node.val := Nat.one_le_iff_ne_zero.mpr fun zero =>
        first (Fin.ext zero)
      simp only [msgInitQueue, back_val, first, ↓reduceIte, positive]
  bounded := Nat.zero_le _
  tail_eq := (back_zero _).symm
  holds place inside := absurd inside (Nat.not_lt_zero place)

/-- The node behind the tail is the head exactly when no node is free. -/
theorem next_tail_eq_head_iff (represents : queue.Represents messages) :
    (queue.struQueue queue.pstruTail).pstruNext = queue.pstruHead ↔
      messages.length = maxLen := by
  have bounded := represents.bounded
  have bound := queue.pstruHead.isLt
  rw [represents.linked, represents.tail_eq, back_back _ (by omega), Fin.ext_iff, back_val]
  split_ifs <;> omega

theorem push_full (represents : queue.Represents messages) (full : messages.length = maxLen)
    (message : α) : msgPushMsg queue message = (.error, queue) := by
  simp only [msgPushMsg, represents.next_tail_eq_head_iff.mpr full, ↓reduceIte]

/-- Pushing on a queue with a free node appends. -/
theorem push (represents : queue.Represents messages) (free : messages.length < maxLen)
    (message : α) : ∃ next, msgPushMsg queue message = (.ok, next) ∧
      next.Represents (messages ++ [message]) := by
  have open' := fun full => (Nat.ne_of_lt free) (represents.next_tail_eq_head_iff.mp full)
  refine ⟨_, by rw [msgPushMsg, if_neg open'], ?_, ?_, ?_, ?_⟩
  · intro node
    by_cases tail : node = queue.pstruTail
    · simp only [tail, Function.update_self]
      exact represents.linked _
    · simp only [Function.update_of_ne tail]
      exact represents.linked node
  · rw [List.length_append, List.length_singleton]
    exact free
  · simp only [List.length_append, List.length_singleton]
    rw [represents.linked, represents.tail_eq, back_back _ (by omega)]
  · intro place inside
    rw [List.length_append, List.length_singleton] at inside
    by_cases last : place = messages.length
    · subst last
      simp only [← represents.tail_eq, Function.update_self, List.getElem_concat_length]
    · have before : place < messages.length := by omega
      have other : back queue.pstruHead place ≠ queue.pstruTail := fun same =>
        last (back_injective _ (by omega) (by omega) (same.trans represents.tail_eq))
      simp only [Function.update_of_ne other, List.getElem_append_left before]
      exact represents.holds place before

theorem pop_nil (represents : queue.Represents []) : msgPopMsg queue = (none, queue) := by
  have empty : queue.pstruHead = queue.pstruTail := by
    rw [represents.tail_eq, List.length_nil, back_zero]
  simp only [msgPopMsg, empty, ↓reduceIte]

/-- Popping takes the head of the list. -/
theorem pop_cons {message : α} (represents : queue.Represents (message :: messages)) :
    ∃ next, msgPopMsg queue = (some message, next) ∧ next.Represents messages := by
  have bounded := represents.bounded
  rw [List.length_cons] at bounded
  have first := represents.holds 0 (Nat.zero_lt_succ _)
  rw [back_zero] at first
  have nonempty : queue.pstruHead ≠ queue.pstruTail := by
    intro same
    rw [represents.tail_eq, ← back_zero queue.pstruHead, back_back _ (by simp; omega)] at same
    have := back_injective _ (Nat.zero_le _) (by simp; omega) same
    simp at this
  refine ⟨_, by rw [msgPopMsg, if_neg nonempty]; exact congrArg (·, _) first, ?_, ?_, ?_, ?_⟩
  · intro node
    by_cases head : node = queue.pstruHead
    · simp only [head, Function.update_self]
      exact represents.linked _
    · simp only [Function.update_of_ne head]
      exact represents.linked node
  · omega
  · simp only
    rw [represents.linked, back_back _ (by omega), represents.tail_eq, List.length_cons,
      Nat.add_comm 1]
  · intro place inside
    simp only
    rw [represents.linked, back_back _ (by omega), Nat.add_comm 1]
    have other : back queue.pstruHead (place + 1) ≠ queue.pstruHead := by
      intro same
      rw [← back_zero queue.pstruHead, back_back _ (by omega)] at same
      have := back_injective _ (by omega) (Nat.zero_le _) same
      omega
    rw [Function.update_of_ne other]
    exact represents.holds (place + 1) (by simpa using inside)

end Represents

end MsgQueue

/-- The head of a frame stays the same when more comes. -/
theorem frameLen_append (bytes rest : List UInt8) (head : sizeofSecHead ≤ bytes.length) :
    frameLen (View.ofList (bytes ++ rest)) = frameLen (View.ofList bytes) := by
  have head : 4 ≤ bytes.length := head
  simp only [frameLen, ZcSecHead.load, loadU16, View.ofList, List.getD_eq_getElem?_getD]
  rw [List.getElem?_append_left (by omega), List.getElem?_append_left (by omega)]

theorem sizeofSecHead_le_frameLen (memory : View) : sizeofSecHead ≤ frameLen memory :=
  Nat.le_add_left ..

/-- Frames of the cloud stream: a security head that announces the bytes behind it. -/
def frameFormat : Format where
  headLen := sizeofSecHead
  maxLen := msgBufferMaxLen
  total bytes := frameLen (View.ofList bytes)
  head_le_total _ := sizeofSecHead_le_frameLen _
  total_append bytes rest head := frameLen_append bytes rest head

/-- The length of a frame depends on its head only. -/
theorem frameLen_take (bytes : List UInt8) {length : ℕ} (head : sizeofSecHead ≤ length)
    (inside : length ≤ bytes.length) :
    frameLen (View.ofList (bytes.take length)) = frameLen (View.ofList bytes) := by
  have whole : bytes.take length ++ bytes.drop length = bytes := List.take_append_drop ..
  conv_rhs => rw [← whole]
  refine (frameFormat.total_append _ _ ?_).symm
  rw [List.length_take]
  exact Nat.le_min.mpr ⟨head, Nat.le_trans head inside⟩

theorem frameLen_le (memory : View) : frameLen memory < 2 ^ 16 + sizeofSecHead :=
  Nat.add_lt_add_right (zcHtons_lt _) _

namespace MsgBuffer

/-- The bytes a buffer has collected of the frame that is coming in. -/
def collected (buffer : MsgBuffer) : List UInt8 :=
  match buffer.u8Status with
  | .idle => []
  | _ => buffer.u8MsgBuffer.bytes.take buffer.u32Len

/-- The status tells how much of a frame has been collected. -/
structure Sound (buffer : MsgBuffer) : Prop where
  nohead : buffer.u8Status = .segmentNohead → buffer.u32Len < sizeofSecHead
  head : buffer.u8Status = .segmentHead → sizeofSecHead ≤ buffer.u32Len ∧
    buffer.u32Len < buffer.frameLen ∧ buffer.frameLen ≤ msgBufferMaxLen

theorem Sound.of_idle {buffer : MsgBuffer} (idle : buffer.u8Status = .idle) : buffer.Sound :=
  ⟨fun nohead => by simp [idle] at nohead, fun head => by simp [idle] at head⟩

theorem Sound.of_full {buffer : MsgBuffer} (full : buffer.u8Status = .full) : buffer.Sound :=
  ⟨fun nohead => by simp [full] at nohead, fun head => by simp [full] at head⟩

variable {buffer next : MsgBuffer} {offset length : ℕ} {source : List UInt8}
  {status : BufferStatus}

theorem copyIn?_isSome (inside : length ≤ source.length)
    (fits : offset + length ≤ msgBufferMaxLen) :
    (buffer.copyIn? offset source length status).isSome := by
  rw [copyIn?, dif_pos ⟨inside, fits⟩, Option.isSome_some]

/-- What a copy into a buffer leaves there. -/
structure Copied (buffer : MsgBuffer) (offset : ℕ) (source : List UInt8) (length : ℕ)
    (status : BufferStatus) (next : MsgBuffer) : Prop where
  inside : length ≤ source.length
  fits : offset + length ≤ msgBufferMaxLen
  status_eq : next.u8Status = status
  len_eq : next.u32Len = offset + length
  bytes_eq : next.u8MsgBuffer = buffer.u8MsgBuffer.overlay offset (source.take length)

theorem copyIn?_eq_some (copied : buffer.copyIn? offset source length status = some next) :
    Copied buffer offset source length status next := by
  rw [copyIn?] at copied
  split_ifs at copied with inside
  obtain rfl := Option.some.inj copied
  exact ⟨inside.1, inside.2, rfl, rfl, rfl⟩

/-- After a copy behind the first `offset` bytes the buffer starts with both parts. -/
theorem Copied.take_eq (copied : Copied buffer offset source length status next) :
    next.u8MsgBuffer.bytes.take (offset + length) =
      buffer.u8MsgBuffer.bytes.take offset ++ source.take length := by
  have size : (source.take length).length = length := List.length_take_of_le copied.inside
  have fits := copied.fits
  have shown := buffer.u8MsgBuffer.take_overlay offset (source.take length) (by omega)
  rw [size] at shown
  rw [copied.bytes_eq, shown]

theorem length_take (buffer : MsgBuffer) {length : ℕ} (bound : length ≤ msgBufferMaxLen) :
    (buffer.u8MsgBuffer.bytes.take length).length = length :=
  List.length_take_of_le (buffer.u8MsgBuffer.size_eq.symm ▸ bound)

/-- A buffer that starts with the head of `bytes` announces the length `bytes` announce. -/
theorem frameLen_of_take {bytes : List UInt8} {length : ℕ} (head : sizeofSecHead ≤ length)
    (bound : length ≤ msgBufferMaxLen) (inside : length ≤ bytes.length)
    (same : buffer.u8MsgBuffer.bytes.take length = bytes.take length) :
    buffer.frameLen = frameFormat.total bytes := by
  rw [MsgBuffer.frameLen, ← frameLen_take _ head (buffer.u8MsgBuffer.size_eq.symm ▸ bound), same]
  exact frameLen_take _ head inside

end MsgBuffer

/-- What `MSG_RecvData` makes of all the bytes there are of a frame. -/
inductive RecvOutcome (bytes : List UInt8) : Ret → MsgBuffer → Prop
  | head {next : MsgBuffer} : frameFormat.progress bytes = .head →
      next.u8Status = .segmentNohead → next.u32Len = bytes.length →
      next.u8MsgBuffer.bytes.take bytes.length = bytes → RecvOutcome bytes .ok next
  | body {next : MsgBuffer} : frameFormat.progress bytes = .body →
      next.u8Status = .segmentHead → next.u32Len = bytes.length →
      next.u8MsgBuffer.bytes.take bytes.length = bytes → RecvOutcome bytes .ok next
  | complete {next : MsgBuffer} : frameFormat.progress bytes = .complete →
      next.u8Status = .full → next.u32Len = frameFormat.total bytes →
      next.u8MsgBuffer.bytes.take next.u32Len = bytes.take next.u32Len →
      RecvOutcome bytes .ok next
  | oversize {next : MsgBuffer} : frameFormat.progress bytes = .oversize →
      next.u8Status = .idle → next.u32Len = 0 → RecvOutcome bytes .error next

section Reassembly

variable {buffer next : MsgBuffer} {data : List UInt8} {ret : Ret}

/-- Both parts of a frame, the one in front cut at its own length. -/
private theorem take_parts {front back : List UInt8} {length rest : ℕ}
    (size : front.length = length) :
    (front ++ back).take (length + rest) = front ++ back.take rest := by
  rw [← size, List.take_length_add_append]

/-- Copying the rest of a frame behind what was collected completes it. -/
private theorem outcome_complete {offset rest : ℕ} {front : List UInt8}
    (collected : buffer.u8MsgBuffer.bytes.take offset = front)
    (head : ¬ (front ++ data).length < sizeofSecHead)
    (fits : ¬ msgBufferMaxLen < frameFormat.total (front ++ data))
    (total : frameFormat.total (front ++ data) = offset + rest)
    (copied : MsgBuffer.Copied buffer offset data rest .full next) :
    RecvOutcome (front ++ data) .ok next := by
  have inside := copied.inside
  have bound : offset ≤ msgBufferMaxLen := Nat.le_trans (Nat.le_add_right ..) copied.fits
  have size : front.length = offset := collected ▸ buffer.length_take bound
  have whole : frameFormat.total (front ++ data) ≤ (front ++ data).length := by
    rw [total, List.length_append, size]
    omega
  refine .complete (Format.progress_complete head fits whole) copied.status_eq
    (copied.len_eq.trans total.symm) ?_
  rw [copied.len_eq, copied.take_eq, collected, take_parts size]

/-- Copying all of a chunk behind what was collected keeps all the bytes there are. -/
private theorem take_all {offset : ℕ} {front : List UInt8} {status : BufferStatus}
    (collected : buffer.u8MsgBuffer.bytes.take offset = front)
    (copied : MsgBuffer.Copied buffer offset data data.length status next) :
    next.u32Len = (front ++ data).length ∧
      next.u8MsgBuffer.bytes.take (front ++ data).length = front ++ data := by
  have bound : offset ≤ msgBufferMaxLen := Nat.le_trans (Nat.le_add_right ..) copied.fits
  have size : front.length = offset := collected ▸ buffer.length_take bound
  have length : (front ++ data).length = offset + data.length := by
    rw [List.length_append, size]
  rw [length, copied.take_eq, collected, List.take_length]
  exact ⟨copied.len_eq, rfl⟩

/-- A partial frame whose head is there ends or goes on behind `offset`, provided that the sums
and differences of lengths do not wrap where the copies stay inside the array. -/
private theorem outcome_headed {offset : ℕ} {front : List UInt8} {u32MsgLen u32Sum u32Rest : ℕ}
    (collected : buffer.u8MsgBuffer.bytes.take offset = front) (size : front.length = offset)
    (head : ¬ (front ++ data).length < sizeofSecHead)
    (fits : ¬ msgBufferMaxLen < frameFormat.total (front ++ data))
    (total : frameFormat.total (front ++ data) = u32MsgLen)
    (rest : offset + u32Rest ≤ msgBufferMaxLen → u32MsgLen = offset + u32Rest)
    (sum : offset + data.length ≤ msgBufferMaxLen → u32Sum = offset + data.length)
    (received : (if u32MsgLen ≤ u32Sum
      then (buffer.copyIn? offset data u32Rest .full).map (Ret.ok, ·)
      else (buffer.copyIn? offset data data.length .segmentHead).map (Ret.ok, ·)) =
        some (ret, next)) :
    RecvOutcome (front ++ data) ret next := by
  split_ifs at received with reached
  · obtain ⟨_, copied, same⟩ := Option.map_eq_some_iff.mp received
    cases same
    have copied := MsgBuffer.copyIn?_eq_some copied
    exact outcome_complete collected head fits (total.trans (rest copied.fits)) copied
  · obtain ⟨_, copied, same⟩ := Option.map_eq_some_iff.mp received
    cases same
    have copied := MsgBuffer.copyIn?_eq_some copied
    obtain ⟨len, bytes⟩ := take_all collected copied
    refine .body (Format.progress_body head fits ?_) copied.status_eq len bytes
    rw [total, List.length_append, size, ← sum copied.fits]
    exact reached

private theorem rest_of_fits {u32MsgLen offset : ℕ} (small : u32MsgLen < 2 ^ 32)
    (fits : offset + subU32 u32MsgLen offset ≤ msgBufferMaxLen) :
    u32MsgLen = offset + subU32 u32MsgLen offset := by
  have : msgBufferMaxLen < 2 ^ 16 := by decide
  simp only [subU32] at fits ⊢
  omega

private theorem sum_of_fits {offset length : ℕ} (fits : offset + length ≤ msgBufferMaxLen) :
    addU32 length offset = offset + length := by
  have : msgBufferMaxLen < 2 ^ 16 := by decide
  simp only [addU32]
  omega

private theorem frameLen_small (memory : View) : frameLen memory < 2 ^ 32 :=
  Nat.lt_of_lt_of_le (frameLen_le memory) (by decide)

/-- `MSG_RecvData` decides on all the bytes there are of the frame, old and new. -/
theorem msgRecvData_outcome (sound : buffer.Sound) (awaited : buffer.u8Status ≠ .full)
    (received : msgRecvData buffer data = some (ret, next)) :
    RecvOutcome (buffer.collected ++ data) ret next := by
  have size : (buffer.u8MsgBuffer.bytes.take buffer.u32Len).length = buffer.u32Len :=
    buffer.length_take buffer.len_le
  cases status : buffer.u8Status with
  | full => exact absurd status awaited
  | idle =>
    have nothing : buffer.collected = [] := by simp only [MsgBuffer.collected, status]
    have start : buffer.u8MsgBuffer.bytes.take 0 = [] := List.take_zero ..
    simp only [msgRecvData, status] at received
    rw [nothing]
    by_cases short : data.length < sizeofSecHead
    · rw [if_pos short] at received
      obtain ⟨_, copied, same⟩ := Option.map_eq_some_iff.mp received
      cases same
      have copied := MsgBuffer.copyIn?_eq_some copied
      obtain ⟨len, bytes⟩ := take_all start copied
      exact .head (Format.progress_head short) copied.status_eq len bytes
    by_cases large : msgBufferMaxLen < frameLen (View.ofList data)
    · rw [if_neg short, if_pos large] at received
      cases Option.some.inj received
      exact .oversize (Format.progress_oversize short large) rfl rfl
    · rw [if_neg short, if_neg large] at received
      exact outcome_headed start rfl short large rfl (fun _ => (Nat.zero_add _).symm)
        (fun _ => (Nat.zero_add _).symm) received
  | segmentHead =>
    have collected : buffer.collected = buffer.u8MsgBuffer.bytes.take buffer.u32Len := by
      simp only [MsgBuffer.collected, status]
    obtain ⟨head, _, fits⟩ := sound.head status
    simp only [msgRecvData, status] at received
    rw [collected]
    have long : buffer.u32Len ≤
        (buffer.u8MsgBuffer.bytes.take buffer.u32Len ++ data).length := by
      rw [List.length_append, size]
      exact Nat.le_add_right ..
    have total : buffer.frameLen =
        frameFormat.total (buffer.u8MsgBuffer.bytes.take buffer.u32Len ++ data) := by
      refine MsgBuffer.frameLen_of_take head buffer.len_le long ?_
      rw [List.take_append_of_le_length (Nat.le_of_eq size.symm), List.take_take, Nat.min_self]
    exact outcome_headed rfl size (Nat.not_lt.mpr (Nat.le_trans head long))
      (Nat.not_lt.mpr (total ▸ fits)) total.symm (rest_of_fits (frameLen_small _))
      sum_of_fits received
  | segmentNohead =>
    have collected : buffer.collected = buffer.u8MsgBuffer.bytes.take buffer.u32Len := by
      simp only [MsgBuffer.collected, status]
    have headless := sound.nohead status
    simp only [msgRecvData, status] at received
    rw [collected]
    have length : (buffer.u8MsgBuffer.bytes.take buffer.u32Len ++ data).length =
        buffer.u32Len + data.length := by rw [List.length_append, size]
    by_cases short : addU32 buffer.u32Len data.length < sizeofSecHead
    · rw [if_pos short] at received
      obtain ⟨_, copied, same⟩ := Option.map_eq_some_iff.mp received
      cases same
      have copied := MsgBuffer.copyIn?_eq_some copied
      obtain ⟨len, bytes⟩ := take_all rfl copied
      refine .head (Format.progress_head ?_) copied.status_eq len bytes
      rw [addU32, Nat.add_comm, ← addU32, sum_of_fits copied.fits] at short
      rw [length]
      exact short
    rw [if_neg short] at received
    obtain ⟨headed, first, received⟩ := Option.bind_eq_some_iff.mp received
    have first := MsgBuffer.copyIn?_eq_some first
    have inside := first.inside
    have rest := rest_of_fits (by decide) first.fits
    have head : ¬ (buffer.u8MsgBuffer.bytes.take buffer.u32Len ++ data).length < sizeofSecHead := by
      rw [length]
      omega
    have kept : headed.u8MsgBuffer.bytes.take buffer.u32Len =
        buffer.u8MsgBuffer.bytes.take buffer.u32Len := by
      rw [first.bytes_eq]
      exact FixedBuffer.take_overlay_of_le _ _ _ _ (Nat.le_refl _) buffer.len_le
    have total : headed.frameLen =
        frameFormat.total (buffer.u8MsgBuffer.bytes.take buffer.u32Len ++ data) := by
      refine MsgBuffer.frameLen_of_take (Nat.le_refl _) (by decide) (Nat.not_lt.mp head) ?_
      rw [rest, first.take_eq, take_parts size]
    by_cases large : msgBufferMaxLen < headed.frameLen
    · rw [if_pos large] at received
      cases Option.some.inj received
      exact .oversize (Format.progress_oversize head (total ▸ large)) rfl rfl
    · rw [if_neg large] at received
      exact outcome_headed kept size head (total ▸ large) total.symm
        (rest_of_fits (frameLen_small _)) sum_of_fits received

theorem msgRecvData_full (full : buffer.u8Status = .full) :
    msgRecvData buffer data = some (.error, buffer) := by
  simp only [msgRecvData, full]

/-- Every outcome leaves a buffer whose status tells how much of a frame there is. -/
theorem RecvOutcome.sound {bytes : List UInt8} (outcome : RecvOutcome bytes ret next) :
    next.Sound := by
  cases outcome with
  | head progress status len _ =>
    have short := Format.progress_eq_head_iff.mp progress
    exact ⟨fun _ => len ▸ short, fun head => by simp [status] at head⟩
  | body progress status len same =>
    obtain ⟨head, fits, part⟩ := Format.progress_eq_body_iff.mp progress
    have bound : bytes.length ≤ msgBufferMaxLen := len ▸ next.len_le
    have total : next.frameLen = frameFormat.total bytes :=
      MsgBuffer.frameLen_of_take head bound (Nat.le_refl _)
        (same.trans (List.take_length).symm)
    refine ⟨fun nohead => by simp [status] at nohead, fun _ => ⟨len ▸ head, ?_, total ▸ fits⟩⟩
    rw [len, total]
    exact part
  | complete _ status _ _ => exact .of_full status
  | oversize _ status _ => exact .of_idle status

/-- A partial frame is collected byte for byte. -/
theorem RecvOutcome.collected_of_part {bytes : List UInt8} (outcome : RecvOutcome bytes ret next)
    (part : frameFormat.progress bytes = .head ∨ frameFormat.progress bytes = .body) :
    next.u8Status ≠ .full ∧ next.collected = bytes := by
  cases outcome with
  | head _ status len same | body _ status len same =>
    refine ⟨by simp [status], ?_⟩
    simp only [MsgBuffer.collected, status, len, same]
  | complete progress | oversize progress => simp [progress] at part

/-- Both ways to go on behind a head stay inside the array. -/
private theorem headed_isSome {offset u32MsgLen u32Sum u32Rest : ℕ} (start : offset ≤ u32MsgLen)
    (fits : ¬ msgBufferMaxLen < u32MsgLen) (rest : u32Rest = u32MsgLen - offset)
    (sum : u32Sum = offset + data.length) :
    (if u32MsgLen ≤ u32Sum
      then (buffer.copyIn? offset data u32Rest .full).map (Ret.ok, ·)
      else (buffer.copyIn? offset data data.length .segmentHead).map (Ret.ok, ·)).isSome := by
  split_ifs with reached <;> rw [Option.isSome_map]
  · exact MsgBuffer.copyIn?_isSome (by omega) (by omega)
  · exact MsgBuffer.copyIn?_isSome (Nat.le_refl _) (by omega)

/-- As long as the lengths do not wrap, no copy leaves an array. -/
theorem msgRecvData_isSome (sound : buffer.Sound) (small : data.length + buffer.u32Len < 2 ^ 32) :
    (msgRecvData buffer data).isSome := by
  have room := buffer.len_le
  have sum : addU32 data.length buffer.u32Len = buffer.u32Len + data.length := by
    simp only [addU32]
    omega
  have difference {u32MsgLen : ℕ} (start : buffer.u32Len ≤ u32MsgLen) (bound : u32MsgLen < 2 ^ 32) :
      subU32 u32MsgLen buffer.u32Len = u32MsgLen - buffer.u32Len := by
    simp only [subU32]
    omega
  cases status : buffer.u8Status with
  | full => simp only [msgRecvData, status, Option.isSome_some]
  | idle =>
    simp only [msgRecvData, status]
    split_ifs with short large whole
    · rw [Option.isSome_map]
      have wide : sizeofSecHead ≤ msgBufferMaxLen := by decide
      exact MsgBuffer.copyIn?_isSome (Nat.le_refl _) (by omega)
    · rfl
    · rw [Option.isSome_map]
      exact MsgBuffer.copyIn?_isSome whole (by omega)
    · rw [Option.isSome_map]
      exact MsgBuffer.copyIn?_isSome (Nat.le_refl _) (by omega)
  | segmentHead =>
    obtain ⟨_, part, fits⟩ := sound.head status
    simp only [msgRecvData, status]
    exact headed_isSome (Nat.le_of_lt part) (Nat.not_lt.mpr fits)
      (difference (Nat.le_of_lt part) (frameLen_small _)) sum
  | segmentNohead =>
    have headless := sound.nohead status
    simp only [msgRecvData, status]
    rw [addU32, Nat.add_comm, ← addU32, sum]
    have wide : sizeofSecHead ≤ msgBufferMaxLen := by decide
    have rest := difference (Nat.le_of_lt headless) (by decide)
    by_cases short : buffer.u32Len + data.length < sizeofSecHead
    · rw [if_pos short, Option.isSome_map]
      exact MsgBuffer.copyIn?_isSome (Nat.le_refl _) (by omega)
    have first : (buffer.copyIn? buffer.u32Len data (subU32 sizeofSecHead buffer.u32Len)
        .segmentNohead).isSome := MsgBuffer.copyIn?_isSome (by omega) (by omega)
    obtain ⟨headed, copied⟩ := Option.isSome_iff_exists.mp first
    rw [if_neg short, copied, Option.bind_eq_bind, Option.bind_some]
    by_cases large : msgBufferMaxLen < headed.frameLen
    · rw [if_pos large]
      rfl
    · rw [if_neg large]
      have head : buffer.u32Len ≤ headed.frameLen :=
        Nat.le_trans (Nat.le_of_lt headless) (Nat.le_add_left ..)
      exact headed_isSome head large (difference head (frameLen_small _)) rfl

end Reassembly

end ShuangFa
