import ShuangFa.Machine.Transducer
import ShuangFa.Proofs.MessageQueue

/-! # The message queue is a bounded queue

The ring has one node more than it may hold messages, and its links lead backwards. Whatever is
pushed and popped, it answers like a list of at most `MSG_QUEUE_MAXLEN` messages, a call that fails
changes nothing, and the links stay those of `MSG_InitQueue`.
-/

namespace ShuangFa

open Machine

variable {maxLen : ℕ} {α : Type}

/-- The calls of `MSG_PushMsg` and `MSG_PopMsg`. -/
def msgQueue (maxLen : ℕ) (α : Type) :
    Transducer (MsgQueue maxLen α) (Fifo.Request α) (Fifo.Answer α) where
  step queue
    | .push pu8Msg =>
      let (ret, next) := msgPushMsg queue pu8Msg
      (match ret with | .ok => .taken | .error => .refused, next)
    | .pop =>
      let (pu8Msg, next) := msgPopMsg queue
      (match pu8Msg with | some message => .given message | none => .nothing, next)

/-- The ring and the list it represents answer alike. -/
theorem msgQueue_follows :
    (msgQueue maxLen α).Follows (Fifo.queue maxLen) MsgQueue.Represents fun _ => True := by
  intro queue messages request represents _
  cases request with
  | push pu8Msg =>
    rcases Nat.lt_or_eq_of_le represents.bounded with free | full
    · obtain ⟨next, pushed, after⟩ := represents.push free pu8Msg
      simp only [msgQueue, pushed, Fifo.queue, if_pos free]
      exact ⟨trivial, after⟩
    · have refused := represents.push_full full pu8Msg
      simp only [msgQueue, refused, Fifo.queue, if_neg (Nat.not_lt_of_le full.ge)]
      exact ⟨trivial, represents⟩
  | pop =>
    cases messages with
    | nil =>
      simp only [msgQueue, represents.pop_nil, Fifo.queue]
      exact ⟨trivial, represents⟩
    | cons message messages =>
      obtain ⟨next, popped, after⟩ := represents.pop_cons
      simp only [msgQueue, popped, Fifo.queue]
      exact ⟨trivial, after⟩

/-- A push fails exactly when the queue is full, and then changes nothing. -/
theorem MsgQueue.Represents.push_refused {queue : MsgQueue maxLen α} {messages : List α}
    (represents : queue.Represents messages) (pu8Msg : α) :
    ((msgPushMsg queue pu8Msg).1 = .error ↔ messages.length = maxLen) ∧
      ((msgPushMsg queue pu8Msg).1 = .error → (msgPushMsg queue pu8Msg).2 = queue) := by
  rcases Nat.lt_or_eq_of_le represents.bounded with free | full
  · obtain ⟨next, pushed, _⟩ := represents.push free pu8Msg
    simp [pushed, Nat.ne_of_lt free]
  · simp [represents.push_full full pu8Msg, full]

/-- A pop returns the null pointer exactly when the queue is empty, and then changes nothing. -/
theorem MsgQueue.Represents.pop_nothing {queue : MsgQueue maxLen α} {messages : List α}
    (represents : queue.Represents messages) :
    ((msgPopMsg queue).1 = none ↔ messages = []) ∧
      ((msgPopMsg queue).1 = none → (msgPopMsg queue).2 = queue) := by
  cases messages with
  | nil => simp [represents.pop_nil]
  | cons message messages =>
    obtain ⟨next, popped, _⟩ := represents.pop_cons
    simp [popped]

/-- After any calls: the answers were those of a list of at most `MSG_QUEUE_MAXLEN` messages, the
messages came out once each in the order they were pushed, a call fails exactly when the list is full
or empty and then changes nothing, and the ring is the one `MSG_InitQueue` linked. -/
theorem queue_fifo (maxLen : ℕ) (calls : List (Fifo.Request α)) :
    let reached := (msgQueue maxLen α).run (msgInitQueue maxLen α) calls
    let expected := (Fifo.queue maxLen).run [] calls
    (reached.1 = expected.1 ∧
      Fifo.given reached.1 ++ expected.2 = Fifo.taken calls reached.1) ∧
      (∀ pu8Msg, ((msgPushMsg reached.2 pu8Msg).1 = .error ↔ expected.2.length = maxLen) ∧
        ((msgPushMsg reached.2 pu8Msg).1 = .error → (msgPushMsg reached.2 pu8Msg).2 = reached.2)) ∧
      (((msgPopMsg reached.2).1 = none ↔ expected.2 = []) ∧
        ((msgPopMsg reached.2).1 = none → (msgPopMsg reached.2).2 = reached.2)) ∧
      ∀ node, (reached.2.struQueue node).pstruNext =
        ((msgInitQueue maxLen α).struQueue node).pstruNext := by
  intro reached expected
  obtain ⟨answers, represents⟩ : reached.1 = expected.1 ∧ reached.2.Represents expected.2 :=
    msgQueue_follows.run .init fun _ _ => trivial
  have order : Fifo.given expected.1 ++ expected.2 = Fifo.taken calls expected.1 :=
    Fifo.given_append_stored maxLen [] calls
  refine ⟨⟨answers, answers ▸ order⟩, represents.push_refused, represents.pop_nothing, ?_⟩
  intro node
  rw [represents.linked, MsgQueue.Represents.init.linked]

/-- Of three messages a queue of two takes the first ones. -/
example : ((msgQueue 2 ℕ).run (msgInitQueue 2 ℕ) [.push 7, .push 8, .push 9, .pop, .pop, .pop]).1 =
    [.taken, .taken, .refused, .given 7, .given 8, .nothing] := by decide

end ShuangFa
