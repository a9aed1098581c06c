import SensorLink.Lib.Reach
import SensorLink.Peek.Model

/-!
# A queue and its handles

The queue together with the handles that are alive, and the operations that may come in any order
from the owner of the queue and from the owners of the handles. A confirmation only ever adds a
message to the channel, and the queue drains the channel before it looks at its slots, so an
interleaving inside an operation has the effect of one between two operations.

For the statements the world also remembers, since the last (re)start, what happened to each sequence
number (`trace`, newest first) and the lower bound that circular overwrites have set.
-/

namespace SensorLink.Peek

open SensorLink.Lib

/-- What happened to a sequence number. -/
inductive Event
  | issued (n : ℕ)
  | confirmed (n : ℕ)
  | dropped (n : ℕ)
deriving DecidableEq, Repr

namespace Event

def id : Event → ℕ
  | issued n => n
  | confirmed n => n
  | dropped n => n

end Event

structure World (M : ℕ) where
  queue : Queue M
  /-- the sequence numbers of the live handles -/
  handles : List ℕ
  /-- the first sequence number of the range the queue was started with -/
  base : ℕ
  /-- the lower bound set by overwrites, `base` before the first one -/
  lower : ℕ
  trace : List Event

/-- `confirm k` and `drop k` are about the `k`-th live handle. -/
inductive Op
  | enqueue
  | peekNext
  | confirm (k : ℕ)
  | drop (k : ℕ)
  | waitConfirmation
  | isDrained
  | reinit (range : ℕ × ℕ)

variable {M : ℕ} [NeZero M]

namespace World

def start (q : Queue M) : World M where
  queue := q
  handles := []
  base := q.readers.readIndexMin
  lower := q.readers.readIndexMin
  trace := []

/-- A handle is consumed: it sends its message and is gone. -/
def settle (w : World M) (k : ℕ) (success : Bool) : World M :=
  match w.handles[k]? with
  | none => w
  | some n =>
    { w with
      queue := w.queue.settle n success
      handles := w.handles.eraseIdx k
      trace := (if success then .confirmed n else .dropped n) :: w.trace }

def exec (w : World M) : Op → World M
  | .enqueue =>
    let q := w.queue.enqueue.2
    { w with
      queue := q
      lower := if q.readers.readIndexMin = w.queue.readers.readIndexMin then w.lower
        else q.readers.readIndexMin }
  | .peekNext =>
    match w.queue.peekNext with
    | (.ok n, q) => { w with queue := q, handles := w.handles ++ [n], trace := .issued n :: w.trace }
    | (.error _, q) => { w with queue := q }
  | .confirm k => w.settle k true
  | .drop k => w.settle k false
  | .waitConfirmation => { w with queue := w.queue.waitConfirmation }
  | .isDrained => { w with queue := w.queue.isDrained.2 }
  | .reinit range =>
    { w with
      queue := w.queue.reinitWithExistingRange range
      base := range.1
      lower := range.1
      trace := [] }

lemma exec_peekNext_ok {w : World M} {n : ℕ} (h : w.queue.peekNext.1 = .ok n) :
    w.exec .peekNext = { w with
      queue := w.queue.peekNext.2
      handles := w.handles ++ [n]
      trace := .issued n :: w.trace } := by
  unfold exec
  rcases hp : w.queue.peekNext with ⟨r, q⟩
  rw [hp] at h
  obtain rfl : r = .ok n := h
  rfl

lemma exec_peekNext_error {w : World M} {e : ReadBlocked} (h : w.queue.peekNext.1 = .error e) :
    w.exec .peekNext = { w with queue := w.queue.peekNext.2 } := by
  unfold exec
  rcases hp : w.queue.peekNext with ⟨r, q⟩
  rw [hp] at h
  obtain rfl : r = .error e := h
  rfl

/-- The capacity and the granularity never change. -/
lemma exec_capacity (w : World M) (op : Op) :
    (w.exec op).queue.capacity = w.queue.capacity ∧
      (w.exec op).queue.overwriteGranularity = w.queue.overwriteGranularity := by
  have hsettle : ∀ k success, (w.settle k success).queue.capacity = w.queue.capacity ∧
      (w.settle k success).queue.overwriteGranularity = w.queue.overwriteGranularity := by
    intro k success
    unfold settle
    cases w.handles[k]? <;> exact ⟨rfl, rfl⟩
  have hpeek : w.queue.peekNext.2.capacity = w.queue.capacity ∧
      w.queue.peekNext.2.overwriteGranularity = w.queue.overwriteGranularity := by
    unfold Queue.peekNext
    split <;> exact ⟨rfl, rfl⟩
  cases op with
  | enqueue =>
    simp only [exec]
    unfold Queue.enqueue
    dsimp only
    split
    · exact ⟨rfl, rfl⟩
    · split <;> exact ⟨rfl, rfl⟩
  | peekNext =>
    cases hp : w.queue.peekNext.1 with
    | ok n => rwa [exec_peekNext_ok hp]
    | error e => rwa [exec_peekNext_error hp]
  | confirm k => exact hsettle k true
  | drop k => exact hsettle k false
  | waitConfirmation =>
    simp only [exec]
    unfold Queue.waitConfirmation
    cases w.queue.confirmChannel <;> exact ⟨rfl, rfl⟩
  | isDrained => exact ⟨rfl, rfl⟩
  | reinit range => exact ⟨rfl, rfl⟩

/-- What a peek can do: nothing, or process the channel and then find no reader or issue one. -/
lemma exec_peekNext_cases (w : World M) :
    (w.queue.unconfirmedCount = 0 ∧ w.exec .peekNext = w) ∨
    (w.queue.unconfirmedCount ≠ 0 ∧ ∃ e r,
      w.queue.updateReaderSlots.readers.findReader w.queue.writeIndex = (.error e, r) ∧
      w.exec .peekNext = { w with queue := { w.queue.updateReaderSlots with readers := r } }) ∨
    (w.queue.unconfirmedCount ≠ 0 ∧ ∃ n r,
      w.queue.updateReaderSlots.readers.findReader w.queue.writeIndex = (.ok n, r) ∧
      w.exec .peekNext = { w with
        queue := { w.queue.updateReaderSlots with readers := r }
        handles := w.handles ++ [n]
        trace := .issued n :: w.trace }) := by
  by_cases hc : w.queue.unconfirmedCount = 0
  · left
    exact ⟨hc, by simp only [exec, Queue.peekNext, hc, if_true]⟩
  · right
    rcases hf : w.queue.updateReaderSlots.readers.findReader w.queue.writeIndex with ⟨e | n, r⟩
    · left
      refine ⟨hc, e, r, rfl, ?_⟩
      have hf' : w.queue.updateReaderSlots.readers.findReader w.queue.updateReaderSlots.writeIndex =
        (.error e, r) := hf
      simp only [exec, Queue.peekNext, hc, if_false, hf']
    · right
      refine ⟨hc, n, r, rfl, ?_⟩
      have hf' : w.queue.updateReaderSlots.readers.findReader w.queue.updateReaderSlots.writeIndex =
        (.ok n, r) := hf
      simp only [exec, Queue.peekNext, hc, if_false, hf']

/-- The sequence numbers that wait for an answer: those of the live handles and those of the messages
that are still in the channel. -/
def pending (w : World M) : List ℕ := w.handles ++ w.queue.confirmChannel.map Confirm.id

/-- Nothing waits for an answer. -/
def Quiet (w : World M) : Prop := w.handles = [] ∧ w.queue.confirmChannel = []

instance (w : World M) : Decidable w.Quiet := by unfold Quiet; infer_instance

end World

end SensorLink.Peek
