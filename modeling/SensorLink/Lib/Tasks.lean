import Mathlib.Tactic.Common

/-!
Tasks on a shared state: each is a tree of atomic operations, where an operation is answered and the rest
of the task depends on the answer. Two tasks of different priority share one core: while the one of high
priority has something to do, the one of low priority does not move. The one of high priority arrives
once, between any two operations of the other.
-/

namespace SensorLink.Lib

/-- What is left of a task -/
inductive Task (Op : Type) (Answer : Op → Type) (α : Type) : Type
  | done (a : α)
  | next (o : Op) (k : Answer o → Task Op Answer α)

variable {Op : Type} {Answer : Op → Type} {σ α β : Type}

namespace Task

def bind : Task Op Answer α → (α → Task Op Answer β) → Task Op Answer β
  | done a, f => f a
  | next o k, f => next o fun v => (k v).bind f

instance : Monad (Task Op Answer) where
  pure := done
  bind := bind

/-- A single operation -/
def perform (o : Op) : Task Op Answer (Answer o) := next o done

lemma forM_cons {γ : Type} (f : γ → Task Op Answer PUnit) (c : γ) (l : List γ) :
    (c :: l).forM f = (f c >>= fun _ => l.forM f) := rfl

/-! ### A task that runs alone -/

section Exec

variable (act : (o : Op) → σ → Answer o × σ)

def exec : Task Op Answer α → σ → α × σ
  | done a, s => (a, s)
  | next o k, s => exec (k (act o s).1) (act o s).2

lemma exec_bind (t : Task Op Answer α) (f : α → Task Op Answer β) (s : σ) :
    exec act (t >>= f) s = exec act (f (exec act t s).1) (exec act t s).2 := by
  induction t generalizing s with
  | done a => rfl
  | next o k ih => exact ih _ _

end Exec

/-! ### Tasks that only have certain operations -/

/-- Each operation has `P`, whatever the answers. -/
def All (P : Op → Prop) : Task Op Answer α → Prop
  | done _ => True
  | next o k => P o ∧ ∀ v, (k v).All P

section All

variable {P : Op → Prop}

lemma All.perform {o : Op} (h : P o) : (Task.perform o : Task Op Answer (Answer o)).All P :=
  ⟨h, fun _ => trivial⟩

lemma All.bind {t : Task Op Answer α} {f : α → Task Op Answer β} (ht : t.All P)
    (hf : ∀ a, (f a).All P) : (t >>= f).All P := by
  induction t with
  | done a => exact hf a
  | next o k ih => exact ⟨ht.1, fun v => ih v (ht.2 v)⟩

lemma All.forM {γ : Type} {f : γ → Task Op Answer PUnit} (hf : ∀ c, (f c).All P) (l : List γ) :
    (l.forM f).All P := by
  induction l with
  | nil => exact trivial
  | cons c l ih => exact (hf c).bind fun _ => ih

/-- What such operations keep is kept by the task. -/
lemma All.exec {act : (o : Op) → σ → Answer o × σ} {Q : σ → Prop}
    (hact : ∀ o s, P o → Q s → Q (act o s).2) {t : Task Op Answer α} (ht : t.All P) {s : σ} (hs : Q s) :
    Q (t.exec act s).2 := by
  induction t generalizing s with
  | done a => exact hs
  | next o k ih => exact ih _ (ht.2 _) (hact o s ht.1 hs)

end All

end Task

/-! ### Two tasks -/

/-- The state, what is left of both tasks, where none says that the one of high priority is not there yet,
and the operations so far -/
structure Tasks (Op : Type) (Answer : Op → Type) (σ : Type) where
  state : σ
  low : Task Op Answer Unit
  high : Option (Task Op Answer Unit)
  log : List Op

inductive Tasks.Turn
  | low
  | arrive
  | high
deriving DecidableEq

namespace Tasks

/-- Nothing happens if it is not the turn of that task. -/
def turn (act : (o : Op) → σ → Answer o × σ) (task : Task Op Answer Unit) (c : Tasks Op Answer σ) :
    Turn → Tasks Op Answer σ
  | .arrive =>
    match c.high with
    | none => { c with high := some task }
    | some _ => c
  | .high =>
    match c.high with
    | some (.next o k) => ⟨(act o c.state).2, c.low, some (k (act o c.state).1), c.log ++ [o]⟩
    | _ => c
  | .low =>
    match c.high, c.low with
    | some (.next _ _), _ => c
    | _, .next o k => ⟨(act o c.state).2, k (act o c.state).1, c.high, c.log ++ [o]⟩
    | _, .done _ => c

/-- A low task alone -/
def start (s : σ) (low : Task Op Answer Unit) : Tasks Op Answer σ := ⟨s, low, none, []⟩

end Tasks

/-! ### Wakers -/

/-- `AtomicWaker::wake` of `embassy_sync`: the task whose waker is registered is to run again. The waker stays
registered, and nothing is remembered where none is. -/
abbrev AtomicWaker.wake (registered woken : Bool) : Bool := woken || registered

end SensorLink.Lib
