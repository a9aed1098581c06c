import Mathlib.Algebra.GroupWithZero.Nat
import Mathlib.Data.Fin.Basic
import Mathlib.Data.Fintype.Basic
import Mathlib.Logic.Function.Basic
import Mathlib.Tactic.Common

/-!
# The double buffer

Any number of threads call `read` and `try_write` on one `DoubleBuffer`. Each load, store,
compare-exchange and `fetch_add`, and each copy of one word of the value, is a step of its own; `act`
makes one step of one thread. The words of a value are copied in any order.
-/

namespace SensorLink.Sync

/-- The order is important: the state always advances 0, 1, 2, 3, 0. -/
inductive State
  | writeIdleRead0
  | writing1Read0
  | writeIdleRead1
  | writing0Read1
deriving DecidableEq, Repr

inductive ReadIndex
  | zero
  | one
deriving DecidableEq, Repr

inductive WriteIndex
  | zero
  | one
deriving DecidableEq, Repr

def ReadIndex.toUsize : ReadIndex → Fin 2
  | .zero => 0
  | .one => 1

def WriteIndex.toUsize : WriteIndex → Fin 2
  | .zero => 0
  | .one => 1

namespace State

def toU32 : State → UInt32
  | writeIdleRead0 => 0
  | writing1Read0 => 1
  | writeIdleRead1 => 2
  | writing0Read1 => 3

def fromU32 (v : UInt32) : State :=
  match (v &&& 0b11).toNat with
  | 0 => writeIdleRead0
  | 1 => writing1Read0
  | 2 => writeIdleRead1
  | _ => writing0Read1

def fromWriteIndex : WriteIndex → State
  | .zero => writing0Read1
  | .one => writing1Read0

def next (s : State) : State := fromU32 (s.toU32 + 1)

def readIndex : State → ReadIndex
  | writeIdleRead0 | writing1Read0 => .zero
  | writeIdleRead1 | writing0Read1 => .one

def writeIndex : State → Option WriteIndex
  | writeIdleRead0 | writeIdleRead1 => none
  | writing0Read1 => some .zero
  | writing1Read0 => some .one

@[simp] lemma fromU32_toU32 (s : State) : fromU32 s.toU32 = s := by
  cases s <;> rfl

end State

/-- A value of type `T` is copied as `size` words. -/
structure DoubleBuffer (size : ℕ) (W : Type) where
  state : UInt32
  dataVersion : UInt32
  buffer : Fin 2 → Fin size → W

variable {size : ℕ} {W : Type}

namespace DoubleBuffer

def new (initialValue : Fin size → W) : DoubleBuffer size W where
  state := State.writeIdleRead0.toU32
  dataVersion := 0
  buffer := fun _ => initialValue

/-- The value before is given, as an error when it was not the expected one. -/
def compareExchange (b : DoubleBuffer size W) (current new : UInt32) :
    Except UInt32 UInt32 × DoubleBuffer size W :=
  if b.state = current then (.ok b.state, { b with state := new }) else (.error b.state, b)

/-- One word of one of the buffers is stored. -/
def storeWord (b : DoubleBuffer size W) (index : Fin 2) (i : Fin size) (word : W) :
    DoubleBuffer size W :=
  { b with buffer := Function.update b.buffer index (Function.update (b.buffer index) i word) }

end DoubleBuffer

/-- The points in the loop of `read` -/
inductive Reading (size : ℕ) (W : Type)
  | loadState
  | loadVersion (state : State)
  | copy (state : State) (version : UInt32) (got : Fin size → Option W)
  | loadVersionCheck (state : State) (version : UInt32) (value : Fin size → W) (stateCheck : State)

namespace Reading

/-- The next load, or the value that `read` gives. -/
def next (b : DoubleBuffer size W) : Reading size W → Reading size W ⊕ (Fin size → W)
  | loadState => .inl (loadVersion (.fromU32 b.state))
  | loadVersion state => .inl (copy state b.dataVersion fun _ => none)
  | copy state version got =>
    if h : ∀ i, (got i).isSome = true then
      .inl (loadVersionCheck state version (fun i => (got i).get (h i)) (.fromU32 b.state))
    else .inl (copy state version got)
  | loadVersionCheck state version value stateCheck =>
    if state.readIndex = stateCheck.readIndex ∧ version = b.dataVersion then .inr value
    else .inl loadState

/-- The next load is that of the version. -/
def loadsVersion : Reading size W → Bool
  | loadVersion _ => true
  | _ => false

/-- One word is copied. -/
def word (b : DoubleBuffer size W) (i : Fin size) : Reading size W → Reading size W
  | copy state version got =>
    copy state version (Function.update got i (some (b.buffer state.readIndex.toUsize i)))
  | r => r

end Reading

/-- The points of a thread; the guard of `try_write` is alive from `initRead` to `storeState`. -/
inductive Point (size : ℕ) (W : Type)
  | idle
  | reading (r : Reading size W)
  | exchange0
  | exchange1
  | initRead (writeIndex : WriteIndex) (r : Reading size W)
  | initStore (writeIndex : WriteIndex) (value : Fin size → W) (stored : Fin size → Bool)
  | guard (writeIndex : WriteIndex)
  | fetchAdd (writeIndex : WriteIndex)
  | storeState (writeIndex : WriteIndex)

/-- A thread has a guard that is not dropped yet. -/
def Point.hasGuard : Point size W → Bool
  | initRead .. | initStore .. | guard .. | fetchAdd .. | storeState .. => true
  | _ => false

/-- A thread is in `read`, called by itself or by `try_write`. -/
def Point.isReading : Point size W → Bool
  | reading .. | initRead .. => true
  | _ => false

/-- A thread, with what is remembered to state the properties: how many values were published and how
many writes were counted when its `read` began, how many writes were counted when it loaded the version,
and which words the holder of the guard has touched. -/
structure Thread (size : ℕ) (W : Type) where
  point : Point size W
  began : ℕ
  wrote : ℕ
  loaded : ℕ
  touched : Fin size → Bool

def Thread.create : Thread size W := ⟨.idle, 0, 0, 0, fun _ => false⟩

/-- A published value, with the words that its writer has touched. -/
structure Publication (size : ℕ) (W : Type) where
  value : Fin size → W
  touched : Fin size → Bool

/-- A call of `read` that has returned: the last publication when it began and when it returned. -/
structure ReadRecord (size : ℕ) (W : Type) where
  value : Fin size → W
  began : ℕ
  returned : ℕ

/-- The buffer, with what is remembered: the writes that were counted, the publications (from the initial
value, 0, to `count`), the thread that holds the guard, and the calls of `read` that have returned, those
by `try_write` too. -/
structure Shared (size : ℕ) (W : Type) where
  buf : DoubleBuffer size W
  writes : ℕ
  count : ℕ
  published : ℕ → Publication size W
  holder : Option ℕ
  returns : List (ReadRecord size W)

/-- What a thread does next: start a call, go on with it, copy a word of it, change a word through the
guard, or drop the guard. -/
inductive Choice (size : ℕ) (W : Type)
  | startRead
  | startWrite
  | next
  | word (i : Fin size)
  | modify (i : Fin size) (word : W)
  | drop

variable (s : Shared size W) (t : Thread size W)

/-- A `read` begins. -/
def Thread.beginRead (point : Point size W) : Thread size W :=
  { t with point := point, began := s.count, wrote := s.writes }

/-- A `read` goes on; what the version stands for is remembered when it is loaded. -/
def Thread.goOn (r : Reading size W) (point : Point size W) : Thread size W :=
  { t with point := point, loaded := if r.loadsVersion then s.writes else t.loaded }

namespace Shared

/-- A compare-exchange of `try_write`. -/
def exchange (tid : ℕ) (current new : State) (failed : Point size W) : Shared size W × Thread size W :=
  match s.buf.compareExchange current.toU32 new.toU32 with
  | (.ok v, buf) =>
    match (State.fromU32 v).next.writeIndex with
    | some writeIndex =>
      ({ s with buf := buf, holder := some tid }, t.beginRead s (.initRead writeIndex .loadState))
    | none => ({ s with buf := buf }, { t with point := .idle })
  | (.error _, buf) => ({ s with buf := buf }, { t with point := failed })

/-- One step of a thread. -/
def act (tid : ℕ) : Choice size W → Shared size W × Thread size W
  | .startRead =>
    match t.point with
    | .idle => (s, t.beginRead s (.reading .loadState))
    | _ => (s, t)
  | .startWrite =>
    match t.point with
    | .idle => (s, { t with point := .exchange0 })
    | _ => (s, t)
  | .word i =>
    match t.point with
    | .reading r => (s, { t with point := .reading (r.word s.buf i) })
    | .initRead writeIndex r => (s, { t with point := .initRead writeIndex (r.word s.buf i) })
    | .initStore writeIndex value stored =>
      ({ s with buf := s.buf.storeWord writeIndex.toUsize i (value i) },
        { t with point := .initStore writeIndex value (Function.update stored i true) })
    | _ => (s, t)
  | .modify i word =>
    match t.point with
    | .guard writeIndex =>
      ({ s with buf := s.buf.storeWord writeIndex.toUsize i word },
        { t with touched := Function.update t.touched i true })
    | _ => (s, t)
  | .drop =>
    match t.point with
    | .guard writeIndex => (s, { t with point := .fetchAdd writeIndex })
    | _ => (s, t)
  | .next =>
    match t.point with
    | .reading r =>
      match r.next s.buf with
      | .inl r' => (s, t.goOn s r (.reading r'))
      | .inr value =>
        ({ s with returns := ⟨value, t.began, s.count⟩ :: s.returns }, { t with point := .idle })
    | .exchange0 => s.exchange t tid .writeIdleRead0 .writing1Read0 .exchange1
    | .exchange1 => s.exchange t tid .writeIdleRead1 .writing0Read1 .idle
    | .initRead writeIndex r =>
      match r.next s.buf with
      | .inl r' => (s, t.goOn s r (.initRead writeIndex r'))
      | .inr value =>
        ({ s with returns := ⟨value, t.began, s.count⟩ :: s.returns },
          { t with point := .initStore writeIndex value fun _ => false })
    | .initStore writeIndex _ stored =>
      if ∀ i, stored i = true then (s, { t with point := .guard writeIndex, touched := fun _ => false })
      else (s, t)
    | .fetchAdd writeIndex =>
      ({ s with buf := { s.buf with dataVersion := s.buf.dataVersion + 1 }, writes := s.writes + 1 },
        { t with point := .storeState writeIndex })
    | .storeState writeIndex =>
      ({ s with
          buf := { s.buf with state := (State.fromWriteIndex writeIndex).next.toU32 }
          count := s.count + 1
          published := Function.update s.published (s.count + 1)
            ⟨s.buf.buffer writeIndex.toUsize, t.touched⟩
          holder := none },
        { t with point := .idle })
    | _ => (s, t)

end Shared

/-- The threads and what they share. -/
structure System (size : ℕ) (W : Type) where
  shared : Shared size W
  threads : List (Thread size W)

namespace System

/-- A new buffer that is shared by `n` threads. -/
def create (n : ℕ) (initialValue : Fin size → W) : System size W where
  shared := ⟨.new initialValue, 0, 0, fun _ => ⟨initialValue, fun _ => false⟩, none, []⟩
  threads := List.replicate n .create

/-- A step of the thread `op.1`. -/
def exec (w : System size W) (op : ℕ × Choice size W) : System size W :=
  match w.threads[op.1]? with
  | none => w
  | some t => ⟨(w.shared.act t op.1 op.2).1, w.threads.set op.1 (w.shared.act t op.1 op.2).2⟩

/-- During no `read` that is going on, 2^32 writes were counted. -/
def Guard (w : System size W) (_ : ℕ × Choice size W) : Prop :=
  ∀ t ∈ w.threads, t.point.isReading = true → w.shared.writes < t.wrote + 2 ^ 32

instance (w : System size W) (op : ℕ × Choice size W) : Decidable (w.Guard op) :=
  inferInstanceAs (Decidable (∀ t ∈ w.threads, _))

end System

end SensorLink.Sync
