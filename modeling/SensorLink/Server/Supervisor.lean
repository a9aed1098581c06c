import Mathlib.Algebra.Group.Nat.Defs
import Mathlib.Data.List.Basic
import Mathlib.Data.Nat.Notation
import SensorLink.Lib.Reach

/-!
# Supervised tasks

`Handle` of the task supervisor: the loop that `Handle::new` spawns around a task, the handle that asks it to shut
down, and the instances of the task. The loop selects between the two at random, so that either may come first
where both are ready. Time is in milliseconds.
-/

namespace SensorLink.Server

open SensorLink.Lib

namespace Supervisor

/-! ### The supervisor -/

/-- What the join handle of an instance returns: it finished, it panicked, or it was cancelled. -/
inductive Outcome
  | ok
  | panic
  | cancelled
deriving DecidableEq

/-- An instance of the task, with the receiver of the watch channel that it was given -/
structure Instance where
  started : ℕ
  /-- The version of the channel when it subscribed -/
  subscribed : ℕ
  /-- The version that its receiver has seen, unless it dropped the receiver -/
  seen : Option ℕ
  ended : Option (ℕ × Outcome)

namespace Instance

/-- It keeps the channel open: an instance that ends drops its receiver. -/
def receives (x : Instance) : Bool := x.ended.isNone && x.seen.isSome

def panicked (x : Instance) : Bool := x.ended.any fun e => e.2 = .panic

end Instance

/-- Where the loop is: in its `select!`, in the delay after a failure, or in the one before a restart; or it has
left the loop, or was aborted by the handle. -/
inductive Point
  | select
  | failed (wake : ℕ)
  | restart (wake : ℕ)
  | exited
  | aborted
deriving DecidableEq

structure Sup where
  now : ℕ
  point : Point
  shutdownRequested : Bool
  nrPanics : ℕ
  /-- Of the channel whose sender is `inner_tx` -/
  version : ℕ
  /-- Newest first: `result` is the join handle of the first one. -/
  instances : List Instance
  /-- The arguments that `on_panic` was called with -/
  onPanic : List ℕ
  /-- The handle dropped its sender: `shutdown_signal` is ready. -/
  dropped : Bool
  /-- When `shutdown_with_timeout` gives up -/
  deadline : Option ℕ

namespace Sup

def new (now : ℕ) : Sup := ⟨now, .select, false, 0, 0, [⟨now, 0, some 0, none⟩], [], false, none⟩

variable (s : Sup)

/-- `Err` of a join handle: the delay, and the panics are counted. -/
def joinFailed (outcome : Outcome) : Sup :=
  if outcome = .panic then
    let nrPanics := (s.nrPanics + 1) % 2 ^ 32
    { s with nrPanics := nrPanics, onPanic := s.onPanic ++ [nrPanics], point := .failed (s.now + 5000) }
  else { s with point := .failed (s.now + 5000) }

/-- The branch of `select!` in which the instance has ended -/
def joined (outcome : Outcome) : Sup :=
  if s.shutdownRequested then { s with point := .exited }
  else
    match outcome with
    | .ok => { s with point := .restart (s.now + 10) }
    | outcome => s.joinFailed outcome

/-- `inner_tx.send(())`: without a receiver nothing is sent. -/
def send : Sup :=
  if s.instances.any Instance.receives then { s with version := s.version + 1 } else s

/-- The loop spawns an instance. -/
def spawn : Sup :=
  { s with instances := ⟨s.now, s.version, some s.version, none⟩ :: s.instances, point := .select }

def modify (i : ℕ) (f : Instance → Instance) : Sup := { s with instances := s.instances.modify i f }

end Sup

inductive Op
  | pass (ms : ℕ)
  /-- An instance ends. -/
  | finish (i : ℕ) (outcome : Outcome)
  /-- `changed` of the receiver of an instance returns. -/
  | changed (i : ℕ)
  | dropReceiver (i : ℕ)
  /-- The handle is dropped, also by `shutdown` -/
  | shutdown
  | shutdownWithTimeout (ms : ℕ)
  /-- The `select!` finds the shutdown requested. -/
  | requested
  /-- The `select!` finds that the instance has ended. -/
  | join
  /-- A delay is over. -/
  | wake
  /-- `shutdown_with_timeout` aborts the loop. -/
  | abort

namespace Sup

def exec (s : Sup) : Op → Sup
  | .pass ms => { s with now := s.now + ms }
  | .finish i outcome => s.modify i fun x => { x with ended := some (s.now, outcome) }
  | .changed i => s.modify i fun x => { x with seen := some s.version }
  | .dropReceiver i => s.modify i fun x => { x with seen := none }
  | .shutdown => { s with dropped := true }
  | .shutdownWithTimeout ms => { s with dropped := true, deadline := some (s.now + ms) }
  | .requested => { s with shutdownRequested := true }.send
  | .join =>
    match s.instances.head? with
    | some ⟨_, _, _, some (_, outcome)⟩ => s.joined outcome
    | _ => s
  | .wake =>
    match s.point with
    | .failed _ => { s with point := .restart (s.now + 10) }
    | .restart _ => s.spawn
    | _ => s
  | .abort => { s with point := .aborted }

/-- The instance exists and has not ended. -/
def Alive (s : Sup) (i : ℕ) : Prop := ∃ x ∈ s.instances[i]?, x.ended = none

instance (s : Sup) (i : ℕ) : Decidable (s.Alive i) := inferInstanceAs (Decidable (∃ x ∈ s.instances[i]?, _))

/-- The instance has a change to see. -/
def Changed (s : Sup) (i : ℕ) : Prop := ∃ x ∈ s.instances[i]?, x.ended = none ∧ ∃ v ∈ x.seen, v ≠ s.version

instance (s : Sup) (i : ℕ) : Decidable (s.Changed i) := inferInstanceAs (Decidable (∃ x ∈ s.instances[i]?, _))

/-- The loop is over. -/
def Over (s : Sup) : Prop := s.point = .exited ∨ s.point = .aborted

instance (s : Sup) : Decidable s.Over := inferInstanceAs (Decidable (_ ∨ _))

/-- When an operation can be next -/
def Guard (s : Sup) : Op → Prop
  | .pass _ => True
  | .finish i _ => s.Alive i
  | .changed i => s.Changed i
  | .dropReceiver i => s.Alive i
  | .shutdown => s.dropped = false
  | .shutdownWithTimeout _ => s.dropped = false
  | .requested => s.point = .select ∧ s.dropped = true ∧ s.shutdownRequested = false
  | .join => s.point = .select ∧ ¬ s.Alive 0
  | .wake =>
    match s.point with
    | .failed wake | .restart wake => wake ≤ s.now
    | _ => False
  | .abort => (∃ deadline ∈ s.deadline, deadline ≤ s.now) ∧ ¬ s.Over

instance (s : Sup) : ∀ op, Decidable (s.Guard op)
  | .pass _ => isTrue trivial
  | .finish i _ | .dropReceiver i => inferInstanceAs (Decidable (s.Alive i))
  | .changed i => inferInstanceAs (Decidable (s.Changed i))
  | .shutdown | .shutdownWithTimeout _ => inferInstanceAs (Decidable (_ = _))
  | .requested | .join | .abort => inferInstanceAs (Decidable (_ ∧ _))
  | .wake => by
    unfold Guard
    cases s.point <;> infer_instance

/-- A run of a supervised task from some time on -/
def Run (now : ℕ) (s : Sup) : Prop := Reach exec Guard (new now) s

end Sup

/-! ### One instance at a time -/

/-- From the end of an instance to the start of the next one -/
def pause : Outcome → ℕ
  | .ok => 10
  | .panic | .cancelled => 5010

/-- An instance was started after the earlier one had ended and the delay had passed. -/
def Follows (later earlier : Instance) : Prop := ∃ e ∈ earlier.ended, e.1 + pause e.2 ≤ later.started

/-- The numbers of `n` panics, as the counter has them -/
def numbers (n : ℕ) : List ℕ := (List.range n).map fun i => (i + 1) % 2 ^ 32

lemma numbers_succ (n : ℕ) : numbers (n + 1) = numbers n ++ [(n + 1) % 2 ^ 32] := by
  simp [numbers, List.range_succ]

namespace Sup

variable {s : Sup} {x : Instance} {xs : List Instance}

/-- What the delays wait for: the instance ended, and they are as long as they are to be. -/
def Waits (now : ℕ) (x : Instance) : Point → Prop
  | .failed wake => ∃ e ∈ x.ended, e.2 ≠ .ok ∧ e.1 + 5000 ≤ wake ∧ wake ≤ now + 5000
  | .restart wake => ∃ e ∈ x.ended, e.1 + pause e.2 ≤ wake ∧ wake ≤ now + 10
  | _ => True

/-- How many panics are reported: those of the instances that were started anew, and in a delay that of the
instance that has just ended. -/
def Reported (x : Instance) (xs : List Instance) (n : ℕ) : Point → Prop
  | .select | .exited => n = xs.countP Instance.panicked
  | .failed _ | .restart _ => n = (x :: xs).countP Instance.panicked
  | .aborted => xs.countP Instance.panicked ≤ n ∧ n ≤ (x :: xs).countP Instance.panicked

lemma Reported.bounds {n : ℕ} {point : Point} (h : Reported x xs n point) :
    xs.countP Instance.panicked ≤ n ∧ n ≤ (x :: xs).countP Instance.panicked := by
  have hle : xs.countP Instance.panicked ≤ (x :: xs).countP Instance.panicked := by
    rw [List.countP_cons]
    exact Nat.le_add_right _ _
  cases point with
  | select | exited =>
    obtain rfl : n = xs.countP Instance.panicked := h
    exact ⟨Nat.le_refl _, hle⟩
  | failed wake | restart wake =>
    obtain rfl : n = (x :: xs).countP Instance.panicked := h
    exact ⟨hle, Nat.le_refl _⟩
  | aborted => exact h

structure Single (s : Sup) : Prop where
  apart : s.instances.Pairwise Follows
  newest : ∃ x xs, s.instances = x :: xs ∧ x.started ≤ s.now ∧ (∀ e ∈ x.ended, x.started ≤ e.1 ∧ e.1 ≤ s.now) ∧
    Waits s.now x s.point ∧ ∃ n, Reported x xs n s.point ∧ s.nrPanics = n % 2 ^ 32 ∧ s.onPanic = numbers n

lemma single_new (now : ℕ) : (new now).Single :=
  ⟨List.pairwise_singleton _ _, _, _, rfl, Nat.le_refl _, by simp, trivial, 0, rfl, rfl, rfl⟩

/-- Only the newest instance can be alive. -/
lemma Single.alive (hs : s.Single) {i : ℕ} (hi : s.Alive i) : i = 0 := by
  obtain ⟨y, hy, hended⟩ := hi
  obtain ⟨x, xs, hx, -⟩ := hs.newest
  cases i with
  | zero => rfl
  | succ i =>
    have hapart := hs.apart
    rw [hx] at hapart hy
    have hmem : y ∈ xs := List.mem_of_getElem? hy
    obtain ⟨e, he, -⟩ := (List.pairwise_cons.mp hapart).1 y hmem
    rw [hended] at he
    cases he

lemma modify_zero (hx : s.instances = x :: xs) (f : Instance → Instance) :
    s.modify 0 f = { s with instances := f x :: xs } := by
  simp [modify, hx]

/-- Time passes. -/
lemma Waits.later {x : Instance} {point : Point} {now later : ℕ} (h : Waits now x point) (hle : now ≤ later) :
    Waits later x point := by
  cases point with
  | failed wake =>
    obtain ⟨e, he, hne, hwake, hnow⟩ := h
    exact ⟨e, he, hne, hwake, by omega⟩
  | restart wake =>
    obtain ⟨e, he, hwake, hnow⟩ := h
    exact ⟨e, he, hwake, by omega⟩
  | select | exited | aborted => trivial

/-- A delay is one after the end of the instance. -/
lemma Waits.alive {point : Point} (h : Waits s.now x point) (hnone : x.ended = none) :
    point = .select ∨ point = .exited ∨ point = .aborted := by
  cases point with
  | failed wake | restart wake =>
    obtain ⟨e, he, -⟩ := h
    rw [hnone] at he
    cases he
  | select => exact .inl rfl
  | exited => exact .inr (.inl rfl)
  | aborted => exact .inr (.inr rfl)

lemma apart_newest {x' : Instance} (h : (x :: xs).Pairwise Follows) (hstarted : x'.started = x.started) :
    (x' :: xs).Pairwise Follows := by
  obtain ⟨hnewest, hearlier⟩ := List.pairwise_cons.mp h
  refine List.pairwise_cons.mpr ⟨fun earlier hmem => ?_, hearlier⟩
  obtain ⟨e, he, hpause⟩ := hnewest earlier hmem
  exact ⟨e, he, hstarted ▸ hpause⟩

lemma Single.pass (hs : s.Single) (ms : ℕ) : (s.exec (.pass ms)).Single := by
  obtain ⟨x, xs, hx, hstarted, hended, hwaits, hpanics⟩ := hs.newest
  have hle : s.now ≤ s.now + ms := Nat.le_add_right _ _
  refine ⟨hs.apart, x, xs, hx, Nat.le_trans hstarted hle, fun e he => ?_, hwaits.later hle, hpanics⟩
  exact ⟨(hended e he).1, Nat.le_trans (hended e he).2 hle⟩

lemma Single.finish (hs : s.Single) {i : ℕ} (outcome : Outcome) (hi : s.Alive i) :
    (s.exec (.finish i outcome)).Single := by
  obtain rfl := hs.alive hi
  obtain ⟨x, xs, hx, hstarted, -, hwaits, n, hreported, hpanics⟩ := hs.newest
  have hapart := hs.apart
  rw [hx] at hapart
  have hnone : x.ended = none := by
    obtain ⟨y, hy, hended⟩ := hi
    rw [hx] at hy
    cases hy
    exact hended
  rw [Sup.exec, modify_zero hx]
  refine ⟨apart_newest hapart rfl, _, xs, rfl, hstarted, by simpa using hstarted, ?_, n, ?_, hpanics⟩
  · rcases hwaits.alive hnone with hp | hp | hp <;> simp only [hp] <;> trivial
  · rcases hwaits.alive hnone with hp | hp | hp <;> rw [hp] at hreported <;> simp only [hp]
    · exact hreported
    · exact hreported
    · have hcount : (x :: xs).countP Instance.panicked = xs.countP Instance.panicked := by
        simp [Instance.panicked, hnone]
      refine ⟨hreported.1, Nat.le_trans hreported.2 ?_⟩
      rw [hcount, List.countP_cons]
      exact Nat.le_add_right _ _

/-- The receiver of the newest instance changes. -/
lemma Single.receiver (hs : s.Single) {i : ℕ} (hi : s.Alive i) (seen : Option ℕ) :
    (s.modify i fun x => { x with seen := seen }).Single := by
  obtain rfl := hs.alive hi
  obtain ⟨x, xs, hx, hstarted, hended, hwaits, n, hreported, hpanics⟩ := hs.newest
  have hapart := hs.apart
  rw [hx] at hapart
  have hcount : ({ x with seen := seen } :: xs).countP Instance.panicked = (x :: xs).countP Instance.panicked := by
    rw [List.countP_cons, List.countP_cons]
    rfl
  rw [modify_zero hx]
  refine ⟨apart_newest hapart rfl, _, xs, rfl, hstarted, hended, ?_, n, ?_, hpanics⟩
  · cases hpoint : s.point <;> rw [hpoint] at hwaits <;> exact hwaits
  · simp only [Reported, hcount]
    exact hreported

/-- The loop goes on where it is. -/
lemma Single.same (hs : s.Single) {s' : Sup} (hinstances : s'.instances = s.instances) (hnow : s'.now = s.now)
    (hpoint : s'.point = s.point) (hnr : s'.nrPanics = s.nrPanics) (hcalls : s'.onPanic = s.onPanic) : s'.Single := by
  obtain ⟨x, xs, hx, hstarted, hended, hwaits, n, hreported, hn, honPanic⟩ := hs.newest
  refine ⟨hinstances ▸ hs.apart, x, xs, hinstances.trans hx, hnow ▸ hstarted, hnow ▸ hended, ?_, n, ?_, hnr.trans hn,
    hcalls.trans honPanic⟩
  · rw [hnow, hpoint]
    exact hwaits
  · rw [hpoint]
    exact hreported

lemma send_eq : s.send = s ∨ s.send = { s with version := s.version + 1 } := by
  unfold send
  split_ifs
  · exact .inr rfl
  · exact .inl rfl

lemma Single.requested (hs : s.Single) : (s.exec .requested).Single := by
  rcases send_eq (s := { s with shutdownRequested := true }) with h | h <;> rw [exec, h] <;>
    exact hs.same rfl rfl rfl rfl rfl

lemma exec_join {time : ℕ} {outcome : Outcome} (hx : s.instances = x :: xs) (he : x.ended = some (time, outcome)) :
    s.exec .join = s.joined outcome := by
  obtain ⟨started, subscribed, seen, ended⟩ := x
  cases he
  simp only [exec, hx, List.head?_cons]

lemma ended_of_not_alive (hx : s.instances = x :: xs) (h : ¬ s.Alive 0) : ∃ e, x.ended = some e := by
  refine Option.ne_none_iff_exists'.mp fun hnone => h ⟨x, ?_, hnone⟩
  rw [hx]
  rfl

lemma Single.joined (hs : s.Single) (hx : s.instances = x :: xs) {time : ℕ} {outcome : Outcome}
    (he : x.ended = some (time, outcome)) (hpoint : s.point = .select) : (s.joined outcome).Single := by
  obtain ⟨x', xs', hx', hstarted, hended, -, n, hreported, hn, honPanic⟩ := hs.newest
  obtain ⟨rfl, rfl⟩ : x' = x ∧ xs' = xs := by simpa using hx'.symm.trans hx
  have htime : time ≤ s.now := (hended _ he).2
  rw [hpoint] at hreported
  have hcount : (x' :: xs').countP Instance.panicked = n + if outcome = .panic then 1 else 0 := by
    rw [List.countP_cons, ← show n = xs'.countP Instance.panicked from hreported]
    simp [Instance.panicked, he]
  unfold Sup.joined
  split_ifs with hshutdown
  · exact ⟨hs.apart, x', xs', hx, hstarted, hended, trivial, n, hreported, hn, honPanic⟩
  rcases outcome with _ | _ | _
  · refine ⟨hs.apart, x', xs', hx, hstarted, hended, ⟨_, he, ?_, ?_⟩, n, hcount.symm, hn, honPanic⟩
    · exact Nat.add_le_add_right htime 10
    · exact Nat.le_refl _
  · refine ⟨hs.apart, x', xs', hx, hstarted, hended, ⟨_, he, by simp, ?_, ?_⟩, n + 1, hcount.symm, ?_, ?_⟩
    · exact Nat.add_le_add_right htime 5000
    · exact Nat.le_refl _
    · simp only [joinFailed, if_true, hn]
      omega
    · simp only [joinFailed, if_true, honPanic, hn, numbers_succ]
      congr 2
      omega
  · refine ⟨hs.apart, x', xs', hx, hstarted, hended, ⟨_, he, by simp, ?_, ?_⟩, n, hcount.symm, hn, honPanic⟩
    · exact Nat.add_le_add_right htime 5000
    · exact Nat.le_refl _

lemma Single.join (hs : s.Single) (hpoint : s.point = .select) (halive : ¬ s.Alive 0) : (s.exec .join).Single := by
  obtain ⟨x, xs, hx, -⟩ := hs.newest
  obtain ⟨⟨time, outcome⟩, he⟩ := ended_of_not_alive hx halive
  rw [exec_join hx he]
  exact hs.joined hx he hpoint

lemma Single.wake (hs : s.Single) (hg : s.Guard .wake) : (s.exec .wake).Single := by
  obtain ⟨x, xs, hx, hstarted, hended, hwaits, n, hreported, hpanics⟩ := hs.newest
  unfold Guard at hg
  unfold exec
  cases hpoint : s.point with
  | failed wake =>
    simp only [hpoint] at hg hwaits hreported ⊢
    obtain ⟨⟨time, outcome⟩, he, hne, hwake, -⟩ := hwaits
    refine ⟨hs.apart, x, xs, hx, hstarted, hended, ⟨_, he, ?_, Nat.le_refl _⟩, n, hreported, hpanics⟩
    cases outcome with
    | ok => exact absurd rfl hne
    | panic | cancelled =>
      simp only [pause] at hwake ⊢
      omega
  | restart wake =>
    simp only [hpoint] at hg hwaits hreported ⊢
    obtain ⟨e, he, hpause, -⟩ := hwaits
    have hapart := hs.apart
    rw [hx] at hapart
    refine ⟨?_, _, x :: xs, congrArg _ hx, Nat.le_refl _, by simp, trivial, n, hreported, hpanics⟩
    simp only [spawn, hx]
    refine List.pairwise_cons.mpr ⟨fun earlier hmem => ?_, hapart⟩
    have hlast : e.1 + pause e.2 ≤ s.now := Nat.le_trans hpause hg
    rcases List.mem_cons.mp hmem with rfl | hmem
    · exact ⟨e, he, hlast⟩
    -- an earlier one ended before the last one started
    · obtain ⟨e', he', hpause'⟩ := (List.pairwise_cons.mp hapart).1 earlier hmem
      have hlived := (hended e he).1
      exact ⟨e', he', by simp only; omega⟩
  | select | exited | aborted => simp [hpoint] at hg

lemma Single.exec (hs : s.Single) {op : Op} (hg : s.Guard op) : (s.exec op).Single := by
  cases op with
  | pass ms => exact hs.pass ms
  | finish i outcome => exact hs.finish outcome hg
  | changed i =>
    obtain ⟨x, hx, hnone, -⟩ := hg
    exact hs.receiver ⟨x, hx, hnone⟩ _
  | dropReceiver i => exact hs.receiver hg _
  | shutdown | shutdownWithTimeout ms => exact hs.same rfl rfl rfl rfl rfl
  | requested => exact hs.requested
  | join => exact hs.join hg.1 hg.2
  | wake => exact hs.wake hg
  | abort =>
    obtain ⟨x, xs, hx, hstarted, hended, -, n, hreported, hpanics⟩ := hs.newest
    exact ⟨hs.apart, x, xs, hx, hstarted, hended, trivial, n, hreported.bounds, hpanics⟩

lemma Run.single {now : ℕ} (h : s.Run now) : s.Single :=
  h.invariant (single_new now) fun _ _ hs hg => hs.exec hg

end Sup

/-- **One instance at a time.** In every run, an instance is started only after every earlier one has ended, 10 ms
after it, and 5 s later still where it did not finish by itself; a lock that the instances share is free when one
starts. Every panic of an instance that is followed by another one was reported to `on_panic`, once and with its
number; of the others at most the panic of the last one. -/
theorem single_instance {now : ℕ} {s : Sup} (h : s.Run now) :
    s.instances.Pairwise Follows ∧ (∀ i, s.Alive i → i = 0) ∧
    ∃ n, s.onPanic = numbers n ∧ s.instances.tail.countP Instance.panicked ≤ n ∧
      n ≤ s.instances.countP Instance.panicked := by
  have hs := h.single
  obtain ⟨x, xs, hx, -, -, -, n, hreported, -, honPanic⟩ := hs.newest
  refine ⟨hs.apart, fun i hi => hs.alive hi, n, honPanic, ?_⟩
  rw [hx]
  exact hreported.bounds

/-- The task panics, is started anew, and finishes after a request to shut down. -/
def sampleRun : List Op :=
  [.pass 3, .finish 0 .panic, .join, .pass 5000, .wake, .pass 10, .wake, .shutdown, .requested, .changed 0,
    .finish 0 .ok, .join]

def sample : Sup := sampleRun.foldl Sup.exec (.new 0)

lemma sample_run : sample.Run 0 := Reach.run sampleRun .start (by decide)

theorem single_instance_sample : sample.instances.length = 2 ∧ sample.onPanic = [1] ∧
    sample.instances.Pairwise Follows :=
  ⟨rfl, rfl, (single_instance sample_run).1⟩

/-! ### Shutting down -/

namespace Sup

variable {s : Sup} {x : Instance} {xs : List Instance}

/-- The channel had a message for the instance since it was started, unless the instance dropped its receiver. -/
def Told (version : ℕ) (x : Instance) : Prop := x.ended = none → x.seen = none ∨ x.subscribed < version

structure Ending (s : Sup) : Prop where
  newest : ∃ x xs, s.instances = x :: xs ∧ x.subscribed ≤ s.version ∧ (s.shutdownRequested = true → Told s.version x)
  dropped : s.shutdownRequested = true → s.dropped = true
  /-- No delay, and so no restart -/
  point : s.shutdownRequested = true → s.point = .select ∨ s.Over
  exited : s.point = .exited → s.shutdownRequested = true ∧ ∀ x ∈ s.instances.head?, x.ended ≠ none

lemma ending_new (now : ℕ) : (new now).Ending :=
  ⟨⟨_, _, rfl, Nat.le_refl _, by simp [new]⟩, by simp [new], by simp [new], by simp [new]⟩

/-- Neither the request nor the instances change. -/
lemma Ending.same (hs : s.Ending) {s' : Sup} (hinstances : s'.instances = s.instances)
    (hversion : s'.version = s.version) (hrequested : s'.shutdownRequested = s.shutdownRequested)
    (hpoint : s'.point = s.point) (hdropped : s.dropped = true → s'.dropped = true) : s'.Ending := by
  obtain ⟨x, xs, hx, hsubscribed, htold⟩ := hs.newest
  refine ⟨⟨x, xs, hinstances.trans hx, hversion ▸ hsubscribed, ?_⟩, ?_, ?_, ?_⟩
  · rw [hversion, hrequested]
    exact htold
  · intro h
    exact hdropped (hs.dropped (hrequested ▸ h))
  · intro h
    simpa only [Over, hpoint] using hs.point (hrequested ▸ h)
  · rw [hpoint, hrequested, hinstances]
    exact hs.exited

/-- The newest instance changes, but is the same instance. -/
lemma Ending.modify (hs : s.Ending) (f : Instance → Instance) (hsubscribed : ∀ x, (f x).subscribed = x.subscribed)
    (hended : ∀ x, (f x).ended = none → x.ended = none)
    (hseen : ∀ x, (f x).ended = none → x.seen = none → (f x).seen = none ) : (s.modify 0 f).Ending := by
  obtain ⟨x, xs, hx, hle, htold⟩ := hs.newest
  rw [modify_zero hx]
  refine ⟨⟨f x, xs, rfl, ?_, fun h hnone => ?_⟩, hs.dropped, hs.point, fun h => ⟨(hs.exited h).1, ?_⟩⟩
  · rw [hsubscribed]
    exact hle
  · rcases htold h (hended x hnone) with hx' | hx'
    · exact .inl (hseen x hnone hx')
    · exact .inr ((hsubscribed x).symm ▸ hx')
  · have hx' : x.ended ≠ none := by
      refine (hs.exited h).2 x ?_
      rw [hx]
      rfl
    simpa using fun hnone => hx' (hended x hnone)

lemma version_le_send : s.version ≤ s.send.version := by
  rcases send_eq (s := s) with h | h
  · exact Nat.le_of_eq (congrArg Sup.version h).symm
  · exact Nat.le_of_lt (Nat.lt_of_lt_of_eq (Nat.lt_succ_self _) (congrArg Sup.version h).symm)

/-- Where the newest instance still has its receiver, the message is sent. -/
lemma told_send (hx : s.instances = x :: xs) (hle : x.subscribed ≤ s.version) : Told s.send.version x := by
  intro hnone
  cases hseen : x.seen with
  | none => exact .inl rfl
  | some v =>
    have hreceives : s.instances.any Instance.receives = true := by
      simp [hx, Instance.receives, hnone, hseen]
    rw [send, if_pos hreceives]
    exact .inr (Nat.lt_succ_of_le hle)

lemma Ending.requested (hs : s.Ending) (hg : s.Guard .requested) : (s.exec .requested).Ending := by
  obtain ⟨hpoint, hdropped, -⟩ := hg
  obtain ⟨x, xs, hx, hle, -⟩ := hs.newest
  have hversion := version_le_send (s := { s with shutdownRequested := true })
  have htold := told_send (s := { s with shutdownRequested := true }) hx hle
  rw [exec]
  generalize hs' : ({ s with shutdownRequested := true } : Sup).send = s' at hversion htold
  obtain ⟨hinstances, hpoint', hdropped'⟩ : s'.instances = s.instances ∧ s'.point = s.point ∧
      s'.dropped = s.dropped := by
    rcases send_eq (s := { s with shutdownRequested := true }) with h | h <;> rw [h] at hs' <;> subst hs' <;>
      exact ⟨rfl, rfl, rfl⟩
  refine ⟨⟨x, xs, hinstances.trans hx, Nat.le_trans hle hversion, fun _ => htold⟩, ?_, ?_, ?_⟩
  · exact fun _ => hdropped'.trans hdropped
  · exact fun _ => .inl (hpoint'.trans hpoint)
  · intro h
    rw [hpoint', hpoint] at h
    cases h

lemma joined_requested (h : s.shutdownRequested = true) (outcome : Outcome) :
    s.joined outcome = { s with point := .exited } := by
  unfold joined
  rw [if_pos h]

/-- Where no shutdown is requested, the loop goes on to a delay. -/
lemma joined_delay (h : s.shutdownRequested = false) (outcome : Outcome) :
    ∃ point nrPanics onPanic, (s.joined outcome) = { s with point, nrPanics, onPanic } ∧ point ≠ .exited := by
  unfold joined
  rw [if_neg (by simp [h])]
  rcases outcome with _ | _ | _
  · exact ⟨_, _, _, rfl, by simp⟩
  · exact ⟨.failed (s.now + 5000), (s.nrPanics + 1) % 2 ^ 32, s.onPanic ++ [(s.nrPanics + 1) % 2 ^ 32], rfl, by simp⟩
  · exact ⟨.failed (s.now + 5000), s.nrPanics, s.onPanic, rfl, by simp⟩

lemma Ending.join (hs : s.Ending) (halive : ¬ s.Alive 0) : (s.exec .join).Ending := by
  obtain ⟨x, xs, hx, hle, htold⟩ := hs.newest
  obtain ⟨⟨time, outcome⟩, he⟩ := ended_of_not_alive hx halive
  rw [exec_join hx he]
  cases hrequested : s.shutdownRequested with
  | false =>
    obtain ⟨point, nrPanics, onPanic, hjoined, hpoint⟩ := joined_delay hrequested outcome
    rw [hjoined]
    exact ⟨⟨x, xs, hx, hle, htold⟩, hs.dropped, by simp [hrequested], fun h => absurd h hpoint⟩
  | true =>
    rw [joined_requested hrequested]
    exact ⟨⟨x, xs, hx, hle, htold⟩, hs.dropped, fun _ => .inr (.inl rfl), fun _ => ⟨hrequested, by simp [hx, he]⟩⟩

lemma Ending.not_requested (hs : s.Ending) (hpoint : s.point ≠ .select) (hover : ¬ s.Over) :
    s.shutdownRequested = false := by
  by_contra h
  rcases hs.point (by simpa using h) with hp | hp
  · exact hpoint hp
  · exact hover hp

lemma Ending.wake (hs : s.Ending) (hg : s.Guard .wake) : (s.exec .wake).Ending := by
  unfold Guard at hg
  unfold exec
  cases hpoint : s.point with
  | failed wake =>
    have hfalse := hs.not_requested (by simp [hpoint]) (by simp [Over, hpoint])
    obtain ⟨x, xs, hx, hle, -⟩ := hs.newest
    exact ⟨⟨x, xs, hx, hle, by simp [hfalse]⟩, by simp [hfalse], by simp [hfalse], by simp⟩
  | restart wake =>
    have hfalse := hs.not_requested (by simp [hpoint]) (by simp [Over, hpoint])
    exact ⟨⟨_, _, rfl, Nat.le_refl _, by simp [spawn, hfalse]⟩, by simp [spawn, hfalse], by simp [spawn, hfalse],
      by simp [spawn]⟩
  | select | exited | aborted => simp [hpoint] at hg

lemma Run.ending {now : ℕ} (h : s.Run now) : s.Ending := by
  refine (h.invariant (P := fun s => s.Single ∧ s.Ending) ⟨single_new now, ending_new now⟩ ?_).2
  rintro s op ⟨hsingle, hs⟩ hg
  refine ⟨hsingle.exec hg, ?_⟩
  cases op with
  | pass ms => exact hs.same rfl rfl rfl rfl id
  | finish i outcome =>
    obtain rfl := hsingle.alive hg
    exact hs.modify _ (fun _ => rfl) (by simp) (by simp)
  | changed i =>
    obtain ⟨x, hx, hnone, v, hv, -⟩ := hg
    obtain rfl := hsingle.alive ⟨x, hx, hnone⟩
    obtain ⟨y, ys, hy, hle, htold⟩ := hs.newest
    obtain rfl : y = x := by simpa [hy] using hx
    rw [exec, modify_zero hy]
    refine ⟨⟨_, ys, rfl, hle, fun h hnone => ?_⟩, hs.dropped, hs.point, fun h => ⟨(hs.exited h).1, ?_⟩⟩
    · rcases htold h hnone with hseen | hlt
      · rw [hseen] at hv
        cases hv
      · exact .inr hlt
    · simpa [hy] using (hs.exited h).2
  | dropReceiver i =>
    obtain rfl := hsingle.alive hg
    exact hs.modify _ (fun _ => rfl) (fun _ => id) (fun _ _ _ => rfl)
  | shutdown | shutdownWithTimeout ms => exact hs.same rfl rfl rfl rfl fun _ => rfl
  | requested => exact hs.requested hg
  | join => exact hs.join hg.2
  | wake => exact hs.wake hg
  | abort =>
    obtain ⟨x, xs, hx, hle, htold⟩ := hs.newest
    exact ⟨⟨x, xs, hx, hle, htold⟩, hs.dropped, fun _ => .inr (.inr rfl), by simp [exec]⟩

/-- After the request an operation starts no instance. -/
lemma Ending.length_exec (hs : s.Ending) (hrequested : s.shutdownRequested = true) (op : Op) (hg : s.Guard op) :
    (s.exec op).instances.length = s.instances.length := by
  cases op with
  | finish i outcome | changed i | dropReceiver i => simp [exec, Sup.modify]
  | requested => rcases send_eq (s := { s with shutdownRequested := true }) with h | h <;> rw [exec, h]
  | join =>
    obtain ⟨x, xs, hx, -⟩ := hs.newest
    obtain ⟨⟨time, outcome⟩, he⟩ := ended_of_not_alive hx hg.2
    rw [exec_join hx he, joined_requested hrequested]
  | wake =>
    unfold Guard at hg
    rcases hs.point hrequested with hp | hp | hp <;> simp [hp] at hg
  | pass ms | shutdown | shutdownWithTimeout ms | abort => rfl

end Sup

/-- The newest instance dropped its receiver, has a change to see, or has seen one. -/
def Notified (s : Sup) : Prop :=
  ∃ x ∈ s.instances.head?, x.seen = none ∨ x.subscribed < s.version ∧ (s.Changed 0 ∨ x.seen = some s.version)

/-- **A shutdown is not missed.** Once the handle is dropped, the loop notices it: at once in its `select!`, else
after a delay of at most 5 s and one of 10 ms. From then on no instance is started, the instance is notified, and
when it ends the loop is left. It is left, unless it is aborted, only so: shutdown was requested, and no instance is
alive. -/
theorem shutdown_kept {now : ℕ} {s : Sup} (h : s.Run now) :
    (s.dropped = true → s.shutdownRequested = false → ¬ s.Over →
      s.Guard .requested ∨ (∃ wake, s.point = .failed wake ∧ wake ≤ s.now + 5000) ∨
        ∃ wake, s.point = .restart wake ∧ wake ≤ s.now + 10) ∧
    (s.shutdownRequested = true →
      (∀ op, s.Guard op → (s.exec op).instances.length = s.instances.length) ∧
      (s.Alive 0 → Notified s) ∧
      (¬ s.Over → ¬ s.Alive 0 → s.Guard .join ∧ (s.exec .join).point = .exited)) ∧
    (s.point = .exited → s.shutdownRequested = true ∧ ∀ i, ¬ s.Alive i) := by
  have hsingle := h.single
  have hs := h.ending
  obtain ⟨x, xs, hx, hle, htold⟩ := hs.newest
  refine ⟨fun hdropped hrequested hover => ?_, fun hrequested => ⟨hs.length_exec hrequested, ?_, ?_⟩, ?_⟩
  · obtain ⟨y, ys, -, -, -, hwaits, -⟩ := hsingle.newest
    cases hpoint : s.point with
    | select => exact .inl ⟨hpoint, hdropped, hrequested⟩
    | failed wake =>
      rw [hpoint] at hwaits
      obtain ⟨e, -, -, -, hwake⟩ := hwaits
      exact .inr (.inl ⟨wake, rfl, hwake⟩)
    | restart wake =>
      rw [hpoint] at hwaits
      obtain ⟨e, -, -, hwake⟩ := hwaits
      exact .inr (.inr ⟨wake, rfl, hwake⟩)
    | exited => exact absurd (.inl hpoint) hover
    | aborted => exact absurd (.inr hpoint) hover
  · rintro ⟨y, hy, hnone⟩
    obtain rfl : y = x := by simpa [hx] using hy.symm
    refine ⟨y, by simp [hx], ?_⟩
    rcases htold hrequested hnone with hseen | hlt
    · exact .inl hseen
    cases hseen : y.seen with
    | none => exact .inl rfl
    | some v =>
      refine .inr ⟨hlt, ?_⟩
      by_cases hv : v = s.version
      · exact .inr (congrArg some hv)
      · exact .inl ⟨y, hy, hnone, v, hseen, hv⟩
  · intro hover halive
    have hpoint : s.point = .select := (hs.point hrequested).resolve_right hover
    obtain ⟨⟨time, outcome⟩, he⟩ := Sup.ended_of_not_alive hx halive
    refine ⟨⟨hpoint, halive⟩, ?_⟩
    rw [Sup.exec_join hx he, Sup.joined_requested hrequested]
  · intro hexited
    refine ⟨(hs.exited hexited).1, fun i hi => ?_⟩
    obtain rfl := hsingle.alive hi
    obtain ⟨y, hy, hnone⟩ := hi
    obtain rfl : y = x := by simpa [hx] using hy.symm
    exact (hs.exited hexited).2 y (by simp [hx]) hnone

theorem shutdown_kept_sample : sample.point = .exited ∧ ∀ i, ¬ sample.Alive i :=
  have hexited : sample.point = .exited := by decide
  ⟨hexited, ((shutdown_kept sample_run).2.2 hexited).2⟩

end Supervisor

end SensorLink.Server
