import Mathlib.Data.List.Induction
import Mathlib.Tactic.Common

/-!
# The active configuration of `logic/active_config.rs`

Tasks hold bindings to the active configuration. A configuration that is set waits while there are any, and
becomes active when the last one is dropped. Each operation runs in one critical section; `none` is a panic
of the count, which would go below zero.
-/

namespace SensorLink.Sync

variable {T : Type}

/-- `ActiveConfig`, with the fields of its `State` -/
structure ActiveConfig (T : Type) where
  active : Option T
  pending : Option T
  pendingSet : Bool
  inUseCount : ℕ

namespace ActiveConfig

/-- `new` -/
def new : ActiveConfig T := ⟨none, none, false, 0⟩

/-- `try_promote` -/
def tryPromote (s : ActiveConfig T) : ActiveConfig T :=
  if s.inUseCount = 0 ∧ s.pendingSet = true then
    { s with active := s.pending, pending := none, pendingSet := false }
  else s

/-- `acquire`: the configuration of the new binding -/
def acquire (s : ActiveConfig T) : Option (T × ActiveConfig T) := do
  let cfg ← s.active
  pure (cfg, { s with inUseCount := s.inUseCount + 1 })

/-- `set_pending` -/
def setPending (s : ActiveConfig T) (cfg : Option T) : ActiveConfig T :=
  tryPromote { s with pending := cfg, pendingSet := true }

/-- `clone` of a binding -/
def cloneBinding (s : ActiveConfig T) : ActiveConfig T := { s with inUseCount := s.inUseCount + 1 }

/-- `drop` of a binding -/
def dropBinding (s : ActiveConfig T) : Option (ActiveConfig T) :=
  if s.inUseCount = 0 then none else some (tryPromote { s with inUseCount := s.inUseCount - 1 })

end ActiveConfig

/-! ### Runs -/

/-- The holder, and the configurations of the live bindings -/
structure Bindings (T : Type) where
  holder : ActiveConfig T
  live : List T

/-- An operation of a task; a binding is named by its place among the live ones. -/
inductive ConfigOp (T : Type) where
  | acquire
  | clone (k : ℕ)
  | drop (k : ℕ)
  | setPending (cfg : Option T)

namespace Bindings

def exec (s : Bindings T) : ConfigOp T → Option (Bindings T)
  | .acquire =>
    match s.holder.acquire with
    | some (cfg, holder) => some ⟨holder, s.live ++ [cfg]⟩
    | none => some s
  | .clone k =>
    match s.live[k]? with
    | some cfg => some ⟨s.holder.cloneBinding, s.live ++ [cfg]⟩
    | none => some s
  | .drop k =>
    match s.live[k]? with
    | some _ => do
      let holder ← s.holder.dropBinding
      pure ⟨holder, s.live.eraseIdx k⟩
    | none => some s
  | .setPending cfg => some ⟨s.holder.setPending cfg, s.live⟩

/-- A run from a new holder -/
def run (ops : List (ConfigOp T)) : Option (Bindings T) := ops.foldlM exec ⟨.new, []⟩

/-- The configuration set by the operation, or the one set before it -/
def noteSet (last : Option T) : ConfigOp T → Option T
  | .setPending cfg => cfg
  | .acquire | .clone _ | .drop _ => last

/-- The configuration given to the last `set_pending` -/
def lastSet (ops : List (ConfigOp T)) : Option T := ops.foldl noteSet none

/-! ### The invariant -/

/-- What holds along a run: the count is the number of live bindings, all of them see the active
configuration, and the configuration set last waits only while there are some. -/
structure Inv (last : Option T) (s : Bindings T) : Prop where
  count : s.holder.inUseCount = s.live.length
  sees : ∀ cfg ∈ s.live, s.holder.active = some cfg
  waiting : s.holder.pendingSet = true → s.live ≠ [] ∧ s.holder.pending = last
  settled : s.holder.pendingSet = false → s.holder.active = last ∧ s.holder.pending = none

variable {s : Bindings T} {last : Option T}

/-- A promotion settles what waits, where no binding is live. -/
lemma inv_tryPromote {holder : ActiveConfig T} {live : List T} (hcount : holder.inUseCount = live.length)
    (hsees : ∀ cfg ∈ live, holder.active = some cfg)
    (hwaiting : holder.pendingSet = true → holder.pending = last)
    (hsettled : holder.pendingSet = false → holder.active = last ∧ holder.pending = none) :
    Inv last ⟨holder.tryPromote, live⟩ := by
  unfold ActiveConfig.tryPromote
  by_cases hpromote : holder.inUseCount = 0 ∧ holder.pendingSet = true
  · rw [if_pos hpromote]
    obtain ⟨hzero, hset⟩ := hpromote
    have hnone : live = [] := List.eq_nil_of_length_eq_zero (hcount.symm.trans hzero)
    subst hnone
    exact ⟨hcount, by simp, by simp, fun _ => ⟨hwaiting hset, rfl⟩⟩
  · rw [if_neg hpromote]
    refine ⟨hcount, hsees, ?_, hsettled⟩
    intro hset
    refine ⟨?_, hwaiting hset⟩
    rintro rfl
    exact hpromote ⟨hcount, hset⟩

/-- A new binding sees the active configuration. -/
lemma Inv.bind (h : Inv last s) {cfg : T} (hactive : s.holder.active = some cfg) :
    Inv last ⟨s.holder.cloneBinding, s.live ++ [cfg]⟩ := by
  refine ⟨?_, ?_, ?_, h.settled⟩
  · simp [ActiveConfig.cloneBinding, h.count]
  · intro cfg' hmem
    rcases List.mem_append.mp hmem with hmem | hmem
    · exact h.sees cfg' hmem
    · rw [List.mem_singleton.mp hmem]
      exact hactive
  · intro hset
    exact ⟨by simp, (h.waiting hset).2⟩

lemma Inv.acquire (h : Inv last s) : ∃ s', s.exec .acquire = some s' ∧ Inv last s' := by
  cases hactive : s.holder.active with
  | none => exact ⟨s, by simp [exec, ActiveConfig.acquire, hactive], h⟩
  | some cfg =>
    refine ⟨_, ?_, h.bind hactive⟩
    simp [exec, ActiveConfig.acquire, ActiveConfig.cloneBinding, hactive]

lemma Inv.clone (h : Inv last s) (k : ℕ) : ∃ s', s.exec (.clone k) = some s' ∧ Inv last s' := by
  cases hk : s.live[k]? with
  | none => exact ⟨s, by simp [exec, hk], h⟩
  | some cfg => exact ⟨_, by simp [exec, hk], h.bind (h.sees cfg (List.mem_of_getElem? hk))⟩

/-- A live binding is counted, so that dropping it does not underflow. -/
lemma Inv.drop (h : Inv last s) (k : ℕ) : ∃ s', s.exec (.drop k) = some s' ∧ Inv last s' := by
  cases hk : s.live[k]? with
  | none => exact ⟨s, by simp [exec, hk], h⟩
  | some cfg =>
    have hlt : k < s.live.length := (List.getElem?_eq_some_iff.mp hk).1
    have hcount : s.holder.inUseCount ≠ 0 := by
      rw [h.count]
      omega
    have hdrop : s.holder.dropBinding =
        some (ActiveConfig.tryPromote { s.holder with inUseCount := s.holder.inUseCount - 1 }) :=
      if_neg hcount
    refine ⟨⟨_, s.live.eraseIdx k⟩, by simp only [exec, hk, hdrop]; rfl, ?_⟩
    apply inv_tryPromote
    · show s.holder.inUseCount - 1 = _
      rw [h.count, List.length_eraseIdx_of_lt hlt]
    · intro cfg' hmem
      exact h.sees cfg' (List.mem_of_mem_eraseIdx hmem)
    · intro hset
      exact (h.waiting hset).2
    · exact h.settled

lemma Inv.setPending (h : Inv last s) (cfg : Option T) :
    ∃ s', s.exec (.setPending cfg) = some s' ∧ Inv cfg s' := by
  refine ⟨_, rfl, ?_⟩
  apply inv_tryPromote
  · exact h.count
  · exact h.sees
  · intro _
    rfl
  · intro hfalse
    cases hfalse

/-- The invariant along a run. -/
lemma run_inv (ops : List (ConfigOp T)) : ∃ s, run ops = some s ∧ Inv (lastSet ops) s := by
  induction ops using List.reverseRecOn with
  | nil => exact ⟨_, rfl, rfl, by simp, by simp [ActiveConfig.new], fun _ => ⟨rfl, rfl⟩⟩
  | append_singleton ops op ih =>
    obtain ⟨s, hrun, hinv⟩ := ih
    have hstep : run (ops ++ [op]) = s.exec op := by
      unfold run at hrun ⊢
      rw [List.foldlM_append, hrun]
      simp
    have hlast : lastSet (ops ++ [op]) = noteSet (lastSet ops) op := by simp [lastSet]
    rw [hstep, hlast]
    cases op with
    | acquire => exact hinv.acquire
    | clone k => exact hinv.clone k
    | drop k => exact hinv.drop k
    | setPending cfg => exact hinv.setPending cfg

/-- **The active configuration**, in every run: the count does not underflow and is the number of live
bindings, each of which sees the active configuration; a configuration waits only while there are live
bindings; and when the last one is dropped the active configuration is the one that was set last. -/
theorem run_active_config (ops : List (ConfigOp T)) : ∃ s, run ops = some s ∧
    s.holder.inUseCount = s.live.length ∧ (∀ cfg ∈ s.live, s.holder.active = some cfg) ∧
    (s.holder.pendingSet = true ∨ s.holder.pending ≠ none → s.live ≠ []) ∧
    (s.live = [] → s.holder.active = lastSet ops) := by
  obtain ⟨s, hrun, hinv⟩ := run_inv ops
  refine ⟨s, hrun, hinv.count, hinv.sees, ?_, ?_⟩
  · intro hwaits
    cases hset : s.holder.pendingSet with
    | true => exact (hinv.waiting hset).1
    | false => exact absurd (hinv.settled hset).2 (hwaits.resolve_left (by simp [hset]))
  · intro hnone
    cases hset : s.holder.pendingSet with
    | true => exact absurd hnone (hinv.waiting hset).1
    | false => exact (hinv.settled hset).1

end Bindings

end SensorLink.Sync
