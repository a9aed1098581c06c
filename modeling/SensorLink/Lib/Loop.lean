import Mathlib.Tactic.Common

/-!
Loops given by their body: one turn stops with a result, or goes on with the next state. A loop that
ends does so after finitely many turns. An invariant under which every turn goes on is a loop for ever.
-/

namespace SensorLink.Lib

variable {σ ρ : Type*}

inductive Turn (ρ σ : Type*)
  | stop (result : ρ)
  | again (next : σ)

/-- The loop of `body` ends from this state on. -/
inductive Ends (body : σ → Turn ρ σ) : σ → Prop
  | stop {s : σ} {r : ρ} : body s = .stop r → Ends body s
  | again {s s' : σ} : body s = .again s' → Ends body s' → Ends body s

namespace Ends

variable {body : σ → Turn ρ σ} {s s' : σ}

/-- **Running for ever.** -/
theorem not_of_invariant {I : σ → Prop} (hstep : ∀ s, I s → ∃ s', body s = .again s' ∧ I s')
    (hs : I s) : ¬ Ends body s := by
  intro hends
  induction hends with
  | stop hstop =>
    obtain ⟨s', hagain, -⟩ := hstep _ hs
    rw [hstop] at hagain
    cases hagain
  | again hnext _ ih =>
    obtain ⟨s', hagain, hs'⟩ := hstep _ hs
    rw [hnext] at hagain
    cases hagain
    exact ih hs'

/-- **Ending by a bound**: what is left of it shrinks in every turn that goes on. -/
theorem of_bound {I : σ → Prop} (left : σ → ℕ)
    (hstep : ∀ s s', I s → body s = .again s' → I s' ∧ left s' < left s) (hs : I s) : Ends body s := by
  obtain ⟨n, hn⟩ : ∃ n, left s < n := ⟨left s + 1, Nat.lt_succ_self _⟩
  induction n generalizing s with
  | zero => omega
  | succ n ih =>
    cases hbody : body s with
    | stop r => exact .stop hbody
    | again s' =>
      obtain ⟨hs', hless⟩ := hstep s s' hs hbody
      exact .again hbody (ih hs' (by omega))

end Ends

end SensorLink.Lib
