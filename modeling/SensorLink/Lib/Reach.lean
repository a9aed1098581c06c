import Mathlib.Tactic.Common

/-!
Reachable states of a system that runs one operation after the other, where each operation may only
be run in a state that meets a guard. What holds at the start and is kept by every guarded operation
holds in every reachable state.
-/

namespace SensorLink.Lib

variable {σ α : Type*}

/-- `s` is reached from `init` by operations that each met the guard `G` before they ran. -/
inductive Reach (exec : σ → α → σ) (G : σ → α → Prop) (init : σ) : σ → Prop
  | start : Reach exec G init init
  | step {s : σ} (op : α) : Reach exec G init s → G s op → Reach exec G init (exec s op)

namespace Reach

variable {exec : σ → α → σ} {G : σ → α → Prop} {init s : σ}

/-- **The invariant rule.** -/
theorem invariant {P : σ → Prop} (h : Reach exec G init s) (h0 : P init)
    (hstep : ∀ s op, P s → G s op → P (exec s op)) : P s := by
  induction h with
  | start => exact h0
  | step op _ hG ih => exact hstep _ op ih hG

/-- Each operation of the list meets the guard when its turn comes. -/
def Guarded (exec : σ → α → σ) (G : σ → α → Prop) : σ → List α → Prop
  | _, [] => True
  | s, op :: ops => G s op ∧ Guarded exec G (exec s op) ops

instance decidableGuarded [∀ s op, Decidable (G s op)] :
    ∀ (ops : List α) (s : σ), Decidable (Guarded exec G s ops)
  | [], _ => isTrue trivial
  | op :: ops, s => by
      haveI := decidableGuarded ops (exec s op)
      unfold Guarded
      infer_instance

/-- A guarded run ends in a reachable state. -/
theorem run (ops : List α) : ∀ {s : σ}, Reach exec G init s → Guarded exec G s ops →
    Reach exec G init (ops.foldl exec s) := by
  induction ops with
  | nil => intro s h _; exact h
  | cons op ops ih => intro s h hg; exact ih (.step op h hg.1) hg.2

end Reach

end SensorLink.Lib
