import Mathlib.Tactic.Common

/-!
Rules for programs in `EStateM`: what a program keeps of the state that it finds, whether it returns or
fails; what holds when it returns; what holds however it ends; and that it returns. Each is proved of a
program step by step.
-/

namespace SensorLink.Lib.Stateful

variable {ε σ α β : Type}

/-- The state that a run leaves -/
def after : EStateM.Result ε σ α → σ
  | .ok _ s => s
  | .error _ s => s

def Returns (o : EStateM.Result ε σ α) : Prop := ∃ a s, o = .ok a s

lemma not_returns_error (e : ε) (s : σ) : ¬Returns (.error e s : EStateM.Result ε σ α) := by
  rintro ⟨a, s', hok⟩
  cases hok

/-- How a sequence of two programs runs -/
lemma bind_cases (m : EStateM ε σ α) (f : α → EStateM ε σ β) (s : σ) :
    (∃ a s', m s = .ok a s' ∧ (m >>= f) s = f a s') ∨
      ∃ e s', m s = .error e s' ∧ (m >>= f) s = .error e s' := by
  change (∃ a s', _ ∧ EStateM.bind m f s = _) ∨ ∃ e s', _ ∧ EStateM.bind m f s = _
  unfold EStateM.bind
  cases m s with
  | ok a s' => exact .inl ⟨a, s', rfl, rfl⟩
  | error e s' => exact .inr ⟨e, s', rfl, rfl⟩

/-- Behind a program that returned -/
lemma bind_ok {m : EStateM ε σ α} {s s' : σ} {a : α} (hm : m s = .ok a s') (f : α → EStateM ε σ β) :
    (m >>= f) s = f a s' := by
  rcases bind_cases m f s with ⟨b, s₁, hrun, heq⟩ | ⟨e, s₁, hrun, -⟩
  · rw [hm] at hrun
    cases hrun
    exact heq
  · rw [hm] at hrun
    cases hrun

lemma bind_pure_spec (m : EStateM ε σ α) (b : β) (s : σ) :
    after ((m >>= fun _ => (pure b : EStateM ε σ β)) s) = after (m s) ∧
      (Returns ((m >>= fun _ => (pure b : EStateM ε σ β)) s) → Returns (m s)) := by
  rcases bind_cases m (fun _ => (pure b : EStateM ε σ β)) s with ⟨a, s', hrun, heq⟩ | ⟨e, s', hrun, heq⟩
  · rw [heq, hrun]
    exact ⟨rfl, fun _ => ⟨a, s', rfl⟩⟩
  · rw [heq, hrun]
    exact ⟨rfl, fun h => (not_returns_error e s' h).elim⟩

/-! ### What is kept -/

/-- What can be said of a run by saying it of its steps -/
structure Frame (R : σ → σ → Prop) : Prop where
  refl : ∀ s, R s s
  trans : ∀ {s s' s''}, R s s' → R s' s'' → R s s''

/-- A program relates the state that it finds to the one that it leaves. -/
def Keeps (R : σ → σ → Prop) (m : EStateM ε σ α) : Prop := ∀ s, R s (after (m s))

section Keeps

variable {R : σ → σ → Prop}

lemma Keeps.pure (hR : Frame R) (a : α) : Keeps R (pure a : EStateM ε σ α) := hR.refl

lemma Keeps.throw (hR : Frame R) (e : ε) : Keeps R (throw e : EStateM ε σ α) := hR.refl

lemma Keeps.get (hR : Frame R) : Keeps R (get : EStateM ε σ σ) := hR.refl

lemma Keeps.bind (hR : Frame R) {m : EStateM ε σ α} {f : α → EStateM ε σ β} (hm : Keeps R m)
    (hf : ∀ a, Keeps R (f a)) : Keeps R (m >>= f) := by
  intro s
  have hs := hm s
  rcases bind_cases m f s with ⟨a, s', hrun, heq⟩ | ⟨e, s', hrun, heq⟩
  · rw [hrun] at hs
    rw [heq]
    exact hR.trans hs (hf a s')
  · rw [hrun] at hs
    rw [heq]
    exact hs

lemma Keeps.mono {R' : σ → σ → Prop} (h : ∀ s s', R s s' → R' s s') {m : EStateM ε σ α} (hm : Keeps R m) :
    Keeps R' m := fun s => h s _ (hm s)

end Keeps

/-! ### What holds when a program returns -/

/-- What holds when a program returns, if it was started in a state with `P` -/
def Triple (P : σ → Prop) (m : EStateM ε σ α) (Q : α → σ → Prop) : Prop :=
  ∀ s, P s → ∀ a s', m s = .ok a s' → Q a s'

section Triple

variable {P : σ → Prop} {Q : α → σ → Prop}

lemma Triple.bind {m : EStateM ε σ α} {f : α → EStateM ε σ β} {Q' : β → σ → Prop} (hm : Triple P m Q)
    (hf : ∀ a, Triple (Q a) (f a) Q') : Triple P (m >>= f) Q' := by
  intro s hs b s'' h
  rcases bind_cases m f s with ⟨a, s', hrun, heq⟩ | ⟨e, s', -, heq⟩
  · rw [heq] at h
    exact hf a s' (hm s hs a s' hrun) b s'' h
  · rw [heq] at h
    cases h

lemma Triple.throw (e : ε) : Triple P (throw e : EStateM ε σ α) Q := by
  intro s _ a s' h
  cases h

lemma Triple.trivial (m : EStateM ε σ α) : Triple P m fun _ _ => True := fun _ _ _ _ _ => True.intro

end Triple

/-! ### However a program ends -/

/-- The state behind a return has `Q`, the one behind a failure `E`. -/
def EndsIn (Q E : σ → Prop) : EStateM.Result ε σ α → Prop
  | .ok _ s => Q s
  | .error _ s => E s

/-- Started in a state with `P`, a program returns in one with `Q` or fails in one with `E`. -/
def Ends (P : σ → Prop) (m : EStateM ε σ α) (Q E : σ → Prop) : Prop := ∀ s, P s → EndsIn Q E (m s)

section Ends

variable {P Q E : σ → Prop}

lemma Ends.ok {m : EStateM ε σ α} (hm : Ends P m Q E) {s s' : σ} {a : α} (hs : P s)
    (hrun : m s = .ok a s') : Q s' := by
  have hend := hm s hs
  rw [hrun] at hend
  exact hend

lemma Ends.bind {m : EStateM ε σ α} {f : α → EStateM ε σ β} {R : σ → Prop} (hm : Ends P m Q E)
    (hf : ∀ a, Ends Q (f a) R E) : Ends P (m >>= f) R E := by
  intro s hs
  have hend := hm s hs
  rcases bind_cases m f s with ⟨a, s', hrun, heq⟩ | ⟨e, s', hrun, heq⟩
  · rw [hrun] at hend
    rw [heq]
    exact hf a s' hend
  · rw [hrun] at hend
    rw [heq]
    exact hend

lemma Ends.pure (a : α) : Ends P (pure a : EStateM ε σ α) P E := fun _ hs => hs

lemma Ends.mono {P' Q' : σ → Prop} {m : EStateM ε σ α} (hm : Ends P m Q E) (hP : ∀ s, P' s → P s)
    (hQ : ∀ s, Q s → Q' s) : Ends P' m Q' E := by
  intro s hs
  have hend := hm s (hP s hs)
  cases hrun : m s with
  | ok a s' =>
    rw [hrun] at hend
    exact hQ s' hend
  | error e s' =>
    rw [hrun] at hend
    exact hend

lemma Ends.after {m : EStateM ε σ α} (hm : Ends P m Q Q) {s : σ} (hs : P s) : Q (after (m s)) := by
  have hend := hm s hs
  cases hrun : m s with
  | ok a s' =>
    rw [hrun] at hend
    exact hend
  | error e s' =>
    rw [hrun] at hend
    exact hend

end Ends

/-! ### Programs that return -/

/-- A program returns in every state, a value with `P`. -/
def Total (m : EStateM ε σ α) (P : α → Prop) : Prop := ∀ s, ∃ a s', m s = .ok a s' ∧ P a

section Total

variable {P : α → Prop}

lemma Total.pure {a : α} (h : P a) : Total (pure a : EStateM ε σ α) P := fun s => ⟨a, s, rfl, h⟩

lemma Total.get : Total (get : EStateM ε σ σ) fun _ => True := fun s => ⟨s, s, rfl, trivial⟩

lemma Total.modify (f : σ → σ) : Total (modify f : EStateM ε σ PUnit) fun _ => True :=
  fun s => ⟨⟨⟩, f s, rfl, trivial⟩

lemma Total.bind {m : EStateM ε σ α} {f : α → EStateM ε σ β} {Q : β → Prop} (hm : Total m P)
    (hf : ∀ a, P a → Total (f a) Q) : Total (m >>= f) Q := by
  intro s
  obtain ⟨a, s', hrun, ha⟩ := hm s
  obtain ⟨b, s'', hrun', hb⟩ := hf a ha s'
  exact ⟨b, s'', (bind_ok hrun f).trans hrun', hb⟩

lemma Total.returns {m : EStateM ε σ α} (hm : Total m P) (s : σ) : Returns (m s) := by
  obtain ⟨a, s', hrun, -⟩ := hm s
  exact ⟨a, s', hrun⟩

end Total

end SensorLink.Lib.Stateful
