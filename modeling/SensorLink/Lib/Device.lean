import Mathlib.Tactic.Common

/-!
Programs on a device whose operations may fail and which may lose power at any of them. A device has a
memory and the fates of the operations to come: a list for the reads, where true is a failed read, and
a list for the operations that change the memory. A device without further fates works; the default
fate is that of an operation that is carried out.

A program ends with a result, with an error, or with the power off; what comes after a power loss does
not run, while an error can be handled. A panic ends a program in the same way as a power loss. `Dev.wp`
is the weakest precondition over all fates that the faults `F` admit, with a postcondition for each of
the three ends, and its rules follow the program.
`Dev.CanCut` is its counterpart for the loss of power: the memory that it can leave.
-/

namespace SensorLink.Lib

structure Device (σ φ : Type) where
  mem : σ
  plan : List φ
  readPlan : List Bool

/-- How a program ends. -/
inductive Outcome (s ε α : Type)
  | ok (a : α) (dev : s)
  | err (e : ε) (dev : s)
  | off (dev : s)

/-- The device that is left. -/
def Outcome.dev {s ε α : Type} : Outcome s ε α → s
  | ok _ d => d
  | err _ d => d
  | off d => d

def Outcome.isOff {s ε α : Type} : Outcome s ε α → Bool
  | ok _ _ => false
  | err _ _ => false
  | off _ => true

lemma Outcome.eq_off {s ε α : Type} {o : Outcome s ε α} (h : o.isOff = true) : o = .off o.dev := by
  cases o with
  | ok a d => cases h
  | err e d => cases h
  | off d => rfl

def Outcome.map {s s' ε α : Type} (f : s → s') : Outcome s ε α → Outcome s' ε α
  | ok a d => ok a (f d)
  | err e d => err e (f d)
  | off d => off (f d)

variable {σ φ ε ε' α β : Type} [Inhabited φ]

/-- A device with memory `m` that works. -/
def Device.working (m : σ) : Device σ φ := ⟨m, [], []⟩

/-- What is left of a working device works, and the program runs in the same way on a device that only
fails later. -/
structure Regular (run : Device σ φ → Outcome (Device σ φ) ε α) : Prop where
  working : ∀ m, (run (.working m)).dev = .working (run (.working m)).dev.mem
  later : ∀ m, ∃ n, ∀ plan, run ⟨m, List.replicate n default ++ plan, []⟩ =
    (run (.working m)).map fun d => { d with plan := plan }

/-- A program with errors `ε` and result `α`. -/
structure Dev (σ φ : Type) [Inhabited φ] (ε α : Type) where
  run : Device σ φ → Outcome (Device σ φ) ε α
  regular : Regular run

namespace Dev

/-- How to go on after a program. -/
def andThen (o : Outcome (Device σ φ) ε α) (ok : α → Device σ φ → Outcome (Device σ φ) ε' β)
    (err : ε → Device σ φ → Outcome (Device σ φ) ε' β) : Outcome (Device σ φ) ε' β :=
  match o with
  | .ok a d => ok a d
  | .err e d => err e d
  | .off d => .off d

lemma regular_andThen {p : Device σ φ → Outcome (Device σ φ) ε α}
    {ok : α → Device σ φ → Outcome (Device σ φ) ε' β}
    {err : ε → Device σ φ → Outcome (Device σ φ) ε' β} (hp : Regular p) (hok : ∀ a, Regular (ok a))
    (herr : ∀ e, Regular (err e)) : Regular fun d => andThen (p d) ok err := by
  constructor
  · intro m
    have hw := hp.working m
    cases ho : p (.working m) with
    | ok a d =>
      rw [ho] at hw
      simp only [andThen, Outcome.dev] at hw ⊢
      rw [hw]
      exact (hok a).working d.mem
    | err e d =>
      rw [ho] at hw
      simp only [andThen, Outcome.dev] at hw ⊢
      rw [hw]
      exact (herr e).working d.mem
    | off d =>
      rw [ho] at hw
      exact hw
  · intro m
    obtain ⟨n, hn⟩ := hp.later m
    have hw := hp.working m
    cases ho : p (.working m) with
    | ok a d =>
      rw [ho] at hw hn
      obtain ⟨k, hk⟩ := (hok a).later d.mem
      refine ⟨n + k, fun plan => ?_⟩
      rw [← List.replicate_append_replicate, List.append_assoc, hn]
      simp only [Outcome.dev] at hw
      rw [hw]
      exact hk plan
    | err e d =>
      rw [ho] at hw hn
      obtain ⟨k, hk⟩ := (herr e).later d.mem
      refine ⟨n + k, fun plan => ?_⟩
      rw [← List.replicate_append_replicate, List.append_assoc, hn]
      simp only [Outcome.dev] at hw
      rw [hw]
      exact hk plan
    | off d =>
      rw [ho] at hn
      exact ⟨n, fun plan => by rw [hn]; rfl⟩

lemma regular_ok (a : α) : Regular fun d : Device σ φ => (.ok a d : Outcome (Device σ φ) ε α) :=
  ⟨fun _ => rfl, fun _ => ⟨0, fun _ => rfl⟩⟩

lemma regular_err (e : ε) : Regular fun d : Device σ φ => (.err e d : Outcome (Device σ φ) ε α) :=
  ⟨fun _ => rfl, fun _ => ⟨0, fun _ => rfl⟩⟩

instance : Monad (Dev σ φ ε) where
  pure a := ⟨fun d => .ok a d, regular_ok a⟩
  bind p k := ⟨fun d => andThen (p.run d) (fun a => (k a).run) (fun e d => .err e d),
    regular_andThen p.regular (fun a => (k a).regular) regular_err⟩

def throw (e : ε) : Dev σ φ ε α := ⟨fun d => .err e d, regular_err e⟩

/-- The result with its error, for a program that goes on in either case. -/
def attempt (p : Dev σ φ ε α) : Dev σ φ ε' (Except ε α) :=
  ⟨fun d => andThen (p.run d) (fun a d => .ok (.ok a) d) (fun e d => .ok (.error e) d),
    regular_andThen p.regular (fun _ => regular_ok _) (fun _ => regular_ok _)⟩

def mapErr (f : ε → ε') (p : Dev σ φ ε α) : Dev σ φ ε' α :=
  ⟨fun d => andThen (p.run d) (fun a d => .ok a d) (fun e d => .err (f e) d),
    regular_andThen p.regular regular_ok (fun _ => regular_err _)⟩

/-- The end of a read with the given result. -/
def ofExcept (d : Device σ φ) : Except ε α → Outcome (Device σ φ) ε α
  | .ok a => .ok a d
  | .error e => .err e d

/-- An operation that reads the memory, and gives the error `fault` when its fate is to fail. -/
def read (fault : ε) (f : σ → Except ε α) : Dev σ φ ε α where
  run d :=
    match d.readPlan with
    | [] => ofExcept d (f d.mem)
    | true :: fates => .err fault { d with readPlan := fates }
    | false :: fates => ofExcept { d with readPlan := fates } (f d.mem)
  regular := by
    constructor
    · intro m
      simp only [Device.working]
      cases f m <;> rfl
    · refine fun m => ⟨0, fun plan => ?_⟩
      simp only [Device.working, List.replicate_zero, List.nil_append]
      cases f m <;> rfl

/-- An operation that changes the memory as its fate says. -/
def act (f : φ → σ → Outcome σ ε α) : Dev σ φ ε α where
  run d := (f (d.plan.headD default) d.mem).map fun m => { d with mem := m, plan := d.plan.tail }
  regular := by
    constructor
    · intro m
      simp only [Device.working, List.headD_nil, List.tail_nil]
      cases f default m <;> rfl
    · refine fun m => ⟨1, fun plan => ?_⟩
      simp only [Device.working, List.replicate_one, List.singleton_append, List.headD_cons,
        List.tail_cons, List.headD_nil, List.tail_nil]
      cases f default m <;> rfl

/-- A step of the program itself, which has no fate. -/
def update (f : σ → Outcome σ ε α) : Dev σ φ ε α where
  run d := (f d.mem).map fun m => { d with mem := m }
  regular := by
    constructor
    · intro m
      simp only [Device.working]
      cases f m <;> rfl
    · refine fun m => ⟨0, fun plan => ?_⟩
      simp only [Device.working, List.replicate_zero, List.nil_append]
      cases f m <;> rfl

end Dev

/-! ### One run -/

namespace Dev

variable {p : Dev σ φ ε α} {d d' : Device σ φ}

lemma run_bind_ok {a : α} (h : p.run d = .ok a d') (k : α → Dev σ φ ε β) :
    (p >>= k).run d = (k a).run d' := by
  simp only [Bind.bind, h, andThen]

lemma run_bind_err {e : ε} (h : p.run d = .err e d') (k : α → Dev σ φ ε β) :
    (p >>= k).run d = .err e d' := by
  simp only [Bind.bind, h, andThen]

lemma run_attempt_ok {a : α} (h : p.run d = .ok a d') :
    (attempt p : Dev σ φ ε' _).run d = .ok (.ok a) d' := by
  simp only [attempt, h, andThen]

lemma run_attempt_err {e : ε} (h : p.run d = .err e d') :
    (attempt p : Dev σ φ ε' _).run d = .ok (.error e) d' := by
  simp only [attempt, h, andThen]

end Dev

/-! ### Weakest preconditions -/

/-- The faults that a device may have: fates of the changing operations, and whether reads may fail. -/
structure Faults (φ : Type) where
  fate : φ → Prop
  reads : Prop

/-- The fates to come are among `F`. -/
structure Device.Within (F : Faults φ) (d : Device σ φ) : Prop where
  plan : ∀ x ∈ d.plan, F.fate x
  readPlan : ¬ F.reads → d.readPlan = []

/-- Whatever faults of `F` the program meets from the memory `m` on, it ends with a result in `Q`, with
an error in `E` or without power in `O`. -/
def Dev.wp (F : Faults φ) (p : Dev σ φ ε α) (Q : α → σ → Prop) (E : ε → σ → Prop) (O : σ → Prop)
    (m : σ) : Prop :=
  ∀ d : Device σ φ, d.mem = m → d.Within F →
    match p.run d with
    | .ok a d' => d'.Within F ∧ Q a d'.mem
    | .err e d' => d'.Within F ∧ E e d'.mem
    | .off d' => O d'.mem

namespace Dev

variable {F : Faults φ} {Q Q' : α → σ → Prop} {E E' : ε → σ → Prop} {O O' : σ → Prop} {m : σ}

theorem wp_pure {a : α} (h : Q a m) : wp F (pure a : Dev σ φ ε α) Q E O m := by
  rintro d rfl hd
  exact ⟨hd, h⟩

theorem wp_throw {e : ε} (h : E e m) : wp F (throw e : Dev σ φ ε α) Q E O m := by
  rintro d rfl hd
  exact ⟨hd, h⟩

theorem wp_bind {p : Dev σ φ ε α} {k : α → Dev σ φ ε β} {Q : β → σ → Prop}
    (h : wp F p (fun a => wp F (k a) Q E O) E O m) : wp F (p >>= k) Q E O m := by
  intro d hm hd
  have hp := h d hm hd
  simp only [Bind.bind]
  revert hp
  cases p.run d with
  | ok a d' => exact fun hp => hp.2 d' rfl hp.1
  | err e d' => exact id
  | off d' => exact id

theorem wp_attempt {p : Dev σ φ ε α} {Q : Except ε α → σ → Prop} {E : ε' → σ → Prop}
    (h : wp F p (fun a => Q (.ok a)) (fun e => Q (.error e)) O m) : wp F (attempt p) Q E O m := by
  intro d hm hd
  have hp := h d hm hd
  simp only [attempt]
  revert hp
  cases p.run d <;> exact id

theorem wp_mapErr {p : Dev σ φ ε α} {f : ε → ε'} {E : ε' → σ → Prop}
    (h : wp F p Q (fun e => E (f e)) O m) : wp F (mapErr f p) Q E O m := by
  intro d hm hd
  have hp := h d hm hd
  simp only [mapErr]
  revert hp
  cases p.run d <;> exact id

theorem wp_mono {p : Dev σ φ ε α} (h : wp F p Q E O m) (hQ : ∀ a m, Q a m → Q' a m)
    (hE : ∀ e m, E e m → E' e m) (hO : ∀ m, O m → O' m) : wp F p Q' E' O' m := by
  intro d hm hd
  have hp := h d hm hd
  revert hp
  cases p.run d with
  | ok a d' => exact fun hp => ⟨hp.1, hQ _ _ hp.2⟩
  | err e d' => exact fun hp => ⟨hp.1, hE _ _ hp.2⟩
  | off d' => exact hO _

/-- What is known of the first program is all that the second one needs. -/
theorem wp_seq {p : Dev σ φ ε α} {k : α → Dev σ φ ε β} {R : α → σ → Prop} {Q : β → σ → Prop}
    (h : wp F p R E O m) (hk : ∀ a m', R a m' → wp F (k a) Q E O m') : wp F (p >>= k) Q E O m :=
  wp_bind (wp_mono h hk (fun _ _ => id) fun _ => id)

/-- A program that goes on after a result or after an error. -/
theorem wp_catch {p : Dev σ φ ε α} {k : Except ε α → Dev σ φ ε' β} {R : α → σ → Prop} {Q : β → σ → Prop}
    {E' : ε' → σ → Prop} (h : wp F p R E O m) (hok : ∀ a m', R a m' → wp F (k (.ok a)) Q E' O m')
    (herr : ∀ e m', E e m' → wp F (k (.error e)) Q E' O m') : wp F (attempt p >>= k) Q E' O m :=
  wp_bind (wp_attempt (wp_mono h hok herr fun _ => id))

theorem wp_read {fault : ε} {f : σ → Except ε α} (hfault : F.reads → E fault m)
    (h : match f m with | .ok a => Q a m | .error e => E e m) :
    wp F (read fault f) Q E O m := by
  rintro d rfl hd
  have hof : ∀ d' : Device σ φ, d'.mem = d.mem → d'.Within F → match ofExcept d' (f d.mem) with
      | .ok a d' => d'.Within F ∧ Q a d'.mem
      | .err e d' => d'.Within F ∧ E e d'.mem
      | .off d' => O d'.mem := by
    intro d' hm hd'
    cases hf : f d.mem <;> rw [hf] at h <;> exact ⟨hd', hm ▸ h⟩
  simp only [read]
  rcases hplan : d.readPlan with _ | ⟨fate, fates⟩
  · exact hof d rfl hd
  · have hreads : F.reads := by
      by_contra hc
      rw [hd.readPlan hc] at hplan
      cases hplan
    have hd' : Device.Within F { d with readPlan := fates } :=
      ⟨hd.plan, fun hc => absurd hreads hc⟩
    cases fate with
    | true => exact ⟨hd', hfault hreads⟩
    | false => exact hof { d with readPlan := fates } rfl hd'

theorem wp_act {f : φ → σ → Outcome σ ε α} (hgood : F.fate default)
    (h : ∀ x, F.fate x → match f x m with
      | .ok a m' => Q a m'
      | .err e m' => E e m'
      | .off m' => O m') :
    wp F (act f) Q E O m := by
  rintro d rfl hd
  have hfate : F.fate (d.plan.headD default) := by
    cases hplan : d.plan with
    | nil => exact hgood
    | cons x plan => exact hd.plan x (by rw [hplan]; exact List.mem_cons_self)
  have htail : ∀ x ∈ d.plan.tail, F.fate x := fun x hx => hd.plan x (List.mem_of_mem_tail hx)
  have hx := h _ hfate
  simp only [act]
  revert hx
  cases f (d.plan.headD default) d.mem with
  | ok a m' => exact fun hx => ⟨⟨htail, hd.readPlan⟩, hx⟩
  | err e m' => exact fun hx => ⟨⟨htail, hd.readPlan⟩, hx⟩
  | off m' => exact id

theorem wp_update {f : σ → Outcome σ ε α} (h : match f m with
      | .ok a m' => Q a m'
      | .err e m' => E e m'
      | .off m' => O m') : wp F (update f : Dev σ φ ε α) Q E O m := by
  rintro d rfl hd
  simp only [update]
  revert h
  cases f d.mem with
  | ok a m' => exact fun h => ⟨⟨hd.plan, hd.readPlan⟩, h⟩
  | err e m' => exact fun h => ⟨⟨hd.plan, hd.readPlan⟩, h⟩
  | off m' => exact id

/-! ### All faults -/

/-- Every fate, and reads that may fail. -/
def allFaults (φ : Type) : Faults φ := ⟨fun _ => True, True⟩

omit [Inhabited φ] in
lemma within_allFaults (d : Device σ φ) : d.Within (allFaults φ) :=
  ⟨fun _ _ => trivial, fun hc => absurd trivial hc⟩

/-- A program of which nothing is known. -/
theorem wp_allFaults {p : Dev σ φ ε α} (hQ : ∀ a m, Q a m) (hE : ∀ e m, E e m) (hO : ∀ m, O m) :
    wp (allFaults φ) p Q E O m := by
  intro d _ _
  cases p.run d with
  | ok a d' => exact ⟨within_allFaults d', hQ a _⟩
  | err e d' => exact ⟨within_allFaults d', hE e _⟩
  | off d' => exact hO _

/-- The result of a run, whatever faults it met. -/
theorem wp_run {p : Dev σ φ ε α} {d d' : Device σ φ} {a : α} (h : wp (allFaults φ) p Q E O d.mem)
    (hrun : p.run d = .ok a d') : Q a d'.mem := by
  have hp := h d rfl (within_allFaults d)
  rw [hrun] at hp
  exact hp.2

/-! ### Runs without faults, and where they can be cut -/

/-- The end of the program on a working device. -/
def eval (p : Dev σ φ ε α) (m : σ) : Outcome σ ε α := (p.run (.working m)).map Device.mem

/-- What holds for all faults holds without one. -/
lemma wp_eval {p : Dev σ φ ε α} (h : wp F p Q E O m) : match p.eval m with
    | .ok a m' => Q a m'
    | .err e m' => E e m'
    | .off m' => O m' := by
  have hp := h (.working m) rfl ⟨fun _ hx => absurd hx List.not_mem_nil, fun _ => rfl⟩
  simp only [eval]
  revert hp
  cases p.run (.working m) with
  | ok a d' => exact And.right
  | err e d' => exact And.right
  | off d' => exact id

/-- A program that cannot fail ends with its result. -/
lemma exists_eval {p : Dev σ φ ε α} (h : wp F p Q (fun _ _ => False) (fun _ => False) m) :
    ∃ a m', p.eval m = .ok a m' ∧ Q a m' := by
  have heval := wp_eval h
  revert heval
  cases p.eval m with
  | ok a m' => exact fun hq => ⟨a, m', rfl, hq⟩
  | err e m' => exact False.elim
  | off m' => exact False.elim

/-- Losing power in the program can leave the memory `m'`. -/
def CanCut (F : Faults φ) (p : Dev σ φ ε α) (m m' : σ) : Prop :=
  ∃ plan : List φ, (∀ x ∈ plan, F.fate x) ∧ ∃ d, p.run ⟨m, plan, []⟩ = .off d ∧ d.mem = m'

lemma CanCut.of_wp {p : Dev σ φ ε α} {m' : σ} (h : wp F p Q E O m) (hcut : CanCut F p m m') :
    O m' := by
  obtain ⟨plan, hplan, d, hrun, rfl⟩ := hcut
  have hp := h ⟨m, plan, []⟩ rfl ⟨hplan, fun _ => rfl⟩
  rw [hrun] at hp
  exact hp

lemma CanCut.bind_left {p : Dev σ φ ε α} {k : α → Dev σ φ ε β} {m' : σ} (h : CanCut F p m m') :
    CanCut F (p >>= k) m m' := by
  obtain ⟨plan, hplan, d, hrun, hmem⟩ := h
  refine ⟨plan, hplan, d, ?_, hmem⟩
  simp only [Bind.bind, hrun, andThen]

/-- The power may also go when the first program has ended. -/
lemma CanCut.bind_right {p : Dev σ φ ε α} {k : α → Dev σ φ ε β} {m₁ m' : σ} {a : α}
    (hgood : F.fate default) (hp : p.eval m = .ok a m₁) (h : CanCut F (k a) m₁ m') :
    CanCut F (p >>= k) m m' := by
  obtain ⟨plan, hplan, d, hrun, hmem⟩ := h
  obtain ⟨n, hn⟩ := p.regular.later m
  have hw := p.regular.working m
  refine ⟨List.replicate n default ++ plan, ?_, d, ?_, hmem⟩
  · intro x hx
    rcases List.mem_append.mp hx with hx | hx
    · rw [List.eq_of_mem_replicate hx]
      exact hgood
    · exact hplan x hx
  · simp only [eval] at hp
    simp only [Bind.bind, hn]
    revert hp hw
    cases p.run (.working m) with
    | ok a' d' =>
      intro hp hw
      simp only [Outcome.map, Outcome.ok.injEq] at hp
      obtain ⟨rfl, rfl⟩ := hp
      simp only [Outcome.dev] at hw
      rw [hw]
      exact hrun
    | err e d' => exact fun hp _ => by cases hp
    | off d' => exact fun hp _ => by cases hp

lemma CanCut.mapErr {p : Dev σ φ ε α} {f : ε → ε'} {m' : σ} (h : CanCut F p m m') :
    CanCut F (mapErr f p) m m' := by
  obtain ⟨plan, hplan, d, hrun, hmem⟩ := h
  refine ⟨plan, hplan, d, ?_, hmem⟩
  simp only [Dev.mapErr, hrun, andThen]

lemma CanCut.attempt {p : Dev σ φ ε α} {m' : σ} (h : CanCut F p m m') :
    CanCut F (attempt p : Dev σ φ ε' (Except ε α)) m m' := by
  obtain ⟨plan, hplan, d, hrun, hmem⟩ := h
  refine ⟨plan, hplan, d, ?_, hmem⟩
  simp only [Dev.attempt, hrun, andThen]

/-! ### Programs that only read -/

/-- The program does not use the fates of the operations that change the memory. -/
def ReadOnly (p : Dev σ φ ε α) : Prop :=
  ∀ m plan, p.run ⟨m, plan, []⟩ = (p.run (.working m)).map fun d => { d with plan := plan }

lemma readOnly_pure (a : α) : ReadOnly (pure a : Dev σ φ ε α) := fun _ _ => rfl

lemma readOnly_throw (e : ε) : ReadOnly (throw e : Dev σ φ ε α) := fun _ _ => rfl

lemma ReadOnly.bind {p : Dev σ φ ε α} {k : α → Dev σ φ ε β} (hp : ReadOnly p)
    (hk : ∀ a, ReadOnly (k a)) : ReadOnly (p >>= k) := by
  intro m plan
  have hw := p.regular.working m
  simp only [Bind.bind, hp m plan]
  revert hw
  cases p.run (.working m) with
  | ok a d =>
    intro hw
    simp only [Outcome.dev] at hw
    rw [hw]
    exact hk a d.mem plan
  | err e d => exact fun _ => rfl
  | off d => exact fun _ => rfl

lemma ReadOnly.attempt {p : Dev σ φ ε α} (hp : ReadOnly p) :
    ReadOnly (attempt p : Dev σ φ ε' (Except ε α)) := by
  intro m plan
  simp only [Dev.attempt, hp m plan]
  cases p.run (.working m) <;> rfl

lemma ReadOnly.mapErr {p : Dev σ φ ε α} (hp : ReadOnly p) (f : ε → ε') : ReadOnly (mapErr f p) := by
  intro m plan
  simp only [Dev.mapErr, hp m plan]
  cases p.run (.working m) <;> rfl

lemma readOnly_read (fault : ε) (f : σ → Except ε α) : ReadOnly (read fault f : Dev σ φ ε α) := by
  intro m plan
  simp only [Dev.read, Device.working]
  cases f m <;> rfl

/-- The program runs as on a working device, whatever fates are to come. -/
lemma ReadOnly.run {p : Dev σ φ ε α} (hp : ReadOnly p) {a : α} {m' : σ} (heval : p.eval m = .ok a m')
    (plan : List φ) : p.run ⟨m, plan, []⟩ = .ok a ⟨m', plan, []⟩ := by
  have hw := p.regular.working m
  rw [hp m plan]
  simp only [eval] at heval
  revert heval hw
  cases p.run (.working m) with
  | ok a' d =>
    intro heval hw
    simp only [Outcome.map, Outcome.ok.injEq] at heval
    obtain ⟨rfl, rfl⟩ := heval
    simp only [Outcome.dev] at hw
    rw [hw]
    rfl
  | err e d => exact fun heval _ => by cases heval
  | off d => exact fun heval _ => by cases heval

end Dev

end SensorLink.Lib
