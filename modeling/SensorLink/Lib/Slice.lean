import SensorLink.Lib.Bytes

/-!
Slices, arrays and loops as Rust runs them: an index or a range outside of a slice is a panic. A slice
that is taken out of a buffer, changed and put back is one block of it; the lemmas on blocks say how a
sequence of blocks of one length is read and written.
-/

namespace SensorLink.Lib

/-- How a function ends when it does not return its value -/
inductive Stop (ε : Type) where
  | err (e : ε)
  | panic
deriving DecidableEq

/-- A function that returns a `Result`, or panics -/
abbrev Attempt (ε : Type) := Except (Stop ε)

/-- `Result::map_err` -/
def Attempt.mapErr {ε δ α : Type} (f : ε → δ) : Attempt ε α → Attempt δ α
  | .ok a => .ok a
  | .error (.err e) => .error (.err (f e))
  | .error .panic => .error .panic

section Ops

variable {ε α : Type}

/-- `assert!` -/
def ensure (p : Prop) [Decidable p] : Attempt ε Unit := if p then .ok () else .error .panic

/-- `slice[lo..hi]` -/
def slice (l : List α) (lo hi : ℕ) : Attempt ε (List α) :=
  if lo ≤ hi ∧ hi ≤ l.length then .ok ((l.take hi).drop lo) else .error .panic

/-- `slice[lo..]` -/
def sliceFrom (l : List α) (lo : ℕ) : Attempt ε (List α) :=
  if lo ≤ l.length then .ok (l.drop lo) else .error .panic

/-- `slice.split_at(n)` -/
def splitAt (l : List α) (n : ℕ) : Attempt ε (List α × List α) :=
  if n ≤ l.length then .ok (l.take n, l.drop n) else .error .panic

/-- `slice[i]` -/
def index (l : List α) (i : ℕ) : Attempt ε α :=
  if h : i < l.length then .ok l[i] else .error .panic

/-- `slice[lo..hi].copy_from_slice(src)` -/
def copyFromSlice (l : List UInt8) (lo hi : ℕ) (src : List UInt8) : Attempt ε (List UInt8) :=
  if lo ≤ hi ∧ hi ≤ l.length ∧ src.length = hi - lo then .ok (copyInto l lo src)
  else .error .panic

/-- `array[i]` -/
def arrayGet {n : ℕ} (a : Fin n → α) (i : ℕ) : Attempt ε α :=
  if h : i < n then .ok (a ⟨i, h⟩) else .error .panic

/-- `array[i] = value` -/
def arraySet {n : ℕ} (a : Fin n → α) (i : ℕ) (value : α) : Attempt ε (Fin n → α) :=
  if i < n then .ok fun j => if j = i then value else a j else .error .panic

/-- `for i in 0..n`, with the variables that the body assigns -/
def forRange {σ : Type} (n : ℕ) (init : σ) (body : ℕ → σ → Attempt ε σ) : Attempt ε σ :=
  (List.range n).foldlM (fun s i => body i s) init

@[simp]
lemma ok_bind {β : Type} (a : α) (f : α → Attempt ε β) : (Except.ok a >>= f) = f a := rfl

@[simp]
lemma error_bind {β : Type} (e : Stop ε) (f : α → Attempt ε β) : (Except.error e >>= f) = .error e :=
  rfl

lemma ensure_pos {p : Prop} [Decidable p] (h : p) : (ensure p : Attempt ε Unit) = .ok () := if_pos h

lemma slice_ok {l : List α} {lo hi : ℕ} (h : lo ≤ hi) (h' : hi ≤ l.length) :
    (slice l lo hi : Attempt ε _) = .ok ((l.take hi).drop lo) := if_pos ⟨h, h'⟩

lemma sliceFrom_ok {l : List α} {lo : ℕ} (h : lo ≤ l.length) :
    (sliceFrom l lo : Attempt ε _) = .ok (l.drop lo) := if_pos h

lemma splitAt_ok {l : List α} {n : ℕ} (h : n ≤ l.length) :
    (splitAt l n : Attempt ε _) = .ok (l.take n, l.drop n) := if_pos h

lemma index_ok {l : List α} {i : ℕ} (h : i < l.length) : (index l i : Attempt ε _) = .ok l[i] :=
  dif_pos h

lemma copyFromSlice_ok {l src : List UInt8} {lo hi : ℕ} (h : hi ≤ l.length)
    (hsrc : lo + src.length = hi) :
    (copyFromSlice l lo hi src : Attempt ε _) = .ok (copyInto l lo src) := by
  unfold copyFromSlice
  rw [if_pos ⟨by omega, h, by omega⟩]

lemma arrayGet_ok {n i : ℕ} {a : Fin n → α} (h : i < n) :
    (arrayGet a i : Attempt ε _) = .ok (a ⟨i, h⟩) := dif_pos h

lemma arraySet_ok {n i : ℕ} {a : Fin n → α} (h : i < n) (value : α) :
    (arraySet a i value : Attempt ε _) = .ok fun j => if j = i then value else a j := if_pos h

section Loop

variable {σ : Type} {n : ℕ} {body : ℕ → σ → Attempt ε σ}

lemma forRange_succ (n : ℕ) (init : σ) (body : ℕ → σ → Attempt ε σ) :
    forRange (n + 1) init body = forRange n init body >>= body n := by
  unfold forRange
  rw [List.range_succ, List.foldlM_append]
  refine bind_congr fun s => ?_
  simp

/-- The loop runs to its end: `I i` are the variables after `i` rounds. -/
lemma forRange_ok (I : ℕ → σ) (h : ∀ i < n, body i (I i) = .ok (I (i + 1))) :
    forRange n (I 0) body = .ok (I n) := by
  induction n with
  | zero => rfl
  | succ n ih =>
    rw [forRange_succ, ih fun i hi => h i (by omega)]
    exact h n (by omega)

/-- A loop that checks in each round: it ends with the error iff a round is `bad`. -/
lemma forRange_check (I : ℕ → σ) (bad : ℕ → Bool) {e : Stop ε}
    (h : ∀ i < n, body i (I i) = if bad i then .error e else .ok (I (i + 1))) :
    forRange n (I 0) body = if (List.range n).any bad then .error e else .ok (I n) := by
  induction n with
  | zero => rfl
  | succ n ih =>
    rw [forRange_succ, ih fun i hi => h i (by omega), List.range_succ, List.any_append]
    by_cases hbad : (List.range n).any bad
    · simp [hbad]
    · simp only [hbad, Bool.false_eq_true, if_false, ok_bind, h n (by omega)]
      simp

end Loop

section Fill

variable {m n : ℕ} {f g : Fin m → α} {body : ℕ → (Fin m → α) → Attempt ε (Fin m → α)}

/-- A loop that fills the first `n` places of an array that starts as `g`. -/
lemma forRange_fill_check (hn : n ≤ m) (bad : ℕ → Bool) {e : Stop ε}
    (h : ∀ (i : Fin m) (a : Fin m → α), i < n → a i = g i →
      body i a = if bad i then .error e else arraySet a i (f i)) :
    forRange n g body = if (List.range n).any bad then .error e
      else .ok fun j => if j < n then f j else g j := by
  -- the array after `i` rounds
  let I (i : ℕ) (j : Fin m) : α := if j < i then f j else g j
  have hzero : I 0 = g := by simp [I]
  conv_lhs => rw [← hzero]
  refine forRange_check I bad fun i hi => ?_
  have him : i < m := hi.trans_le hn
  have hcur : I i ⟨i, him⟩ = g ⟨i, him⟩ := if_neg (lt_irrefl i)
  rw [h ⟨i, him⟩ (I i) hi hcur]
  split
  · rfl
  rw [arraySet_ok him]
  congr 1
  funext j
  simp only [I]
  by_cases hj : (j : ℕ) = i
  · obtain rfl : j = ⟨i, him⟩ := Fin.ext hj
    simp
  · rw [if_neg hj]
    simp only [show (j : ℕ) < i + 1 ↔ (j : ℕ) < i by omega]

lemma forRange_fill (hn : n ≤ m)
    (h : ∀ (i : Fin m) (a : Fin m → α), i < n → a i = g i → body i a = arraySet a i (f i)) :
    forRange n g body = .ok fun j => if j < n then f j else g j := by
  have hfill := forRange_fill_check (e := .panic) hn (fun _ => false) (by simpa using h)
  simpa using hfill

/-- A loop over all places of an array. -/
lemma forRange_fill_all_check (bad : ℕ → Bool) {e : Stop ε}
    (h : ∀ (i : Fin m) (a : Fin m → α), a i = g i →
      body i a = if bad i then .error e else arraySet a i (f i)) :
    forRange m g body = if (List.range m).any bad then .error e else .ok f := by
  have hfill := forRange_fill_check le_rfl bad fun i a _ => h i a
  simpa using hfill

lemma forRange_fill_all
    (h : ∀ (i : Fin m) (a : Fin m → α), a i = g i → body i a = arraySet a i (f i)) :
    forRange m g body = .ok f := by
  have hfill := forRange_fill le_rfl fun i a _ => h i a
  simpa using hfill

end Fill

end Ops

/-! ### Vectors of a fixed capacity -/

/-- `heapless::Vec<T, N>` -/
structure HVec (α : Type) (cap : ℕ) where
  toList : List α
  length_le : toList.length ≤ cap

namespace HVec

variable {α : Type} {cap : ℕ}

instance [DecidableEq α] : DecidableEq (HVec α cap) := fun v w =>
  decidable_of_iff (v.toList = w.toList) (by cases v; cases w; simp)

/-- `Vec::new` -/
def empty : HVec α cap := ⟨[], Nat.zero_le cap⟩

/-- `Vec::len` -/
def len (v : HVec α cap) : ℕ := v.toList.length

/-- `Vec::extend_from_slice`: nothing is added when the slice does not fit. -/
def extendFromSlice (v : HVec α cap) (l : List α) : Option (HVec α cap) :=
  if h : (v.toList ++ l).length ≤ cap then some ⟨v.toList ++ l, h⟩ else none

/-- `Vec::push` -/
def push (v : HVec α cap) (a : α) : Option (HVec α cap) := v.extendFromSlice [a]

@[simp]
lemma toList_empty : (empty : HVec α cap).toList = [] := rfl

@[ext]
lemma ext {v w : HVec α cap} (h : v.toList = w.toList) : v = w := by
  cases v
  cases w
  simpa using h

lemma extendFromSlice_eq_some {v w : HVec α cap} {l : List α} :
    v.extendFromSlice l = some w ↔ w.toList = v.toList ++ l := by
  unfold extendFromSlice
  constructor
  · intro h
    split at h
    · cases h
      rfl
    · cases h
  · intro h
    rw [dif_pos (h ▸ w.length_le), Option.some.injEq]
    ext1
    exact h.symm

end HVec

/-! ### Blocks of one length -/

section Blocks

variable {α : Type} {k : ℕ}

lemma length_flatMap_range (m : ℕ) {f : ℕ → List α} (hf : ∀ i < m, (f i).length = k) :
    ((List.range m).flatMap f).length = m * k := by
  induction m with
  | zero => simp
  | succ m ih =>
    rw [List.range_succ, List.flatMap_append, List.length_append, ih fun i hi => hf i (by omega)]
    simp [hf m (by omega), Nat.succ_mul]

/-- Block `i` of a sequence of blocks. -/
lemma take_drop_flatMap_range {m i : ℕ} {f : ℕ → List α} (hf : ∀ j < m, (f j).length = k)
    (hi : i < m) (rest : List α) :
    (((List.range m).flatMap f ++ rest).drop (i * k)).take k = f i := by
  induction m generalizing rest with
  | zero => omega
  | succ m ih =>
    have hfm : ∀ j < m, (f j).length = k := fun j hj => hf j (by omega)
    have hlen := length_flatMap_range m hfm
    rw [List.range_succ, List.flatMap_append, List.append_assoc]
    by_cases him : i < m
    · exact ih hfm him _
    · obtain rfl : i = m := by omega
      rw [List.drop_append_of_le_length (by omega), List.drop_of_length_le (by omega)]
      have hfi : (f i).length = k := hf i (by omega)
      simp [hfi]

/-- The first `m` blocks of a list, one after another. -/
lemma flatMap_range_take_drop (m : ℕ) {l : List α} (hl : m * k ≤ l.length) :
    (List.range m).flatMap (fun i => (l.drop (i * k)).take k) = l.take (m * k) := by
  induction m with
  | zero => simp
  | succ m ih =>
    rw [Nat.succ_mul] at hl ⊢
    rw [List.range_succ, List.flatMap_append, ih (by omega), List.take_add]
    simp

lemma take_two_drop {l : List α} {i : ℕ} (h : i + 1 < l.length) :
    (l.drop i).take 2 = [l[i], l[i + 1]] := by
  rw [List.drop_eq_getElem_cons (by omega), List.drop_eq_getElem_cons h]
  rfl

/-- A block that is copied behind `i` blocks is the next one. -/
lemma copyInto_flatMap_range {i : ℕ} {f : ℕ → List UInt8} {l : List UInt8}
    (hf : ∀ j ≤ i, (f j).length = k) :
    copyInto ((List.range i).flatMap f ++ l.drop (i * k)) (i * k) (f i) =
      (List.range (i + 1)).flatMap f ++ l.drop ((i + 1) * k) := by
  have hlen := length_flatMap_range i fun j hj => hf j (by omega)
  have hfi : (f i).length = k := hf i le_rfl
  have htake : ((List.range i).flatMap f ++ l.drop (i * k)).take (i * k) =
      (List.range i).flatMap f := by
    rw [← hlen, List.take_left]
  have hdrop : ((List.range i).flatMap f ++ l.drop (i * k)).drop (i * k + k) =
      l.drop ((i + 1) * k) := by
    rw [← List.drop_drop, ← hlen, List.drop_left, hlen, List.drop_drop, ← Nat.succ_mul]
  rw [copyInto, hfi, htake, hdrop, List.range_succ, List.flatMap_append]
  simp

end Blocks

end SensorLink.Lib
