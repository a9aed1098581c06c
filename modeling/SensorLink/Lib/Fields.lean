import SensorLink.Lib.Slice

/-!
Fields of a fixed size in a buffer. A writer fills the buffer with zeros, writes a field to the front
and goes on with the rest; a reader takes a field from the front. What is written to a field is what is
read from it, and a reader that checked the length of the buffer does not panic.
-/

namespace SensorLink.Lib

variable {ε α β : Type} {n : ℕ}

/-- A field of `n` bytes: what it holds, filled up with zeros -/
def padTo (n : ℕ) (bytes : List UInt8) : List UInt8 :=
  bytes ++ List.replicate (n - bytes.length) 0

lemma length_padTo {bytes : List UInt8} (h : bytes.length ≤ n) : (padTo n bytes).length = n := by
  simp only [padTo, List.length_append, List.length_replicate]
  omega

lemma padTo_of_length {bytes : List UInt8} (h : bytes.length = n) : padTo n bytes = bytes := by
  simp [padTo, h]

lemma takeWhile_zeros {bytes : List UInt8} (h : 0 ∉ bytes) (k : ℕ) :
    (bytes ++ List.replicate k 0).takeWhile (· != 0) = bytes := by
  have hall : ∀ b ∈ bytes, (b != 0) = true := fun b hb => bne_iff_ne.mpr fun hz => h (hz ▸ hb)
  rw [List.takeWhile_append_of_pos hall]
  cases k <;> simp [List.replicate_succ]

/-- The text of a field ends at the first zero. -/
lemma takeWhile_padTo {bytes : List UInt8} (h : 0 ∉ bytes) :
    (padTo n bytes).takeWhile (· != 0) = bytes := takeWhile_zeros h _

lemma takeWhile_take_padTo {m : ℕ} {bytes : List UInt8} (h : 0 ∉ bytes) (hm : bytes.length ≤ m) :
    ((padTo n bytes).take m).takeWhile (· != 0) = bytes := by
  rw [padTo, List.take_append, List.take_of_length_le hm, List.take_replicate, takeWhile_zeros h]

/-! ### Writing -/

/-- Bytes that are copied to the front of the zeros that are left -/
lemma copyFromSlice_zeros {k m : ℕ} {bytes : List UInt8} (hk : bytes.length = k) (hkn : k ≤ n)
    (hnm : n ≤ m) : (copyFromSlice (List.replicate m 0) 0 k bytes : Attempt ε _) =
      .ok (padTo n bytes ++ List.replicate (m - n) 0) := by
  subst hk
  rw [copyFromSlice_ok (by rw [List.length_replicate]; omega) (Nat.zero_add _), copyInto, padTo,
    List.append_assoc, List.append_assoc, List.replicate_append_replicate, List.drop_replicate]
  have hm : n - bytes.length + (m - n) = m - (0 + bytes.length) := by omega
  rw [hm, List.take_zero, List.nil_append]

/-! ### Reading -/

section Reading

variable {front rest : List α}

lemma splitAt_append (h : front.length = n) :
    (splitAt (front ++ rest) n : Attempt ε _) = .ok (front, rest) := by
  rw [splitAt_ok (by simp [← h]), List.take_left' h, List.drop_left' h]

lemma slice_append (h : front.length = n) :
    (slice (front ++ rest) 0 n : Attempt ε _) = .ok front := by
  rw [slice_ok (Nat.zero_le _) (by simp [← h]), List.take_left' h, List.drop_zero]

lemma sliceFrom_append (h : front.length = n) :
    (sliceFrom (front ++ rest) n : Attempt ε _) = .ok rest := by
  rw [sliceFrom_ok (by simp [← h]), List.drop_left' h]

/-- What a field holds is read back by its length. -/
lemma slice_padTo_append {bytes beyond : List UInt8} :
    (slice (padTo n bytes ++ beyond) 0 bytes.length : Attempt ε _) = .ok bytes := by
  rw [padTo, List.append_assoc, slice_append rfl]

/-- A field is copied to the front of the zeros that are left, and split off. -/
lemma write_field {k m : ℕ} {field : List UInt8} {f : List UInt8 × List UInt8 → Attempt ε β}
    (hk : field.length = k) (hkn : k ≤ n) (hnm : n ≤ m) :
    (copyFromSlice (List.replicate m 0) 0 k field >>= fun bytes => splitAt bytes n >>= f) =
      f (padTo n field, List.replicate (m - n) 0) := by
  rw [copyFromSlice_zeros hk hkn hnm, ok_bind, splitAt_append (length_padTo (hk.trans_le hkn)),
    ok_bind]

end Reading

/-! ### No panic -/

/-- A run that ends with a value or an error -/
def NoPanic (x : Attempt ε α) : Prop := x ≠ .error .panic

lemma NoPanic.ok (a : α) : NoPanic (.ok a : Attempt ε α) := nofun

lemma NoPanic.err (e : ε) : NoPanic (.error (.err e) : Attempt ε α) := nofun

lemma NoPanic.bind {x : Attempt ε α} {f : α → Attempt ε β} (hx : NoPanic x)
    (hf : ∀ a, x = .ok a → NoPanic (f a)) : NoPanic (x >>= f) := by
  cases x with
  | ok a => exact hf a rfl
  | error stop =>
    cases stop with
    | err e => exact NoPanic.err e
    | panic => exact absurd rfl hx

/-- A reader goes on with a field that it took from the front. -/
lemma NoPanic.slice_bind {l : List α} {f : List α → Attempt ε β} (h : n ≤ l.length)
    (hf : ∀ field, field.length = n → NoPanic (f field)) : NoPanic (slice l 0 n >>= f) := by
  rw [slice_ok (Nat.zero_le n) h, ok_bind]
  exact hf _ (by rw [List.drop_zero, List.length_take_of_le h])

/-- A reader goes on with what is left behind a field. -/
lemma NoPanic.sliceFrom_bind {l : List α} {f : List α → Attempt ε β} (h : n ≤ l.length)
    (hf : ∀ rest, rest.length = l.length - n → NoPanic (f rest)) : NoPanic (sliceFrom l n >>= f) := by
  rw [sliceFrom_ok h, ok_bind]
  exact hf _ List.length_drop

lemma NoPanic.mapErr {δ : Type} {f : ε → δ} {x : Attempt ε α} (hx : NoPanic x) :
    NoPanic (x.mapErr f) := by
  cases x with
  | ok a => exact NoPanic.ok a
  | error stop =>
    cases stop with
    | err e => exact NoPanic.err (f e)
    | panic => exact absurd rfl hx

end SensorLink.Lib
