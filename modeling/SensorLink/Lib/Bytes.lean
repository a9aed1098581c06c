import Mathlib.Data.Nat.Digits.Defs
import Mathlib.Tactic.Ring

/-!
Fixed-width little-endian numbers, and writing a slice into a buffer.
-/

namespace SensorLink.Lib

/-! ### Little-endian numbers -/

/-- The `k` low bytes of `n`, the lowest first (`to_le_bytes`). -/
def leBytes : ℕ → ℕ → List UInt8
  | 0, _ => []
  | k + 1, n => UInt8.ofNat n :: leBytes k (n / 256)

/-- The number of a slice of bytes, the lowest first (`from_le_bytes`). -/
def ofLeBytes : List UInt8 → ℕ
  | [] => 0
  | b :: bs => b.toNat + 256 * ofLeBytes bs

@[simp]
lemma length_leBytes (k n : ℕ) : (leBytes k n).length = k := by
  induction k generalizing n with
  | zero => rfl
  | succ k ih => simp [leBytes, ih]

lemma ofLeBytes_leBytes (k n : ℕ) : ofLeBytes (leBytes k n) = n % 256 ^ k := by
  induction k generalizing n with
  | zero => simp [leBytes, ofLeBytes, Nat.mod_one]
  | succ k ih =>
    have hbyte : (UInt8.ofNat n).toNat = n % 256 := by simp
    rw [leBytes, ofLeBytes, ih, hbyte, show 256 ^ (k + 1) = 256 * 256 ^ k from pow_succ' 256 k,
      Nat.mod_mul]

lemma ofLeBytes_lt (bs : List UInt8) : ofLeBytes bs < 256 ^ bs.length := by
  induction bs with
  | nil => simp [ofLeBytes]
  | cons b bs ih =>
    have hb : b.toNat < 256 := b.toNat_lt
    rw [ofLeBytes, List.length_cons, pow_succ']
    omega

lemma leBytes_ofLeBytes {k : ℕ} {bs : List UInt8} (h : bs.length = k) :
    leBytes k (ofLeBytes bs) = bs := by
  induction bs generalizing k with
  | nil => subst h; rfl
  | cons b bs ih =>
    subst h
    have hb : b.toNat < 256 := b.toNat_lt
    have hbyte : UInt8.ofNat (b.toNat + 256 * ofLeBytes bs) = b := by
      apply UInt8.toNat_inj.mp
      simp only [UInt8.toNat_ofNat']
      omega
    have hdiv : (b.toNat + 256 * ofLeBytes bs) / 256 = ofLeBytes bs := by omega
    rw [List.length_cons, ofLeBytes, leBytes, hbyte, hdiv, ih rfl]

/-! ### Slices of a buffer -/

def chunksLoop {α : Type*} (n : ℕ) : ℕ → List α → List (List α)
  | 0, _ => []
  | fuel + 1, l => if l.length = 0 then [] else l.take n :: chunksLoop n fuel (l.drop n)

/-- `slice.chunks(n)`: pieces of `n` elements, the last one with what is left. -/
def chunks {α : Type*} (n : ℕ) (l : List α) : List (List α) := chunksLoop n l.length l

section Chunks

variable {α : Type*} {n : ℕ}

lemma chunksLoop_fuel (hn : 0 < n) (fuel : ℕ) (l : List α) (h : l.length ≤ fuel) :
    chunksLoop n fuel l = chunks n l := by
  unfold chunks
  generalize hf : l.length = fuel'
  have hle : l.length ≤ fuel' := hf.le
  clear hf
  induction fuel generalizing fuel' l with
  | zero =>
    have hnil : l.length = 0 := by omega
    cases fuel' with
    | zero => rfl
    | succ fuel' => rw [chunksLoop, chunksLoop, if_pos hnil]
  | succ fuel ih =>
    rw [chunksLoop]
    cases fuel' with
    | zero => rw [chunksLoop, if_pos (by omega)]
    | succ fuel' =>
      rw [chunksLoop]
      split
      · rfl
      next hne =>
        have hdrop : (l.drop n).length < l.length := by
          rw [List.length_drop]
          omega
        rw [ih (l.drop n) (by omega) fuel' (by omega)]

@[simp]
lemma chunks_nil : chunks n ([] : List α) = [] := rfl

lemma chunks_cons (hn : 0 < n) {l : List α} (hl : l ≠ []) :
    chunks n l = l.take n :: chunks n (l.drop n) := by
  obtain ⟨fuel, hfuel⟩ : ∃ fuel, l.length = fuel + 1 :=
    ⟨l.length - 1, by have := List.length_pos_iff.mpr hl; omega⟩
  conv_lhs => rw [chunks, hfuel, chunksLoop, if_neg (by omega)]
  rw [chunksLoop_fuel hn _ _ (by rw [List.length_drop]; omega)]

end Chunks

/-- `buffer[n..n + bytes.len()].copy_from_slice(bytes)` -/
def copyInto (buffer : List UInt8) (n : ℕ) (bytes : List UInt8) : List UInt8 :=
  buffer.take n ++ bytes ++ buffer.drop (n + bytes.length)

lemma length_copyInto {buffer bytes : List UInt8} {n : ℕ}
    (h : n + bytes.length ≤ buffer.length) : (copyInto buffer n bytes).length = buffer.length := by
  simp only [copyInto, List.length_append, List.length_take, List.length_drop]
  omega

/-- The first bytes of the buffer after the slice was copied behind the first `n`. -/
lemma take_copyInto {buffer bytes : List UInt8} {n : ℕ} (h : n ≤ buffer.length) :
    (copyInto buffer n bytes).take (n + bytes.length) = buffer.take n ++ bytes := by
  rw [copyInto, List.take_append_of_le_length (by simp [Nat.min_eq_left h])]
  exact List.take_of_length_le (by simp [Nat.min_eq_left h])

end SensorLink.Lib
