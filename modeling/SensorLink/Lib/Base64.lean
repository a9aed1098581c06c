import Mathlib.Data.List.Basic
import Mathlib.Tactic.Common

/-!
Base64 text with the URL-safe alphabet and padding: three bytes are four characters, and one or two bytes
at the end are filled up. Texts of whole groups are encoded and decoded one after another.
-/

namespace SensorLink.Lib.Base64

/-- The character of six bits -/
def char (n : ℕ) : UInt8 :=
  if n < 26 then .ofNat (65 + n)
  else if n < 52 then .ofNat (97 + (n - 26))
  else if n < 62 then .ofNat (48 + (n - 52))
  else if n = 62 then 45 else 95

/-- The six bits of a character -/
def value (c : UInt8) : Option ℕ :=
  if 65 ≤ c.toNat ∧ c.toNat ≤ 90 then some (c.toNat - 65)
  else if 97 ≤ c.toNat ∧ c.toNat ≤ 122 then some (c.toNat - 97 + 26)
  else if 48 ≤ c.toNat ∧ c.toNat ≤ 57 then some (c.toNat - 48 + 52)
  else if c = 45 then some 62
  else if c = 95 then some 63 else none

def pad : UInt8 := 61

/-- The text of the bytes -/
def encode : List UInt8 → List UInt8
  | [] => []
  | [a] => [char (a.toNat / 4), char (a.toNat % 4 * 16), pad, pad]
  | [a, b] =>
    [char (a.toNat / 4), char (a.toNat % 4 * 16 + b.toNat / 16), char (b.toNat % 16 * 4), pad]
  | a :: b :: c :: rest =>
    char (a.toNat / 4) :: char (a.toNat % 4 * 16 + b.toNat / 16) ::
      char (b.toNat % 16 * 4 + c.toNat / 64) :: char (c.toNat % 64) :: encode rest

/-- The bytes of a text: padding only at the end, and no bits in front of it that are dropped -/
def decode : List UInt8 → Option (List UInt8)
  | [] => some []
  | w :: x :: y :: z :: rest => do
    let w ← value w
    let x ← value x
    if rest = [] ∧ z = pad then
      if y = pad then
        if x % 16 = 0 then return [.ofNat (w * 4 + x / 16)] else none
      else do
        let y ← value y
        if y % 4 = 0 then return [.ofNat (w * 4 + x / 16), .ofNat (x % 16 * 16 + y / 4)] else none
    else do
      let y ← value y
      let z ← value z
      let bytes ← decode rest
      return .ofNat (w * 4 + x / 16) :: .ofNat (x % 16 * 16 + y / 4) :: .ofNat (y % 4 * 64 + z) :: bytes
  | _ => none

lemma value_char {n : ℕ} (h : n < 64) : value (char n) = some n := by
  have hall : ∀ n : Fin 64, value (char n) = some n.val := by decide
  exact hall ⟨n, h⟩

lemma char_ne_pad {n : ℕ} (h : n < 64) : char n ≠ pad := by
  have hall : ∀ n : Fin 64, char n ≠ pad := by decide
  exact hall ⟨n, h⟩

/-- A byte is put together of its parts. -/
lemma ofNat_eq {a : UInt8} {n : ℕ} (h : n = a.toNat) : UInt8.ofNat n = a := by
  rw [h, UInt8.ofNat_toNat]

theorem decode_encode (l : List UInt8) : decode (encode l) = some l := by
  induction l using encode.induct with
  | case1 => rfl
  | case2 a =>
    have ha : a.toNat < 256 := a.toNat_lt
    simp only [encode, decode, value_char (show a.toNat / 4 < 64 by omega),
      value_char (show a.toNat % 4 * 16 < 64 by omega), Option.bind_eq_bind, Option.bind_some,
      and_self, if_true]
    rw [if_pos (by omega)]
    simp only [Option.pure_def, Option.some.injEq, List.cons.injEq, and_true]
    exact ofNat_eq (by omega)
  | case3 a b =>
    have ha : a.toNat < 256 := a.toNat_lt
    have hb : b.toNat < 256 := b.toNat_lt
    have hy : b.toNat % 16 * 4 < 64 := by omega
    simp only [encode, decode, value_char (show a.toNat / 4 < 64 by omega), value_char hy,
      value_char (show a.toNat % 4 * 16 + b.toNat / 16 < 64 by omega), Option.bind_eq_bind,
      Option.bind_some, and_self, if_true, if_neg (char_ne_pad hy)]
    rw [if_pos (by omega)]
    simp only [Option.pure_def, Option.some.injEq, List.cons.injEq, and_true]
    exact ⟨ofNat_eq (by omega), ofNat_eq (by omega)⟩
  | case4 a b c rest ih =>
    have ha : a.toNat < 256 := a.toNat_lt
    have hb : b.toNat < 256 := b.toNat_lt
    have hc : c.toNat < 256 := c.toNat_lt
    have hz : c.toNat % 64 < 64 := by omega
    simp only [encode, decode, value_char (show a.toNat / 4 < 64 by omega), value_char hz,
      value_char (show a.toNat % 4 * 16 + b.toNat / 16 < 64 by omega),
      value_char (show b.toNat % 16 * 4 + c.toNat / 64 < 64 by omega), Option.bind_eq_bind,
      Option.bind_some, char_ne_pad hz, and_false, if_false, ih]
    simp only [Option.pure_def, Option.some.injEq, List.cons.injEq, and_true]
    exact ⟨ofNat_eq (by omega), ofNat_eq (by omega), ofNat_eq (by omega)⟩

/-- Whole groups of three bytes are encoded by themselves. -/
lemma encode_append {k : ℕ} {l rest : List UInt8} (h : l.length = 3 * k) :
    encode (l ++ rest) = encode l ++ encode rest := by
  induction k generalizing l with
  | zero =>
    obtain rfl := List.length_eq_zero_iff.mp h
    rfl
  | succ k ih =>
    match l, h with
    | a :: b :: c :: l, h =>
      have hl : l.length = 3 * k := by
        simp only [List.length_cons] at h
        omega
      simp only [List.cons_append, encode, ih hl]

lemma length_encode {k : ℕ} {l : List UInt8} (h : l.length = 3 * k) : (encode l).length = 4 * k := by
  induction k generalizing l with
  | zero =>
    obtain rfl := List.length_eq_zero_iff.mp h
    rfl
  | succ k ih =>
    match l, h with
    | a :: b :: c :: l, h =>
      have hl : l.length = 3 * k := by
        simp only [List.length_cons] at h
        omega
      simp only [encode, List.length_cons, ih hl]
      omega

lemma length_encode_le (k : ℕ) {l : List UInt8} (h : l.length ≤ 3 * k) :
    (encode l).length ≤ 4 * k := by
  induction k generalizing l with
  | zero =>
    obtain rfl := List.length_eq_zero_iff.mp (Nat.le_zero.mp h)
    exact Nat.le_refl _
  | succ k ih =>
    match l, h with
    | [], _ | [_], _ | [_, _], _ =>
      simp [encode, Nat.mul_succ]
    | a :: b :: c :: l, h =>
      have hl : l.length ≤ 3 * k := by
        simp only [List.length_cons] at h
        omega
      have hrest := ih hl
      simp only [encode, List.length_cons]
      omega

lemma encode_eq_nil {l : List UInt8} : encode l = [] ↔ l = [] := by
  constructor
  · intro h
    match l with
    | [] => rfl
    | [_] | [_, _] | _ :: _ :: _ :: _ => simp [encode] at h
  · rintro rfl
    rfl

/-- The first `4 * k` characters of a text are those of the first `3 * k` bytes. -/
lemma take_encode (k : ℕ) (l : List UInt8) : (encode l).take (4 * k) = encode (l.take (3 * k)) := by
  by_cases h : 3 * k ≤ l.length
  · have hlen : (l.take (3 * k)).length = 3 * k := List.length_take_of_le h
    conv_lhs => rw [← List.take_append_drop (3 * k) l, encode_append hlen]
    exact List.take_left' (length_encode hlen)
  · rw [List.take_of_length_le (length_encode_le k (by omega)), List.take_of_length_le (by omega)]

lemma drop_encode (k : ℕ) (l : List UInt8) : (encode l).drop (4 * k) = encode (l.drop (3 * k)) := by
  by_cases h : 3 * k ≤ l.length
  · have hlen : (l.take (3 * k)).length = 3 * k := List.length_take_of_le h
    conv_lhs => rw [← List.take_append_drop (3 * k) l, encode_append hlen]
    exact List.drop_left' (length_encode hlen)
  · rw [List.drop_of_length_le (length_encode_le k (by omega)), List.drop_of_length_le (by omega)]
    rfl

end SensorLink.Lib.Base64
