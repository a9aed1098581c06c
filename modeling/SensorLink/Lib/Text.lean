import Mathlib.Data.List.TakeWhile
import SensorLink.Lib.Slice

/-!
Text as Rust holds it: a `str` is bytes that are UTF-8, a cut that is not between two characters is a
panic, and a string of a fixed capacity does not grow over it.
-/

namespace SensorLink.Lib

/-- `Option::unwrap`, `Result::unwrap` -/
def unwrap {ε α : Type} : Option α → Attempt ε α
  | some a => .ok a
  | none => .error .panic

section Str

variable {ε : Type} {s t : String} {n : ℕ}

/-- `str::as_bytes` -/
def strBytes (s : String) : List UInt8 := s.toByteArray.data.toList

/-- `str::from_utf8` -/
def fromUtf8 (bytes : List UInt8) : Option String := String.fromUTF8? ⟨bytes.toArray⟩

/-- `str::is_char_boundary` -/
abbrev IsCharBoundary (s : String) (n : ℕ) : Prop := (String.Pos.Raw.mk n).IsValid s

/-- `&s[..n]` -/
def strTo (s : String) (n : ℕ) : Attempt ε String :=
  if h : IsCharBoundary s n then .ok ⟨_, h.isValidUTF8_extract_zero⟩ else .error .panic

lemma length_strBytes (s : String) : (strBytes s).length = s.utf8ByteSize := by
  simp [strBytes]

lemma fromUtf8_eq_some {bytes : List UInt8} : fromUtf8 bytes = some s ↔ strBytes s = bytes := by
  unfold fromUtf8 String.fromUTF8? strBytes
  constructor
  · intro h
    split at h
    · cases h
      rfl
    · cases h
  · rintro rfl
    rw [dif_pos s.isValidUTF8]
    rfl

lemma fromUtf8_strBytes (s : String) : fromUtf8 (strBytes s) = some s := fromUtf8_eq_some.mpr rfl

lemma IsCharBoundary.le (h : IsCharBoundary s n) : n ≤ s.utf8ByteSize := h.le_rawEndPos

lemma isCharBoundary_utf8ByteSize (s : String) : IsCharBoundary s s.utf8ByteSize :=
  String.Pos.Raw.isValid_rawEndPos

lemma strTo_ok (h : IsCharBoundary s n) :
    ∃ t rest, (strTo s n : Attempt ε String) = .ok t ∧ s = t ++ rest ∧ t.utf8ByteSize = n := by
  obtain ⟨t, rest, happ, hn⟩ := String.Pos.Raw.isValid_iff_exists_append.mp h
  have hsize : n = t.utf8ByteSize := congrArg String.Pos.Raw.byteIdx hn
  refine ⟨t, rest, ?_, happ, hsize.symm⟩
  rw [strTo, dif_pos h, Except.ok.injEq, ← String.toByteArray_inj]
  subst happ
  change (t ++ rest).toByteArray.extract 0 n = t.toByteArray
  rw [String.toByteArray_append, hsize]
  exact ByteArray.extract_append_eq_left (by simp)

lemma strTo_panic (h : ¬ IsCharBoundary s n) : (strTo s n : Attempt ε String) = .error .panic :=
  dif_neg h

end Str

/-! ### Strings of a fixed capacity -/

/-- `heapless::String<N>` -/
structure HString (cap : ℕ) where
  str : String
  size_le : str.utf8ByteSize ≤ cap

namespace HString

variable {cap : ℕ}

instance : DecidableEq (HString cap) := fun s t =>
  decidable_of_iff (s.str = t.str) (by cases s; cases t; simp)

@[ext]
lemma ext {s t : HString cap} (h : s.str = t.str) : s = t := by
  cases s
  cases t
  simpa using h

/-- `String::new` -/
def new : HString cap := ⟨"", Nat.zero_le cap⟩

/-- `String::try_from` of a `&str` -/
def tryFrom (s : String) : Option (HString cap) :=
  if h : s.utf8ByteSize ≤ cap then some ⟨s, h⟩ else none

/-- `String::push_str`: nothing is added when the text does not fit. -/
def pushStr (s : HString cap) (t : String) : Option (HString cap) := tryFrom (s.str ++ t)

@[simp]
lemma str_new : (new : HString cap).str = "" := rfl

lemma tryFrom_of_le {s : String} (h : s.utf8ByteSize ≤ cap) :
    (tryFrom s : Option (HString cap)) = some ⟨s, h⟩ := dif_pos h

lemma tryFrom_of_lt {s : String} (h : cap < s.utf8ByteSize) :
    (tryFrom s : Option (HString cap)) = none := dif_neg (by omega)

@[simp]
lemma tryFrom_str (s : HString cap) : tryFrom s.str = some s := dif_pos s.size_le

end HString

/-! ### Splitting at a character -/

section Splitn

variable {sep : Char} {n : ℕ} {s front rest : List Char}

/-- `str::splitn`: at most `n` parts, the last one with all that is left -/
def splitn (sep : Char) : ℕ → List Char → List (List Char)
  | 0, _ => []
  | 1, s => [s]
  | n + 2, s =>
    match s.dropWhile (· != sep) with
    | [] => [s]
    | _ :: rest => s.takeWhile (· != sep) :: splitn sep (n + 1) rest

lemma splitn_append (h : sep ∉ front) :
    splitn sep (n + 2) (front ++ sep :: rest) = front :: splitn sep (n + 1) rest := by
  have hall : ∀ c ∈ front, (c != sep) = true := fun c hc => bne_iff_ne.mpr fun he => h (he ▸ hc)
  rw [splitn, List.dropWhile_append_of_pos hall, List.takeWhile_append_of_pos hall]
  simp

lemma length_splitn_le (n : ℕ) (s : List Char) : (splitn sep n s).length ≤ n := by
  induction n, s using splitn.induct sep with
  | case1 s => exact le_rfl
  | case2 s => exact le_rfl
  | case3 n s hdrop =>
    rw [splitn, hdrop]
    simp
  | case4 n s c rest hdrop ih =>
    rw [splitn, hdrop]
    exact Nat.succ_le_succ ih

/-- A part before the last one ends at the first separator. -/
lemma splitn_eq_cons {part part' : List Char} {parts : List (List Char)}
    (h : splitn sep (n + 2) s = part :: part' :: parts) :
    sep ∉ part ∧ ∃ rest, s = part ++ sep :: rest ∧ splitn sep (n + 1) rest = part' :: parts := by
  rw [splitn] at h
  split at h
  · cases h
  next c rest hdrop =>
    obtain ⟨rfl, hrest⟩ := List.cons.inj h
    have hc : c = sep := by
      have hhead := List.head_dropWhile_not (· != sep) (hdrop ▸ List.cons_ne_nil c rest)
      simpa [hdrop] using hhead
    refine ⟨fun hmem => absurd (List.mem_takeWhile_imp hmem) (by simp), rest, ?_, hrest⟩
    subst hc
    rw [← hdrop, List.takeWhile_append_dropWhile]

/-- Three parts are two without the separator and the rest. -/
lemma splitn_three {a b c : List Char} :
    splitn sep 3 s = [a, b, c] ↔ sep ∉ a ∧ sep ∉ b ∧ s = a ++ sep :: (b ++ sep :: c) := by
  constructor
  · intro h
    obtain ⟨ha, rest, rfl, hrest⟩ := splitn_eq_cons h
    obtain ⟨hb, rest', rfl, hlast⟩ := splitn_eq_cons hrest
    rw [splitn, List.cons.injEq] at hlast
    exact ⟨ha, hb, by rw [hlast.1]⟩
  · rintro ⟨ha, hb, rfl⟩
    rw [splitn_append ha, splitn_append hb, splitn]

end Splitn

end SensorLink.Lib
