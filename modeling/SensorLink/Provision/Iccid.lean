import Mathlib.Data.Fintype.Prod
import Mathlib.Data.List.DropRight
import Mathlib.Data.ZMod.Basic
import SensorLink.Lib.CheckDigit
import SensorLink.Provision.Rtt

/-!
# The check of an ICCID in `validate.rs`

`iccid_valid` asks for 19 or 20 digits and a Luhn check digit. On digits it is a weighted sum in the
integers modulo 10, whose weights alternate from the right; both are permutations of the digits.
-/

namespace SensorLink.Provision

open SensorLink.Lib

/-- `char::is_whitespace` -/
def isWhitespace (c : Char) : Bool :=
  (0x09 ≤ c.toNat && c.toNat ≤ 0x0D) || c.toNat = 0x20 || c.toNat = 0x85 || c.toNat = 0xA0 ||
    c.toNat = 0x1680 || (0x2000 ≤ c.toNat && c.toNat ≤ 0x200A) || c.toNat = 0x2028 || c.toNat = 0x2029 ||
    c.toNat = 0x202F || c.toNat = 0x205F || c.toNat = 0x3000

/-- `str::trim` -/
def trim (text : Text) : Text := (text.dropWhile isWhitespace).rdropWhile isWhitespace

/-- `u8::is_ascii_digit` -/
def isAsciiDigit (b : UInt8) : Bool := 0x30 ≤ b && b ≤ 0x39

/-- What a digit adds to the sum at place `i` from the right -/
def luhnTerm (i d : ℕ) : ℕ :=
  if i % 2 = 1 then
    let dd := d * 2
    if 9 < dd then dd - 9 else dd
  else d

def iccidValid (icc : Text) : Bool :=
  let icc := utf8 (trim icc)
  if !(19 ≤ icc.length && icc.length ≤ 20) || !icc.all isAsciiDigit then false
  else
    let sum := (icc.reverse.zipIdx.map fun p => luhnTerm p.2 (p.1 - 0x30).toNat).sum
    sum % 10 = 0

/-! ### Digits -/

def AllDigits (text : Text) : Prop := ∀ c ∈ text, c.isDigit = true

/-- The character of a digit -/
def digit (d : Fin 10) : Char := Char.ofNat (0x30 + d)

lemma digit_isDigit (d : Fin 10) : (digit d).isDigit = true := by
  revert d
  decide

lemma digit_injective : Function.Injective digit := by decide

lemma exists_digit {c : Char} (h : c.isDigit = true) : ∃ d, digit d = c := by
  have hbounds : 48 ≤ c.toNat ∧ c.toNat ≤ 57 := by
    simpa [Char.isDigit, UInt32.le_iff_toNat_le] using h
  refine ⟨⟨c.toNat - 48, by omega⟩, ?_⟩
  have hnat : 0x30 + (c.toNat - 48) = c.toNat := by omega
  rw [digit, hnat, Char.ofNat_toNat]

lemma exists_digits {text : Text} (h : AllDigits text) : ∃ ds : List (Fin 10), ds.map digit = text := by
  induction text with
  | nil => exact ⟨[], rfl⟩
  | cons c text ih =>
    obtain ⟨d, hd⟩ := exists_digit (h c List.mem_cons_self)
    obtain ⟨ds, hds⟩ := ih fun c' hc' => h c' (List.mem_cons_of_mem c hc')
    exact ⟨d :: ds, by rw [List.map_cons, hd, hds]⟩

lemma trim_digits (ds : List (Fin 10)) : trim (ds.map digit) = ds.map digit := by
  have hnot : ∀ d, isWhitespace (digit d) = false := by decide
  have hnone : ∀ c ∈ ds.map digit, ¬ isWhitespace c = true := by
    intro c hc
    obtain ⟨d, -, rfl⟩ := List.mem_map.mp hc
    rw [hnot]
    exact Bool.false_ne_true
  have hfront : (ds.map digit).dropWhile isWhitespace = ds.map digit := by
    rw [List.dropWhile_eq_self_iff]
    exact fun hlen => hnone _ (List.getElem_mem hlen)
  rw [trim, hfront, List.rdropWhile_eq_self_iff]
  exact fun hne => hnone _ (List.getLast_mem hne)

/-- The byte of a digit -/
def digitByte (d : Fin 10) : UInt8 := UInt8.ofNat (0x30 + d)

lemma utf8_digits (ds : List (Fin 10)) : utf8 (ds.map digit) = ds.map digitByte := by
  have hbyte : ∀ d, String.utf8EncodeChar (digit d) = [digitByte d] := by decide
  rw [utf8, List.flatMap_map, ← List.flatMap_singleton' (ds.map digitByte), List.flatMap_map]
  simp only [hbyte]

lemma all_digits (ds : List (Fin 10)) : (ds.map digitByte).all isAsciiDigit = true := by
  have hdigit : ∀ d, isAsciiDigit (digitByte d) = true := by decide
  simp [hdigit]

/-! ### The weights -/

/-- What a digit adds to the sum, modulo 10 -/
def luhnWeight (i : ℕ) (d : Fin 10) : ZMod 10 := luhnTerm i d

lemma luhnWeight_even {i : ℕ} (h : i % 2 = 0) : luhnWeight i = luhnWeight 0 := by
  funext d
  simp [luhnWeight, luhnTerm, h]

lemma luhnWeight_odd {i : ℕ} (h : i % 2 = 1) : luhnWeight i = luhnWeight 1 := by
  funext d
  simp [luhnWeight, luhnTerm, h]

/-- Both weights permute the digits. -/
lemma luhnWeight_bijective (i : ℕ) : Function.Bijective (luhnWeight i) := by
  rcases Nat.mod_two_eq_zero_or_one i with h | h
  · rw [luhnWeight_even h]
    decide
  · rw [luhnWeight_odd h]
    decide

/-- Exchanged neighbours count for the same only if they are equal, or 0 and 9. -/
lemma luhnWeight_swap_iff (i : ℕ) {a b : Fin 10} :
    luhnWeight (i + 1) a + luhnWeight i b = luhnWeight (i + 1) b + luhnWeight i a ↔
      a = b ∨ (a = 0 ∧ b = 9) ∨ (a = 9 ∧ b = 0) := by
  have heven : ∀ a b : Fin 10, luhnWeight 1 a + luhnWeight 0 b = luhnWeight 1 b + luhnWeight 0 a ↔
      a = b ∨ (a = 0 ∧ b = 9) ∨ (a = 9 ∧ b = 0) := by decide
  have hodd : ∀ a b : Fin 10, luhnWeight 0 a + luhnWeight 1 b = luhnWeight 0 b + luhnWeight 1 a ↔
      a = b ∨ (a = 0 ∧ b = 9) ∨ (a = 9 ∧ b = 0) := by decide
  rcases Nat.mod_two_eq_zero_or_one i with hi | hi
  · rw [luhnWeight_even hi, luhnWeight_odd (by omega)]
    exact heven a b
  · rw [luhnWeight_odd hi, luhnWeight_even (by omega)]
    exact hodd a b

/-- What the check says of digits -/
lemma iccidValid_digits (ds : List (Fin 10)) : iccidValid (ds.map digit) = true ↔
    (ds.length = 19 ∨ ds.length = 20) ∧ weightedSum luhnWeight ds = 0 := by
  have hvalue : ∀ d : Fin 10, (digitByte d - 0x30).toNat = d := by decide
  have hsum : ((ds.map digitByte).reverse.zipIdx.map fun p => luhnTerm p.2 (p.1 - 0x30).toNat).sum =
      weightedSum (fun i (d : Fin 10) => luhnTerm i d) ds := by
    rw [sum_zipIdx_reverse (w := fun i (b : UInt8) => luhnTerm i (b - 0x30).toNat), weightedSum_map]
    simp only [hvalue]
  have hmod : weightedSum luhnWeight ds = (weightedSum (fun i (d : Fin 10) => luhnTerm i d) ds : ℕ) :=
    weightedSum_hom (Nat.castAddMonoidHom (ZMod 10)) ds
  have hlength : (!(decide (19 ≤ ds.length) && decide (ds.length ≤ 20))) = false ↔
      ds.length = 19 ∨ ds.length = 20 := by
    simp only [Bool.not_eq_false', Bool.and_eq_true, decide_eq_true_eq]
    omega
  unfold iccidValid
  rw [trim_digits, utf8_digits, hmod, ZMod.natCast_eq_zero_iff, ← hlength]
  simp only [all_digits, hsum, List.length_map, Bool.not_true, Bool.or_false, Nat.dvd_iff_mod_eq_zero]
  cases !(decide (19 ≤ ds.length) && decide (ds.length ≤ 20)) <;> simp

/-! ### What the check detects -/

/-- A text of 19 or 20 digits that is accepted -/
structure Accepted (icc : Text) : Prop where
  digits : AllDigits icc
  length : icc.length = 19 ∨ icc.length = 20
  valid : iccidValid icc = true

lemma AllDigits.of_append {before behind : Text} (h : AllDigits (before ++ behind)) :
    AllDigits before ∧ AllDigits behind :=
  ⟨fun c hc => h c (List.mem_append_left behind hc), fun c hc => h c (List.mem_append_right before hc)⟩

lemma Accepted.replace {before behind : Text} {a b : Char} (h : Accepted (before ++ a :: behind))
    (hb : b.isDigit = true) (hne : b ≠ a) : iccidValid (before ++ b :: behind) = false := by
  obtain ⟨hbefore, hrest⟩ := h.digits.of_append
  obtain ⟨xs, rfl⟩ := exists_digits hbefore
  obtain ⟨ys, rfl⟩ := exists_digits fun c hc => hrest c (List.mem_cons_of_mem a hc)
  obtain ⟨d, rfl⟩ := exists_digit (hrest a List.mem_cons_self)
  obtain ⟨e, rfl⟩ := exists_digit hb
  have hvalid := h.valid
  rw [← List.map_cons, ← List.map_append, iccidValid_digits] at hvalid
  rw [← List.map_cons, ← List.map_append, ← Bool.not_eq_true, iccidValid_digits]
  rintro ⟨-, hsum⟩
  have hweight := (weightedSum_replace xs ys).mp (hsum.trans hvalid.2.symm)
  exact hne (congrArg digit ((luhnWeight_bijective _).injective hweight))

/-- Two neighbours exchanged -/
lemma Accepted.swap_iff {before behind : Text} {a b : Char} (h : Accepted (before ++ a :: b :: behind)) :
    iccidValid (before ++ b :: a :: behind) = true ↔
      a = b ∨ (a = '0' ∧ b = '9') ∨ (a = '9' ∧ b = '0') := by
  obtain ⟨hbefore, hrest⟩ := h.digits.of_append
  have hb : b ∈ a :: b :: behind := List.mem_cons_of_mem a List.mem_cons_self
  obtain ⟨xs, rfl⟩ := exists_digits hbefore
  obtain ⟨ys, rfl⟩ := exists_digits fun c hc =>
    hrest c (List.mem_cons_of_mem a (List.mem_cons_of_mem b hc))
  obtain ⟨d, rfl⟩ := exists_digit (hrest a List.mem_cons_self)
  obtain ⟨e, rfl⟩ := exists_digit (hrest b hb)
  have hvalid := h.valid
  simp only [← List.map_cons, ← List.map_append, iccidValid_digits] at hvalid ⊢
  have hlength : (xs ++ e :: d :: ys).length = (xs ++ d :: e :: ys).length := by simp
  have hsum : weightedSum luhnWeight (xs ++ e :: d :: ys) = 0 ↔
      d = e ∨ (d = 0 ∧ e = 9) ∨ (d = 9 ∧ e = 0) := by
    rw [← hvalid.2, eq_comm, weightedSum_swap, luhnWeight_swap_iff]
  have hzero : '0' = digit 0 := by decide
  have hnine : '9' = digit 9 := by decide
  rw [hlength, hsum, and_iff_right hvalid.1, hzero, hnine]
  simp only [digit_injective.eq_iff]

lemma existsUnique_checkDigit {start : Text} (h : AllDigits start)
    (hlength : start.length = 18 ∨ start.length = 19) :
    ∃! c : Char, c.isDigit = true ∧ iccidValid (start ++ [c]) = true := by
  obtain ⟨ds, rfl⟩ := exists_digits h
  rw [List.length_map] at hlength
  have hvalid : ∀ d, iccidValid (ds.map digit ++ [digit d]) = true ↔
      weightedSum luhnWeight (ds ++ [d]) = 0 := by
    intro d
    have hone : ds.map digit ++ [digit d] = (ds ++ [d]).map digit := by simp
    rw [hone, iccidValid_digits, List.length_append, List.length_singleton]
    exact ⟨fun hd => hd.2, fun hd => ⟨by omega, hd⟩⟩
  obtain ⟨d, hd, hunique⟩ := existsUnique_weightedSum (luhnWeight_bijective 0) ds 0
  refine ⟨digit d, ⟨digit_isDigit d, (hvalid d).mpr hd⟩, ?_⟩
  rintro c ⟨hc, hcvalid⟩
  obtain ⟨e, rfl⟩ := exists_digit hc
  rw [hunique e ((hvalid e).mp hcvalid)]

/-- **The check finds the errors of a scan.** With one digit replaced, or two different neighbours
exchanged that are not 0 and 9, an accepted text of 19 or 20 digits is rejected; and 18 or 19 digits have
exactly one check digit. -/
theorem iccid_errors_detected :
    (∀ icc : Text, Accepted icc →
      (∀ before a b behind, icc = before ++ a :: behind → b.isDigit = true → b ≠ a →
        iccidValid (before ++ b :: behind) = false) ∧
      ∀ before a b behind, icc = before ++ a :: b :: behind → a ≠ b → ¬ (a = '0' ∧ b = '9') →
        ¬ (a = '9' ∧ b = '0') → iccidValid (before ++ b :: a :: behind) = false) ∧
    ∀ start : Text, AllDigits start → start.length = 18 ∨ start.length = 19 →
      ∃! c : Char, c.isDigit = true ∧ iccidValid (start ++ [c]) = true := by
  refine ⟨fun icc h => ⟨?_, ?_⟩, fun start h hlength => existsUnique_checkDigit h hlength⟩
  · rintro before a b behind rfl hb hne
    exact h.replace hb hne
  · rintro before a b behind rfl hne h09 h90
    rw [← Bool.not_eq_true, h.swap_iff]
    rintro (heq | hswap | hswap)
    · exact hne heq
    · exact h09 hswap
    · exact h90 hswap

/-- `89310410106543789305`, with its first digit replaced, with the first two exchanged, and without its
last one -/
theorem iccid_errors_detected_sample :
    iccidValid "79310410106543789305".toList = false ∧ iccidValid "98310410106543789305".toList = false ∧
      ∃! c : Char, c.isDigit = true ∧ iccidValid ("8931041010654378930".toList ++ [c]) = true := by
  have hstart : "8931041010654378930".toList.all Char.isDigit = true := by decide
  have hicc : "89310410106543789305".toList.all Char.isDigit = true := by decide
  have haccepted : Accepted "89310410106543789305".toList :=
    ⟨List.all_eq_true.mp hicc, .inr rfl, by decide⟩
  obtain ⟨hreplace, hswap⟩ := iccid_errors_detected.1 _ haccepted
  exact ⟨hreplace [] '8' '7' "9310410106543789305".toList rfl (by decide) (by decide),
    hswap [] '8' '9' "310410106543789305".toList rfl (by decide) (by decide) (by decide),
    iccid_errors_detected.2 _ (List.all_eq_true.mp hstart) (.inr rfl)⟩

end SensorLink.Provision
