import SensorLink.Lib.Text

/-!
# Text cut to a capacity

`try_string_from_bytes` of the firmware's `utils.rs`, `desc_from_str` of the event topic and
`into_version_string` of the modem driver: three ways to put text into a string of a fixed capacity.
-/

namespace SensorLink.Protocol

open SensorLink.Lib

/-! ### `utils.rs` -/

/-- `core::str::Utf8Error` -/
inductive Utf8Error
  | invalid
deriving DecidableEq

/-- `core::str::from_utf8` with its error -/
def strFromUtf8 (bytes : List UInt8) : Attempt Utf8Error String :=
  match fromUtf8 bytes with
  | some s => .ok s
  | none => .error (.err .invalid)

/-- `utils::try_string_from_bytes` -/
def tryStringFromBytes (maxStrLen : ℕ) (bytes : List UInt8) :
    Attempt Utf8Error (HString maxStrLen) := do
  -- find C-style zero termination (if any)
  let maxLen := min bytes.length maxStrLen
  let considered ← slice bytes 0 maxLen
  let length := match considered.findIdx? (· == 0) with
    | some index => index
    | none => maxStrLen
  let str ← strFromUtf8 (← slice bytes 0 length)
  unwrap (HString.tryFrom str)

/-! ### `topics/event.rs` -/

def maxDescMsgLen : ℕ := 16

/-- `event::Desc` -/
structure Desc where
  msg : HString maxDescMsgLen
deriving DecidableEq

/-- `event::desc_from_str`; the error type is never used. -/
def descFromStr (message : String) : Attempt Empty Desc := do
  let n := min message.utf8ByteSize maxDescMsgLen
  let msg ← unwrap (HString.tryFrom (← strTo message n))
  return ⟨msg⟩

/-! ### `quectel.rs` -/

def versionStringMaxLen : ℕ := 16

/-- `info::VersionString` -/
abbrev VersionString := HString versionStringMaxLen

def intoVersionString {n : ℕ} (longerString : HString n) : Attempt Empty VersionString :=
  match HString.tryFrom longerString.str with
  | some s => .ok s
  | none => do
    let part ← strTo longerString.str (min versionStringMaxLen longerString.str.utf8ByteSize)
    -- `unwrap_or(())`: what does not fit is not pushed
    return (HString.new.pushStr part).getD HString.new

/-! ### What the conversions give -/

/-- The bytes before the first zero, at most `n` -/
def beforeZero (n : ℕ) (bytes : List UInt8) : List UInt8 := (bytes.take n).takeWhile (· != 0)

/-- What `try_string_from_bytes` is for: the text before the first zero, an error iff it is no UTF-8. -/
def KeepsText (n : ℕ) (bytes : List UInt8) : Prop :=
  match fromUtf8 (beforeZero n bytes) with
  | some text => ∃ s : HString n, tryStringFromBytes n bytes = .ok s ∧ s.str = text
  | none => tryStringFromBytes n bytes = .error (.err .invalid)

/-- What `desc_from_str` is for: the description is the first part of the message. -/
def DescKeepsPrefix (message : String) : Prop :=
  ∃ desc rest, descFromStr message = .ok desc ∧ message = desc.msg.str ++ rest

/-- What `into_version_string` is for: the version is the first part of the string. -/
def VersionKeepsPrefix {n : ℕ} (longerString : HString n) : Prop :=
  ∃ version rest, intoVersionString longerString = .ok version ∧
    longerString.str = version.str ++ rest

section Total

variable {n : ℕ} {bytes : List UInt8}

lemma length_beforeZero_le : (beforeZero n bytes).length ≤ n := by
  have hsub := (List.takeWhile_sublist (l := bytes.take n) (· != 0)).length_le
  exact hsub.trans (List.length_take_le n bytes)

/-- The terminator is looked for in the first `n` bytes; without one the slice must hold `n` bytes. -/
lemma slice_beforeZero (h : n ≤ bytes.length ∨ 0 ∈ bytes) :
    (slice bytes 0 (match (bytes.take (min bytes.length n)).findIdx? (· == 0) with
      | some index => index
      | none => n) : Attempt Utf8Error _) = .ok (beforeZero n bytes) := by
  have htake : bytes.take (min bytes.length n) = bytes.take n := by
    rw [List.take_eq_take_iff]
    simp [min_comm]
  have hwhile : beforeZero n bytes = (bytes.take n).take ((bytes.take n).findIdx (· == 0)) := by
    rw [beforeZero, List.takeWhile_eq_take_findIdx_not]
    simp [bne]
  rw [htake]
  split
  next index hfind =>
    obtain ⟨hlt, hidx⟩ := List.findIdx?_eq_some_iff_findIdx_eq.mp hfind
    rw [List.length_take] at hlt
    rw [slice_ok (Nat.zero_le _) (by omega), hwhile, hidx, List.take_take, min_eq_left (by omega),
      List.drop_zero]
  next hnone =>
    rw [List.findIdx?_eq_none_iff_findIdx_eq] at hnone
    have hn : n ≤ bytes.length := by
      by_contra hlt
      have hzero : 0 ∈ bytes := h.resolve_left hlt
      rw [List.take_of_length_le (by omega)] at hnone
      exact (List.findIdx_lt_length_of_exists ⟨0, hzero, rfl⟩).ne hnone
    rw [slice_ok (Nat.zero_le _) hn, hwhile, hnone, List.take_length, List.drop_zero]

lemma slice_considered :
    (slice bytes 0 (min bytes.length n) : Attempt Utf8Error _) =
      .ok (bytes.take (min bytes.length n)) := by
  rw [slice_ok (Nat.zero_le _) (min_le_left _ _), List.drop_zero]

lemma tryStringFromBytes_eq (h : n ≤ bytes.length ∨ 0 ∈ bytes) :
    tryStringFromBytes n bytes =
      (strFromUtf8 (beforeZero n bytes) >>= fun str => unwrap (HString.tryFrom str)) := by
  rw [tryStringFromBytes]
  simp only [slice_considered, ok_bind]
  rw [slice_beforeZero h, ok_bind]

/-- The text before the first zero, when it is UTF-8 -/
lemma tryStringFromBytes_of_fromUtf8 (h : n ≤ bytes.length ∨ 0 ∈ bytes) {text : String}
    (htext : fromUtf8 (beforeZero n bytes) = some text) :
    ∃ s : HString n, tryStringFromBytes n bytes = .ok s ∧ s.str = text := by
  have hsize : text.utf8ByteSize ≤ n := by
    rw [← length_strBytes, fromUtf8_eq_some.mp htext]
    exact length_beforeZero_le
  refine ⟨⟨text, hsize⟩, ?_, rfl⟩
  rw [tryStringFromBytes_eq h, strFromUtf8, htext, ok_bind, HString.tryFrom_of_le hsize, unwrap]

lemma tryStringFromBytes_of_none (h : n ≤ bytes.length ∨ 0 ∈ bytes)
    (hnone : fromUtf8 (beforeZero n bytes) = none) :
    tryStringFromBytes n bytes = .error (.err .invalid) := by
  rw [tryStringFromBytes_eq h, strFromUtf8, hnone, error_bind]

/-- A slice that is shorter than the limit and has no terminator is cut behind its end. -/
lemma tryStringFromBytes_panic (h : bytes.length < n) (hzero : 0 ∉ bytes) :
    tryStringFromBytes n bytes = .error .panic := by
  have hnone : (bytes.take (min bytes.length n)).findIdx? (· == 0) = none := by
    rw [min_eq_left h.le, List.take_length, List.findIdx?_eq_none_iff]
    intro b hb
    exact beq_eq_false_iff_ne.mpr fun hbz => hzero (hbz ▸ hb)
  rw [tryStringFromBytes]
  simp only [slice_considered, ok_bind, hnone]
  rw [slice, if_neg (by omega), error_bind]

lemma keepsText_iff : KeepsText n bytes ↔ n ≤ bytes.length ∨ 0 ∈ bytes := by
  unfold KeepsText
  constructor
  · intro hkeeps
    by_contra h
    push Not at h
    rw [tryStringFromBytes_panic h.1 h.2] at hkeeps
    split at hkeeps
    · obtain ⟨_, hok, -⟩ := hkeeps
      cases hok
    · cases hkeeps
  · intro h
    split
    next htext => exact tryStringFromBytes_of_fromUtf8 h htext
    next hnone => exact tryStringFromBytes_of_none h hnone

lemma descKeepsPrefix_iff {message : String} : DescKeepsPrefix message ↔
    IsCharBoundary message (min message.utf8ByteSize maxDescMsgLen) := by
  constructor
  · rintro ⟨desc, rest, hok, -⟩
    by_contra h
    rw [descFromStr, strTo_panic h, error_bind] at hok
    cases hok
  · intro h
    obtain ⟨t, rest, hok, happ, hsize⟩ := strTo_ok (ε := Empty) h
    have hle : t.utf8ByteSize ≤ maxDescMsgLen := by omega
    refine ⟨⟨⟨t, hle⟩⟩, rest, ?_, happ⟩
    rw [descFromStr, hok, ok_bind, HString.tryFrom_of_le hle]
    rfl

lemma versionKeepsPrefix_iff {s : HString n} : VersionKeepsPrefix s ↔
    IsCharBoundary s.str (min versionStringMaxLen s.str.utf8ByteSize) := by
  by_cases hfits : s.str.utf8ByteSize ≤ versionStringMaxLen
  · -- the whole string fits, and its end is a boundary
    have hok : intoVersionString s = .ok ⟨s.str, hfits⟩ := by
      rw [intoVersionString, HString.tryFrom_of_le hfits]
    rw [min_eq_right hfits]
    exact iff_of_true ⟨_, "", hok, String.append_empty.symm⟩ (isCharBoundary_utf8ByteSize _)
  · have heq : intoVersionString s =
        (strTo s.str (min versionStringMaxLen s.str.utf8ByteSize) >>= fun part =>
          pure ((HString.new.pushStr part).getD HString.new)) := by
      rw [intoVersionString, HString.tryFrom_of_lt (by omega)]
    constructor
    · rintro ⟨version, rest, hok, -⟩
      by_contra h
      rw [heq, strTo_panic h, error_bind] at hok
      cases hok
    · intro h
      obtain ⟨t, rest, hok, happ, hsize⟩ := strTo_ok (ε := Empty) h
      have hle : t.utf8ByteSize ≤ versionStringMaxLen := by omega
      refine ⟨⟨t, hle⟩, rest, ?_, happ⟩
      rw [heq, hok, ok_bind, HString.pushStr, HString.str_new, String.empty_append,
        HString.tryFrom_of_le hle]
      rfl

end Total

/-- Each conversion gives the first part of its input iff its cut falls inside of the input and on a
character boundary; otherwise it panics. -/
theorem bounded_strings_iff (n : ℕ) (bytes : List UInt8) (message : String) {m : ℕ} (s : HString m) :
    (KeepsText n bytes ↔ n ≤ bytes.length ∨ 0 ∈ bytes) ∧
    (DescKeepsPrefix message ↔ IsCharBoundary message (min message.utf8ByteSize maxDescMsgLen)) ∧
    (VersionKeepsPrefix s ↔ IsCharBoundary s.str (min versionStringMaxLen s.str.utf8ByteSize)) :=
  ⟨keepsText_iff, descKeepsPrefix_iff, versionKeepsPrefix_iff⟩

/-- Three bytes for nine characters, and a two-byte character across byte 16 -/
theorem bounded_strings_panic :
    tryStringFromBytes 9 [0x41, 0x42, 0x43] = .error .panic ∧
    descFromStr "waterlevel 1234µm" = .error .panic ∧
    intoVersionString (⟨"waterlevel 1234µm", by decide⟩ : HString 64) = .error .panic := by
  decide

example : descFromStr "sensor 4" = .ok ⟨⟨"sensor 4", by decide⟩⟩ := by decide

end SensorLink.Protocol
