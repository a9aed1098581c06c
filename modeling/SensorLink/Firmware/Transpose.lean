import Mathlib.Data.Matrix.Basic
import Mathlib.Data.Fin.VecNotation
import Mathlib.Tactic.FinCases
import SensorLink.Lib.DeltaSwap

/-!
# The bit matrix of `utils/bitwise/transpose.rs`

Eight rows of eight bits, held in two words of 32 bits. The leftmost bit of a row is bit 0, as the
comments on `as_slice` have it; the abstract matrix is one of Mathlib's.
-/

namespace SensorLink.Firmware

open SensorLink.Lib

/-- `Matrix8x8` -/
@[ext]
structure Matrix8x8 where
  words : BitVec 32 × BitVec 32

/-- `u32::from_be`; the targets are little-endian. -/
def fromBe (word : BitVec 32) : BitVec 32 :=
  word.extractLsb' 0 8 ++ word.extractLsb' 8 8 ++ word.extractLsb' 16 8 ++ word.extractLsb' 24 8

/-- `swap_bits` -/
def swapBits (input : BitVec 32) (nShifts : ℕ) (mask : BitVec 32) : BitVec 32 :=
  let delta := (input ^^^ (input >>> nShifts)) &&& mask
  input ^^^ delta ^^^ (delta <<< nShifts)

namespace Matrix8x8

/-- `from_le_words` -/
def fromLeWords (words : BitVec 32 × BitVec 32) : Matrix8x8 := ⟨(fromBe words.1, fromBe words.2)⟩

/-- `from_bytes` -/
def fromBytes (bytes : Fin 8 → BitVec 8) : Matrix8x8 :=
  fromLeWords (
    (bytes 3).setWidth 32 <<< 24 ||| (bytes 2).setWidth 32 <<< 16 ||| (bytes 1).setWidth 32 <<< 8 |||
      (bytes 0).setWidth 32,
    (bytes 7).setWidth 32 <<< 24 ||| (bytes 6).setWidth 32 <<< 16 ||| (bytes 5).setWidth 32 <<< 8 |||
      (bytes 4).setWidth 32 <<< 0)

/-- `((word >> n) & 0xFF) as u8` -/
def byteAt (word : BitVec 32) (n : ℕ) : BitVec 8 := ((word >>> n) &&& 0xFF#32).setWidth 8

/-- `as_slice` -/
def asSlice (m : Matrix8x8) : Fin 8 → BitVec 8 :=
  ![byteAt m.words.1 24, byteAt m.words.1 16, byteAt m.words.1 8, byteAt m.words.1 0,
    byteAt m.words.2 24, byteAt m.words.2 16, byteAt m.words.2 8, byteAt m.words.2 0]

/-- `as_reverse_slice` -/
def asReverseSlice (m : Matrix8x8) : Fin 8 → BitVec 8 :=
  ![byteAt m.words.2 0, byteAt m.words.2 8, byteAt m.words.2 16, byteAt m.words.2 24,
    byteAt m.words.1 0, byteAt m.words.1 8, byteAt m.words.1 16, byteAt m.words.1 24]

/-- `transpose` -/
def transpose (m : Matrix8x8) : Matrix8x8 :=
  let x := m.words.1
  let y := m.words.2
  -- Stage 1: transpose 16 2x2 submatrices
  let x := swapBits x 7 0x00AA00AA#32
  let y := swapBits y 7 0x00AA00AA#32
  -- Stage 2: transpose 4 4x4 submatrices
  let x := swapBits x 14 0x0000CCCC#32
  let y := swapBits y 14 0x0000CCCC#32
  -- Final step: pack the 4-bit nibbles
  ⟨((x &&& 0xF0F0F0F0#32) ||| ((y >>> 4) &&& 0x0F0F0F0F#32),
    ((x <<< 4) &&& 0xF0F0F0F0#32) ||| (y &&& 0x0F0F0F0F#32))⟩

/-! ### The abstract matrix -/

/-- The bits of eight rows, the leftmost bit of a row first -/
def bits (rows : Fin 8 → BitVec 8) : Matrix (Fin 8) (Fin 8) Bool := fun r c => (rows r).getMsbD c

lemma bits_injective : Function.Injective bits := by
  intro rows rows' h
  funext r
  refine BitVec.eq_of_getMsbD_eq fun c hc => ?_
  exact congrFun (congrFun h r) ⟨c, hc⟩

/-! ### Bytes and words -/

lemma byteAt_eq (word : BitVec 32) (n : ℕ) : byteAt word n = word.extractLsb' n 8 := by
  have hones : ∀ i : Fin 8, (0xFF#32).getLsbD i = true := by decide
  refine BitVec.eq_of_getLsbD_eq fun i hi => ?_
  have hone := hones ⟨i, hi⟩
  simp only [byteAt, BitVec.getLsbD_setWidth, BitVec.getLsbD_and, BitVec.getLsbD_ushiftRight,
    BitVec.getLsbD_extractLsb', hone, Bool.and_true]

lemma word_eq (b3 b2 b1 b0 : BitVec 8) :
    b3.setWidth 32 <<< 24 ||| b2.setWidth 32 <<< 16 ||| b1.setWidth 32 <<< 8 ||| b0.setWidth 32 =
      b3 ++ b2 ++ b1 ++ b0 := by
  refine BitVec.eq_of_getLsbD_eq fun i hi => ?_
  simp only [BitVec.getLsbD_or, BitVec.getLsbD_shiftLeft, BitVec.getLsbD_setWidth, BitVec.getLsbD_append]
  grind

section Bytes

variable (b3 b2 b1 b0 : BitVec 8)

@[simp]
lemma byteAt_append_0 : byteAt (b3 ++ b2 ++ b1 ++ b0) 0 = b0 := by
  rw [byteAt_eq]
  grind

@[simp]
lemma byteAt_append_8 : byteAt (b3 ++ b2 ++ b1 ++ b0) 8 = b1 := by
  rw [byteAt_eq]
  grind

@[simp]
lemma byteAt_append_16 : byteAt (b3 ++ b2 ++ b1 ++ b0) 16 = b2 := by
  rw [byteAt_eq]
  grind

@[simp]
lemma byteAt_append_24 : byteAt (b3 ++ b2 ++ b1 ++ b0) 24 = b3 := by
  rw [byteAt_eq]
  grind

@[simp]
lemma fromBe_append : fromBe (b3 ++ b2 ++ b1 ++ b0) = b0 ++ b1 ++ b2 ++ b3 := by
  simp only [fromBe, ← byteAt_eq, byteAt_append_0, byteAt_append_8, byteAt_append_16, byteAt_append_24]

end Bytes

/-- The rows of the matrix are the bytes that it is made of. -/
lemma asSlice_fromBytes (bytes : Fin 8 → BitVec 8) : (fromBytes bytes).asSlice = bytes := by
  have hfirst : (fromBytes bytes).words.1 = bytes 0 ++ bytes 1 ++ bytes 2 ++ bytes 3 := by
    rw [← fromBe_append, ← word_eq]
    rfl
  have hsecond : (fromBytes bytes).words.2 = bytes 4 ++ bytes 5 ++ bytes 6 ++ bytes 7 := by
    rw [← fromBe_append, ← word_eq, ← BitVec.shiftLeft_zero ((bytes 4).setWidth 32)]
    rfl
  funext r
  rw [asSlice, hfirst, hsecond]
  fin_cases r <;> simp

lemma asReverseSlice_eq (m : Matrix8x8) (r : Fin 8) : m.asReverseSlice r = m.asSlice r.rev := by
  fin_cases r <;> rfl

/-! ### Bits and words -/

/-- The first word, or the second one -/
def word (m : Matrix8x8) (second : Bool) : BitVec 32 := if second then m.words.2 else m.words.1

/-- Whether row `r` is in the second word -/
def inSecond (r : Fin 8) : Bool := 4 ≤ (r : ℕ)

/-- Where bit `c` of row `r` stands in its word -/
def bitIndex (r c : Fin 8) : ℕ := 31 - 8 * (r % 4) - c

lemma bits_asSlice (m : Matrix8x8) (r c : Fin 8) :
    bits m.asSlice r c = (m.word (inSecond r)).getLsbD (bitIndex r c) := by
  have hrow : m.asSlice r = (m.word (inSecond r)).extractLsb' (24 - 8 * (r % 4)) 8 := by
    fin_cases r <;> exact byteAt_eq _ _
  have hindex : 24 - 8 * (r % 4) + (8 - 1 - c) = bitIndex r c := by
    unfold bitIndex
    omega
  rw [bits, hrow, BitVec.getMsbD_eq_getLsbD, BitVec.getLsbD_extractLsb', hindex,
    decide_eq_true c.isLt, decide_eq_true (by omega), Bool.true_and, Bool.true_and]

/-- The rows determine the matrix. -/
lemma asSlice_injective : Function.Injective asSlice := by
  intro m m' h
  have hbits : ∀ k : Bool, ∀ i : Fin 32, ∃ r c, inSecond r = k ∧ bitIndex r c = i := by decide
  have hword : ∀ k, m.word k = m'.word k := by
    intro k
    refine BitVec.eq_of_getLsbD_eq fun i hi => ?_
    obtain ⟨r, c, rfl, hindex⟩ := hbits k ⟨i, hi⟩
    rw [← show bitIndex r c = i from hindex, ← bits_asSlice, ← bits_asSlice, h]
  ext1
  exact Prod.ext (hword false) (hword true)

/-! ### The two stages -/

/-- Where bit `i` of a word comes from after both stages -/
def stagesIndex (i : ℕ) : ℕ := swapIndex 7 0x00AA00AA#32 (swapIndex 14 0x0000CCCC#32 i)

lemma getLsbD_stages (x : BitVec 32) (i : Fin 32) :
    (swapBits (swapBits x 7 0x00AA00AA#32) 14 0x0000CCCC#32).getLsbD i = x.getLsbD (stagesIndex i) := by
  have hlt : ∀ i : Fin 32, swapIndex 14 0x0000CCCC#32 i < 32 := by decide
  have hfirst : swapBits x 7 0x00AA00AA#32 = deltaSwap x 7 0x00AA00AA#32 := rfl
  have hsecond : ∀ x, swapBits x 14 0x0000CCCC#32 = deltaSwap x 14 0x0000CCCC#32 := fun _ => rfl
  rw [hfirst, hsecond, getLsbD_deltaSwap (by decide) _ i.isLt, getLsbD_deltaSwap (by decide) _ (hlt i),
    stagesIndex]

/-- The bits of the high nibbles -/
def highNibbles : BitVec 32 := 0xF0F0F0F0#32

lemma nibble_bounds (i : Fin 32) :
    if highNibbles.getLsbD i then 4 ≤ (i : ℕ) else (i : ℕ) + 4 < 32 := by
  revert i
  decide

/-- The word that bit `i` of a word of the transpose comes from, and where it stands there -/
def source (second : Bool) (i : ℕ) : Bool × ℕ :=
  if highNibbles.getLsbD i then (false, stagesIndex (if second then i - 4 else i))
  else (true, stagesIndex (if second then i else i + 4))

lemma getLsbD_transpose (m : Matrix8x8) (second : Bool) (i : Fin 32) :
    (m.transpose.word second).getLsbD i = (m.word (source second i).1).getLsbD (source second i).2 := by
  let x := swapBits (swapBits m.words.1 7 0x00AA00AA#32) 14 0x0000CCCC#32
  let y := swapBits (swapBits m.words.2 7 0x00AA00AA#32) 14 0x0000CCCC#32
  have hx : ∀ i : Fin 32, x.getLsbD i = (m.word false).getLsbD (stagesIndex i) := getLsbD_stages _
  have hy : ∀ i : Fin 32, y.getLsbD i = (m.word true).getLsbD (stagesIndex i) := getLsbD_stages _
  have hlow : 0x0F0F0F0F#32 = ~~~highNibbles := by decide
  have hbounds := nibble_bounds i
  cases second with
  | false =>
    have hword : m.transpose.word false = (x &&& highNibbles) ||| ((y >>> 4) &&& ~~~highNibbles) := by
      rw [← hlow]
      rfl
    rw [hword, getLsbD_select _ _ _ i.isLt, source]
    by_cases hhigh : highNibbles.getLsbD i = true
    · rw [if_pos hhigh, if_pos hhigh]
      exact hx i
    · rw [if_neg hhigh] at hbounds
      rw [if_neg hhigh, if_neg hhigh, BitVec.getLsbD_ushiftRight, Nat.add_comm]
      exact hy ⟨i + 4, hbounds⟩
  | true =>
    have hword : m.transpose.word true = ((x <<< 4) &&& highNibbles) ||| (y &&& ~~~highNibbles) := by
      rw [← hlow]
      rfl
    rw [hword, getLsbD_select _ _ _ i.isLt, source]
    by_cases hhigh : highNibbles.getLsbD i = true
    · rw [if_pos hhigh] at hbounds
      rw [if_pos hhigh, if_pos hhigh, BitVec.getLsbD_shiftLeft, decide_eq_true i.isLt,
        decide_eq_false (by omega)]
      exact hx ⟨i - 4, by omega⟩
    · rw [if_neg hhigh, if_neg hhigh]
      exact hy i

/-! ### Transposition -/

/-- **The transpose of the matrix is the transpose of its bits.** -/
theorem bits_transpose (m : Matrix8x8) : bits m.transpose.asSlice = (bits m.asSlice).transpose := by
  have hsource : ∀ r c : Fin 8, source (inSecond r) (bitIndex r c) = (inSecond c, bitIndex c r) := by
    decide
  have hlt : ∀ r c : Fin 8, bitIndex r c < 32 := by decide
  funext r c
  have hbit := getLsbD_transpose m (inSecond r) ⟨bitIndex r c, hlt r c⟩
  rw [hsource] at hbit
  rw [Matrix.transpose_apply, bits_asSlice, bits_asSlice]
  exact hbit

lemma transpose_transpose (m : Matrix8x8) : m.transpose.transpose = m := by
  apply asSlice_injective
  apply bits_injective
  rw [bits_transpose, bits_transpose, Matrix.transpose_transpose]

/-- **Transposition of eight bytes.** Bit `c` of row `r` of the transpose is bit `r` of byte `c`, two
transpositions give the matrix of the bytes back, and the reverse slice has the rows in reverse order. -/
theorem transpose_of_bytes (bytes : Fin 8 → BitVec 8) :
    (∀ r c, bits (fromBytes bytes).transpose.asSlice r c = bits bytes c r) ∧
      (fromBytes bytes).transpose.transpose = fromBytes bytes ∧
      (fromBytes bytes).transpose.transpose.asSlice = bytes ∧
      ∀ r, (fromBytes bytes).transpose.asReverseSlice r = (fromBytes bytes).transpose.asSlice r.rev := by
  refine ⟨fun r c => ?_, transpose_transpose _, ?_, asReverseSlice_eq _⟩
  · rw [bits_transpose, asSlice_fromBytes, Matrix.transpose_apply]
  · rw [transpose_transpose, asSlice_fromBytes]

/-- With the rightmost bit as bit 0, the rows of the transpose are those of the reverse slice. -/
theorem getMsbD_asReverseSlice (bytes : Fin 8 → BitVec 8) (r c : Fin 8) :
    ((fromBytes bytes).transpose.asReverseSlice r).getMsbD c = (bytes c).getLsbD r := by
  have hbit : bits (fromBytes bytes).transpose.asSlice r.rev c = bits bytes c r.rev := by
    rw [bits_transpose, asSlice_fromBytes, Matrix.transpose_apply]
  have hindex : 8 - 1 - (r.rev : ℕ) = r := by
    rw [Fin.val_rev]
    omega
  rw [asReverseSlice_eq]
  refine hbit.trans ?_
  rw [bits, BitVec.getMsbD_eq_getLsbD, decide_eq_true r.rev.isLt, Bool.true_and, hindex]

example : (fromBytes ![0x80, 0xE0, 0x20, 0xF0, 0x01, 0x01, 0x01, 0x01]).transpose.asSlice =
    ![0xD0, 0x50, 0x70, 0x10, 0x00, 0x00, 0x00, 0x0F] := by decide

end Matrix8x8

end SensorLink.Firmware
