import SensorLink.Dma.Circular
import SensorLink.Lib.Reach

/-!
# What the circular receiver gives

A sound observation finds the position of the producer, up to the wrap of the counters. A read that has
found the producer at most a ring length ahead after it has copied holds the bytes of the stream: none of
them was overwritten when it was copied.
-/

namespace SensorLink.Dma

open SensorLink.Lib

/-! ### Laps -/

section Laps

variable {len a b : ℕ}

/-- In less than a lap at most one lap ends. -/
lemma lap_cases (h : a ≤ b) (hlt : b < a + len) :
    (b / len = a / len ∧ a % len ≤ b % len) ∨ (b / len = a / len + 1 ∧ b % len < a % len) := by
  have hpos : 0 < len := by omega
  have hle : a / len ≤ b / len := Nat.div_le_div_right h
  have hge : b / len ≤ a / len + 1 := by
    rw [← Nat.add_div_right a hpos]
    exact Nat.div_le_div_right (Nat.le_of_lt hlt)
  have ha := Nat.div_add_mod a len
  have hb := Nat.div_add_mod b len
  rcases Nat.lt_or_ge (a / len) (b / len) with hlap | hlap
  · have hq : b / len = a / len + 1 := by omega
    refine .inr ⟨hq, ?_⟩
    rw [hq, Nat.mul_add_one] at hb
    omega
  · have hq : b / len = a / len := by omega
    refine .inl ⟨hq, ?_⟩
    rw [hq] at hb
    omega

/-- CNDTR has risen only if a lap has ended. -/
lemma lap_of_mod_lt (h : a ≤ b) (hlt : b % len < a % len) : a / len + 1 ≤ b / len := by
  have hle : a / len ≤ b / len := Nat.div_le_div_right h
  rcases Nat.lt_or_ge (a / len) (b / len) with hlap | hlap
  · exact hlap
  · have ha := Nat.div_add_mod a len
    have hb := Nat.div_add_mod b len
    rw [show b / len = a / len by omega] at hb
    omega

/-- One byte more -/
lemma mod_succ (hpos : 0 < len) : (a % len + 1 = len ∧ (a + 1) % len = 0 ∧ (a + 1) / len = a / len + 1) ∨
    (a % len + 1 < len ∧ (a + 1) % len = a % len + 1 ∧ (a + 1) / len = a / len) := by
  have hmod := Nat.mod_lt a hpos
  have ha := Nat.div_add_mod a len
  rcases Nat.lt_or_ge (a % len + 1) len with hlt | hge
  · refine .inr ⟨hlt, ?_, ?_⟩
    · rw [← ha, Nat.add_assoc, Nat.mul_add_mod, Nat.mod_eq_of_lt hlt, ha]
    · rw [← ha, Nat.add_assoc, Nat.mul_add_div hpos, Nat.div_eq_of_lt hlt, ha, Nat.add_zero]
  · have heq : a % len + 1 = len := by omega
    refine .inl ⟨heq, ?_, ?_⟩
    · rw [← ha, Nat.add_assoc, heq, Nat.mul_add_mod, Nat.mod_self]
    · rw [← ha, Nat.add_assoc, heq, Nat.mul_add_div hpos, Nat.div_self hpos, ha]

/-- Two positions less than a lap apart lie at different places in the ring. -/
lemma mod_ne_of_lt (h : a < b) (hlt : b < a + len) : a % len ≠ b % len := by
  intro heq
  have hdvd : len ∣ b - a := Nat.dvd_of_mod_eq_zero (Nat.sub_mod_eq_zero_of_mod_eq heq.symm)
  have := Nat.le_of_dvd (by omega) hdvd
  omega

/-- The counter that leads is adopted. -/
lemma adopt_eq {isr laps q : ℕ} (hisr : isr ≤ q) (hlaps : laps ≤ q) (h : laps = q ∨ isr = q)
    (hisr' : q < isr + 2 ^ 31) (hlaps' : q < laps + 2 ^ 31) :
    (if wrappingSub (isr % 2 ^ 32) (laps % 2 ^ 32) < 2 ^ 31 then isr % 2 ^ 32 else laps % 2 ^ 32) =
      q % 2 ^ 32 := by
  unfold wrappingSub
  split <;> omega

/-- The position is put together from the lap and the place in it. -/
lemma position_eq (len a : ℕ) :
    wrappingAdd (wrappingMul (a / len % 2 ^ 32) len) (a % len) = a % 2 ^ 32 := by
  unfold wrappingAdd wrappingMul
  rw [Nat.mod_mul_mod, Nat.mod_add_mod, Nat.div_add_mod']

lemma wrappingSub_mod (h : a ≤ b) (hlt : b < a + 2 ^ 32) :
    wrappingSub (b % 2 ^ 32) (a % 2 ^ 32) = b - a := by
  unfold wrappingSub
  omega

lemma wrappingAdd_mod (a n : ℕ) : wrappingAdd (a % 2 ^ 32) n = (a + n) % 2 ^ 32 := by
  unfold wrappingAdd
  rw [Nat.mod_add_mod]

end Laps

namespace Reception

variable {len : ℕ} {stream : ℕ → UInt8} {w : Reception}

/-! ### The invariant -/

section

variable (len : ℕ) (stream : ℕ → UInt8)

/-- What a copy of a consumer at `next` holds: the bytes it has copied are those of the stream, as long as
the producer was no more than a ring length ahead when it stood at `t`. -/
structure CopyInv (next seen readHead t toCopy : ℕ) (got : ℕ → Option UInt8) : Prop where
  seen : next + toCopy ≤ seen
  toCopy_le : toCopy ≤ len
  readHead : readHead = next % len
  got : t ≤ next + len → ∀ i < toCopy, ∀ b ∈ got i, b = stream (next + i)

variable (w : Reception)

def StageInv (t : ℕ) : Stage → Prop
  | .ready | .first _ => True
  | .second toCopy got =>
    copyDone toCopy got = true ∧ CopyInv len stream w.next w.seen (w.consumed % len) t toCopy got

/-- CNDTR was read when the consumer last looked. -/
def Looked (c : ℕ) : Prop := c = len - w.looked % len ∧ w.seen ≤ w.looked ∧ w.looked ≤ w.received

/-- What the consumer knows at each point -/
def PointInv : Prop :=
  match w.point with
  | .idle | .swap _ => Follows len stream w.log w.next
  | .ndtr stage none => Follows len stream w.log w.next ∧ w.StageInv len stream w.received stage
  | .ndtr stage (some c) | .isrLoad stage c =>
    Follows len stream w.log w.next ∧ w.Looked len c ∧ w.StageInv len stream w.looked stage
  | .copy toCopy got => Follows len stream w.log w.next ∧
    CopyInv len stream w.next w.seen (w.consumed % len) w.received toCopy got
  | .swapAgain toCopy got produced =>
    Follows len stream w.log w.next ∧ w.StageInv len stream w.seen (.second toCopy got) ∧
      w.seen ≤ w.next + len ∧ produced = w.seen % 2 ^ 32 ∧ w.looked = w.seen
  | .exit (.bytes dst) _ => ∃ a, Follows len stream w.log a ∧ a + dst.length = w.next ∧
    dst = (List.range dst.length).map fun i => stream (a + i)
  | .exit .empty _ => Follows len stream w.log w.next
  | .exit .overrun flagged => ∃ a, Follows len stream w.log a ∧
    (flagged = true ∨ a + len < w.received) ∧ w.next = w.looked

structure Inv : Prop where
  ring : ∀ k, k < w.received → w.received ≤ k + len → w.ring (k % len) = stream k
  ndtr : w.ndtr = len - w.received % len
  isrLaps : w.isrLaps = w.counted % 2 ^ 32
  counted : w.counted + (if w.tcif then 1 else 0) ≤ w.received / len
  consLaps : w.consLaps = w.seen / len % 2 ^ 32
  prev : w.consPrevNdtr = len - w.seen % len
  consumed : w.consumed = w.next % 2 ^ 32
  next_le : w.next ≤ w.seen
  seen_le : w.seen ≤ w.received
  point : w.PointInv len stream

end

lemma inv_create : (create len).Inv len stream where
  ring := by simp [create]
  ndtr := by simp [create]
  isrLaps := rfl
  counted := by simp [create]
  consLaps := by simp [create]
  prev := by simp [create]
  consumed := rfl
  next_le := Nat.le_refl _
  seen_le := Nat.le_refl _
  point := Follows.start

/-! ### The producer and the interrupt -/

lemma CopyInv.mono {next seen readHead t t' toCopy : ℕ} {got : ℕ → Option UInt8}
    (h : CopyInv len stream next seen readHead t toCopy got) (ht : t ≤ t') :
    CopyInv len stream next seen readHead t' toCopy got where
  seen := h.seen
  toCopy_le := h.toCopy_le
  readHead := h.readHead
  got := fun hle => h.got (Nat.le_trans ht hle)

lemma StageInv.mono {t t' : ℕ} {stage : Stage} (h : w.StageInv len stream t stage) (ht : t ≤ t') :
    w.StageInv len stream t' stage := by
  cases stage with
  | ready | first dst => trivial
  | second toCopy got => exact ⟨h.1, h.2.mono ht⟩

/-- What the consumer knows does not depend on what the producer does next. -/
lemma PointInv.receive (h : w.PointInv len stream) :
    PointInv len stream { w with received := w.received + 1 } := by
  have hle : w.received ≤ w.received + 1 := Nat.le_succ _
  unfold PointInv at h ⊢
  cases hpoint : w.point with
  | idle | swap => simpa only [hpoint] using h
  | ndtr stage c =>
    cases c with
    | none =>
      rw [hpoint] at h
      exact ⟨h.1, StageInv.mono (w := w) h.2 hle⟩
    | some c =>
      rw [hpoint] at h
      obtain ⟨hlog, ⟨hc, hseen, hlooked⟩, hstage⟩ := h
      exact ⟨hlog, ⟨hc, hseen, Nat.le_trans hlooked hle⟩, hstage⟩
  | isrLoad stage c =>
    rw [hpoint] at h
    obtain ⟨hlog, ⟨hc, hseen, hlooked⟩, hstage⟩ := h
    exact ⟨hlog, ⟨hc, hseen, Nat.le_trans hlooked hle⟩, hstage⟩
  | copy toCopy got =>
    rw [hpoint] at h
    exact ⟨h.1, h.2.mono hle⟩
  | swapAgain toCopy got produced =>
    rw [hpoint] at h
    exact h
  | exit result flagged =>
    rw [hpoint] at h
    cases result with
    | bytes dst => exact h
    | empty => exact h
    | overrun =>
      obtain ⟨a, hlog, hcause, hnext⟩ := h
      exact ⟨a, hlog, hcause.imp_right fun hahead => Nat.lt_succ_of_lt hahead, hnext⟩

/-- The channel writes a byte. -/
lemma Inv.byte (hpos : 0 < len) (h : w.Inv len stream) : (w.byte len stream).Inv len stream := by
  unfold Reception.byte
  split
  · have hmod := Nat.mod_lt w.received hpos
    have hndtr := h.ndtr
    have hplace : len - w.ndtr = w.received % len := by omega
    have hcounted := h.counted
    refine ⟨?_, ?_, h.isrLaps, ?_, h.consLaps, h.prev, h.consumed, h.next_le, Nat.le_succ_of_le h.seen_le,
      h.point.receive⟩
    · intro k hk hle
      show (if k % len = len - w.ndtr then stream w.received else w.ring (k % len)) = stream k
      rw [hplace]
      rcases Nat.lt_or_ge k w.received with hlt | hge
      · rw [if_neg (mod_ne_of_lt hlt (show w.received < k + len from hle))]
        exact h.ring k hlt (Nat.le_of_succ_le hle)
      · obtain rfl : k = w.received := Nat.le_antisymm (Nat.le_of_lt_succ hk) hge
        rw [if_pos rfl]
    · show (if w.ndtr = 1 then len else w.ndtr - 1) = len - (w.received + 1) % len
      rcases mod_succ (a := w.received) hpos with ⟨hlast, hzero, -⟩ | ⟨hlt, hsucc, -⟩
      · rw [if_pos (by omega), hzero, Nat.sub_zero]
      · rw [if_neg (by omega), hsucc]
        omega
    · show w.counted + (if w.tcif || decide (w.ndtr = 1) then 1 else 0) ≤ (w.received + 1) / len
      rcases mod_succ (a := w.received) hpos with ⟨-, -, hlap⟩ | ⟨hlt, -, hlap⟩
      · rw [hlap]
        split at hcounted <;> split <;> omega
      · rw [hlap, decide_eq_false (by omega), Bool.or_false]
        exact hcounted
  · exact h

/-- The flags change, and what the interrupt has counted stays behind the producer. -/
lemma Inv.flags (h : w.Inv len stream) {overrun enabled htif tcif teif : Bool} {raised : Option ℕ}
    (hcounted : w.counted + (if tcif then 1 else 0) ≤ w.received / len) :
    Reception.Inv len stream { w with
      overrun := overrun
      enabled := enabled
      htif := htif
      tcif := tcif
      teif := teif
      raised := raised } :=
  ⟨h.ring, h.ndtr, h.isrLaps, hcounted, h.consLaps, h.prev, h.consumed, h.next_le, h.seen_le, h.point⟩

/-- A lap is counted at most once, and after it has ended. -/
lemma Inv.handleInterrupt (h : w.Inv len stream) : w.handleInterrupt.Inv len stream := by
  have hcounted := h.counted
  have hle : w.counted ≤ w.received / len := Nat.le_trans (Nat.le_add_right _ _) hcounted
  unfold Reception.handleInterrupt
  split
  · exact h.flags hle
  · split
    · exact h.flags hle
    · split
      · next htc =>
        rw [if_pos htc] at hcounted
        refine ⟨h.ring, h.ndtr, ?_, hcounted, h.consLaps, h.prev, h.consumed, h.next_le, h.seen_le,
          h.point⟩
        show wrappingAdd w.isrLaps 1 = (w.counted + 1) % 2 ^ 32
        rw [h.isrLaps, wrappingAdd_mod]
      · exact h.flags hle

/-! ### An observation -/

/-- A sound observation finds the position of the producer. -/
lemma Inv.observe_eq (hpos : 0 < len) (h : w.Inv len stream) {c : ℕ} (hc : w.Looked len c)
    (hs : w.Sound len) :
    w.observe len c = ({ w with
      consPrevNdtr := c
      consLaps := w.looked / len % 2 ^ 32
      seen := w.looked }, w.looked % 2 ^ 32) := by
  obtain ⟨rfl, hseen, -⟩ := hc
  obtain ⟨hnot, hcounts, hlaps, -, -⟩ := hs
  have hmod := Nat.mod_lt w.looked hpos
  have hmod' := Nat.mod_lt w.seen hpos
  -- The laps that the consumer counts itself.
  obtain ⟨own, hown, hle, hge, hright⟩ : ∃ own,
      (if w.consPrevNdtr < len - w.looked % len then wrappingAdd w.consLaps 1 else w.consLaps) =
        own % 2 ^ 32 ∧ own ≤ w.looked / len ∧ w.seen / len ≤ own ∧
        (own = w.looked / len ∨ w.counted = w.looked / len) := by
    rw [h.prev, h.consLaps]
    split
    · next hrose =>
      have hlt : w.looked % len < w.seen % len := by omega
      refine ⟨w.seen / len + 1, wrappingAdd_mod _ _, lap_of_mod_lt hseen hlt, Nat.le_succ _, ?_⟩
      refine hcounts.imp_left fun hless => ?_
      rcases lap_cases hseen hless with ⟨-, hge⟩ | ⟨hlap, -⟩
      · omega
      · exact hlap.symm
    · next hrose =>
      refine ⟨w.seen / len, rfl, Nat.div_le_div_right hseen, Nat.le_refl _, ?_⟩
      refine hcounts.imp_left fun hless => ?_
      rcases lap_cases hseen hless with ⟨hlap, -⟩ | ⟨-, hlt⟩
      · exact hlap.symm
      · omega
  have hadopt := adopt_eq hnot hle hright (by omega) (by omega)
  unfold observe
  simp only [hown, h.isrLaps, hadopt]
  rw [Nat.sub_sub_self (Nat.le_of_lt hmod), Nat.mod_mod, position_eq]

/-- The consumer goes on; it changes neither its bookkeeping nor the ring. -/
lemma Inv.go (h : w.Inv len stream) {overrun : Bool} {looked : ℕ} {point : RxPoint} {log : List Report}
    (hp : PointInv len stream
      { w with overrun := overrun, looked := looked, point := point, log := log }) :
    Reception.Inv len stream
      { w with overrun := overrun, looked := looked, point := point, log := log } :=
  ⟨h.ring, h.ndtr, h.isrLaps, h.counted, h.consLaps, h.prev, h.consumed, h.next_le, h.seen_le, hp⟩

/-- The bookkeeping after an observation -/
lemma Inv.sighted (h : w.Inv len stream) {stage : Stage} {c : ℕ} (hpoint : w.point = .isrLoad stage c) :
    Reception.Inv len stream
      { w with consPrevNdtr := c, consLaps := w.looked / len % 2 ^ 32, seen := w.looked } := by
  have hknow := h.point
  unfold PointInv at hknow
  rw [hpoint] at hknow
  obtain ⟨hlog, ⟨hc, hseen, hlooked⟩, hstage⟩ := hknow
  refine ⟨h.ring, h.ndtr, h.isrLaps, h.counted, rfl, hc, h.consumed, Nat.le_trans h.next_le hseen,
    hlooked, ?_⟩
  unfold PointInv
  simp only [hpoint]
  refine ⟨hlog, ⟨hc, Nat.le_refl _, hlooked⟩, ?_⟩
  cases stage with
  | ready | first dst => trivial
  | second toCopy got =>
    obtain ⟨hdone, hcopy⟩ := hstage
    exact ⟨hdone, ⟨Nat.le_trans hcopy.seen hseen, hcopy.toCopy_le, hcopy.readHead, hcopy.got⟩⟩

/-- The consumer goes on where it has seen the producer. -/
lemma Inv.resync (h : w.Inv len stream) {a : ℕ} {flagged : Bool} (hlog : Follows len stream w.log a)
    (hlooked : w.looked = w.seen) (hcause : flagged = true ∨ a + len < w.received) :
    (w.resync (w.seen % 2 ^ 32) flagged).Inv len stream where
  ring := h.ring
  ndtr := h.ndtr
  isrLaps := h.isrLaps
  counted := h.counted
  consLaps := h.consLaps
  prev := h.prev
  consumed := rfl
  next_le := Nat.le_refl _
  seen_le := h.seen_le
  point := ⟨a, hlog, hcause, hlooked.symm⟩

/-- The place of the next byte in the ring is found from the counter that wraps. -/
lemma readHead_eq {next : ℕ} (h : len ∣ 2 ^ 32 ∨ next < 2 ^ 32) : next % 2 ^ 32 % len = next % len := by
  rcases h with hdvd | hlt
  · exact Nat.mod_mod_of_dvd next hdvd
  · rw [Nat.mod_eq_of_lt hlt]

/-- The consumer loads the count of the interrupt. -/
lemma Inv.isrLoad (hpos : 0 < len) (h : w.Inv len stream) {stage : Stage} {c : ℕ}
    (hpoint : w.point = .isrLoad stage c) (hs : w.Sound len) : (w.consumerStep len).Inv len stream := by
  have hknow := h.point
  unfold PointInv at hknow
  rw [hpoint] at hknow
  obtain ⟨hlog, hc, hstage⟩ := hknow
  have h' := h.sighted hpoint
  have hnext : w.next ≤ w.looked := h'.next_le
  have havail : wrappingSub (w.looked % 2 ^ 32) w.consumed = w.looked - w.next := by
    rw [h.consumed]
    exact wrappingSub_mod hnext hs.distance
  unfold consumerStep
  simp only [hpoint, h.observe_eq hpos hc hs]
  cases stage with
  | ready => exact h'.go hlog
  | first dst =>
    simp only [observed, havail]
    split
    · next hfar => exact h'.resync hlog rfl (.inr (show w.next + len < w.received by have := hc.2.2; omega))
    · split
      · exact h'.go hlog
      · refine h'.go ⟨hlog, ⟨?_, ?_, ?_, by simp⟩⟩
        · show w.next + min (w.looked - w.next) dst ≤ w.looked
          omega
        · omega
        · show w.consumed % len = w.next % len
          rw [h.consumed]
          exact readHead_eq hs.index
  | second toCopy got =>
    simp only [observed, havail]
    split
    · next hfar => exact h'.resync hlog rfl (.inr (show w.next + len < w.received by have := hc.2.2; omega))
    · next hnear =>
      have hknow' := h'.point
      unfold PointInv at hknow'
      simp only [hpoint] at hknow'
      refine h'.go ⟨hlog, hknow'.2.2, ?_, rfl, rfl⟩
      show w.looked ≤ w.next + len
      omega

/-! ### The copy -/

lemma ringIndex_eq {readHead toCopy i : ℕ} (hhead : readHead < len) (hcopy : toCopy ≤ len)
    (hi : i < toCopy) : ringIndex len readHead toCopy i = (readHead + i) % len := by
  simp only [ringIndex]
  split
  · next hfirst => rw [Nat.mod_eq_of_lt (by omega)]
  · next hfirst =>
    rw [Nat.mod_eq_sub_mod (by omega), Nat.mod_eq_of_lt (by omega)]
    omega

/-- One byte is copied. -/
lemma Inv.copyStep (hpos : 0 < len) (h : w.Inv len stream) (i : ℕ) : (w.copyStep len i).Inv len stream := by
  have hknow := h.point
  unfold PointInv at hknow
  unfold Reception.copyStep
  split
  · next toCopy got hpoint =>
    rw [hpoint] at hknow
    obtain ⟨hlog, hcopy⟩ := hknow
    split
    · next hi =>
      refine h.go ⟨hlog, ⟨hcopy.seen, hcopy.toCopy_le, hcopy.readHead, ?_⟩⟩
      intro hle j hj b hb
      dsimp only at hle hb
      split at hb
      · next hji =>
        subst hji
        obtain rfl : w.ring (ringIndex len (w.consumed % len) toCopy j) = b := Option.some.inj hb
        have hseen := hcopy.seen
        have hreceived := h.seen_le
        rw [ringIndex_eq (Nat.mod_lt _ hpos) hcopy.toCopy_le hj, hcopy.readHead, Nat.mod_add_mod]
        exact h.ring (w.next + j) (by omega) (by omega)
      · exact hcopy.got hle j hj b hb
    · exact h
  · exact h

/-- What was copied, when the producer was no more than a ring length ahead. -/
lemma CopyInv.copied_eq {next seen readHead t toCopy : ℕ} {got : ℕ → Option UInt8}
    (h : CopyInv len stream next seen readHead t toCopy got) (hdone : copyDone toCopy got = true)
    (ht : t ≤ next + len) : copied toCopy got = (List.range toCopy).map fun i => stream (next + i) := by
  unfold copied
  refine List.map_congr_left fun i hi => ?_
  have hi' : i < toCopy := List.mem_range.mp hi
  obtain ⟨b, hb⟩ := Option.isSome_iff_exists.mp (List.all_eq_true.mp hdone i hi)
  rw [hb, Option.getD_some]
  exact h.got ht i hi' b hb

/-! ### Every run -/

lemma inv_consumerStep (hpos : 0 < len) (h : w.Inv len stream) (hguard : w.Guard len .consumer) :
    (w.consumerStep len).Inv len stream := by
  have hknow := h.point
  unfold PointInv at hknow
  have hwhen := hguard.2 rfl
  cases hpoint : w.point with
  | idle =>
    simp only [consumerStep, hpoint]
    exact h
  | swap dst =>
    rw [hpoint] at hknow hwhen
    simp only [consumerStep, hpoint]
    split
    · next hflag => exact h.go ⟨w.next, hknow, .inl rfl, hwhen hflag⟩
    · exact h.go ⟨hknow, trivial⟩
  | ndtr stage c =>
    cases c with
    | none =>
      rw [hpoint] at hknow
      simp only [consumerStep, hpoint]
      exact h.go ⟨hknow.1, ⟨h.ndtr, h.seen_le, Nat.le_refl _⟩, hknow.2⟩
    | some c =>
      rw [hpoint] at hknow
      obtain ⟨hlog, ⟨-, -, hlooked⟩, hstage⟩ := hknow
      simp only [consumerStep, hpoint]
      split
      · next hc =>
        rw [hc]
        exact h.go ⟨hlog, ⟨h.ndtr, h.seen_le, Nat.le_refl _⟩, StageInv.mono (w := w) hstage hlooked⟩
      · exact h.go ⟨hlog, ⟨h.ndtr, h.seen_le, Nat.le_refl _⟩, StageInv.mono (w := w) hstage hlooked⟩
  | isrLoad stage c =>
    rw [hpoint] at hwhen
    exact h.isrLoad hpos hpoint hwhen
  | copy toCopy got =>
    rw [hpoint] at hknow
    simp only [consumerStep, hpoint]
    split
    · next hdone => exact h.go ⟨hknow.1, hdone, hknow.2⟩
    · exact h
  | swapAgain toCopy got produced =>
    rw [hpoint] at hknow
    obtain ⟨hlog, ⟨hdone, hcopy⟩, hnear, rfl, hlooked⟩ := hknow
    simp only [consumerStep, hpoint]
    split
    · have h' : Reception.Inv len stream { w with overrun := false } := h.go h.point
      exact h'.resync hlog hlooked (.inl rfl)
    · refine ⟨h.ring, h.ndtr, h.isrLaps, h.counted, h.consLaps, h.prev, ?_, hcopy.seen, h.seen_le, ?_⟩
      · show wrappingAdd w.consumed toCopy = (w.next + toCopy) % 2 ^ 32
        rw [h.consumed, wrappingAdd_mod]
      · have hlen : (copied toCopy got).length = toCopy := by simp [copied]
        refine ⟨w.next, hlog, by rw [hlen], ?_⟩
        rw [hlen]
        exact hcopy.copied_eq hdone hnear
  | exit result flagged =>
    rw [hpoint] at hknow hwhen
    simp only [consumerStep, hpoint]
    cases result with
    | bytes dst =>
      obtain ⟨a, hlog, hnext, hdst⟩ := hknow
      refine h.go ?_
      show Follows len stream _ w.next
      rw [← hnext]
      refine hlog.bytes hdst ?_
      rw [hnext]
      exact Nat.le_trans h.next_le h.seen_le
    | empty => exact h.go hknow.empty
    | overrun =>
      obtain ⟨a, hlog, hcause, hnext⟩ := hknow
      refine h.go (hlog.overrun hcause ?_)
      show w.received ≤ w.next
      exact Nat.le_of_eq (hnext.trans hwhen).symm

lemma Inv.call (h : w.Inv len stream) {point : RxPoint}
    (hp : Follows len stream w.log w.next → PointInv len stream { w with point := point }) :
    (w.call point).Inv len stream := by
  have hknow := h.point
  unfold PointInv at hknow
  unfold Reception.call
  split
  · next hpoint =>
    rw [hpoint] at hknow
    exact h.go (hp hknow)
  · exact h

lemma inv_exec (hpos : 0 < len) (op : RxOp) (h : w.Inv len stream) (hguard : w.Guard len op) :
    (w.exec len stream op).Inv len stream := by
  cases op with
  | byte => exact h.byte hpos
  | interrupt => exact h.handleInterrupt
  | transferError => exact h.flags h.counted
  | signalOverrun => exact h.go h.point
  | tryRead dst => exact h.call id
  | dataReady => exact h.call fun hlog => ⟨hlog, trivial⟩
  | consumer => exact inv_consumerStep hpos h hguard
  | copy i => exact h.copyStep hpos i

/-- What the consumer knows at every point: its results follow the stream. -/
lemma Inv.receptionOk (h : w.Inv len stream) : w.ReceptionOk len stream := by
  have hknow := h.point
  unfold PointInv at hknow
  cases hpoint : w.point with
  | idle | swap =>
    rw [hpoint] at hknow
    exact ⟨_, hknow⟩
  | ndtr stage c =>
    rw [hpoint] at hknow
    cases c <;> exact ⟨_, hknow.1⟩
  | isrLoad | copy | swapAgain =>
    rw [hpoint] at hknow
    exact ⟨_, hknow.1⟩
  | exit result flagged =>
    rw [hpoint] at hknow
    cases result with
    | empty => exact ⟨_, hknow⟩
    | bytes | overrun =>
      obtain ⟨a, hlog, -⟩ := hknow
      exact ⟨a, hlog⟩

/-- The results of the reads follow the stream, and overruns are reported as they are, in every run in which
the interrupt is timely and each step of the consumer meets what it relies on. -/
theorem reception_of_reach (hpos : 0 < len) (h : Reach (exec len stream) (Guard len) (create len) w) :
    w.ReceptionOk len stream := by
  refine Inv.receptionOk (h.invariant inv_create ?_)
  intro s op hs hguard
  exact inv_exec hpos op hs hguard

/-- A read of `n` bytes that are there, which nothing disturbs. -/
def readRun (n : ℕ) : List RxOp :=
  .tryRead n :: List.replicate 4 .consumer ++ (List.range n).map .copy ++ List.replicate 6 .consumer

/-- Five bytes come in, in a ring of four, and are read in two parts. -/
def lapRun : List RxOp :=
  [.byte, .byte, .interrupt, .byte] ++ readRun 3 ++ [.byte, .interrupt, .byte] ++ readRun 2

theorem reception_of_reach_lap :
    ReceptionOk 4 UInt8.ofNat (lapRun.foldl (exec 4 UInt8.ofNat) (create 4)) :=
  reception_of_reach (by decide) (Reach.run lapRun .start (by decide))

/-- A lap ends between the reads of CNDTR and the load of the count. -/
def inventedRun : List RxOp :=
  [.byte, .byte, .interrupt, .byte, .tryRead 4, .consumer, .consumer, .consumer, .byte, .interrupt,
    .consumer, .consumer]

/-- The lap is added to a position in the lap before: an overrun is reported with four bytes in the ring. -/
theorem reception_invented : ¬∀ len stream w, 0 < len →
    Reach (exec len stream) (Timely len) (create len) w → w.ReceptionOk len stream := by
  intro h
  have hreach : Reach (exec 4 UInt8.ofNat) (Timely 4) (create 4)
      (inventedRun.foldl (exec 4 UInt8.ofNat) (create 4)) := Reach.run inventedRun .start (by decide)
  obtain ⟨a, hlog⟩ := h 4 _ _ (by decide) hreach
  have heq : (inventedRun.foldl (exec 4 UInt8.ofNat) (create 4)).log = [⟨.overrun, 4, false⟩] := by decide
  rw [heq] at hlog
  cases hlog with
  | overrun hlog hcause _ =>
    cases hlog
    simp at hcause

end Reception

end SensorLink.Dma
