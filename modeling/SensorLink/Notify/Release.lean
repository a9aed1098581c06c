import Mathlib.Algebra.Group.Nat.Defs
import Mathlib.Data.List.Induction
import SensorLink.Notify.Throttle

/-!
# The time that the rate limiter answers

It is the earliest one: before it some window is still too full, from it on none is. The sends of a window
only get fewer while nothing is recorded, and the index that the limiter computes is that of the last send
that has to leave.
-/

namespace SensorLink.Notify

open Throttle

/-- `count` more sends fit in the window that ends at `t`, or it is empty. -/
def WindowFits (sends : List ℕ) (t window limit count : ℕ) : Prop :=
  inWindow sends t window + count ≤ limit ∨ inWindow sends t window = 0

lemma lt_of_mem_dropWhile {sends : List ℕ} (hsorted : sends.Pairwise (· ≤ ·)) {cutoff x : ℕ}
    (hx : x ∈ sends.dropWhile (· ≤ cutoff)) : cutoff < x := by
  induction sends with
  | nil => cases hx
  | cons y sends ih =>
    obtain ⟨hfirst, hrest⟩ := List.pairwise_cons.mp hsorted
    by_cases hy : y ≤ cutoff
    · rw [List.dropWhile_cons_of_pos (by simpa using hy)] at hx
      exact ih hrest hx
    · rw [List.dropWhile_cons_of_neg (by simpa using hy)] at hx
      rcases List.mem_cons.mp hx with rfl | hx
      · omega
      · have hle := hfirst x hx
        omega

/-- When the newest sends are in the window, there are at least that many. -/
lemma sub_le_inWindow {sends : List ℕ} {t window k : ℕ} (h : ∀ x ∈ sends.drop k, x ≤ t ∧ t < x + window) :
    sends.length - k ≤ inWindow sends t window := by
  have hall : inWindow (sends.drop k) t window = (sends.drop k).length := by
    refine List.countP_eq_length.mpr fun x hx => ?_
    simpa using h x hx
  rw [← List.take_append_drop k sends, inWindow_append, hall, List.take_append_drop, List.length_drop]
  exact Nat.le_add_left _ _

namespace RateLimiter

variable {r : RateLimiter} {now t window limit count : ℕ}

/-- Where the window begins -/
lemma drop_firstInWindow (hsorted : r.sends.Pairwise (· ≤ ·)) :
    ∀ x ∈ r.sends.drop (r.firstInWindow now window), now < x + window := by
  intro x hx
  unfold firstInWindow checkedSub at hx
  by_cases hle : window ≤ now
  · simp only [if_pos hle] at hx
    have hdrop : r.sends.drop (r.sends.takeWhile (· ≤ now - window)).length =
        r.sends.dropWhile (· ≤ now - window) := by
      have hleft : (r.sends.takeWhile (· ≤ now - window) ++ r.sends.dropWhile (· ≤ now - window)).drop
          (r.sends.takeWhile (· ≤ now - window)).length = r.sends.dropWhile (· ≤ now - window) :=
        List.drop_left
      rwa [List.takeWhile_append_dropWhile] at hleft
    rw [hdrop] at hx
    have hlt := lt_of_mem_dropWhile hsorted hx
    omega
  · omega

lemma firstInWindow_le : r.firstInWindow now window ≤ r.sends.length := by
  unfold firstInWindow
  split
  · exact (List.takeWhile_prefix _).length_le
  · exact Nat.zero_le _

/-- The index arithmetic counts the window. -/
lemma inWindow_eq_sub (hsorted : r.sends.Pairwise (· ≤ ·)) (hpast : ∀ x ∈ r.sends, x ≤ now) :
    inWindow r.sends now window = r.sends.length - r.firstInWindow now window := by
  refine le_antisymm (inWindow_le_sub fun x hx => add_window_le_of_mem_take hx) ?_
  exact sub_le_inWindow fun x hx =>
    ⟨hpast x (List.mem_of_mem_drop hx), drop_firstInWindow hsorted x hx⟩

/-- The sends from an index on are not earlier than the one there. -/
lemma le_of_mem_drop {sends : List ℕ} (hsorted : sends.Pairwise (· ≤ ·)) {k x y : ℕ}
    (hy : sends[k]? = some y) (hx : x ∈ sends.drop k) : y ≤ x := by
  obtain ⟨hk, rfl⟩ := List.getElem?_eq_some_iff.mp hy
  obtain ⟨i, hi, rfl⟩ := List.mem_drop_iff_getElem.mp hx
  rcases Nat.eq_zero_or_pos i with rfl | hpos
  · exact le_rfl
  · exact List.pairwise_iff_getElem.mp hsorted k (k + i) hk (by omega) (by omega)

/-- The arithmetic of one window neither underflows nor leaves the queue. Lengths of what is in memory do
not overflow it. -/
structure NoUnderflow (r : RateLimiter) (now window limit count : ℕ) : Prop where
  first : r.firstInWindow now window ≤ r.sends.length
  expire : limit < r.sends.length - r.firstInWindow now window + count →
    r.sends.length - r.firstInWindow now window ≠ 0 →
      let mustExpire := min (r.sends.length - r.firstInWindow now window + count - limit)
        (r.sends.length - r.firstInWindow now window)
      1 ≤ r.firstInWindow now window + mustExpire ∧
        r.firstInWindow now window + mustExpire - 1 < r.sends.length
  sum : r.sends.length < 2 ^ 63 → count < 2 ^ 63 →
    r.sends.length - r.firstInWindow now window + count < 2 ^ 64

lemma noUnderflow (r : RateLimiter) (now window limit count : ℕ) :
    NoUnderflow r now window limit count where
  first := firstInWindow_le
  expire hfull hne := by
    have hfirst : r.firstInWindow now window ≤ r.sends.length := firstInWindow_le
    simp only
    omega
  sum hsends hcount := by omega

/-- What one window answers: nothing if the sends fit now, else the time when the last send that has to leave
it does. -/
lemma windowRelease_cases (hsorted : r.sends.Pairwise (· ≤ ·)) (hpast : ∀ x ∈ r.sends, x ≤ now)
    (window limit count : ℕ) :
    WindowFits r.sends now window limit count ∧ r.windowRelease now window limit count = none ∨
      ¬WindowFits r.sends now window limit count ∧
        ∃ d, r.windowRelease now window limit count = some d ∧
          ∀ t, now ≤ t → t < d → ¬WindowFits r.sends t window limit count := by
  have hcount : inWindow r.sends now window = r.sends.length - r.firstInWindow now window :=
    inWindow_eq_sub hsorted hpast
  unfold WindowFits
  rw [hcount]
  unfold windowRelease
  by_cases hfit : r.sends.length - r.firstInWindow now window + count ≤ limit
  · exact .inl ⟨.inl hfit, if_pos hfit⟩
  by_cases hempty : r.sends.length - r.firstInWindow now window = 0
  · exact .inl ⟨.inr hempty, by simp only [if_neg hfit, if_pos hempty]⟩
  refine .inr ⟨not_or.mpr ⟨hfit, hempty⟩, ?_⟩
  simp only [if_neg hfit, if_neg hempty]
  set k := r.firstInWindow now window
  set m := min (r.sends.length - k + count - limit) (r.sends.length - k) with hm
  have hindex : k + m - 1 < r.sends.length := by omega
  rw [List.getElem?_eq_getElem hindex]
  refine ⟨r.sends[k + m - 1] + window, rfl, fun t hle hlt => ?_⟩
  -- the last send that has to leave and all after it are still there
  have hleft : r.sends.length - (k + m - 1) ≤ inWindow r.sends t window := by
    refine sub_le_inWindow fun x hx => ⟨(hpast x (List.mem_of_mem_drop hx)).trans hle, ?_⟩
    have hge := le_of_mem_drop hsorted (List.getElem?_eq_getElem hindex) hx
    omega
  omega

end RateLimiter

/-! ### All windows -/

/-- `count` more sends at `t` are within all limits. -/
def Fits (config : ThrottleConfig) (all : List ℕ) (t count : ℕ) : Prop :=
  ∀ w ∈ config.windows, WindowFits all t w.1 w.2 count

section Answer

variable {config : ThrottleConfig} {limiter : RateLimiter} {all : List ℕ} {t now count : ℕ}

/-- The limiter sees all sends. -/
lemma Tracks.fits_iff (h : Tracks config limiter all t) (hle : t ≤ now) :
    Fits config all now count ↔ Fits config limiter.sends now count := by
  refine forall₂_congr fun w hw => ?_
  unfold WindowFits
  rw [h.inWindow_eq hle (le_day_of_mem_windows hw)]

lemma nextAllowed_eq_none_iff (h : Tracks config limiter all now) :
    (limiter.nextAllowed now count).1 = none ↔ Fits config all now count := by
  have hprune := h.prune le_rfl
  have hwindow (w : ℕ × ℕ) :=
    RateLimiter.windowRelease_cases hprune.sorted_sends hprune.past_sends w.1 w.2 count
  rw [hprune.fits_iff le_rfl]
  unfold RateLimiter.nextAllowed
  rw [List.max?_eq_none_iff, List.filterMap_eq_nil_iff, hprune.config]
  refine forall₂_congr fun w _ => ?_
  rcases hwindow w with ⟨hfits, hnone⟩ | ⟨hfull, d, hsome, -⟩
  · exact iff_of_true hnone hfits
  · exact iff_of_false (by rw [hsome]; exact Option.some_ne_none d) hfull

/-- **The answer is the earliest time**, if nothing is recorded. -/
theorem nextAllowed_eq_some {T : ℕ} (h : Tracks config limiter all now)
    (hanswer : (limiter.nextAllowed now count).1 = some T) :
    now < T ∧ ∀ t, now ≤ t → (Fits config all t count ↔ T ≤ t) := by
  have hprune := h.prune le_rfl
  have hfits : ∀ t, now ≤ t → (Fits config all t count ↔ T ≤ t) := by
    intro t hle
    rw [hprune.fits_iff hle]
    constructor
    · intro hfits
      by_contra hlt
      obtain ⟨w, hw, hrelease⟩ := List.mem_filterMap.mp (List.max?_eq_some_iff.mp hanswer).1
      rw [hprune.config] at hw
      rcases RateLimiter.windowRelease_cases hprune.sorted_sends hprune.past_sends w.1 w.2 count with
        ⟨-, hnone⟩ | ⟨-, d, hsome, hbefore⟩
      · rw [hnone] at hrelease
        cases hrelease
      · obtain rfl : d = T := Option.some.inj (hsome.symm.trans hrelease)
        exact hbefore t hle (Nat.not_le.mp hlt) (hfits w hw)
    · intro hT w hw
      refine RateLimiter.nextAllowed_spec h.sorted_sends hle (fun d hd => ?_) w (h.config ▸ hw)
      obtain rfl : T = d := Option.some.inj (hanswer.symm.trans hd)
      exact hT
  refine ⟨?_, hfits⟩
  by_contra hle
  have hnone := (nextAllowed_eq_none_iff h).mpr ((hfits now le_rfl).mpr (Nat.not_lt.mp hle))
  rw [hanswer] at hnone
  cases hnone

end Answer

/-! ### Histories -/

/-- A call to the limiter, at a time -/
inductive LimiterCall where
  | record (now count : ℕ)
  | nextAllowed (now count : ℕ)
deriving DecidableEq

namespace LimiterCall

def time : LimiterCall → ℕ
  | record now _ => now
  | nextAllowed now _ => now

/-- What the call records -/
def sends : LimiterCall → List ℕ
  | record now count => List.replicate count now
  | nextAllowed _ _ => []

def run (limiter : RateLimiter) : LimiterCall → RateLimiter
  | record now count => limiter.record now count
  | nextAllowed now count => (limiter.nextAllowed now count).2

end LimiterCall

/-- The limiter after a history of calls -/
def RateLimiter.after (config : ThrottleConfig) (calls : List LimiterCall) : RateLimiter :=
  calls.foldl LimiterCall.run (.new config)

/-- The sends of a history -/
def allSends (calls : List LimiterCall) : List ℕ := calls.flatMap LimiterCall.sends

/-- The calls of a history are made one after another, and before `now`. -/
def InOrder (calls : List LimiterCall) (now : ℕ) : Prop :=
  (calls.map LimiterCall.time ++ [now]).Pairwise (· ≤ ·)

instance (calls : List LimiterCall) (now : ℕ) : Decidable (InOrder calls now) :=
  inferInstanceAs (Decidable (List.Pairwise _ _))

section History

variable {config : ThrottleConfig} {calls : List LimiterCall} {now count : ℕ}

lemma InOrder.le (h : InOrder calls now) : ∀ c ∈ calls, c.time ≤ now := fun c hc =>
  (List.pairwise_append.mp h).2.2 c.time (List.mem_map_of_mem hc) now (List.mem_singleton_self now)

lemma InOrder.init {c : LimiterCall} (h : InOrder (calls ++ [c]) now) : InOrder calls c.time := by
  unfold InOrder at h
  rw [List.map_append] at h
  exact (List.pairwise_append.mp h).1

/-- The limiter after a history, by induction on its last call -/
lemma tracks_after (h : InOrder calls now) :
    Tracks config (RateLimiter.after config calls) (allSends calls) now := by
  induction calls using List.reverseRecOn generalizing now with
  | nil => exact .new config now
  | append_singleton calls c ih =>
    have hcall : Tracks config (c.run (RateLimiter.after config calls)) (allSends calls ++ c.sends)
        c.time := by
      cases c with
      | record now count => exact (ih h.init).record le_rfl count
      | nextAllowed now count =>
        rw [LimiterCall.sends, List.append_nil]
        exact (ih h.init).prune le_rfl
    have hrun : RateLimiter.after config (calls ++ [c]) = c.run (RateLimiter.after config calls) := by
      unfold RateLimiter.after
      rw [List.foldl_append]
      rfl
    have hsends : allSends (calls ++ [c]) = allSends calls ++ c.sends := by
      unfold allSends
      rw [List.flatMap_append, List.flatMap_singleton]
    rw [hrun, hsends]
    exact hcall.mono (h.le c (by simp))

/-- **The answer of the limiter is exact.** It is none iff the sends fit now, and else the time from which on
they fit, for all queries before the next record; no index or difference underflows. -/
theorem nextAllowed_exact (config : ThrottleConfig) (calls : List LimiterCall) (now count : ℕ)
    (h : InOrder calls now) :
    (((RateLimiter.after config calls).nextAllowed now count).1 = none ↔
      Fits config (allSends calls) now count) ∧
    (∀ T, ((RateLimiter.after config calls).nextAllowed now count).1 = some T → now < T ∧
      ∀ queries t, (∀ q ∈ queries, LimiterCall.sends q = []) →
        InOrder (calls ++ .nextAllowed now count :: queries) t →
        (((RateLimiter.after config (calls ++ .nextAllowed now count :: queries)).nextAllowed t count).1 =
          none ↔ T ≤ t)) ∧
    ∀ w ∈ config.windows,
      ((RateLimiter.after config calls).prune now).NoUnderflow now w.1 w.2 count := by
  refine ⟨nextAllowed_eq_none_iff (tracks_after h), fun T hanswer => ?_,
    fun w _ => RateLimiter.noUnderflow ..⟩
  obtain ⟨hlater, hfits⟩ := nextAllowed_eq_some (tracks_after h) hanswer
  refine ⟨hlater, fun queries t hqueries horder => ?_⟩
  have hle : now ≤ t := horder.le (.nextAllowed now count) (by simp)
  have hsends : allSends (calls ++ .nextAllowed now count :: queries) = allSends calls := by
    unfold allSends
    rw [List.flatMap_append, List.flatMap_cons, List.flatMap_eq_nil_iff.mpr hqueries]
    simp [LimiterCall.sends]
  rw [nextAllowed_eq_none_iff (tracks_after horder), hsends]
  exact hfits t hle

/-- Two sends a minute, and a history of two -/
theorem nextAllowed_exact_two :
    (((RateLimiter.after ⟨2, 100, 100, 10⟩ [.record 0 1, .record 10 1]).nextAllowed 10 1).1 = none ↔
      Fits ⟨2, 100, 100, 10⟩ (allSends [.record 0 1, .record 10 1]) 10 1) ∧
    (∀ T, ((RateLimiter.after ⟨2, 100, 100, 10⟩ [.record 0 1, .record 10 1]).nextAllowed 10 1).1 = some T →
      10 < T ∧ ∀ queries t, (∀ q ∈ queries, LimiterCall.sends q = []) →
        InOrder ([.record 0 1, .record 10 1] ++ .nextAllowed 10 1 :: queries) t →
        (((RateLimiter.after ⟨2, 100, 100, 10⟩
            ([.record 0 1, .record 10 1] ++ .nextAllowed 10 1 :: queries)).nextAllowed t 1).1 = none ↔
          T ≤ t)) ∧
    ∀ w ∈ (⟨2, 100, 100, 10⟩ : ThrottleConfig).windows,
      ((RateLimiter.after ⟨2, 100, 100, 10⟩ [.record 0 1, .record 10 1]).prune 10).NoUnderflow 10 w.1 w.2 1 :=
  nextAllowed_exact _ _ 10 1 (by decide)

example : ((RateLimiter.after ⟨2, 100, 100, 10⟩ [.record 0 1, .record 10 1]).nextAllowed 10 1).1 =
    some minute := by decide

end History

end SensorLink.Notify
