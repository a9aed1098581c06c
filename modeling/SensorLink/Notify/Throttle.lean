import Mathlib.Data.List.TakeWhile
import Mathlib.Data.Nat.Basic
import Mathlib.Tactic.Common

/-!
# Rate limiting for outgoing e-mail

`RateLimiter` has one entry for each recipient of a sent e-mail and answers when the next ones may be
sent. Times are nanoseconds since the earliest `Instant`.
-/

namespace SensorLink.Notify

namespace Throttle

def minute : ℕ := 60 * 1000000000

def hour : ℕ := 60 * 60 * 1000000000

def day : ℕ := 24 * 60 * 60 * 1000000000

end Throttle

open Throttle

structure ThrottleConfig where
  perMinute : ℕ
  perHour : ℕ
  perDay : ℕ
  maxQueued : ℕ
deriving DecidableEq, Repr

namespace ThrottleConfig

/-- How long the queue has to stay empty before a bulk of e-mail is considered done. -/
def batchIdleTime (config : ThrottleConfig) : ℕ :=
  (if config.perHour < config.perMinute * 60 then hour else minute) + minute

/-- The windows and their limits -/
def windows (config : ThrottleConfig) : List (ℕ × ℕ) :=
  [(minute, config.perMinute), (hour, config.perHour), (day, config.perDay)]

end ThrottleConfig

/-- An `Instant` that a duration is taken from, unless it would be before the earliest one. -/
def checkedSub (now duration : ℕ) : Option ℕ := if duration ≤ now then some (now - duration) else none

/-- The sends of the last day, oldest first -/
structure RateLimiter where
  config : ThrottleConfig
  sends : List ℕ
deriving DecidableEq, Repr

namespace RateLimiter

def new (config : ThrottleConfig) : RateLimiter := ⟨config, []⟩

/-- Drop sends that have fallen out of the longest window. -/
def prune (r : RateLimiter) (now : ℕ) : RateLimiter :=
  match checkedSub now day with
  | none => r
  | some cutoff => { r with sends := r.sends.dropWhile (· ≤ cutoff) }

/-- Account for `count` sends that happened at `now`. -/
def record (r : RateLimiter) (now count : ℕ) : RateLimiter :=
  { r.prune now with sends := (r.prune now).sends ++ List.replicate count now }

/-- The index of the first send that is in the window. -/
def firstInWindow (r : RateLimiter) (now window : ℕ) : ℕ :=
  match checkedSub now window with
  | some cutoff => (r.sends.takeWhile (· ≤ cutoff)).length
  | none => 0

/-- The instant at which `count` more sends fit in a single window, or `none` if they fit now. -/
def windowRelease (r : RateLimiter) (now window limit count : ℕ) : Option ℕ :=
  let inWindow := r.sends.length - r.firstInWindow now window
  if inWindow + count ≤ limit then none
  -- More recipients than the limit never fit: once the window is empty they are sent anyway.
  else if inWindow = 0 then none
  else
    let mustExpire := min (inWindow + count - limit) inWindow
    r.sends[r.firstInWindow now window + mustExpire - 1]?.map (· + window)

/-- The earliest instant at which `count` more sends fit within every window, `none` when they fit now. -/
def nextAllowed (r : RateLimiter) (now count : ℕ) : Option ℕ × RateLimiter :=
  let r := r.prune now
  ((r.config.windows.filterMap fun w => r.windowRelease now w.1 w.2 count).max?, r)

end RateLimiter

/-! ### What the limiter answers -/

/-- The sends that are in the window that ends at `t` -/
def inWindow (sends : List ℕ) (t window : ℕ) : ℕ := sends.countP fun x => x ≤ t ∧ t < x + window

lemma inWindow_append (a b : List ℕ) (t window : ℕ) :
    inWindow (a ++ b) t window = inWindow a t window + inWindow b t window :=
  List.countP_append

lemma inWindow_le (sends : List ℕ) (t window : ℕ) : inWindow sends t window ≤ sends.length :=
  List.countP_le_length

/-- Sends that are too old do not count. -/
lemma inWindow_eq_zero {sends : List ℕ} {t window : ℕ} (h : ∀ x ∈ sends, x + window ≤ t) :
    inWindow sends t window = 0 := by
  refine List.countP_eq_zero.mpr fun x hx => ?_
  have := h x hx
  simp only [decide_eq_true_eq, not_and]
  omega

namespace RateLimiter

variable {r : RateLimiter} {now t window limit count : ℕ}

/-- The sends before the first one in the window are too old. -/
lemma add_window_le_of_mem_take {x : ℕ} (h : x ∈ r.sends.take (r.firstInWindow now window)) :
    x + window ≤ now := by
  unfold firstInWindow checkedSub at h
  by_cases hle : window ≤ now
  · simp only [if_pos hle] at h
    rw [← List.prefix_iff_eq_take.mp (List.takeWhile_prefix _)] at h
    have hcutoff := List.mem_takeWhile_imp h
    simp only [decide_eq_true_eq] at hcutoff
    omega
  · simp only [if_neg hle, List.take_zero, List.not_mem_nil] at h

/-- When the oldest sends are too old, the others remain. -/
lemma inWindow_le_sub {sends : List ℕ} {k : ℕ} (h : ∀ x ∈ sends.take k, x + window ≤ t) :
    inWindow sends t window ≤ sends.length - k := by
  rw [← List.take_append_drop k sends, inWindow_append, inWindow_eq_zero h, Nat.zero_add]
  refine (inWindow_le _ _ _).trans ?_
  simp

/-- The sends up to an index are not later than the one there. -/
lemma le_of_mem_take {sends : List ℕ} (hsorted : sends.Pairwise (· ≤ ·)) {k x y : ℕ}
    (hy : sends[k]? = some y) (hx : x ∈ sends.take (k + 1)) : x ≤ y := by
  obtain ⟨i, hi, rfl⟩ := List.mem_take_iff_getElem.mp hx
  obtain ⟨hk, rfl⟩ := List.getElem?_eq_some_iff.mp hy
  rcases Nat.lt_or_ge i k with hlt | hge
  · exact List.pairwise_iff_getElem.mp hsorted i k (by omega) hk hlt
  · have heq : i = k := by omega
    subst heq
    exact le_rfl

/-- **One window.** Once the time has come that the limiter has answered, `count` more sends fit in the
window, or the window is empty. -/
theorem windowRelease_spec (hsorted : r.sends.Pairwise (· ≤ ·)) (hle : now ≤ t)
    (hrelease : ∀ d, r.windowRelease now window limit count = some d → d ≤ t) :
    inWindow r.sends t window + count ≤ limit ∨ inWindow r.sends t window = 0 := by
  have hold : inWindow r.sends t window ≤ r.sends.length - r.firstInWindow now window :=
    inWindow_le_sub fun x hx => (add_window_le_of_mem_take hx).trans hle
  by_cases hfit : r.sends.length - r.firstInWindow now window + count ≤ limit
  · exact .inl (by omega)
  · by_cases hempty : r.sends.length - r.firstInWindow now window = 0
    · exact .inr (by omega)
    · have hwait : r.windowRelease now window limit count = r.sends[r.firstInWindow now window +
          min (r.sends.length - r.firstInWindow now window + count - limit)
            (r.sends.length - r.firstInWindow now window) - 1]?.map (· + window) := by
        unfold windowRelease
        simp only [if_neg hfit, if_neg hempty]
      set k := r.firstInWindow now window
      set m := min (r.sends.length - k + count - limit) (r.sends.length - k) with hm
      have hindex : k + m - 1 < r.sends.length := by omega
      have hd : r.sends[k + m - 1] + window ≤ t := by
        apply hrelease
        rw [hwait, List.getElem?_eq_getElem hindex]
        rfl
      have hexpired : inWindow r.sends t window ≤ r.sends.length - (k + m) := by
        refine inWindow_le_sub fun x hx => ?_
        have hx : x ∈ r.sends.take (k + m - 1 + 1) := by
          rwa [show k + m - 1 + 1 = k + m by omega]
        have hmax := le_of_mem_take hsorted (List.getElem?_eq_getElem hindex) hx
        omega
      rcases Nat.le_total (r.sends.length - k + count - limit) (r.sends.length - k) with hcase | hcase
      · exact .inl (by omega)
      · exact .inr (by omega)

lemma prune_sublist : (r.prune now).sends.Sublist r.sends := by
  unfold prune
  split
  · exact .refl _
  · exact List.dropWhile_sublist _

/-- What is pruned is too old for every window. -/
lemma exists_pruned (r : RateLimiter) (now : ℕ) :
    ∃ old, r.sends = old ++ (r.prune now).sends ∧ ∀ x ∈ old, x + day ≤ now := by
  unfold prune checkedSub
  by_cases hle : day ≤ now
  · simp only [if_pos hle]
    refine ⟨r.sends.takeWhile (· ≤ now - day), List.takeWhile_append_dropWhile.symm, ?_⟩
    intro x hx
    have hcutoff := List.mem_takeWhile_imp hx
    simp only [decide_eq_true_eq] at hcutoff
    omega
  · simp only [if_neg hle]
    exact ⟨[], rfl, by simp⟩

lemma prune_config : (r.prune now).config = r.config := by
  unfold prune
  split <;> rfl

/-- **All windows.** -/
theorem nextAllowed_spec (hsorted : r.sends.Pairwise (· ≤ ·)) (hle : now ≤ t)
    (hrelease : ∀ d, (r.nextAllowed now count).1 = some d → d ≤ t) :
    ∀ w ∈ r.config.windows, inWindow (r.nextAllowed now count).2.sends t w.1 + count ≤ w.2 ∨
      inWindow (r.nextAllowed now count).2.sends t w.1 = 0 := by
  intro w hw
  refine windowRelease_spec (hsorted.sublist prune_sublist) hle fun d hd => ?_
  have hmem : d ∈ (r.prune now).config.windows.filterMap fun w =>
      (r.prune now).windowRelease now w.1 w.2 count := by
    rw [prune_config]
    exact List.mem_filterMap.mpr ⟨w, hw, hd⟩
  obtain ⟨m, hm⟩ : ∃ m, (r.nextAllowed now count).1 = some m := by
    refine Option.isSome_iff_exists.mp ?_
    unfold nextAllowed
    rw [List.isSome_max?_iff]
    exact List.ne_nil_of_mem hmem
  have hmax := (List.max?_eq_some_iff.mp hm).2 d hmem
  exact hmax.trans (hrelease m hm)

end RateLimiter

/-- Every window is within the day that the limiter knows. -/
lemma le_day_of_mem_windows {config : ThrottleConfig} {w : ℕ × ℕ} (h : w ∈ config.windows) : w.1 ≤ day := by
  simp only [ThrottleConfig.windows, List.mem_cons, List.not_mem_nil, or_false] at h
  rcases h with rfl | rfl | rfl <;> simp [minute, hour, day]

/-! ### What the limiter knows -/

/-- The sends in `all` are in order and not after `t`, and the limiter has all of them that are not too
old. -/
structure Tracks (config : ThrottleConfig) (limiter : RateLimiter) (all : List ℕ) (t : ℕ) : Prop where
  config : limiter.config = config
  sorted : all.Pairwise (· ≤ ·)
  past : ∀ x ∈ all, x ≤ t
  pruned : ∃ old, all = old ++ limiter.sends ∧ ∀ x ∈ old, x + day ≤ t

section Tracks

variable {config : ThrottleConfig} {limiter : RateLimiter} {all : List ℕ} {t now : ℕ}

lemma Tracks.new (config : ThrottleConfig) (t : ℕ) : Tracks config (.new config) [] t :=
  ⟨rfl, .nil, by simp, [], rfl, by simp⟩

lemma Tracks.prune (h : Tracks config limiter all t) (hle : t ≤ now) :
    Tracks config (limiter.prune now) all now := by
  obtain ⟨old, heq, hold⟩ := h.pruned
  obtain ⟨old', heq', hold'⟩ := limiter.exists_pruned now
  refine ⟨?_, h.sorted, fun x hx => (h.past x hx).trans hle, old ++ old', ?_, ?_⟩
  · rw [RateLimiter.prune_config, h.config]
  · rw [heq, heq', List.append_assoc]
  · intro x hx
    rcases List.mem_append.mp hx with hx | hx
    · exact (hold x hx).trans hle
    · exact hold' x hx

lemma Tracks.mono (h : Tracks config limiter all t) (hle : t ≤ now) : Tracks config limiter all now := by
  obtain ⟨old, heq, hold⟩ := h.pruned
  exact ⟨h.config, h.sorted, fun x hx => (h.past x hx).trans hle, old, heq,
    fun x hx => (hold x hx).trans hle⟩

lemma Tracks.record (h : Tracks config limiter all t) (hle : t ≤ now) (count : ℕ) :
    Tracks config (limiter.record now count) (all ++ List.replicate count now) now := by
  obtain ⟨hconfig, hsorted, hpast, old, heq, hold⟩ := h.prune hle
  refine ⟨hconfig, ?_, ?_, old, ?_, hold⟩
  · refine List.pairwise_append.mpr ⟨hsorted, List.pairwise_replicate.mpr (.inr le_rfl), ?_⟩
    intro x hx y hy
    rw [List.eq_of_mem_replicate hy]
    exact hpast x hx
  · intro x hx
    rcases List.mem_append.mp hx with hx | hx
    · exact hpast x hx
    · exact (List.eq_of_mem_replicate hx).le
  · rw [heq, List.append_assoc]
    rfl

/-- The limiter counts all sends that are in a window of at most a day. -/
lemma Tracks.inWindow_eq (h : Tracks config limiter all t) (hle : t ≤ now) {window : ℕ}
    (hwindow : window ≤ day) : inWindow all now window = inWindow limiter.sends now window := by
  obtain ⟨old, heq, hold⟩ := h.pruned
  rw [heq, inWindow_append, inWindow_eq_zero, Nat.zero_add]
  intro x hx
  have hday := hold x hx
  omega

lemma Tracks.sorted_sends (h : Tracks config limiter all t) : limiter.sends.Pairwise (· ≤ ·) := by
  obtain ⟨old, heq, -⟩ := h.pruned
  exact h.sorted.sublist (heq ▸ List.sublist_append_right _ _)

lemma Tracks.past_sends (h : Tracks config limiter all t) : ∀ x ∈ limiter.sends, x ≤ t := by
  obtain ⟨old, heq, -⟩ := h.pruned
  exact fun x hx => h.past x (heq ▸ List.mem_append_right _ hx)

end Tracks

end SensorLink.Notify
