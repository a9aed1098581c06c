import SensorLink.Notify.Release

/-!
# The idle time of a batch

How long the windows of a minute and of an hour can hold an e-mail back. When the limit of the hour is at
least sixty times that of the minute, the hour is sixty minutes of which none is over its limit, and has
room as soon as the last of them has.
-/

namespace SensorLink.Notify

open Throttle

/-- The windows that the idle time takes into account -/
def ThrottleConfig.idleWindows (config : ThrottleConfig) : List (ℕ × ℕ) :=
  [(minute, config.perMinute), (hour, config.perHour)]

/-- What `next_allowed` answers without the window of a day -/
def RateLimiter.idleRelease (r : RateLimiter) (now count : ℕ) : Option ℕ :=
  (r.config.idleWindows.filterMap fun w => (r.prune now).windowRelease now w.1 w.2 count).max?

/-- Every record is of one up to `perMinute` sends, and was made when the windows of a minute and of an hour
allowed it. -/
def Paced (config : ThrottleConfig) (calls : List LimiterCall) : Prop :=
  ∀ before t c, before ++ [.record t c] <+: calls →
    1 ≤ c ∧ c ≤ config.perMinute ∧ (RateLimiter.after config before).idleRelease t c = none

/-! ### Windows of windows -/

/-- A window is at most its two parts. -/
lemma inWindow_add_le (sends : List ℕ) (t first rest : ℕ) :
    inWindow sends t (first + rest) ≤ inWindow sends t first + inWindow sends (t - first) rest := by
  unfold inWindow
  induction sends with
  | nil => simp
  | cons x sends ih =>
    have hx : (if x ≤ t ∧ t < x + (first + rest) then 1 else 0) ≤
        (if x ≤ t ∧ t < x + first then 1 else 0) +
          (if x ≤ t - first ∧ t - first < x + rest then 1 else 0) := by
      split_ifs <;> omega
    simp only [List.countP_cons, decide_eq_true_eq]
    omega

lemma inWindow_mul_le {sends : List ℕ} {limit window : ℕ} (h : ∀ t, inWindow sends t window ≤ limit)
    (n t : ℕ) : inWindow sends t (n * window) ≤ n * limit := by
  induction n generalizing t with
  | zero =>
    rw [Nat.zero_mul, Nat.zero_mul, Nat.le_zero]
    refine List.countP_eq_zero.mpr fun x _ => ?_
    simp only [decide_eq_true_eq, Nat.add_zero]
    omega
  | succ n ih =>
    have hfirst := h t
    have hrest := ih (t - window)
    have hadd := inWindow_add_le sends t window (n * window)
    rw [Nat.succ_mul, Nat.succ_mul, Nat.add_comm (n * window)]
    omega

/-- With all sends in the past, a later window has no more of them. -/
lemma inWindow_anti {sends : List ℕ} {s t window : ℕ} (hpast : ∀ x ∈ sends, x ≤ s) (hle : s ≤ t) :
    inWindow sends t window ≤ inWindow sends s window := by
  refine List.countP_mono_left fun x hx => ?_
  have := hpast x hx
  simp only [decide_eq_true_eq]
  omega

lemma inWindow_replicate_le (c s t window : ℕ) : inWindow (List.replicate c s) t window ≤ c :=
  (inWindow_le _ _ _).trans_eq (List.length_replicate ..)

/-! ### One answer -/

section Answer

variable {config : ThrottleConfig} {limiter : RateLimiter} {all : List ℕ} {now count : ℕ}

/-- What a window answers, in terms of all sends -/
lemma Tracks.windowRelease_cases (h : Tracks config limiter all now) {window : ℕ} (hday : window ≤ day)
    (limit count : ℕ) :
    WindowFits all now window limit count ∧
        (limiter.prune now).windowRelease now window limit count = none ∨
      ∃ d, (limiter.prune now).windowRelease now window limit count = some d ∧ now < d ∧
        ∀ t, now ≤ t → (WindowFits all t window limit count ↔ d ≤ t) := by
  have hprune := h.prune le_rfl
  have hall : ∀ t, now ≤ t → (WindowFits all t window limit count ↔
      WindowFits (limiter.prune now).sends t window limit count) := by
    intro t hle
    unfold WindowFits
    rw [hprune.inWindow_eq hle hday]
  rcases RateLimiter.windowRelease_cases hprune.sorted_sends hprune.past_sends window limit count with
    ⟨hnow, hnone⟩ | ⟨hnow, d, hsome, hbefore⟩
  · exact .inl ⟨(hall now le_rfl).mpr hnow, hnone⟩
  · have hfrom : ∀ t, now ≤ t → d ≤ t → WindowFits (limiter.prune now).sends t window limit count := by
      intro t hle hd
      refine RateLimiter.windowRelease_spec hprune.sorted_sends hle fun d' hd' => ?_
      obtain rfl : d = d' := Option.some.inj (hsome.symm.trans hd')
      exact hd
    refine .inr ⟨d, hsome, Nat.not_le.mp fun hd => hnow (hfrom now le_rfl hd), fun t hle => ?_⟩
    rw [hall t hle]
    exact ⟨fun hfits => Nat.not_lt.mp fun hlt => hbefore t hle hlt hfits, hfrom t hle⟩

/-- No window answers a time after all sends have left it. -/
lemma Tracks.windowRelease_le (h : Tracks config limiter all now) {window limit d : ℕ} (hday : window ≤ day)
    (hanswer : (limiter.prune now).windowRelease now window limit count = some d) : d ≤ now + window := by
  rcases h.windowRelease_cases hday limit count with ⟨-, hnone⟩ | ⟨d', hsome, -, hfits⟩
  · rw [hnone] at hanswer
    cases hanswer
  · obtain rfl : d' = d := Option.some.inj (hsome.symm.trans hanswer)
    refine (hfits _ (Nat.le_add_right _ _)).mp (.inr (inWindow_eq_zero fun x hx => ?_))
    exact Nat.add_le_add_right (h.past x hx) window

lemma minute_le_day : minute ≤ day := by decide

lemma hour_le_day : hour ≤ day := by decide

/-- The answer is that of one of the windows. -/
lemma Tracks.idleRelease_eq_some (h : Tracks config limiter all now) {T : ℕ}
    (hanswer : limiter.idleRelease now count = some T) :
    ∃ w ∈ config.idleWindows, (limiter.prune now).windowRelease now w.1 w.2 count = some T := by
  rw [← h.config]
  exact List.mem_filterMap.mp (List.max?_eq_some_iff.mp hanswer).1

lemma Tracks.idleRelease_eq_none (h : Tracks config limiter all now) :
    limiter.idleRelease now count = none ↔
      ∀ w ∈ config.idleWindows, (limiter.prune now).windowRelease now w.1 w.2 count = none := by
  unfold RateLimiter.idleRelease
  rw [List.max?_eq_none_iff, List.filterMap_eq_nil_iff, h.config]

/-- **No answer is later than an hour.** -/
theorem Tracks.idleRelease_le_hour (h : Tracks config limiter all now) {T : ℕ}
    (hanswer : limiter.idleRelease now count = some T) : T ≤ now + hour := by
  obtain ⟨w, hw, hrelease⟩ := h.idleRelease_eq_some hanswer
  simp only [ThrottleConfig.idleWindows, List.mem_cons, List.not_mem_nil, or_false] at hw
  rcases hw with rfl | rfl
  · have hle := h.windowRelease_le minute_le_day hrelease
    have : minute ≤ hour := by decide
    omega
  · exact h.windowRelease_le hour_le_day hrelease

end Answer

/-! ### Paced histories -/

section Paced

variable {config : ThrottleConfig} {calls : List LimiterCall} {now count : ℕ}

lemma Paced.init {c : LimiterCall} (h : Paced config (calls ++ [c])) : Paced config calls :=
  fun before t c hbefore => h before t c (hbefore.trans (List.prefix_append _ _))

lemma allSends_append (calls : List LimiterCall) (c : LimiterCall) :
    allSends (calls ++ [c]) = allSends calls ++ c.sends := by
  unfold allSends
  rw [List.flatMap_append, List.flatMap_singleton]

/-- No minute is over its limit, by induction on the last call. -/
theorem Paced.inWindow_minute_le (hpaced : Paced config calls) (horder : InOrder calls now) (t : ℕ) :
    inWindow (allSends calls) t minute ≤ config.perMinute := by
  induction calls using List.reverseRecOn generalizing now t with
  | nil => exact Nat.zero_le _
  | append_singleton calls c ih =>
    have hold := ih hpaced.init horder.init
    rw [allSends_append, inWindow_append]
    cases c with
    | nextAllowed s count => simpa [LimiterCall.sends, inWindow] using hold t
    | record s c =>
      obtain ⟨-, hc, hallowed⟩ := hpaced calls s c (List.prefix_refl _)
      have htracks : Tracks config (RateLimiter.after config calls) (allSends calls) s :=
        tracks_after horder.init
      have hroom : inWindow (allSends calls) s minute + c ≤ config.perMinute := by
        rcases htracks.windowRelease_cases minute_le_day config.perMinute c with
          ⟨hfits | hempty, -⟩ | ⟨d, hsome, -⟩
        · exact hfits
        · omega
        · have hnone := htracks.idleRelease_eq_none.mp hallowed (minute, config.perMinute)
            List.mem_cons_self
          rw [hsome] at hnone
          cases hnone
      have hnew := inWindow_replicate_le c s t minute
      change inWindow (allSends calls) t minute + inWindow (List.replicate c s) t minute ≤ config.perMinute
      rcases Nat.lt_or_ge t s with hlt | hge
      · -- the new sends are after this minute
        have hnone : inWindow (List.replicate c s) t minute = 0 := by
          refine List.countP_eq_zero.mpr fun x hx => ?_
          rw [List.eq_of_mem_replicate hx]
          simp only [decide_eq_true_eq]
          omega
        rw [hnone]
        exact hold t
      · have hanti : inWindow (allSends calls) t minute ≤ inWindow (allSends calls) s minute :=
          inWindow_anti htracks.past hge
        omega

/-- When the last minute of an hour has room, so has the hour. -/
lemma Paced.hour_fits (hpaced : Paced config calls) (horder : InOrder calls now)
    (hlimits : 60 * config.perMinute ≤ config.perHour) (hcount : count ≤ config.perMinute) {t : ℕ}
    (hfits : WindowFits (allSends calls) t minute config.perMinute count) :
    WindowFits (allSends calls) t hour config.perHour count := by
  have hlast : inWindow (allSends calls) t minute + count ≤ config.perMinute := by
    rcases hfits with hfits | hempty
    · exact hfits
    · omega
  have hrest := inWindow_mul_le (fun t => hpaced.inWindow_minute_le horder t) 59 (t - minute)
  have hadd := inWindow_add_le (allSends calls) t minute (59 * minute)
  have hhour : hour = minute + 59 * minute := by decide
  rw [← hhour] at hadd
  exact .inl (by omega)

/-- **The hour never delays** beyond the minute. -/
theorem Paced.hour_release_le (hpaced : Paced config calls) (horder : InOrder calls now)
    (hlimits : 60 * config.perMinute ≤ config.perHour) (hcount : count ≤ config.perMinute) {T : ℕ}
    (hanswer : ((RateLimiter.after config calls).prune now).windowRelease now hour config.perHour count =
      some T) :
    ∃ d, ((RateLimiter.after config calls).prune now).windowRelease now minute config.perMinute count =
      some d ∧ T ≤ d := by
  have htracks : Tracks config (RateLimiter.after config calls) (allSends calls) now := tracks_after horder
  have hhour {t : ℕ} := hpaced.hour_fits (t := t) horder hlimits hcount
  rcases htracks.windowRelease_cases hour_le_day config.perHour count with
    ⟨-, hnone⟩ | ⟨d, hsome, hlater, hfits⟩
  · rw [hnone] at hanswer
    cases hanswer
  obtain rfl : d = T := Option.some.inj (hsome.symm.trans hanswer)
  rcases htracks.windowRelease_cases minute_le_day config.perMinute count with
    ⟨hnow, -⟩ | ⟨m, hminute, hm, hfits'⟩
  · exact absurd ((hfits now le_rfl).mp (hhour hnow)) (Nat.not_le.mpr hlater)
  · exact ⟨m, hminute, (hfits m hm.le).mp (hhour ((hfits' m hm.le).mpr le_rfl))⟩

/-- The minute is over after a minute, and with it the hour. -/
lemma Paced.idleRelease_le_minute (hpaced : Paced config calls) (horder : InOrder calls now)
    (hlimits : 60 * config.perMinute ≤ config.perHour) (hcount : count ≤ config.perMinute) {T : ℕ}
    (hanswer : (RateLimiter.after config calls).idleRelease now count = some T) : T ≤ now + minute := by
  have htracks : Tracks config (RateLimiter.after config calls) (allSends calls) now := tracks_after horder
  obtain ⟨w, hw, hrelease⟩ := htracks.idleRelease_eq_some hanswer
  simp only [ThrottleConfig.idleWindows, List.mem_cons, List.not_mem_nil, or_false] at hw
  rcases hw with rfl | rfl
  · exact htracks.windowRelease_le minute_le_day hrelease
  · obtain ⟨d, hminute, hle⟩ := hpaced.hour_release_le horder hlimits hcount hrelease
    exact hle.trans (htracks.windowRelease_le minute_le_day hminute)

/-- **The idle time covers the gaps of the limiter.** When the limit of the hour is at least sixty times that
of the minute, the hour is never released after the minute, and both within a minute, which is less than the
idle time. Whatever the limits and the history are, both are released within an hour, which is less than the
idle time if the limit of the hour is the stricter one. -/
theorem idleTime_covers (config : ThrottleConfig) (calls : List LimiterCall) (now count : ℕ)
    (horder : InOrder calls now) :
    (1 ≤ config.perMinute → 60 * config.perMinute ≤ config.perHour → Paced config calls →
      1 ≤ count → count ≤ config.perMinute →
      (∀ T, ((RateLimiter.after config calls).prune now).windowRelease now hour config.perHour count =
          some T →
        ∃ d, ((RateLimiter.after config calls).prune now).windowRelease now minute config.perMinute count =
          some d ∧ T ≤ d) ∧
      ∀ T, (RateLimiter.after config calls).idleRelease now count = some T →
        T ≤ now + minute ∧ T < now + config.batchIdleTime) ∧
    ∀ T, (RateLimiter.after config calls).idleRelease now count = some T →
      T ≤ now + hour ∧ (config.perHour < 60 * config.perMinute → T < now + config.batchIdleTime) := by
  have hminute : 0 < minute := by decide
  refine ⟨fun _ hlimits hpaced _ hcount =>
    ⟨fun T => hpaced.hour_release_le horder hlimits hcount, fun T hanswer => ?_⟩, fun T hanswer => ?_⟩
  · have hle := hpaced.idleRelease_le_minute horder hlimits hcount hanswer
    unfold ThrottleConfig.batchIdleTime
    exact ⟨hle, by split <;> omega⟩
  · have hle := (tracks_after horder).idleRelease_le_hour hanswer
    refine ⟨hle, fun hstrict => ?_⟩
    unfold ThrottleConfig.batchIdleTime
    rw [if_pos (by omega)]
    omega

/-- One send a minute, and a history of one -/
theorem idleTime_covers_one :
    (RateLimiter.after ⟨1, 60, 100, 10⟩ [.record 0 1]).idleRelease 10 1 = some minute ∧
      minute < 10 + (⟨1, 60, 100, 10⟩ : ThrottleConfig).batchIdleTime := by
  have hpaced : Paced ⟨1, 60, 100, 10⟩ [.record 0 1] := by
    intro before t c hbefore
    obtain ⟨after, heq⟩ := hbefore
    cases before with
    | nil =>
      cases heq
      decide
    | cons x before => cases before <;> cases heq
  have hanswer : (RateLimiter.after ⟨1, 60, 100, 10⟩ [.record 0 1]).idleRelease 10 1 = some minute := by
    decide
  exact ⟨hanswer, (((idleTime_covers ⟨1, 60, 100, 10⟩ [.record 0 1] 10 1 (by decide)).1 (by decide)
    (by decide) hpaced le_rfl le_rfl).2 minute hanswer).2⟩

end Paced

end SensorLink.Notify
