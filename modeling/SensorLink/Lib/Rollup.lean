import Mathlib.Algebra.Order.Group.Multiset
import Mathlib.Algebra.Order.Ring.Int
import Mathlib.Data.Multiset.Dedup
import Mathlib.Data.Multiset.Filter
import Mathlib.Order.WithBot
import Mathlib.Data.Multiset.Lattice
import Mathlib.Tactic.Common

/-!
Rolling up documents with times: the documents of one time bucket and one label become one document. A
view that is refreshed only from its latest document on is the same as one that is computed as a whole,
as long as its source changes only from there on.
-/

namespace SensorLink.Lib

/-- A document has a time, a label that it is grouped by, and a value. -/
structure Doc (K V : Type*) where
  time : ℤ
  label : K
  value : V
deriving DecidableEq

namespace Rollup

variable {K V : Type*}

/-- The start of the bucket that a time is in. -/
def bucket (unit time : ℤ) : ℤ := time / unit * unit

/-- The documents that are put together. -/
def key (unit : ℤ) (d : Doc K V) : ℤ × K := (bucket unit d.time, d.label)

/-- What identifies a document of a view. -/
def ident (d : Doc K V) : ℤ × K := (d.time, d.label)

/-- The time of the latest document -/
def latest? (docs : Multiset (Doc K V)) : WithBot ℤ := (docs.map fun d => (d.time : WithBot ℤ)).sup

/-- The time of the latest document, 0 when there is none. -/
def latest (docs : Multiset (Doc K V)) : ℤ := (latest? docs).unbotD 0

/-! ### Buckets -/

section Bucket

variable {unit time : ℤ}

lemma bucket_le (h : 0 < unit) : bucket unit time ≤ time := Int.ediv_mul_le _ h.ne'

lemma lt_bucket_add (h : 0 < unit) : time < bucket unit time + unit := by
  have hlt := Int.lt_ediv_add_one_mul_self time h
  rwa [add_mul, one_mul] at hlt

lemma dvd_bucket : unit ∣ bucket unit time := Dvd.intro_left _ rfl

lemma le_bucket (h : 0 < unit) {date : ℤ} (hdvd : unit ∣ date) (hle : date ≤ time) :
    date ≤ bucket unit time := by
  obtain ⟨n, rfl⟩ := hdvd
  unfold bucket
  rw [mul_comm unit n] at hle ⊢
  exact Int.mul_le_mul_of_nonneg_right ((Int.le_ediv_iff_mul_le h).mpr hle) h.le

/-- Between two bucket starts there is a whole bucket. -/
lemma add_le_of_lt {a b : ℤ} (ha : unit ∣ a) (hb : unit ∣ b) (hlt : a < b) : a + unit ≤ b := by
  have hdvd := Int.le_of_dvd (by omega) (Int.dvd_sub hb ha)
  omega

end Bucket

/-! ### The latest document -/

lemma latest?_eq (docs : Multiset (Doc K V)) :
    latest? docs = ⊥ ∨ ∃ d ∈ docs, (d.time : WithBot ℤ) = latest? docs := by
  induction docs using Multiset.induction_on with
  | empty => exact .inl rfl
  | cons d docs ih =>
    right
    have hcons : latest? (d ::ₘ docs) = (d.time : WithBot ℤ) ⊔ latest? docs := by
      unfold latest?
      rw [Multiset.map_cons, Multiset.sup_cons]
    rw [hcons]
    rcases le_total (latest? docs) (d.time : WithBot ℤ) with hle | hle
    · exact ⟨d, Multiset.mem_cons_self _ _, (sup_eq_left.mpr hle).symm⟩
    · rw [sup_eq_right.mpr hle]
      rcases ih with hbot | ⟨d', hmem, heq⟩
      · exact absurd (hbot ▸ hle) (WithBot.bot_lt_coe _).not_ge
      · exact ⟨d', Multiset.mem_cons_of_mem hmem, heq⟩

/-- The latest time is that of a document, or 0. -/
lemma latest_eq (docs : Multiset (Doc K V)) : latest docs = 0 ∨ ∃ d ∈ docs, d.time = latest docs := by
  unfold latest
  rcases latest?_eq docs with hbot | ⟨d, hmem, heq⟩
  · exact .inl (by rw [hbot]; rfl)
  · exact .inr ⟨d, hmem, by rw [← heq]; rfl⟩

lemma le_latest {docs : Multiset (Doc K V)} {d : Doc K V} (h : d ∈ docs) : d.time ≤ latest docs := by
  have hle : (d.time : WithBot ℤ) ≤ latest? docs :=
    Multiset.le_sup (Multiset.mem_map_of_mem (fun d : Doc K V => (d.time : WithBot ℤ)) h)
  unfold latest
  cases hl : latest? docs with
  | bot =>
    rw [hl] at hle
    exact absurd hle (WithBot.bot_lt_coe _).not_ge
  | coe t =>
    rw [hl] at hle
    exact WithBot.coe_le_coe.mp hle

/-! ### Groups -/

variable [DecidableEq K] (f : Multiset V → V)

/-- One document for each bucket and label; `f` makes its value. -/
def group (unit : ℤ) (docs : Multiset (Doc K V)) : Multiset (Doc K V) :=
  (docs.map (key unit)).dedup.map fun k => ⟨k.1, k.2, f ((docs.filter (key unit · = k)).map Doc.value)⟩

/-- Documents that are there already are replaced. -/
def merge (dest new : Multiset (Doc K V)) : Multiset (Doc K V) :=
  dest.filter (fun d => ident d ∉ new.map ident) + new

/-- The documents of the source from `date` on are merged into the view. -/
def refresh (unit : ℤ) (src dest : Multiset (Doc K V)) (date : ℤ) : Multiset (Doc K V) :=
  merge dest (group f unit (src.filter (date ≤ ·.time)))

variable {f} {unit : ℤ} {docs src src' dest : Multiset (Doc K V)}

lemma map_ident_group : (group f unit docs).map ident = (docs.map (key unit)).dedup := by
  unfold group
  rw [Multiset.map_map]
  exact Multiset.map_id _

lemma mem_ident_group {k : ℤ × K} : k ∈ (group f unit docs).map ident ↔ ∃ s ∈ docs, key unit s = k := by
  rw [map_ident_group, Multiset.mem_dedup, Multiset.mem_map]

lemma nodup_group : ((group f unit docs).map ident).Nodup := by
  rw [map_ident_group]
  exact Multiset.nodup_dedup _

lemma mem_group {d : Doc K V} : d ∈ group f unit docs ↔
    (∃ s ∈ docs, key unit s = ident d) ∧
      d.value = f ((docs.filter (key unit · = ident d)).map Doc.value) := by
  unfold group
  simp only [Multiset.mem_map, Multiset.mem_dedup]
  constructor
  · rintro ⟨k, hk, rfl⟩
    exact ⟨hk, rfl⟩
  · rintro ⟨hk, hvalue⟩
    refine ⟨ident d, hk, ?_⟩
    rw [← hvalue]
    rfl

/-- The groups of the documents from a bucket start on -/
lemma mem_group_filter (hpos : 0 < unit) {date : ℤ} (hdvd : unit ∣ date) {d : Doc K V} :
    d ∈ group f unit (src.filter (date ≤ ·.time)) ↔ date ≤ d.time ∧ d ∈ group f unit src := by
  have hsame : date ≤ d.time → (src.filter (date ≤ ·.time)).filter (key unit · = ident d) =
      src.filter (key unit · = ident d) := by
    intro hle
    rw [Multiset.filter_filter]
    refine Multiset.filter_congr fun s _ => and_iff_left_of_imp fun hkey => ?_
    have htime : bucket unit s.time = d.time := congrArg Prod.fst hkey
    exact hle.trans (htime ▸ bucket_le hpos)
  rw [mem_group, mem_group]
  constructor
  · rintro ⟨⟨s, hs, hkey⟩, hvalue⟩
    obtain ⟨hs, hle⟩ := Multiset.mem_filter.mp hs
    have htime : bucket unit s.time = d.time := congrArg Prod.fst hkey
    have hdate : date ≤ d.time := htime ▸ le_bucket hpos hdvd hle
    exact ⟨hdate, ⟨s, hs, hkey⟩, by rw [hvalue, hsame hdate]⟩
  · rintro ⟨hdate, ⟨s, hs, hkey⟩, hvalue⟩
    have htime : bucket unit s.time = d.time := congrArg Prod.fst hkey
    refine ⟨⟨s, Multiset.mem_filter.mpr ⟨hs, ?_⟩, hkey⟩, by rw [hvalue, hsame hdate]⟩
    exact hdate.trans (htime ▸ bucket_le hpos)

/-! ### Settled views -/

variable (f unit src dest) in
/-- The documents of the view before its latest one are those of its source. -/
structure Settled : Prop where
  nodup : (dest.map ident).Nodup
  aligned : ∀ d ∈ dest, unit ∣ d.time
  nonneg : ∀ d ∈ dest, 0 ≤ d.time
  source : ∀ d ∈ dest, ∃ s ∈ src, key unit s = ident d
  below : ∀ d : Doc K V, d.time < latest dest → (d ∈ dest ↔ d ∈ group f unit src)

lemma Settled.empty : Settled f unit (0 : Multiset (Doc K V)) 0 where
  nodup := Multiset.nodup_zero
  aligned := by simp
  nonneg := by simp
  source := by simp
  below := by simp [mem_group]

lemma Settled.latest_nonneg (h : Settled f unit src dest) : 0 ≤ latest dest := by
  rcases latest_eq dest with heq | ⟨d, hmem, heq⟩
  · exact heq.ge
  · exact heq ▸ h.nonneg d hmem

lemma Settled.dvd_latest (h : Settled f unit src dest) : unit ∣ latest dest := by
  rcases latest_eq dest with heq | ⟨d, hmem, heq⟩
  · exact heq ▸ Int.dvd_zero _
  · exact heq ▸ h.aligned d hmem

/-- The view is not ahead of its source. -/
lemma Settled.latest_le (h : Settled f unit src dest) (hpos : 0 < unit) (hsrc : 0 ≤ latest src) :
    latest dest ≤ latest src := by
  rcases latest_eq dest with heq | ⟨d, hmem, heq⟩
  · exact heq ▸ hsrc
  · obtain ⟨s, hs, hkey⟩ := h.source d hmem
    have htime : bucket unit s.time = d.time := congrArg Prod.fst hkey
    rw [← heq, ← htime]
    exact (bucket_le hpos).trans (le_latest hs)

/-- A view that was computed as a whole -/
lemma Settled.group (hpos : 0 < unit) (hsrc : ∀ s ∈ src, 0 ≤ s.time) :
    Settled f unit src (group f unit src) where
  nodup := nodup_group
  aligned := by
    intro d hd
    obtain ⟨⟨s, -, hkey⟩, -⟩ := mem_group.mp hd
    have htime : bucket unit s.time = d.time := congrArg Prod.fst hkey
    exact htime ▸ dvd_bucket
  nonneg := by
    intro d hd
    obtain ⟨⟨s, hs, hkey⟩, -⟩ := mem_group.mp hd
    have htime : bucket unit s.time = d.time := congrArg Prod.fst hkey
    exact htime ▸ le_bucket hpos (Int.dvd_zero _) (hsrc s hs)
  source d hd := (mem_group.mp hd).1
  below _ _ := Iff.rfl

/-- **Refreshing a settled view** gives what is computed as a whole. -/
theorem Settled.refresh_eq (h : Settled f unit src dest) (hpos : 0 < unit) :
    refresh f unit src dest (latest dest) = Rollup.group f unit src := by
  have hdvd := h.dvd_latest
  set new := Rollup.group f unit (src.filter (latest dest ≤ ·.time)) with hnew
  have hlate : ∀ k ∈ new.map ident, latest dest ≤ k.1 := by
    intro k hk
    obtain ⟨s, hs, rfl⟩ := mem_ident_group.mp hk
    exact le_bucket hpos hdvd (Multiset.mem_filter.mp hs).2
  have hnodup : (refresh f unit src dest (latest dest)).Nodup := by
    refine Multiset.Nodup.of_map ident ?_
    unfold refresh merge
    rw [Multiset.map_add, Multiset.nodup_add]
    refine ⟨Multiset.nodup_of_le (Multiset.map_le_map (Multiset.filter_le _ _)) h.nodup, nodup_group, ?_⟩
    rw [Multiset.disjoint_left]
    intro k hk hk'
    obtain ⟨d, hd, rfl⟩ := Multiset.mem_map.mp hk
    exact (Multiset.mem_filter.mp hd).2 hk'
  refine (Multiset.Nodup.ext hnodup (Multiset.Nodup.of_map ident nodup_group)).mpr fun d => ?_
  unfold refresh merge
  rw [Multiset.mem_add, Multiset.mem_filter, ← hnew]
  by_cases hlt : d.time < latest dest
  · -- Before the latest document nothing is replaced.
    have hkeep : ident d ∉ new.map ident := fun hk => absurd (hlate _ hk) (not_le.mpr hlt)
    have hold : d ∉ new := fun hd => hkeep (Multiset.mem_map_of_mem _ hd)
    rw [← h.below d hlt]
    exact ⟨fun hd => hd.elim And.left fun hd => absurd hd hold, fun hd => .inl ⟨hd, hkeep⟩⟩
  · rw [hnew, mem_group_filter hpos hdvd]
    constructor
    · rintro (⟨hd, hkeep⟩ | hd)
      · obtain ⟨s, hs, hkey⟩ := h.source d hd
        refine absurd (mem_ident_group.mpr ⟨s, Multiset.mem_filter.mpr ⟨hs, ?_⟩, hkey⟩) hkeep
        have htime : bucket unit s.time = d.time := congrArg Prod.fst hkey
        exact (not_lt.mp hlt).trans (htime ▸ bucket_le hpos)
      · exact hd.2
    · intro hd
      exact .inr ⟨not_lt.mp hlt, hd⟩

/-- The source changes from the latest document of the view on. -/
lemma Settled.change (h : Settled f unit src dest) (hpos : 0 < unit)
    (hkeys : ∀ s ∈ src, ∃ s' ∈ src', ident s' = ident s)
    (hsame : src'.filter (·.time < latest dest) = src.filter (·.time < latest dest)) :
    Settled f unit src' dest where
  nodup := h.nodup
  aligned := h.aligned
  nonneg := h.nonneg
  source := by
    intro d hd
    obtain ⟨s, hs, hkey⟩ := h.source d hd
    obtain ⟨s', hs', hident⟩ := hkeys s hs
    refine ⟨s', hs', ?_⟩
    rw [← hkey]
    unfold key
    rw [show s'.time = s.time from congrArg Prod.fst hident,
      show s'.label = s.label from congrArg Prod.snd hident]
  below := by
    intro d hlt
    rw [h.below d hlt]
    -- A bucket that starts before the latest document ends before it.
    by_cases hal : unit ∣ d.time
    · have hfilter : ∀ docs : Multiset (Doc K V), docs.filter (key unit · = ident d) =
          (docs.filter (·.time < latest dest)).filter (key unit · = ident d) := by
        intro docs
        rw [Multiset.filter_filter]
        refine Multiset.filter_congr fun s _ => (and_iff_left_of_imp fun hkey => ?_).symm
        have htime : bucket unit s.time = d.time := congrArg Prod.fst hkey
        have hend := add_le_of_lt hal h.dvd_latest hlt
        have hin : s.time < bucket unit s.time + unit := lt_bucket_add hpos
        omega
      have hex : ∀ docs : Multiset (Doc K V), (∃ s ∈ docs, key unit s = ident d) ↔
          docs.filter (key unit · = ident d) ≠ 0 := by
        intro docs
        rw [Ne, Multiset.filter_eq_nil]
        push Not
        rfl
      rw [mem_group, mem_group, hex, hex, hfilter src, hfilter src', hsame]
    · have hnot : ∀ docs : Multiset (Doc K V), d ∉ Rollup.group f unit docs := by
        intro docs hd
        obtain ⟨⟨s, -, hkey⟩, -⟩ := mem_group.mp hd
        have htime : bucket unit s.time = d.time := congrArg Prod.fst hkey
        exact hal (htime ▸ dvd_bucket)
      exact iff_of_false (hnot _) (hnot _)

/-- Refreshing a view changes nothing before its date. -/
lemma refresh_filter_lt (hpos : 0 < unit) {date b : ℤ} (hdvd : unit ∣ date) (hle : b ≤ date) :
    (refresh f unit src dest date).filter (·.time < b) = dest.filter (·.time < b) := by
  have hlate : ∀ k ∈ (Rollup.group f unit (src.filter (date ≤ ·.time))).map ident, date ≤ k.1 := by
    intro k hk
    obtain ⟨s, hs, rfl⟩ := mem_ident_group.mp hk
    exact le_bucket hpos hdvd (Multiset.mem_filter.mp hs).2
  have hnew : (Rollup.group f unit (src.filter (date ≤ ·.time))).filter (·.time < b) = 0 := by
    refine Multiset.filter_eq_nil.mpr fun d hd hlt => ?_
    exact absurd (hlate _ (Multiset.mem_map_of_mem _ hd)) (not_le.mpr (lt_of_lt_of_le hlt hle))
  unfold refresh merge
  rw [Multiset.filter_add, Multiset.filter_filter, hnew, add_zero]
  refine Multiset.filter_congr fun d _ => and_iff_left_of_imp fun hlt hk => ?_
  exact absurd (hlate _ hk) (not_le.mpr (lt_of_lt_of_le hlt hle))

/-- Refreshing a view keeps what identifies its documents. -/
lemma exists_ident_refresh {date : ℤ} {d : Doc K V} (h : d ∈ dest) :
    ∃ d' ∈ refresh f unit src dest date, ident d' = ident d := by
  unfold refresh merge
  by_cases hk : ident d ∈ (Rollup.group f unit (src.filter (date ≤ ·.time))).map ident
  · obtain ⟨d', hd', heq⟩ := Multiset.mem_map.mp hk
    exact ⟨d', Multiset.mem_add.mpr (.inr hd'), heq⟩
  · exact ⟨d, Multiset.mem_add.mpr (.inl (Multiset.mem_filter.mpr ⟨h, hk⟩)), rfl⟩

end Rollup

end SensorLink.Lib
