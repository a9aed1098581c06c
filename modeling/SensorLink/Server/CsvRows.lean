import SensorLink.Server.SensorData

/-!
# The rows of several channels

`as_csv` makes a row for every time of the first channel, and reads all channels at the index of the row. A
sample has its own time when its channel has the times of the first one, as far as it goes.
-/

namespace SensorLink.Server

namespace MPSensorDataChannels

variable {DC F : Type} (data : List (MPSensorData F))

/-- Which sample of a channel is in a row: the one at its index, if there is one. -/
def shownSample (index : ℕ) (d : MPSensorData F) : Option ℕ :=
  if index < d.values.length then some index else none

/-- The rows, with the sample that each shows of each channel -/
def shownRows : List (ℤ × List (Option ℕ)) :=
  match data with
  | [] => []
  | first :: _ => first.time.mapIdx fun index ts => (ts, data.map (shownSample index))

/-- The text of a cell -/
def renderCell (format : CsvFormat DC F) (d : MPSensorData F) (sample : Option ℕ) : String :=
  format.number ((sample.bind fun i => d.values[i]?).getD format.nan)

/-- A sample of a channel occurs in a row, in the column of its channel. -/
def OccursIn (row channel sample : ℕ) : Prop :=
  ∃ r ∈ (shownRows data)[row]?, r.2[channel]? = some (some sample)

/-- Every sample of every channel occurs in exactly one row, with its own time. -/
def RowsCarrySamples : Prop :=
  ∀ channel d, data[channel]? = some d → ∀ (sample : ℕ) (ts : ℤ), d.time[sample]? = some ts →
    (∃! row, OccursIn data row channel sample) ∧
      ∀ row, OccursIn data row channel sample → (shownRows data)[row]?.map Prod.fst = some ts

/-- The times of every channel are the first ones of the first channel. -/
def SharesTimes : Prop := ∀ first ∈ data.head?, ∀ d ∈ data, d.time <+: first.time

section Rows

variable {data}

lemma getElem?_shownRows {first : MPSensorData F} (hfirst : data.head? = some first) (row : ℕ) :
    (shownRows data)[row]? = first.time[row]?.map fun ts => (ts, data.map (shownSample row)) := by
  cases data with
  | nil => cases hfirst
  | cons d rest =>
    obtain rfl : d = first := Option.some.inj hfirst
    exact List.getElem?_mapIdx

lemma renderCell_shownSample (format : CsvFormat DC F) (d : MPSensorData F) (index : ℕ) :
    renderCell format d (shownSample index d) = format.number (d.values[index]?.getD format.nan) := by
  unfold renderCell shownSample
  split
  · rfl
  · next hge =>
    rw [List.getElem?_eq_none (Nat.not_lt.mp hge)]
    rfl

/-- The rows of CSV are the rendered ones, but for the columns of frequency and percentage. -/
theorem asCsv_eq_shownRows (data : List (MPSensorData F)) (format : CsvFormat DC F)
    (includeFreq includePerc : Bool) :
    (asCsv format data includeFreq includePerc).map (List.take (data.length + 1)) =
      (shownRows data).map fun row =>
        toString row.1 :: List.zipWith (renderCell format) data row.2 := by
  have hcells (index : ℕ) : (columns format data includeFreq includePerc index).take data.length =
      List.zipWith (renderCell format) data (data.map (shownSample index)) := by
    unfold columns
    rw [List.append_assoc, List.take_left' (List.length_map _), List.zipWith_map_right, List.zipWith_self]
    exact List.map_congr_left fun d _ => (renderCell_shownSample format d index).symm
  cases data with
  | nil => rfl
  | cons first rest =>
    unfold asCsv shownRows
    refine List.ext_getElem? fun i => ?_
    simp only [List.getElem?_map, List.getElem?_mapIdx, Option.map_map]
    refine congrArg (Option.map · first.time[i]?) (funext fun ts => ?_)
    exact congrArg (toString ts :: ·) (hcells i)

lemma occursIn_iff {first d : MPSensorData F} (hfirst : data.head? = some first) {row channel sample : ℕ}
    (hd : data[channel]? = some d) :
    OccursIn data row channel sample ↔
      row < first.time.length ∧ row = sample ∧ sample < d.values.length := by
  unfold OccursIn
  rw [getElem?_shownRows hfirst]
  have hcell : (data.map (shownSample row))[channel]? = some (some sample) ↔
      row = sample ∧ sample < d.values.length := by
    rw [List.getElem?_map, hd, Option.map_some, Option.some.injEq]
    unfold shownSample
    split <;> simp only [Option.some.injEq, reduceCtorEq, false_iff] <;> omega
  constructor
  · rintro ⟨r, hr, hshown⟩
    obtain ⟨ts, hts, rfl⟩ := Option.map_eq_some_iff.mp hr
    exact ⟨(List.getElem?_eq_some_iff.mp hts).1, hcell.mp hshown⟩
  · rintro ⟨hlt, hsample⟩
    exact ⟨_, Option.map_eq_some_iff.mpr ⟨_, List.getElem?_eq_getElem hlt, rfl⟩, hcell.mpr hsample⟩

lemma rowsCarrySamples_iff {first : MPSensorData F} (hfirst : data.head? = some first)
    (hcolumns : ∀ d ∈ data, d.values.length = d.time.length) :
    RowsCarrySamples data ↔ ∀ d ∈ data, d.time <+: first.time := by
  have htime (row : ℕ) : (shownRows data)[row]?.map Prod.fst = first.time[row]? := by
    rw [getElem?_shownRows hfirst, Option.map_map]
    exact Option.map_id'
  constructor
  · intro h d hmem
    obtain ⟨channel, hd⟩ := List.mem_iff_getElem?.mp hmem
    refine List.prefix_iff_getElem?.mpr fun sample hlt => ?_
    obtain ⟨⟨row, hrow, -⟩, hown⟩ := h channel d hd sample _ (List.getElem?_eq_getElem hlt)
    obtain rfl := ((occursIn_iff hfirst hd).mp hrow).2.1
    rw [← htime]
    exact hown row hrow
  · intro h channel d hd sample ts hts
    have hmem := List.mem_of_getElem? hd
    obtain ⟨hlt, hat⟩ := List.getElem?_eq_some_iff.mp hts
    have hfirst' : first.time[sample]? = some ts := by
      rw [← hat]
      exact List.prefix_iff_getElem?.mp (h d hmem) sample hlt
    have hoccurs (row : ℕ) : OccursIn data row channel sample ↔ row = sample := by
      rw [occursIn_iff hfirst hd, hcolumns d hmem]
      refine ⟨fun hrow => hrow.2.1, ?_⟩
      rintro rfl
      exact ⟨(List.getElem?_eq_some_iff.mp hfirst').1, rfl, hlt⟩
    refine ⟨⟨sample, (hoccurs sample).mpr rfl, fun row hrow => (hoccurs row).mp hrow⟩, fun row hrow => ?_⟩
    rw [htime, (hoccurs row).mp hrow]
    exact hfirst'

lemma carries_iff_sharesTimes (hcolumns : ∀ d ∈ data, d.values.length = d.time.length) :
    (RowsCarrySamples data ∧ (isEmpty data = true ↔ ∀ d ∈ data, d.time = [])) ↔ SharesTimes data := by
  cases hhead : data.head? with
  | none =>
    obtain rfl := List.head?_eq_none_iff.mp hhead
    refine iff_of_true ⟨?_, by simp [isEmpty]⟩ ?_
    · intro channel d hd
      cases hd
    · intro first hfirst
      cases hfirst
  | some first =>
    have hmem : first ∈ data := List.mem_of_mem_head? hhead
    have hshares : SharesTimes data ↔ ∀ d ∈ data, d.time <+: first.time := by
      unfold SharesTimes
      rw [hhead]
      simp only [Option.mem_some_iff, forall_eq']
    rw [rowsCarrySamples_iff hhead hcolumns, hshares, and_iff_left_iff_imp]
    intro hprefix
    unfold isEmpty
    rw [hhead]
    simp only [Option.all_some, List.isEmpty_iff]
    refine ⟨fun hempty d hd => ?_, fun h => h first hmem⟩
    have hd' := hprefix d hd
    rw [hempty] at hd'
    exact List.prefix_nil.mp hd'

/-- **When the rows carry the samples**, and an empty batch is one without samples: iff the times of every
channel are the first ones of the first channel. The rows of CSV show what `shownRows` says. -/
theorem csvRows_iff (data : List (MPSensorData F)) (hcolumns : ∀ d ∈ data, d.values.length = d.time.length) :
    (∀ (format : CsvFormat DC F) includeFreq includePerc,
      (asCsv format data includeFreq includePerc).map (List.take (data.length + 1)) =
        (shownRows data).map fun row => toString row.1 :: List.zipWith (renderCell format) data row.2) ∧
    ((RowsCarrySamples data ∧ (isEmpty data = true ↔ ∀ d ∈ data, d.time = [])) ↔ SharesTimes data) :=
  ⟨asCsv_eq_shownRows data, carries_iff_sharesTimes hcolumns⟩

end Rows

/-- A channel whose column of values is that of its times -/
def timesOnly (time : List ℤ) : MPSensorData ℤ := ⟨time, time, time, time, none, none⟩

/-- A channel that starts late, and one that stops early -/
theorem csvRows_iff_late :
    ¬SharesTimes [timesOnly [0, 1000], timesOnly [1000]] ∧
      RowsCarrySamples [timesOnly [0, 1000], timesOnly [0]] := by
  have h := @csvRows_iff Unit ℤ
  refine ⟨fun hshares => ?_,
    ((h [timesOnly [0, 1000], timesOnly [0]] (by decide)).2.mpr fun first hfirst d hd => ?_).1⟩
  · have hle := hshares _ rfl (timesOnly [1000]) (by simp)
    exact absurd hle (by decide)
  · obtain rfl : timesOnly [0, 1000] = first := Option.some.inj hfirst
    simp only [List.mem_cons, List.not_mem_nil, or_false] at hd
    rcases hd with rfl | rfl
    · exact List.prefix_refl _
    · exact ⟨[1000], rfl⟩

/-- The sample of a late channel is in a row of another time, and a batch whose first channel has no samples
is taken for an empty one. -/
theorem csvRows_late :
    ¬RowsCarrySamples [timesOnly [0, 1000], timesOnly [1000]] ∧
      isEmpty [timesOnly [], timesOnly [1000]] = true ∧ (timesOnly [1000]).time ≠ [] := by
  refine ⟨fun h => ?_, rfl, by decide⟩
  have hrow := (h 1 (timesOnly [1000]) rfl 0 1000 rfl).2 0 ⟨_, rfl, rfl⟩
  exact absurd hrow (by decide)

end MPSensorDataChannels

end SensorLink.Server
