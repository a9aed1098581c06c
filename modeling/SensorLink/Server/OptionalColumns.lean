import SensorLink.Server.SensorData

/-!
# The optional columns

`add_sample` appends to the columns of frequency and percentage only what a document has, and the rows of CSV
are read from the columns of all channels at one index, with the time of the first channel. The columns belong
to the documents as long as those that have the field come first, and the rows do if the channels moreover
share the times of what is in these columns.
-/

namespace SensorLink.Server

variable {DC F α : Type}

/-- No document without the field is before one that has it. -/
def Leading (field : α → Option F) (docs : List α) : Prop :=
  docs.Pairwise fun a b => (field b).isSome → (field a).isSome

instance (field : α → Option F) (docs : List α) : Decidable (Leading field docs) :=
  inferInstanceAs (Decidable (docs.Pairwise _))

section Leading

variable {field : α → Option F} {docs : List α}

lemma filterMap_eq_nil_of_leading {doc : α} (h : Leading field (doc :: docs)) (hnone : field doc = none) :
    docs.filterMap field = [] := by
  refine List.filterMap_eq_nil_iff.mpr fun b hb => ?_
  by_contra hsome
  have hdoc := (List.pairwise_cons.mp h).1 b hb (Option.isSome_iff_ne_none.mpr hsome)
  rw [hnone] at hdoc
  cases hdoc

/-- The documents that the entries of a column come from -/
def having (field : α → Option F) (docs : List α) : List α := docs.filter fun doc => (field doc).isSome

lemma getElem?_filterMap (docs : List α) (i : ℕ) :
    (docs.filterMap field)[i]? = (having field docs)[i]?.bind field := by
  unfold having
  induction docs generalizing i with
  | nil => rfl
  | cons doc docs ih =>
    cases hdoc : field doc with
    | some v =>
      rw [List.filterMap_cons_some hdoc, List.filter_cons_of_pos (by rw [hdoc]; rfl)]
      cases i with
      | zero => exact hdoc.symm
      | succ i => exact ih i
    | none =>
      rw [List.filterMap_cons_none hdoc, List.filter_cons_of_neg (by rw [hdoc]; exact Bool.false_ne_true)]
      exact ih i

lemma having_eq_nil_iff : having field docs = [] ↔ docs.filterMap field = [] := by
  simp [having]

/-- The entry at an index comes from the document there. -/
lemma getElem?_having_of_leading (h : Leading field docs) (i : ℕ) (doc : α) :
    (having field docs)[i]? = some doc ↔ docs[i]? = some doc ∧ (field doc).isSome := by
  induction docs generalizing i with
  | nil => simp [having]
  | cons first docs ih =>
    cases hfirst : field first with
    | some v =>
      rw [having, List.filter_cons_of_pos (by rw [hfirst]; rfl), ← having]
      cases i with
      | zero =>
        rw [List.getElem?_cons_zero, List.getElem?_cons_zero]
        refine ⟨fun heq => ⟨heq, ?_⟩, And.left⟩
        rw [← Option.some.inj heq, hfirst]
        rfl
      | succ i => exact ih (List.pairwise_cons.mp h).2 i
    | none =>
      have hnil : having field (first :: docs) = [] := by
        rw [having_eq_nil_iff, List.filterMap_cons_none hfirst]
        exact filterMap_eq_nil_of_leading h hfirst
      rw [hnil]
      refine iff_of_false (by simp) ?_
      rintro ⟨hdoc, hsome⟩
      cases i with
      | zero =>
        rw [← Option.some.inj hdoc, hfirst] at hsome
        cases hsome
      | succ i =>
        have hfield := (List.pairwise_cons.mp h).1 doc (List.mem_of_getElem? hdoc) hsome
        rw [hfirst] at hfield
        cases hfield

/-- An entry of a column belongs to the document at its index. -/
def Belongs (field : α → Option F) (docs : List α) (column : List F) : Prop :=
  ∀ (i : ℕ) (v : F), column[i]? = some v → ∃ doc, docs[i]? = some doc ∧ field doc = some v

lemma belongs_iff_leading : Belongs field docs (docs.filterMap field) ↔ Leading field docs := by
  constructor
  · intro h
    induction docs with
    | nil => exact .nil
    | cons doc docs ih =>
      cases hdoc : field doc with
      | some v =>
        rw [Belongs, List.filterMap_cons_some hdoc] at h
        refine List.pairwise_cons.mpr ⟨fun b _ _ => ?_, ih fun i w hi => h (i + 1) w hi⟩
        rw [hdoc]
        rfl
      | none =>
        -- the first entry would be at the index of `doc`
        rw [Belongs, List.filterMap_cons_none hdoc] at h
        have hnil : docs.filterMap field = [] := by
          by_contra hne
          obtain ⟨v, hv⟩ := List.exists_mem_of_ne_nil _ hne
          obtain ⟨doc', hdoc', hfield⟩ := h 0 _ (List.getElem?_eq_getElem (List.length_pos_of_mem hv))
          obtain rfl : doc = doc' := Option.some.inj hdoc'
          rw [hdoc] at hfield
          cases hfield
        have hnone := List.filterMap_eq_nil_iff.mp hnil
        refine List.pairwise_cons.mpr ⟨fun b hb hsome => ?_, ?_⟩
        · rw [hnone b hb] at hsome
          cases hsome
        · refine List.pairwise_of_forall_mem_list fun a _ b hb hsome => ?_
          rw [hnone b hb] at hsome
          cases hsome
  · intro h i v hv
    rw [getElem?_filterMap] at hv
    obtain ⟨doc, hdoc, hfield⟩ := Option.bind_eq_some_iff.mp hv
    exact ⟨doc, ((getElem?_having_of_leading h i doc).mp hdoc).1, hfield⟩

end Leading

/-! ### Rows of documents -/

/-- The cells of a row, from the documents that the entries of the columns come from -/
def docCells (format : CsvFormat DC F) (channels : List (List (SensorData DC F)))
    (includeFreq includePerc : Bool) (index : ℕ) : List String :=
  (channels.map fun docs => format.number ((docs[index]?.map SensorData.value).getD format.nan)) ++
  (if includeFreq then
    channels.map fun docs =>
      format.number (((having SensorData.freq docs)[index]?.bind SensorData.freq).getD format.nan) else []) ++
  if includePerc then
    channels.map fun docs => format.number
      (format.mul100 (((having SensorData.perc docs)[index]?.bind SensorData.perc).getD format.nan))
  else []

/-- The entries of both columns belong to the documents at their index. -/
def ColumnsBelong (docs : List (SensorData DC F)) : Prop :=
  (∀ column, (MPSensorData.ofDocs docs).freq = some column → Belongs SensorData.freq docs column) ∧
    ∀ column, (MPSensorData.ofDocs docs).perc = some column → Belongs SensorData.perc docs column

/-- The entries that a row shows belong to its time: the documents that they come from have it. -/
def RowsBelong (channels : List (List (SensorData DC F))) : Prop :=
  ∀ (index : ℕ) (row : SensorData DC F), (channels.headD [])[index]? = some row → ∀ docs ∈ channels, ∀ doc,
    (having SensorData.freq docs)[index]? = some doc ∨ (having SensorData.perc docs)[index]? = some doc →
      doc.time = row.time

/-- A document with one of the fields has the time of the document of the first channel at its index. -/
def SharesTimes (channels : List (List (SensorData DC F))) : Prop :=
  ∀ (index : ℕ) (row : SensorData DC F), (channels.headD [])[index]? = some row → ∀ docs ∈ channels, ∀ doc,
    docs[index]? = some doc → doc.freq.isSome ∨ doc.perc.isSome → doc.time = row.time

section Aligned

variable {channels : List (List (SensorData DC F))}

lemma columnsBelong_iff (docs : List (SensorData DC F)) :
    ColumnsBelong docs ↔ Leading SensorData.freq docs ∧ Leading SensorData.perc docs := by
  unfold ColumnsBelong
  simp only [MPSensorData.ofDocs_eq, Option.some.injEq, forall_eq', belongs_iff_leading]

lemma columns_eq_docCells (format : CsvFormat DC F) (channels : List (List (SensorData DC F)))
    (includeFreq includePerc : Bool) (index : ℕ) :
    MPSensorDataChannels.columns format (channels.map .ofDocs) includeFreq includePerc index =
      docCells format channels includeFreq includePerc index := by
  unfold MPSensorDataChannels.columns docCells
  simp only [List.map_map, Function.comp_def, MPSensorData.ofDocs_eq, List.getElem?_map, Option.bind_some,
    getElem?_filterMap]

/-- The rows have the times of the first channel. -/
lemma asCsv_ofDocs (format : CsvFormat DC F) (channels : List (List (SensorData DC F)))
    (includeFreq includePerc : Bool) :
    MPSensorDataChannels.asCsv format (channels.map .ofDocs) includeFreq includePerc =
      (channels.headD []).mapIdx fun index row =>
        toString row.time :: docCells format channels includeFreq includePerc index := by
  have hcells := columns_eq_docCells format channels includeFreq includePerc
  cases channels with
  | nil => rfl
  | cons docs channels =>
    rw [List.map_cons] at hcells ⊢
    unfold MPSensorDataChannels.asCsv
    refine List.ext_getElem? fun i => ?_
    simp only [MPSensorData.ofDocs_eq, List.getElem?_mapIdx, List.getElem?_map, List.headD_cons,
      Option.map_map] at hcells ⊢
    cases docs[i]? with
    | none => rfl
    | some doc => exact congrArg (fun cells => some (toString doc.time :: cells)) (hcells i)

/-- Where the columns belong to the documents, so do the rows iff the times are shared. -/
lemma rowsBelong_iff (h : ∀ docs ∈ channels, Leading SensorData.freq docs ∧ Leading SensorData.perc docs) :
    RowsBelong channels ↔ SharesTimes channels := by
  unfold RowsBelong SharesTimes
  constructor
  · intro hrows index row hrow docs hdocs doc hdoc hfields
    refine hrows index row hrow docs hdocs doc ?_
    rw [getElem?_having_of_leading (h docs hdocs).1, getElem?_having_of_leading (h docs hdocs).2]
    exact hfields.imp (fun hfreq => ⟨hdoc, hfreq⟩) fun hperc => ⟨hdoc, hperc⟩
  · intro htimes index row hrow docs hdocs doc hentry
    rw [getElem?_having_of_leading (h docs hdocs).1, getElem?_having_of_leading (h docs hdocs).2] at hentry
    rcases hentry with ⟨hdoc, hfreq⟩ | ⟨hdoc, hperc⟩
    · exact htimes index row hrow docs hdocs doc hdoc (.inl hfreq)
    · exact htimes index row hrow docs hdocs doc hdoc (.inr hperc)

/-- **When the optional columns belong to the documents and the rows to their times**: iff in every channel
those that have the field come first, and have the time that the first channel has at their index. What is
written is always read from the columns, at the index of the row. -/
theorem optionalColumns_belong_iff (channels : List (List (SensorData DC F))) :
    (∀ (format : CsvFormat DC F) (includeFreq includePerc : Bool),
        MPSensorDataChannels.asCsv format (channels.map .ofDocs) includeFreq includePerc =
          (channels.headD []).mapIdx fun index row =>
            toString row.time :: docCells format channels includeFreq includePerc index) ∧
      (((∀ docs ∈ channels, ColumnsBelong docs) ∧ RowsBelong channels) ↔
        (∀ docs ∈ channels, Leading SensorData.freq docs ∧ Leading SensorData.perc docs) ∧
          SharesTimes channels) := by
  refine ⟨fun format => asCsv_ofDocs format channels, ?_⟩
  simp only [columnsBelong_iff]
  exact and_congr_right rowsBelong_iff

end Aligned

/-- A document without a frequency, and one with a frequency -/
def mixedDocs : List (SensorData Unit ℕ) :=
  [⟨⟨none, none, none, none⟩, 0, 1, none, none, none, none⟩,
    ⟨⟨none, none, none, none⟩, 1000, 2, none, none, none, some 50⟩]

/-- Two channels with a frequency each, at different times -/
def shiftedChannels : List (List (SensorData Unit ℕ)) :=
  [[⟨⟨none, none, none, none⟩, 0, 1, none, none, none, some 50⟩],
    [⟨⟨none, none, none, none⟩, 1000, 2, none, none, none, some 60⟩]]

/-- The frequency of the second document is at the index of the first one. And columns that belong to their
documents are shown in a row of another time. -/
theorem optionalColumns_mixed :
    ((MPSensorData.ofDocs mixedDocs).freq = some [50] ∧ (MPSensorData.ofDocs mixedDocs).time = [0, 1000] ∧
      ¬ColumnsBelong mixedDocs) ∧
      (∀ docs ∈ shiftedChannels, ColumnsBelong docs) ∧ ¬RowsBelong shiftedChannels := by
  refine ⟨⟨rfl, rfl, fun h => ?_⟩, ?_, fun h => ?_⟩
  · obtain ⟨doc, hdoc, hfreq⟩ := h.1 [50] rfl 0 50 rfl
    cases hdoc
    cases hfreq
  · simp only [columnsBelong_iff]
    decide
  · have htime := h 0 _ rfl _ (List.mem_of_getElem? (i := 1) rfl) _ (.inl rfl)
    cases htime

end SensorLink.Server
