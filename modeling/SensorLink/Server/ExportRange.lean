import SensorLink.Server.DataExport

/-!
# The export covers its range

Each chunk starts where the one before ends, and only the last one includes its end. The header is decided
by the first chunk with rows, so that no row is written before it.
-/

namespace SensorLink.Server

open MPSensorDataChannels

variable {DC F : Type}

/-! ### A partition of the range -/

/-- The chunks follow each other from `fromTime` to `untilTime`, and only the last one includes its end. -/
def Partition (untilTime : ℤ) : ℤ → List (Chunk F) → Prop
  | fromTime, [] => fromTime = untilTime
  | fromTime, chunk :: chunks => chunk.range.fromTime = fromTime ∧ fromTime < chunk.range.untilTime ∧
    chunk.range.untilTime ≤ untilTime ∧
    (chunk.inclusiveRange = true ↔ chunk.range.untilTime = untilTime) ∧
    Partition untilTime chunk.range.untilTime chunks

/-- The query of the chunk matches the time of a document. -/
def Chunk.Contains (chunk : Chunk F) (time : ℤ) : Prop := chunk.range.Contains chunk.inclusiveRange time

lemma timestampMillis_mono {a b : ℤ} (h : a ≤ b) : timestampMillis a ≤ timestampMillis b :=
  Int.ediv_le_ediv (by decide) h

section Partition

variable {untilTime fromTime time : ℤ} {chunks : List (Chunk F)}

/-- The chunks contain nothing before the first one. -/
lemma Partition.not_contains (h : Partition untilTime fromTime chunks)
    (ht : time < timestampMillis fromTime) : ∀ chunk ∈ chunks, ¬chunk.Contains time := by
  induction chunks generalizing fromTime with
  | nil => simp
  | cons first rest ih =>
    obtain ⟨hfrom, hlt, -, -, hrest⟩ := h
    intro chunk hmem hcontains
    rcases List.mem_cons.mp hmem with rfl | hmem
    · have hge := hcontains.1
      rw [hfrom] at hge
      omega
    · refine ih hrest ?_ chunk hmem hcontains
      exact lt_of_lt_of_le ht (timestampMillis_mono hlt.le)

/-- A time of the range is in exactly one chunk. -/
lemma Partition.existsUnique (h : Partition untilTime fromTime chunks) (hlt : fromTime < untilTime)
    (hfrom : timestampMillis fromTime ≤ time) (huntil : time ≤ timestampMillis untilTime) :
    ∃! i : Fin chunks.length, (chunks.get i).Contains time := by
  induction chunks generalizing fromTime with
  | nil => exact absurd h hlt.ne
  | cons first rest ih =>
    obtain ⟨hstart, hlong, hle, hinclusive, hrest⟩ := h
    have hfirst : first.Contains time ↔ if first.inclusiveRange then
        time ≤ timestampMillis first.range.untilTime else time < timestampMillis first.range.untilTime := by
      unfold Chunk.Contains TimeRange.Contains
      rw [hstart]
      exact and_iff_right hfrom
    by_cases hend : first.range.untilTime = untilTime
    · -- The last chunk: nothing follows it.
      obtain rfl : rest = [] := by
        cases rest with
        | nil => rfl
        | cons next rest =>
          exact absurd (hend.symm.le.trans_lt (hrest.1 ▸ hrest.2.1)) (not_lt.mpr hrest.2.2.1)
      rw [hinclusive.mpr hend, hend, if_pos rfl] at hfirst
      refine ⟨⟨0, by simp⟩, hfirst.mpr huntil, ?_⟩
      intro i _
      exact Fin.ext (Nat.lt_one_iff.mp i.isLt)
    · rw [Bool.eq_false_iff.mpr fun hi => hend (hinclusive.mp hi)] at hfirst
      simp only [Bool.false_eq_true, if_false] at hfirst
      by_cases ht : time < timestampMillis first.range.untilTime
      · have hnone := hrest.not_contains ht
        refine ⟨⟨0, by simp⟩, hfirst.mpr ht, ?_⟩
        rintro ⟨i, hi⟩ hcontains
        cases i with
        | zero => rfl
        | succ i => exact absurd hcontains (hnone _ (List.getElem_mem _))
      · obtain ⟨i, hi, hunique⟩ := ih hrest (lt_of_le_of_ne hle hend) (not_lt.mp ht)
        refine ⟨i.succ, hi, ?_⟩
        rintro ⟨j, hj⟩ hcontains
        cases j with
        | zero => exact absurd (hfirst.mp hcontains) ht
        | succ j =>
          have := hunique ⟨j, Nat.lt_of_succ_lt_succ hj⟩ hcontains
          exact Fin.ext (congrArg Nat.succ (Fin.ext_iff.mp this))

end Partition

/-! ### What a chunk query gives -/

namespace SensorStore

variable {store : SensorStore DC F} {fails : StoreCall DC → Bool} {turn : ℕ} {resolution : TimeResolution}
  {measPointId : String} {range : TimeRange} {inclusiveRange : Bool}

lemma mem_find {dataChannel : DC} {doc : SensorData DC F} :
    doc ∈ store.find dataChannel resolution measPointId range inclusiveRange ↔
      doc ∈ store.collection dataChannel resolution ∧
      doc.metadata.dataSetId ∈ (store.dataSetIdsForMeasuringPoint measPointId).map some ∧
      range.Contains inclusiveRange doc.time := by
  simp [find]

lemma exportChunk_ok {dataChannels : List DC} {timeseries : List (MPSensorData F)}
    (h : store.exportChunk fails turn resolution measPointId range inclusiveRange dataChannels =
      .ok timeseries) :
    timeseries = dataChannels.map fun dc =>
      .ofDocs (store.find dc resolution measPointId range inclusiveRange) := by
  induction dataChannels generalizing timeseries with
  | nil =>
    cases h
    rfl
  | cons dc dataChannels ih =>
    rw [exportChunk, getSensorData] at h
    split at h
    · cases h
    next data hdata =>
      split at h
      · cases h
      next rest hrest =>
        cases h
        rw [ih hrest, List.map_cons]
        split at hdata
        · cases hdata
        · split at hdata
          · cases hdata
          next hfew =>
            cases hdata
            rw [List.take_of_length_le (not_lt.mp hfew)]

/-- A chunk query fails when one of its queries does, or a channel has too many samples. -/
lemma exportChunk_error {dataChannels : List DC} {err : DataStoreError}
    (h : store.exportChunk fails turn resolution measPointId range inclusiveRange dataChannels =
      .error err) :
    (∃ dc, fails (.query turn dc) = true) ∨ err = .tooMuchData ∧ ∃ dc ∈ dataChannels,
      queryLimit none < (store.find dc resolution measPointId range inclusiveRange).length := by
  induction dataChannels with
  | nil => cases h
  | cons dc dataChannels ih =>
    rw [exportChunk, getSensorData] at h
    split at h
    next e he =>
      cases h
      split at he
      next hfail => exact .inl ⟨dc, hfail⟩
      next =>
        split at he
        next hmany =>
          cases he
          exact .inr ⟨rfl, dc, List.mem_cons_self, hmany⟩
        next => cases he
    next =>
      split at h
      next e he =>
        cases h
        rcases ih he with hfail | ⟨rfl, dc', hmem, hmany⟩
        · exact .inl hfail
        · exact .inr ⟨rfl, dc', List.mem_cons_of_mem _ hmem, hmany⟩
      next => cases h

end SensorStore

/-! ### The rows -/

lemma asCsv_of_isEmpty {format : CsvFormat DC F} {data : List (MPSensorData F)} (h : isEmpty data = true)
    (includeFreq includePerc : Bool) : asCsv format data includeFreq includePerc = [] := by
  cases data with
  | nil => rfl
  | cons first rest =>
    have htime : first.time = [] := by simpa [isEmpty] using h
    simp [asCsv, htime]

/-- There is a row with the time of each document of the first channel. -/
lemma exists_row (format : CsvFormat DC F) {first : List (SensorData DC F)} {doc : SensorData DC F}
    (h : doc ∈ first) (rest : List (MPSensorData F)) (includeFreq includePerc : Bool) :
    ∃ row ∈ asCsv format (.ofDocs first :: rest) includeFreq includePerc,
      row.head? = some (toString doc.time) := by
  obtain ⟨i, hi, rfl⟩ := List.mem_iff_getElem.mp h
  have htime : (MPSensorData.ofDocs first).time = first.map SensorData.time := by
    rw [MPSensorData.ofDocs_eq]
  refine ⟨_, List.mem_mapIdx.mpr ⟨i, by rw [htime, List.length_map]; exact hi, rfl⟩, ?_⟩
  simp only [htime, List.getElem_map, List.head?_cons]

/-- A row has a column for the time, and one or more for each channel. -/
lemma length_of_mem_asCsv {format : CsvFormat DC F} {data : List (MPSensorData F)}
    {includeFreq includePerc : Bool} {row : List String}
    (h : row ∈ asCsv format data includeFreq includePerc) :
    row.length = 1 + data.length + (if includeFreq then data.length else 0) +
      if includePerc then data.length else 0 := by
  cases data with
  | nil => simp [asCsv] at h
  | cons first rest =>
    obtain ⟨i, hi, rfl⟩ := List.mem_mapIdx.mp h
    cases includeFreq <;> cases includePerc <;>
      simp [columns] <;> omega

namespace Export

variable {e : Export DC F} {file file' : ExportFile F}

lemma length_headerLine (h : e.csvHeader.length = 1 + e.dataChannels.length)
    (includeFreq includePerc : Bool) :
    (e.headerLine includeFreq includePerc).length = 1 + e.dataChannels.length +
      (if includeFreq then e.dataChannels.length else 0) +
        if includePerc then e.dataChannels.length else 0 := by
  unfold headerLine
  cases includeFreq <;> cases includePerc <;> simp only [List.length_append, List.length_map, h,
    if_true, if_false, Bool.false_eq_true, List.length_nil, Nat.add_zero]

/-- The lines of the file are the header and the rows of its chunks; until the header is written there
are no rows. -/
structure FileInv (e : Export DC F) (file : ExportFile F) : Prop where
  timeseries : ∀ chunk ∈ file.chunks, chunk.timeseries = e.dataChannels.map fun dc =>
    .ofDocs (e.store.find dc e.timeResolution e.measPointId chunk.range chunk.inclusiveRange)
  written : file.headerWritten = true → file.lines = e.headerLine file.includeFreq file.includePerc ::
    file.chunks.flatMap fun chunk => asCsv e.format chunk.timeseries file.includeFreq file.includePerc
  empty : file.headerWritten = false → file.lines = [] ∧
    ∀ chunk ∈ file.chunks, isEmpty chunk.timeseries = true

/-- Without a header the chunks have no rows, whatever the columns are. -/
lemma FileInv.no_rows (h : e.FileInv file) (hnot : file.headerWritten = false)
    (includeFreq includePerc : Bool) :
    (file.chunks.flatMap fun chunk => asCsv e.format chunk.timeseries includeFreq includePerc) = [] := by
  rw [List.flatMap_eq_nil_iff]
  intro chunk hmem
  exact asCsv_of_isEmpty ((h.empty hnot).2 chunk hmem) _ _

/-- The header comes before the first rows. -/
lemma writeHeader_spec {turn : ℕ} {timeseries : List (MPSensorData F)} (h : e.FileInv file)
    (hw : e.writeHeader turn file timeseries = .ok file') :
    e.FileInv file' ∧ file'.chunks = file.chunks ∧
      (file'.headerWritten = false → isEmpty timeseries = true) := by
  unfold writeHeader at hw
  split at hw
  next hcond =>
    split at hw
    · cases hw
    · cases hw
      have hnot : file.headerWritten = false := by
        simp only [Bool.and_eq_true, Bool.not_eq_true'] at hcond
        exact hcond.1
      refine ⟨⟨h.timeseries, fun _ => ?_, by simp⟩, rfl, by simp⟩
      show file.lines ++ [e.headerLine _ _] = _
      rw [(h.empty hnot).1, h.no_rows hnot]
      rfl
  next hcond =>
    cases hw
    refine ⟨h, rfl, fun hnot => ?_⟩
    simpa [hnot] using hcond

lemma writeChunk_spec {turn : ℕ} {chunk : Chunk F} (h : e.FileInv file)
    (hchunk : chunk.timeseries = e.dataChannels.map fun dc =>
      .ofDocs (e.store.find dc e.timeResolution e.measPointId chunk.range chunk.inclusiveRange))
    (hw : e.writeChunk turn file chunk = .ok file') :
    e.FileInv file' ∧ file'.chunks = file.chunks ++ [chunk] := by
  unfold writeChunk at hw
  split at hw
  · cases hw
  next headed hheader =>
    obtain ⟨hinv, hchunks, hempty⟩ := writeHeader_spec h hheader
    split at hw
    · cases hw
    · cases hw
      refine ⟨⟨?_, ?_, ?_⟩, by rw [hchunks]⟩
      · intro c hc
        rcases List.mem_append.mp hc with hc | hc
        · exact hinv.timeseries c hc
        · rw [List.mem_singleton.mp hc]
          exact hchunk
      · intro hw
        show headed.lines ++ _ = _
        rw [hinv.written hw]
        simp
      · intro hnot
        refine ⟨?_, ?_⟩
        · show headed.lines ++ _ = []
          rw [(hinv.empty hnot).1, asCsv_of_isEmpty (hempty hnot)]
          rfl
        · intro c hc
          rcases List.mem_append.mp hc with hc | hc
          · exact (hinv.empty hnot).2 c hc
          · rw [List.mem_singleton.mp hc]
            exact hempty hnot

/-! ### The loop -/

/-- The loop writes the chunks of a partition of what is ahead. -/
lemma writeChunks_spec {turn : ℕ} {fromTime : ℤ} {chunkDuration : ChunkDuration} (h : e.FileInv file)
    (hle : fromTime ≤ e.timerange.untilTime)
    (hw : e.writeChunks turn fromTime chunkDuration file = .ok file') :
    e.FileInv file' ∧ ∃ chunks, file'.chunks = file.chunks ++ chunks ∧
      Partition e.timerange.untilTime fromTime chunks := by
  fun_induction writeChunks e turn fromTime chunkDuration file with
  | case1 turn fromTime chunkDuration file hlt timeseries hquery next hwrite ih =>
    have hdata : (e.chunkAt fromTime chunkDuration timeseries).timeseries = _ :=
      SensorStore.exportChunk_ok hquery
    obtain ⟨hinv, hchunks⟩ := writeChunk_spec h hdata hwrite
    obtain ⟨hinv', chunks, hfile, hpart⟩ := ih hinv (min_le_right _ _) hw
    refine ⟨hinv', e.chunkAt fromTime chunkDuration timeseries :: chunks, ?_, ?_⟩
    · rw [hfile, hchunks]
      simp
    · exact ⟨rfl, e.lt_chunkUntil hlt chunkDuration, min_le_right _ _, by simp [chunkAt], hpart⟩
  | case2 => cases hw
  | case3 turn fromTime chunkDuration file hlt hquery hlong ih => exact ih h hle hw
  | case4 => cases hw
  | case5 => cases hw
  | case6 turn fromTime chunkDuration file hge =>
    cases hw
    exact ⟨h, [], by simp, le_antisymm hle (not_lt.mp hge)⟩

/-- A channel has more samples than a query may give, within a chunk that cannot be halved. -/
def TooDense (e : Export DC F) : Prop :=
  ∃ dc ∈ e.dataChannels, ∃ range inclusiveRange, e.timerange.fromTime ≤ range.fromTime ∧
    range.untilTime ≤ e.timerange.untilTime ∧
    range.untilTime ≤ range.fromTime + minExportChunkDuration ∧
    SensorStore.queryLimit none <
      (e.store.find dc e.timeResolution e.measPointId range inclusiveRange).length

lemma writeChunk_error {turn : ℕ} {chunk : Chunk F} {err : DataStoreError}
    (hw : e.writeChunk turn file chunk = .error err) : ∃ call, e.fails call = true := by
  unfold writeChunk writeHeader at hw
  split at hw
  next hheader =>
    split at hheader
    · split at hheader
      next hfail => exact ⟨_, hfail⟩
      next => cases hheader
    · cases hheader
  next =>
    split at hw
    next hfail => exact ⟨_, hfail⟩
    next => cases hw

lemma writeChunks_error {turn : ℕ} {fromTime : ℤ} {chunkDuration : ChunkDuration} {err : DataStoreError}
    (hle : e.timerange.fromTime ≤ fromTime)
    (hw : e.writeChunks turn fromTime chunkDuration file = .error err) :
    (∃ call, e.fails call = true) ∨ err = .tooMuchData ∧ e.TooDense := by
  fun_induction writeChunks e turn fromTime chunkDuration file with
  | case1 turn fromTime chunkDuration file hlt timeseries hquery next hwrite ih =>
    exact ih (hle.trans (e.lt_chunkUntil hlt chunkDuration).le) hw
  | case2 turn fromTime chunkDuration file hlt timeseries hquery err' hwrite =>
    exact .inl (writeChunk_error hwrite)
  | case3 turn fromTime chunkDuration file hlt hquery hlong ih => exact ih hle hw
  | case4 turn fromTime chunkDuration file hlt hquery hshort =>
    cases hw
    rcases SensorStore.exportChunk_error hquery with ⟨dc, hfail⟩ | ⟨-, dc, hmem, hmany⟩
    · exact .inl ⟨_, hfail⟩
    · refine .inr ⟨rfl, dc, hmem, _, _, hle, min_le_right _ _, ?_, hmany⟩
      exact (min_le_left _ _).trans (Int.add_le_add_left (not_lt.mp hshort) _)
  | case5 turn fromTime chunkDuration file hlt err' hother hquery =>
    rcases SensorStore.exportChunk_error hquery with ⟨dc, hfail⟩ | ⟨herr, -⟩
    · exact .inl ⟨_, hfail⟩
    · exact absurd herr hother
  | case6 => cases hw

/-- The base header is written when nothing else was. -/
lemma writeBaseHeader_spec (h : e.FileInv file) (hw : e.writeBaseHeader file = .ok file') :
    file'.chunks = file.chunks ∧ ∃ includeFreq includePerc,
      file'.lines = e.headerLine includeFreq includePerc ::
        file.chunks.flatMap fun chunk => asCsv e.format chunk.timeseries includeFreq includePerc := by
  unfold writeBaseHeader at hw
  split at hw
  next hwritten =>
    cases hw
    exact ⟨rfl, _, _, h.written hwritten⟩
  next hnot =>
    split at hw
    · cases hw
    · cases hw
      have hnot := Bool.eq_false_iff.mpr hnot
      refine ⟨rfl, false, false, ?_⟩
      rw [h.no_rows hnot, (h.empty hnot).1]
      simp [headerLine]

/-- **The export covers its range exactly.** It ends in an error only when a call of the database fails,
or when a chunk of the minimum length holds too many samples. Otherwise the chunk queries that are written
partition the range, each stored sample of the range is found by exactly one of them, and the file is a
header followed by their rows, which have as many columns as the header. Each sample of the first channel
has a row with its time. -/
theorem writeDataExport_covers (e : Export DC F) (hrange : e.timerange.fromTime < e.timerange.untilTime)
    (hheader : e.csvHeader.length = 1 + e.dataChannels.length) :
    (∀ err, e.writeDataExport = .error err → (∃ call, e.fails call = true) ∨
      err = .tooMuchData ∧ e.TooDense) ∧
    ∀ file, e.writeDataExport = .ok file →
      Partition e.timerange.untilTime e.timerange.fromTime file.chunks ∧
      (∀ chunk ∈ file.chunks, chunk.timeseries = e.dataChannels.map fun dc => .ofDocs
        (e.store.find dc e.timeResolution e.measPointId chunk.range chunk.inclusiveRange)) ∧
      (∀ dc ∈ e.dataChannels, ∀ doc ∈ e.store.collection dc e.timeResolution,
        doc.metadata.dataSetId ∈ (e.store.dataSetIdsForMeasuringPoint e.measPointId).map some →
        e.timerange.fromTime ≤ doc.time * 1000000 → doc.time * 1000000 ≤ e.timerange.untilTime →
        (∃! i : Fin file.chunks.length, doc ∈ e.store.find dc e.timeResolution e.measPointId
          (file.chunks.get i).range (file.chunks.get i).inclusiveRange) ∧
        (e.dataChannels.head? = some dc → ∃ row ∈ file.lines, row.head? = some (toString doc.time))) ∧
      ∃ includeFreq includePerc, file.lines = e.headerLine includeFreq includePerc ::
          (file.chunks.flatMap fun chunk => asCsv e.format chunk.timeseries includeFreq includePerc) ∧
        ∀ row ∈ file.lines, row.length = (e.headerLine includeFreq includePerc).length := by
  have hnew : e.FileInv ⟨false, false, false, [], []⟩ := ⟨by simp, by simp, by simp⟩
  constructor
  · intro err hw
    unfold writeDataExport at hw
    split at hw
    next hfail => exact .inl ⟨_, hfail⟩
    next =>
      split at hw
      next hloop =>
        cases hw
        exact writeChunks_error le_rfl hloop
      next =>
        split at hw
        next hbase =>
          unfold writeBaseHeader at hbase
          split at hbase
          · cases hbase
          · split at hbase
            next hfail => exact .inl ⟨_, hfail⟩
            next => cases hbase
        next =>
          split at hw
          next hfail =>
            simp only [Bool.or_eq_true] at hfail
            rcases hfail with (hfail | hfail) | hfail <;> exact .inl ⟨_, hfail⟩
          next => cases hw
  · intro file hw
    unfold writeDataExport at hw
    split at hw
    · cases hw
    · split at hw
      · cases hw
      next looped hloop =>
        obtain ⟨hinv, chunks, hchunks, hpart⟩ := writeChunks_spec hnew hrange.le hloop
        rw [List.nil_append] at hchunks
        split at hw
        · cases hw
        next based hbase =>
          obtain ⟨hsame, includeFreq, includePerc, hlines⟩ := writeBaseHeader_spec hinv hbase
          split at hw
          · cases hw
          · cases hw
            rw [← hchunks, ← hsame] at hpart
            rw [← hsame] at hlines
            have hdata := hinv.timeseries
            rw [← hsame] at hdata
            refine ⟨hpart, hdata, ?_, includeFreq, includePerc, hlines, ?_⟩
            · intro dc hdc doc hdoc hset hfrom huntil
              have hunique : ∃! i : Fin file.chunks.length, doc ∈ e.store.find dc e.timeResolution
                  e.measPointId (file.chunks.get i).range (file.chunks.get i).inclusiveRange := by
                simp only [SensorStore.mem_find, hdoc, hset, true_and]
                refine hpart.existsUnique hrange ?_ ?_
                · unfold timestampMillis
                  omega
                · unfold timestampMillis
                  omega
              refine ⟨hunique, fun hhead => ?_⟩
              obtain ⟨i, hi, -⟩ := hunique
              obtain ⟨rest, hchannels⟩ := List.head?_eq_some_iff.mp hhead
              have htimeseries := hdata _ (List.get_mem file.chunks i)
              rw [hchannels, List.map_cons] at htimeseries
              obtain ⟨row, hrow, htime⟩ := exists_row e.format hi _ includeFreq includePerc
              rw [← htimeseries] at hrow
              refine ⟨row, ?_, htime⟩
              rw [hlines]
              exact List.mem_cons_of_mem _ (List.mem_flatMap.mpr ⟨_, List.get_mem file.chunks i, hrow⟩)
            · intro row hrow
              rw [hlines] at hrow
              rcases List.mem_cons.mp hrow with rfl | hrow
              · rfl
              · obtain ⟨chunk, hchunk, hrow⟩ := List.mem_flatMap.mp hrow
                rw [length_of_mem_asCsv hrow, length_headerLine hheader, hdata chunk hchunk, List.length_map]

/-- Two channels, of which the first has a sample in the first hour and one at the very end. -/
def sampleExport : Export Bool ℕ where
  store := ⟨fun _ => ["set"], fun dc _ =>
    if dc then [⟨⟨none, none, some "set", none⟩, 1000, 5, none, none, none, some 2⟩,
      ⟨⟨none, none, some "set", none⟩, 5400000, 6, none, none, none, none⟩] else []⟩
  format := ⟨toString, toString, 0, fun x => x * 100⟩
  fails _ := false
  dataChannels := [true, false]
  measPointId := "mp"
  timerange := ⟨0, TimeDelta.minutes 90⟩
  timeResolution := .native
  csvHeader := ["time", "a", "b"]

lemma sampleExport_not_tooDense : ¬sampleExport.TooDense := by
  rintro ⟨dc, -, range, inclusiveRange, -, -, -, hmany⟩
  have hle : (sampleExport.store.find dc sampleExport.timeResolution sampleExport.measPointId range
      inclusiveRange).length ≤ 2 := by
    unfold SensorStore.find
    rw [List.length_insertionSort]
    refine (List.length_filter_le _ _).trans ?_
    cases dc <;> decide
  have hlimit : SensorStore.queryLimit none = 180000 := rfl
  omega

theorem writeDataExport_covers_sample : ∃ file, sampleExport.writeDataExport = .ok file ∧
    Partition sampleExport.timerange.untilTime sampleExport.timerange.fromTime file.chunks := by
  have hcovers := writeDataExport_covers sampleExport (by decide) (by decide)
  cases hw : sampleExport.writeDataExport with
  | error err =>
    rcases hcovers.1 err hw with ⟨call, hfail⟩ | ⟨-, hdense⟩
    · cases hfail
    · exact absurd hdense sampleExport_not_tooDense
  | ok file => exact ⟨file, rfl, (hcovers.2 file hw).1⟩

end Export

end SensorLink.Server
