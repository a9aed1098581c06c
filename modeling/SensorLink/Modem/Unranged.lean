import SensorLink.Modem.Delivery

/-!
# A server without ranges

What comes of a download when the server answers each request with the whole file. An answer of that kind is
accepted for the first slice up to a full slice, but a full slice is not the last one: the next slice is
requested behind the end of the file.
-/

namespace SensorLink.Modem.Unranged

open SensorLink.Lib

/-! ### The whole file -/

/-- A server that ignores the range of a request -/
def serveWhole (image : List UInt8) : Server := fun _ => (⟨some 200, some image.length⟩, image)

/-- What calls with these chunk sizes are to return. -/
def chunksOf : List UInt8 → List ℕ → List (List UInt8) × Option FileError
  | _, [] => ([], none)
  | image, chunkSize :: sizes =>
    if image = [] then ([], some .endOfFile)
    else
      let (chunks, last) := chunksOf (image.drop chunkSize) sizes
      (image.take chunkSize :: chunks, last)

/-- The download succeeds, and the calls that follow return the whole file and then its end, whatever chunk
sizes they ask for; the loop of a call needs some number of turns. -/
def Delivers (image url : List UInt8) (start : Device Link Fate) : Prop :=
  ∃ turns, ∀ fuel, turns ≤ fuel → ∀ sizes : List ℕ, (∀ size ∈ sizes, 1 ≤ size ∧ size ≤ maxFileChunkLen) →
    ∃ started finish, (downloadFile (serveWhole image) url).run start = .ok () started ∧
      (readChunks (serveWhole image) fuel sizes).run started = .ok (chunksOf image sizes) finish

/-! ### A modem that works -/

/-- Every command is carried out, a slice fits in the storage, and a read gives as much as it is asked for;
the file is opened right behind the five commands that fetch the slice. -/
structure Works (start : Device Link Fate) : Prop where
  ok : ∀ n, (fateAt start.plan n).ok = true
  room : downloadSliceLen ≤ (fateAt start.plan (roomAt start)).number
  full : ∀ n, roomAt start + 8 ≤ n → (fateAt start.plan n).number = 0

/-- The commands of the setup are among them. -/
lemma Works.setUp {start : Device Link Fate} (h : Works start) :
    SetUp (start.plan.drop (closing start.mem + 1)) where
  configured n _ := by
    rw [fateAt_drop]
    exact h.ok _
  activated n _ := by
    rw [fateAt_drop]
    exact h.ok _
  room _ := by
    rw [fateAt_drop]
    exact h.room

section Fetch

variable {image url : List UInt8} {d : Device Link Fate}

/-- The driver while it reads the file; the next read is at `read`. -/
structure Reading (image url : List UInt8) (read : ℕ) (d : Device Link Fate) : Prop where
  download : d.mem.download = some ⟨url, 0, image.length, read, decide (image.length < downloadSliceLen)⟩
  content : d.mem.file = image
  ok : ∀ n, (fateAt d.plan n).ok = true
  next : (d.mem.fileHandle = none ∧ ∀ n, 2 ≤ n → (fateAt d.plan n).number = 0) ∨
    ∃ handle, d.mem.fileHandle = some handle ∧ d.mem.position handle = some read ∧
      ∀ n, (fateAt d.plan n).number = 0

lemma run_awaitHttpGet (hok : (fateAt d.plan 0).ok = true) :
    awaitHttpGet.run d = .ok (some d.mem.answer) (after d 1 d.mem) := by
  unfold awaitHttpGet Dev.act
  simp only [headD_eq_fateAt, hok, if_true, after, List.drop_one]
  rfl

lemma run_storeSlice (hok : ∀ n, (fateAt d.plan n).ok = true) :
    storeSlice.run d = .ok () (after d 2 { d.mem with file := d.mem.body }) := by
  have hread : awaitHttpReadFile.run (after d 1 d.mem) =
      .ok (some 0) (after d 2 { d.mem with file := d.mem.body }) := by
    unfold awaitHttpReadFile Dev.act
    simp only [headD_eq_fateAt, fateAt_after, hok, if_true, mem_after]
    simp only [after, List.tail_drop]
    rfl
  rw [storeSlice, Dev.run_bind_ok (run_sendPlain (hok 0)), Dev.run_bind_ok hread]
  rfl

lemma add_small {a b : ℕ} (h : a + b < 2 ^ 32) : (Io.add a b : Io Error ℕ) = pure (a + b) := if_pos h

lemma downloadSliceLen_lt : downloadSliceLen < 2 ^ 32 := by
  unfold downloadSliceLen
  decide

/-- The first slice, which is accepted up to a full one -/
lemma run_fetchSlice (hpos : 1 ≤ image.length) (hle : image.length ≤ downloadSliceLen)
    (hsplit : (splitUrl url).isSome) (hok : ∀ n, (fateAt d.plan n).ok = true)
    (hdownload : d.mem.download = some ⟨url, 0, 0, 0, false⟩) :
    ∃ l, (fetchSlice (serveWhole image) 0).run d = .ok () (after d 5 l) ∧
      l.download = some ⟨url, 0, image.length, 0, decide (image.length < downloadSliceLen)⟩ ∧
      l.file = image ∧ l.fileHandle = d.mem.fileHandle := by
  obtain ⟨⟨host, path⟩, hurl⟩ := Option.isSome_iff_exists.mp hsplit
  have hsmall := downloadSliceLen_lt
  have hrequest : (sendRequest (serveWhole image) ⟨host, path, 0, 0 + downloadSliceLen - 1⟩).run
        (after d 1 d.mem) =
      .ok () (after d 2 { d.mem with answer := ⟨some 200, some image.length⟩, body := image }) := by
    refine (run_send_ok (by rw [fateAt_after]; exact hok _) rfl).trans ?_
    simp only [after, List.drop_drop]
  refine ⟨{ d.mem with
    answer := ⟨some 200, some image.length⟩
    body := image
    file := image
    download := some ⟨url, 0, image.length, 0, decide (image.length < downloadSliceLen)⟩ }, ?_, rfl, rfl, rfl⟩
  rw [fetchSlice, run_get, hdownload]
  dsimp only
  rw [add_small (by omega), run_pure, hurl]
  dsimp only
  rw [Dev.run_bind_ok (run_sendPlain (hok 0)), Dev.run_bind_ok hrequest,
    Dev.run_bind_ok (run_awaitHttpGet (by rw [fateAt_after]; exact hok _)), mem_after, after_after]
  simp only [sliceLenOf]
  rw [if_pos ⟨trivial, hle⟩, run_pure, if_pos (by omega)]
  have hstored := run_storeSlice (d := after d 3 { d.mem with
    answer := ⟨some 200, some image.length⟩, body := image }) fun n => by rw [fateAt_after]; exact hok _
  rw [mem_after, after_after] at hstored
  refine (Dev.run_bind_ok hstored _).trans ?_
  rw [add_small (by omega), run_pure, recordSlice, run_get, mem_after, hdownload]
  rfl

/-- The download succeeds, and the file is to be read from its start. -/
lemma run_downloadFile_whole {start : Device Link Fate} (hpos : 1 ≤ image.length)
    (hle : image.length ≤ downloadSliceLen) (hurl : url.length ≤ maxUrlLen) (hsplit : (splitUrl url).isSome)
    (h : Works start) : ∃ started, (downloadFile (serveWhole image) url).run start = .ok () started ∧
      Reading image url 0 started := by
  obtain ⟨l, hnone, -, hrun⟩ := run_downloadFile (serveWhole image) url start
  have hok : ∀ n l m, (fateAt (after start n l).plan m).ok = true := fun n l m => by
    rw [fateAt_after]
    exact h.ok _
  obtain ⟨l', hfetch, hdownload, hfile, hhandle⟩ := run_fetchSlice hpos hle hsplit
    (d := after start (closing start.mem + 1 + (registered (start.plan.drop (closing start.mem + 1)) + 9))
      { l with download := some ⟨url, 0, 0, 0, false⟩ }) (hok _ _) rfl
  rw [after_after] at hfetch
  rw [run_startDownload (serveWhole image) hurl h.setUp, after_after] at hrun
  refine ⟨_, hrun.trans (congrArg (Dev.andThen · _ _) (Dev.run_bind_ok (Dev.run_attempt_ok hfetch) _)),
    hdownload, hfile, hok _ l', .inl ⟨hhandle.trans hnone, fun n hn => ?_⟩⟩
  rw [fateAt_after]
  refine h.full _ ?_
  rw [roomAt]
  omega

end Fetch

section Read

variable {image url : List UInt8} {read len : ℕ} {d : Device Link Fate}

lemma run_openSlice (h : Reading image url read d) : ∃ d' handle,
    (openSlice read).run d = .ok handle d' ∧ Reading image url read d' ∧ d'.mem.fileHandle = some handle ∧
      d'.mem.position handle = some read ∧ ∀ n, (fateAt d'.plan n).number = 0 := by
  rcases h.next with ⟨hnone, hfull⟩ | ⟨handle, hhandle, hposition, hfull⟩
  · have hafter : ∀ n, fateAt (sought d read).plan n = fateAt d.plan (2 + n) := fun n => fateAt_drop _ _ _
    have hzero : ∀ n, (fateAt (sought d read).plan n).number = 0 := fun n => by
      rw [hafter]
      exact hfull _ (Nat.le_add_right _ _)
    refine ⟨sought d read, (fateAt d.plan 0).number, ?_,
      ⟨h.download, h.content, fun n => by rw [hafter]; exact h.ok _, .inr ⟨_, rfl, if_pos rfl, hzero⟩⟩,
      rfl, if_pos rfl, hzero⟩
    rw [openSlice, run_get, hnone]
    exact (Dev.run_bind_ok (run_openCommand (h.ok 0)) _).trans
      (Dev.run_bind_ok (run_seek read (h.ok 1)) _)
  · refine ⟨d, handle, ?_, h, hhandle, hposition, hfull⟩
    rw [openSlice, run_get, hhandle]
    rfl

/-- A read of the slice gives all that it asks for. -/
lemma run_readSlice (h : Reading image url read d) (hle : image.length ≤ downloadSliceLen) (hpos : 1 ≤ len)
    (hrest : len ≤ image.length - read) (hlen : len ≤ maxFileChunkLen) :
    ∃ d', (readSlice len).run d = .ok ((image.drop read).take len) d' ∧
      Reading image url (read + len) d' := by
  obtain ⟨d', handle, hopen, hreading, hhandle, hposition, hfull⟩ := run_openSlice h
  have hsize : ((image.drop read).take len).length = len := by
    rw [List.length_take, List.length_drop]
    omega
  have hmax : maxFileChunkLen = 600 := rfl
  have hsmall := downloadSliceLen_lt
  have hdata : (d'.mem.file.drop read).take (len - (fateAt d'.plan 0).number) =
      (image.drop read).take len := by
    rw [hfull 0, hreading.content, Nat.sub_zero]
  have hread := run_readCommand_ok (hreading.ok 0) hposition hdata (by omega)
  have hextend : (Io.extend [] (((image.drop read).take len).take len) : Io Error _) =
      pure ((image.drop read).take len) := by
    rw [List.take_take, Nat.min_self, Io.extend, List.nil_append, if_pos (by omega)]
  refine ⟨{ d' with
    mem := { moved handle (read + len) d'.mem with
      download := some ⟨url, 0, image.length, read + len, decide (image.length < downloadSliceLen)⟩ }
    plan := d'.plan.drop 1 }, ?_, ⟨rfl, hreading.content, fun n => ?_, .inr ⟨handle, hhandle, if_pos rfl,
      fun n => ?_⟩⟩⟩
  · rw [readSlice, run_get, h.download]
    dsimp only
    rw [Dev.run_bind_ok hopen, Dev.run_bind_ok hread, hsize, Nat.min_self, if_neg (by omega), hextend,
      run_pure, run_get]
    dsimp only
    rw [show (moved handle (read + len) d'.mem).download = _ from hreading.download, Io.unwrap, run_pure,
      add_small (by dsimp only; omega), run_pure]
    rfl
  · rw [fateAt_drop]
    exact hreading.ok _
  · rw [fateAt_drop]
    exact hfull _

end Read

/-! ### Behind the first slice -/

section Behind

variable {image : List UInt8} {offset : ℕ} {l : Link}

lemma sliceLenOf_behind (hoffset : offset ≠ 0) (len : ℕ) : sliceLenOf offset (some ⟨some 200, some len⟩) =
    .throw (.mqtt "Range request not supported") := if_neg fun hc => hoffset hc.1

/-- No slice but the first one is accepted. -/
lemma spec_fetchSlice_behind (hoffset : offset ≠ 0) (hlast : offset + downloadSliceLen < 2 ^ 32) :
    Spec (fetchSlice (serveWhole image) offset) (fun _ _ => False) (fun _ _ => True) l := by
  unfold fetchSlice
  refine Dev.wp_bind (spec_get ?_)
  cases l.download with
  | none => exact Dev.wp_throw trivial
  | some download =>
    refine Dev.wp_bind (spec_add hlast ?_)
    cases splitUrl download.url with
    | none => exact Dev.wp_throw trivial
    | some hostAndPath =>
      refine Dev.wp_bind (spec_sendPlain ?_ trivial)
      refine Dev.wp_bind (spec_send (fun _ => ⟨(), _, rfl, ?_, trivial⟩) trivial)
      refine Dev.wp_bind (spec_awaitHttpGet fun r hr => Dev.wp_bind ?_)
      rcases hr with rfl | rfl | rfl
      · dsimp only [serveWhole]
        rw [sliceLenOf_behind hoffset]
        exact Dev.wp_throw trivial
      · exact Dev.wp_throw trivial
      · exact Dev.wp_throw trivial

lemma spec_fetchSliceWithRetry_behind (hoffset : offset ≠ 0) (hlast : offset + downloadSliceLen < 2 ^ 32)
    (left : ℕ) : ∀ {l},
      Spec (fetchSliceWithRetry (serveWhole image) offset left) (fun _ _ => False) (fun _ _ => True) l := by
  induction left with
  | zero =>
    intro l
    unfold fetchSliceWithRetry
    refine Dev.wp_catch (spec_fetchSlice_behind hoffset hlast) ?_ ?_
    · exact fun _ _ h => h.elim
    · exact fun _ _ _ => spec_giveUp trivial
  | succ left ih =>
    intro l
    unfold fetchSliceWithRetry
    refine Dev.wp_catch (spec_fetchSlice_behind hoffset hlast) ?_ ?_
    · exact fun _ _ h => h.elim
    · intro e l' _
      exact Dev.wp_bind (spec_cancelHttpRequest (Dev.wp_bind (spec_discardSliceFile fun _ _ => ih)))

end Behind

section Chunks

variable {image url : List UInt8} {read chunkSize : ℕ} {d : Device Link Fate}

lemma run_readSliceWithRetry {len : ℕ} (h : Reading image url read d) (hle : image.length ≤ downloadSliceLen)
    (hpos : 1 ≤ len) (hrest : len ≤ image.length - read) (hlen : len ≤ maxFileChunkLen) :
    ∃ d', (readSliceWithRetry (serveWhole image) len (sliceAttempts - 1)).run d =
        .ok ((image.drop read).take len) d' ∧ Reading image url (read + len) d' := by
  obtain ⟨d', hrun, hreading⟩ := run_readSlice h hle hpos hrest hlen
  exact ⟨d', Dev.run_bind_ok (Dev.run_attempt_ok hrun) _, hreading⟩

/-- One turn of the loop, where something is left of the slice -/
lemma run_readDownloadChunk_part (h : Reading image url read d) (hle : image.length ≤ downloadSliceLen)
    (hsize : chunkSize ≤ maxFileChunkLen) (hpos : 1 ≤ chunkSize) (hlt : read < image.length) (fuel : ℕ) :
    ∃ d', Reading image url (read + min chunkSize (image.length - read)) d' ∧
      (readDownloadChunk (serveWhole image) chunkSize (fuel + 1) []).run d =
        (readDownloadChunk (serveWhole image) chunkSize fuel ((image.drop read).take chunkSize)).run d' := by
  obtain ⟨d', hrun, hreading⟩ := run_readSliceWithRetry h hle
    (show 1 ≤ min chunkSize (image.length - read) by omega) (Nat.min_le_right _ _)
    (Nat.le_trans (Nat.min_le_left _ _) hsize)
  refine ⟨d', hreading, ?_⟩
  have htake : (image.drop read).take (min chunkSize (image.length - read)) =
      (image.drop read).take chunkSize := by
    rw [List.take_eq_take_iff, List.length_drop]
    omega
  have hlen : ((image.drop read).take chunkSize).length ≤ maxFileChunkLen :=
    Nat.le_trans (List.length_take_le _ _) hsize
  rw [htake] at hrun
  rw [readDownloadChunk, if_pos (show ([] : List UInt8).length < chunkSize from hpos), run_get, h.download]
  dsimp only
  rw [Io.sub, if_pos (Nat.le_of_lt hlt), run_pure, if_neg (by omega)]
  refine (Dev.run_bind_ok hrun _).trans ?_
  rw [Io.extend, List.nil_append, if_pos hlen, run_pure]

/-- The chunk comes from the slice as long as the slice is the last one, or has enough left. -/
lemma run_readDownloadChunk (h : Reading image url read d) (hle : image.length ≤ downloadSliceLen)
    (hsize : chunkSize ≤ maxFileChunkLen) (hpos : 1 ≤ chunkSize) (hread : read ≤ image.length)
    (hlast : image.length < downloadSliceLen ∨ chunkSize ≤ image.length - read) (fuel : ℕ) :
    ∃ d', (readDownloadChunk (serveWhole image) chunkSize (fuel + 2) []).run d =
        .ok ((image.drop read).take chunkSize) d' ∧
      Reading image url (read + min chunkSize (image.length - read)) d' := by
  -- Where nothing is left of the last slice, the loop ends.
  have hend : ∀ {d' : Device Link Fate} {chunk : List UInt8} (fuel : ℕ),
      Reading image url image.length d' → image.length < downloadSliceLen →
      (readDownloadChunk (serveWhole image) chunkSize (fuel + 1) chunk).run d' = .ok chunk d' := by
    intro d' chunk fuel hreading hshort
    rw [readDownloadChunk]
    split_ifs with hchunk
    · rw [run_get, hreading.download]
      dsimp only
      rw [Io.sub, if_pos (Nat.le_refl _), run_pure, if_pos (Nat.sub_self _), if_pos (decide_eq_true hshort)]
      rfl
    · rfl
  rcases Nat.lt_or_eq_of_le hread with hlt | rfl
  · obtain ⟨d', hreading, hrun⟩ := run_readDownloadChunk_part h hle hsize hpos hlt (fuel + 1)
    refine ⟨d', hrun.trans ?_, hreading⟩
    by_cases hfull : chunkSize ≤ image.length - read
    · have hlen : ((image.drop read).take chunkSize).length = chunkSize := by
        rw [List.length_take, List.length_drop]
        omega
      rw [readDownloadChunk, if_neg (by omega)]
      rfl
    · have hall : read + min chunkSize (image.length - read) = image.length := by omega
      rw [hall] at hreading
      exact hend fuel hreading (by omega)
  · have hshort : image.length < downloadSliceLen := by omega
    refine ⟨d, (hend (fuel + 1) h hshort).trans ?_, ?_⟩
    · rw [List.drop_length, List.take_nil]
    · rwa [Nat.sub_self, Nat.min_zero, Nat.add_zero]

lemma run_finishDownload (d : Device Link Fate) : ∃ d', finishDownload.run d = .ok () d' := by
  have hspec := spec_finishDownload (l := d.mem) (E := fun _ _ => False) rfl d rfl (Dev.within_allFaults d)
  revert hspec
  cases finishDownload.run d with
  | ok a d' => exact fun _ => ⟨d', rfl⟩
  | err e d' => exact fun h => h.2.elim
  | off d' => exact fun h => h.elim

/-- A call returns the next chunk, or the end of the file. -/
lemma run_readFileChunk (h : Reading image url read d) (hle : image.length ≤ downloadSliceLen)
    (hsize : chunkSize ≤ maxFileChunkLen) (hpos : 1 ≤ chunkSize) (hread : read ≤ image.length)
    (hlast : image.length < downloadSliceLen ∨ chunkSize ≤ image.length - read) {fuel : ℕ}
    (hfuel : 2 ≤ fuel) :
    if image.drop read = [] then
      ∃ d', (readFileChunk (serveWhole image) fuel chunkSize).run d = .ok (.error .endOfFile) d'
    else ∃ d', (readFileChunk (serveWhole image) fuel chunkSize).run d =
        .ok (.ok ((image.drop read).take chunkSize)) d' ∧
      Reading image url (read + min chunkSize (image.length - read)) d' := by
  obtain ⟨fuel, rfl⟩ : ∃ more, fuel = more + 2 := ⟨fuel - 2, by omega⟩
  obtain ⟨d', hrun, hreading⟩ := run_readDownloadChunk h hle hsize hpos hread hlast fuel
  unfold readFileChunk
  rw [if_neg (Nat.not_lt.mpr hsize)]
  split_ifs with hnil
  · rw [hnil, List.take_nil] at hrun
    obtain ⟨d'', hfinish⟩ := run_finishDownload d'
    exact ⟨d'', (Dev.run_bind_ok (Dev.run_attempt_ok hrun) _).trans (Dev.run_bind_ok hfinish _)⟩
  · obtain ⟨byte, rest, hrest⟩ := List.exists_cons_of_ne_nil hnil
    obtain ⟨size, rfl⟩ : ∃ size, chunkSize = size + 1 := ⟨chunkSize - 1, by omega⟩
    refine ⟨d', (Dev.run_bind_ok (Dev.run_attempt_ok hrun) _).trans ?_, hreading⟩
    rw [hrest, List.take_succ_cons]
    rfl

/-- The calls return the whole file, and then its end. -/
lemma run_readChunks (hle : image.length < downloadSliceLen) {fuel : ℕ} (hfuel : 2 ≤ fuel) {sizes : List ℕ}
    (hsizes : ∀ size ∈ sizes, 1 ≤ size ∧ size ≤ maxFileChunkLen) (h : Reading image url read d)
    (hread : read ≤ image.length) :
    ∃ finish, (readChunks (serveWhole image) fuel sizes).run d =
      .ok (chunksOf (image.drop read) sizes) finish := by
  induction sizes generalizing read d with
  | nil => exact ⟨d, rfl⟩
  | cons size sizes ih =>
    obtain ⟨hpos, hsize⟩ := hsizes size List.mem_cons_self
    have hcall := run_readFileChunk h (Nat.le_of_lt hle) hsize hpos hread (.inl hle) hfuel
    rw [readChunks, chunksOf]
    split_ifs at hcall ⊢ with hnil
    · obtain ⟨d', hrun⟩ := hcall
      exact ⟨d', Dev.run_bind_ok hrun _⟩
    · obtain ⟨d', hrun, hreading⟩ := hcall
      obtain ⟨finish, hrest⟩ := ih (fun s hs => hsizes s (List.mem_cons_of_mem _ hs)) hreading (by omega)
      have hdrop : image.drop (read + min size (image.length - read)) = (image.drop read).drop size := by
        rw [List.drop_drop]
        rcases Nat.le_total size (image.length - read) with hle' | hle'
        · rw [Nat.min_eq_left hle']
        · rw [Nat.min_eq_right hle', List.drop_eq_nil_of_le (by omega), List.drop_eq_nil_of_le (by omega)]
      rw [hdrop] at hrest
      exact ⟨finish, (Dev.run_bind_ok hrun _).trans (Dev.run_bind_ok hrest _)⟩

/-- A full slice is not taken for the last one. -/
lemma spec_readDownloadChunk_behind {l : Link} (hfull : image.length = downloadSliceLen)
    (hpos : 1 ≤ chunkSize)
    (hdownload : l.download = some ⟨url, 0, image.length, image.length, false⟩) (fuel : ℕ) :
    Spec (readDownloadChunk (serveWhole image) chunkSize (fuel + 1) []) (fun _ _ => False) (fun _ _ => True)
      l := by
  have hlen : 0 + image.length ≠ 0 ∧ 0 + image.length + downloadSliceLen < 2 ^ 32 := by
    rw [hfull]
    unfold downloadSliceLen
    decide
  unfold readDownloadChunk
  rw [if_pos (show ([] : List UInt8).length < chunkSize from hpos)]
  refine Dev.wp_bind (spec_get ?_)
  rw [hdownload]
  refine Dev.wp_bind (spec_sub (Nat.le_refl _) ?_)
  rw [if_pos (Nat.sub_self _), if_neg Bool.false_ne_true]
  refine Dev.wp_bind (spec_add (by dsimp only; omega) ?_)
  refine Dev.wp_bind (spec_discardSliceFile fun _ _ => Dev.wp_bind ?_)
  exact Dev.wp_mono (spec_fetchSliceWithRetry_behind hlen.1 hlen.2 _) (fun _ _ h => h.elim) (fun _ _ => id)
    fun _ => id

lemma run_readFileChunk_behind (h : Reading image url image.length d)
    (hfull : image.length = downloadSliceLen) (hpos : 1 ≤ chunkSize) (hsize : chunkSize ≤ maxFileChunkLen)
    {fuel : ℕ} (hfuel : 2 ≤ fuel) :
    ∃ d', (readFileChunk (serveWhole image) fuel chunkSize).run d = .ok (.error .readError) d' := by
  obtain ⟨fuel, rfl⟩ : ∃ more, fuel = more + 1 := ⟨fuel - 1, by omega⟩
  have hdownload := h.download
  rw [decide_eq_false (by omega)] at hdownload
  have hspec := spec_readDownloadChunk_behind hfull hpos hdownload fuel d rfl (Dev.within_allFaults d)
  unfold readFileChunk
  rw [if_neg (Nat.not_lt.mpr hsize)]
  cases hrun : (readDownloadChunk (serveWhole image) chunkSize (fuel + 1) []).run d with
  | ok a d' =>
    rw [hrun] at hspec
    exact hspec.2.elim
  | err e d' =>
    obtain ⟨d'', hfinish⟩ := run_finishDownload d'
    exact ⟨d'', (Dev.run_bind_ok (Dev.run_attempt_err hrun) _).trans (Dev.run_bind_ok hfinish _)⟩
  | off d' =>
    rw [hrun] at hspec
    exact hspec.elim

/-- Calls that return the whole slice are followed by a failure. -/
lemma run_readChunks_behind (hfull : image.length = downloadSliceLen) {fuel : ℕ} (hfuel : 2 ≤ fuel)
    {sizes : List ℕ} (hsizes : ∀ size ∈ sizes, 1 ≤ size ∧ size ≤ maxFileChunkLen)
    (h : Reading image url read d) (hsum : read + sizes.sum = image.length) :
    ∃ chunks finish, (readChunks (serveWhole image) fuel (sizes ++ [1])).run d =
      .ok (chunks, some .readError) finish := by
  induction sizes generalizing read d with
  | nil =>
    obtain rfl : read = image.length := hsum
    obtain ⟨d', hrun⟩ := run_readFileChunk_behind h hfull (Nat.le_refl 1) (by decide) hfuel
    exact ⟨[], d', Dev.run_bind_ok hrun _⟩
  | cons size sizes ih =>
    obtain ⟨hpos, hsize⟩ := hsizes size List.mem_cons_self
    rw [List.sum_cons] at hsum
    have hcall := run_readFileChunk h (Nat.le_of_eq hfull) hsize hpos (by omega) (.inr (by omega)) hfuel
    have hne : image.drop read ≠ [] := by
      intro hc
      have := List.drop_eq_nil_iff.mp hc
      omega
    rw [if_neg hne] at hcall
    obtain ⟨d', hrun, hreading⟩ := hcall
    obtain ⟨chunks, finish, hrest⟩ :=
      ih (fun s hs => hsizes s (List.mem_cons_of_mem _ hs)) hreading (by omega)
    exact ⟨_, finish, (Dev.run_bind_ok hrun _).trans (Dev.run_bind_ok hrest _)⟩

/-- Calls that ask for everything and then once more are to meet the end. -/
lemma chunksOf_snd {data : List UInt8} {sizes : List ℕ} (h : data.length ≤ sizes.sum) :
    (chunksOf data (sizes ++ [1])).2 = some .endOfFile := by
  induction sizes generalizing data with
  | nil =>
    obtain rfl : data = [] := List.length_eq_zero_iff.mp (Nat.le_zero.mp h)
    rfl
  | cons size sizes ih =>
    rw [List.cons_append, chunksOf]
    split_ifs
    · rfl
    · refine ih ?_
      rw [List.sum_cons] at h
      rw [List.length_drop]
      omega

end Chunks

/-! ### Delivery -/

section Delivers

variable {image url : List UInt8} {start : Device Link Fate}

lemma delivers_of_lt (hpos : 1 ≤ image.length) (hlt : image.length < downloadSliceLen)
    (hurl : url.length ≤ maxUrlLen) (hsplit : (splitUrl url).isSome) (h : Works start) :
    Delivers image url start := by
  refine ⟨2, fun fuel hfuel sizes hsizes => ?_⟩
  obtain ⟨started, hload, hreading⟩ := run_downloadFile_whole hpos (Nat.le_of_lt hlt) hurl hsplit h
  obtain ⟨finish, hread⟩ := run_readChunks hlt hfuel hsizes hreading (Nat.zero_le _)
  exact ⟨started, finish, hload, hread⟩

/-- The last call asks for the next slice. -/
lemma not_delivers_of_full (hfull : image.length = downloadSliceLen) (hurl : url.length ≤ maxUrlLen)
    (hsplit : (splitUrl url).isSome) (h : Works start) : ¬ Delivers image url start := by
  rintro ⟨turns, hturns⟩
  have hlen : image.length = (List.replicate 40 400).sum := by
    rw [hfull]
    unfold downloadSliceLen
    decide
  have hsizes : ∀ size ∈ List.replicate 40 400, 1 ≤ size ∧ size ≤ maxFileChunkLen := by decide
  have hasked : ∀ size ∈ List.replicate 40 400 ++ [1], 1 ≤ size ∧ size ≤ maxFileChunkLen := by decide
  obtain ⟨started, hload, hreading⟩ := run_downloadFile_whole
    (by rw [hlen]; decide) (Nat.le_of_eq hfull) hurl hsplit h
  obtain ⟨chunks, finish, hread⟩ := run_readChunks_behind hfull (Nat.le_max_right turns 2) hsizes hreading
    (by rw [Nat.zero_add, hlen])
  obtain ⟨started', finish', hload', hread'⟩ := hturns _ (Nat.le_max_left turns 2) _ hasked
  obtain ⟨-, rfl⟩ := Outcome.ok.inj (hload.symm.trans hload')
  have hsame := (Outcome.ok.inj (hread.symm.trans hread')).1
  have hend := chunksOf_snd (Nat.le_of_eq hlen)
  rw [← hsame] at hend
  cases hend

/-- A file is delivered unless it fills the slice. -/
theorem unranged_delivers_iff (hpos : 1 ≤ image.length) (hle : image.length ≤ downloadSliceLen)
    (hurl : url.length ≤ maxUrlLen) (hsplit : (splitUrl url).isSome) (h : Works start) :
    Delivers image url start ↔ image.length < downloadSliceLen := by
  constructor
  · intro hdelivers
    refine (Nat.lt_or_eq_of_le hle).resolve_right fun hfull => ?_
    exact not_delivers_of_full hfull hurl hsplit h hdelivers
  · exact fun hlt => delivers_of_lt hpos hlt hurl hsplit h

/-- A modem with the file of an earlier download open, which is registered at the second query and at once
when it is asked again -/
def workingStart : Device Link Fate where
  mem := ⟨some 3, none, [1, 2], fun _ => some 0, ⟨none, none⟩, [], false⟩
  plan := List.replicate 6 default ++
    [⟨true, false, 2, none⟩, ⟨true, false, 1, none⟩, ⟨true, false, 5, none⟩] ++
    List.replicate 8 default ++ [⟨true, false, 20000, none⟩] ++ List.replicate 5 default ++
    -- The handle
    [⟨true, false, 3000, none⟩]
  readPlan := []

lemma works_workingStart : Works workingStart where
  ok := fateAt_of_forall (P := fun fate => fate.ok = true) (by decide) rfl
  room := by
    unfold downloadSliceLen
    decide
  full n hn := by
    have hlen : workingStart.plan.length ≤ n := by
      have hroom : roomAt workingStart = 17 := by decide
      have hplan : workingStart.plan.length = 24 := rfl
      omega
    rw [fateAt, List.getD_eq_default _ _ hlen]
    rfl

theorem unranged_delivers_short : Delivers [1, 2, 3] sampleUrl workingStart := by
  have hlt : [1, 2, 3].length < downloadSliceLen := by
    unfold downloadSliceLen
    decide
  exact (unranged_delivers_iff (by decide) (Nat.le_of_lt hlt) (by decide) (by decide)
    works_workingStart).mpr hlt

/-- A file of exactly one slice ends with a failure. -/
theorem unranged_full_slice : ¬ Delivers (List.replicate downloadSliceLen 1) sampleUrl workingStart :=
  not_delivers_of_full List.length_replicate (by decide) (by decide) works_workingStart

end Delivers

end SensorLink.Modem.Unranged
