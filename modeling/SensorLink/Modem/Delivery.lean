import SensorLink.Modem.Setup
import SensorLink.Modem.Slice

/-!
# A download delivers the file

A chunk is filled up from one slice after the other. Each pass of the loop reads a byte or fetches a slice
that has one, and a slice that is not a full one ends the file.
-/

namespace SensorLink.Modem

open SensorLink.Lib

/-! ### Chunks -/

section Chunks

variable {image : List UInt8} {chunkSize : ℕ}

/-- How many passes of the loop are left at most: each one reads a byte, or fetches a slice to read from. -/
def passes (chunkSize : ℕ) (d : Download) (chunk : List UInt8) : ℕ :=
  2 * (chunkSize - chunk.length) + 1 + if d.sliceRead = d.sliceLen ∧ d.complete = false then 1 else 0

/-- The driver has come to `n` in the image. -/
def ReadTo (image : List UInt8) (n : ℕ) (l : Link) : Prop :=
  ∃ d, Stored image d l ∧ d.sliceOffset + d.sliceRead = n

lemma passes_le (chunkSize : ℕ) (d : Download) (chunk : List UInt8) :
    passes chunkSize d chunk ≤ 2 * (chunkSize - chunk.length) + 2 := by
  unfold passes
  split <;> omega

/-- After a fetch the slice has something to read, or is the last one. -/
lemma passes_fetchedAt (d : Download) (offset : ℕ) (chunk : List UInt8) :
    passes chunkSize (fetchedAt image d offset) chunk = 2 * (chunkSize - chunk.length) + 1 := by
  unfold passes
  rw [if_neg]
  rintro ⟨hread, hcomplete⟩
  have hzero : min downloadSliceLen (image.length - offset) = 0 := hread.symm
  have hfull : ¬min downloadSliceLen (image.length - offset) < downloadSliceLen :=
    of_decide_eq_false hcomplete
  rw [hzero] at hfull
  unfold downloadSliceLen at hfull
  omega

/-- A slice that is read to its end and was not a full one is the end of the image. -/
lemma Slice.at_end {d : Download} (h : Slice image d) (hread : d.sliceRead = d.sliceLen)
    (hcomplete : d.complete = true) : d.sliceOffset + d.sliceRead = image.length := by
  have hlen := h.len
  have hoffset := h.offset_le
  have hshort : d.sliceLen < downloadSliceLen := of_decide_eq_true (h.complete.symm.trans hcomplete)
  omega

lemma Slice.read_to_le {d : Download} (h : Slice image d) : d.sliceOffset + d.sliceRead ≤ image.length := by
  have hlen := h.len
  have hread := h.read_le
  have hoffset := h.offset_le
  omega

/-- Two parts of the image, one after the other -/
lemma take_append_take (image : List UInt8) (start : ℕ) {chunk part : List UInt8}
    (hchunk : chunk = (image.drop start).take chunk.length)
    (hpart : part = (image.drop (start + chunk.length)).take part.length) :
    chunk ++ part = (image.drop start).take (chunk ++ part).length := by
  rw [List.length_append, List.take_add, List.drop_drop, ← hchunk, ← hpart]

/-- **The loop.** It fills the chunk up to its size, or to the end of the image. -/
lemma spec_readDownloadChunk (himage : image.length + downloadSliceLen < 2 ^ 32)
    (hsize : chunkSize ≤ maxFileChunkLen) (start fuel : ℕ) :
    ∀ {chunk : List UInt8} {d : Download} {l : Link}, Stored image d l → chunk.length ≤ chunkSize →
      chunk = (image.drop start).take chunk.length → d.sliceOffset + d.sliceRead = start + chunk.length →
      passes chunkSize d chunk ≤ fuel →
      Spec (readDownloadChunk (serve image) chunkSize fuel chunk)
        (fun chunk' l' => chunk' = (image.drop start).take chunkSize ∧
          ReadTo image (start + chunk'.length) l')
        (fun _ l' => l'.gaveUp = true) l := by
  induction fuel with
  | zero =>
    intro chunk d l _ _ _ _ hfuel
    unfold passes at hfuel
    omega
  | succ fuel ih =>
    intro chunk d l h hle hchunk hat hfuel
    unfold readDownloadChunk
    split
    · next hlt =>
      refine Dev.wp_bind (spec_get ?_)
      simp only [h.download]
      refine Dev.wp_bind (spec_sub h.slice.read_le ?_)
      have hread := h.slice.read_le
      have hend := h.slice.read_to_le
      split
      · next hzero =>
        have hdone : d.sliceRead = d.sliceLen := by omega
        split
        · next hcomplete =>
          -- The end of the image: the chunk is all that is left.
          have hlast := h.slice.at_end hdone hcomplete
          refine Dev.wp_pure ⟨?_, d, h, hat⟩
          rw [hchunk, List.take_eq_take_iff, List.length_drop]
          omega
        · next hmore =>
          have hmore' : d.complete = false := by simpa using hmore
          have hfuel' : 2 * (chunkSize - chunk.length) + 1 ≤ fuel := by
            unfold passes at hfuel
            rw [if_pos ⟨hdone, hmore'⟩] at hfuel
            omega
          refine Dev.wp_bind (spec_add (by omega) (Dev.wp_bind (spec_discardSliceFile fun _ _ => ?_)))
          have hfetching : ∀ position file,
              Fetching d { l with fileHandle := none, position := position, file := file } :=
            fun _ _ => ⟨h.download, rfl, h.gaveUp⟩
          refine Dev.wp_seq (spec_fetchSliceWithRetry himage (by omega) _ (hfetching _ _)) ?_
          rintro - l' ⟨hfetched, -⟩
          refine ih hfetched hle hchunk ?_ ?_
          · show d.sliceOffset + d.sliceLen + 0 = start + chunk.length
            omega
          · rw [passes_fetchedAt]
            exact hfuel'
      · next hsome =>
        refine Dev.wp_seq (spec_readSliceWithRetry himage (by omega) (by omega) (Nat.min_le_right _ _) _ h) ?_
        intro part l' hpart
        have hpos := hpart.pos
        have hpartle := hpart.le
        have hlength : (chunk ++ part).length = chunk.length + part.length := List.length_append
        refine Dev.wp_bind (spec_extend (by omega) ?_)
        refine ih hpart.stored (by omega) (take_append_take image start hchunk ?_) ?_ ?_
        · rw [← hat]
          exact hpart.eq
        · show d.sliceOffset + (d.sliceRead + part.length) = start + (chunk ++ part).length
          omega
        · have hpasses := passes_le chunkSize
            { d with sliceRead := d.sliceRead + part.length } (chunk ++ part)
          unfold passes at hfuel
          omega
    · next hfull =>
      have heq : chunk.length = chunkSize := by omega
      refine Dev.wp_pure ⟨?_, d, h, hat⟩
      rw [hchunk, heq]

lemma spec_deactivateHttpContext {l : Link} {P : Link → Prop} (h : P l) :
    Spec deactivateHttpContext (fun _ => P) (fun _ => P) l := by
  unfold deactivateHttpContext
  refine Dev.wp_bind (spec_ignorePlain fun r => ?_)
  cases r with
  | ok _ => exact Dev.wp_pure h
  | error _ => exact Dev.wp_throw h

/-- Cleaning up does not give up anything. -/
lemma spec_finishDownload {l : Link} {gaveUp : Bool} {E : Error → Link → Prop} (h : l.gaveUp = gaveUp) :
    Spec finishDownload (fun _ l' => l'.gaveUp = gaveUp) E l := by
  have hlast : ∀ {l : Link}, l.gaveUp = gaveUp →
      Spec (do let _ ← (deactivateHttpContext.attempt : Io Error _)) (fun _ l' => l'.gaveUp = gaveUp) E l :=
    fun hl => Dev.wp_bind (spec_attempt (spec_deactivateHttpContext hl) fun _ _ h' => Dev.wp_pure h')
  unfold finishDownload
  refine Dev.wp_bind (spec_get (Dev.wp_bind (spec_set ?_)))
  split
  · exact Dev.wp_bind (spec_discardSliceFile fun _ _ => hlast h)
  · exact hlast h

/-- What `read_file_chunk` gives when the driver has come to `n` -/
def ChunkRead (image : List UInt8) (chunkSize n : ℕ) (l : Link) : Except FileError (List UInt8) → Prop
  | .ok chunk => chunk = (image.drop n).take chunkSize ∧ chunk ≠ [] ∧ ReadTo image (n + chunk.length) l
  | .error .endOfFile => image.length ≤ n
  | .error .readError => l.gaveUp = true

lemma spec_readFileChunk (himage : image.length + downloadSliceLen < 2 ^ 32) (hpos : 0 < chunkSize)
    (hsize : chunkSize ≤ maxFileChunkLen) {fuel n : ℕ} (hfuel : 2 * chunkSize + 2 ≤ fuel) {l : Link}
    {E : Error → Link → Prop} (h : ReadTo image n l) :
    Spec (readFileChunk (serve image) fuel chunkSize) (fun r l' => ChunkRead image chunkSize n l' r) E l := by
  obtain ⟨d, hstored, hat⟩ := h
  unfold readFileChunk
  rw [if_neg (Nat.not_lt.mpr hsize)]
  refine Dev.wp_catch (spec_readDownloadChunk himage hsize n fuel hstored (Nat.zero_le _) rfl hat
    (Nat.le_trans (passes_le chunkSize d []) hfuel)) ?_ ?_
  · rintro chunk l' ⟨hchunk, hread⟩
    cases chunk with
    | nil =>
      refine Dev.wp_seq (spec_finishDownload rfl) fun _ _ _ => Dev.wp_pure ?_
      show image.length ≤ n
      have hlen : ((image.drop n).take chunkSize).length = 0 := by rw [← hchunk]; rfl
      rw [List.length_take, List.length_drop] at hlen
      omega
    | cons b bytes => exact Dev.wp_pure ⟨hchunk, List.cons_ne_nil _ _, hread⟩
  · intro e l' hgave
    exact Dev.wp_seq (spec_finishDownload hgave) fun _ _ hgave' => Dev.wp_pure hgave'

end Chunks

/-! ### A whole download -/

/-- What `calls` reads give of `data`: its bytes in order, in chunks of `chunkSize` but for the last one, and
the end of the file after all of them, once there are enough calls. -/
structure Delivered (data : List UInt8) (chunkSize calls : ℕ) (chunks : List (List UInt8))
    (failure : Option FileError) : Prop where
  bytes : chunks.flatten <+: data
  nonempty : ∀ chunk ∈ chunks, chunk ≠ []
  full : ∀ chunk ∈ chunks.dropLast, chunk.length = chunkSize
  reported : failure = none ∨ failure = some .endOfFile ∧ chunks.flatten = data
  ended : data.length + chunkSize ≤ calls * chunkSize → failure = some .endOfFile

section Delivered

variable {data : List UInt8} {chunkSize : ℕ}

lemma delivered_zero (hpos : 0 < chunkSize) : Delivered data chunkSize 0 [] none where
  bytes := List.nil_prefix
  nonempty := by simp
  full := by simp
  reported := .inl rfl
  ended := by omega

lemma delivered_end (calls : ℕ) : Delivered [] chunkSize calls [] (some .endOfFile) where
  bytes := List.nil_prefix
  nonempty := by simp
  full := by simp
  reported := .inr ⟨rfl, rfl⟩
  ended _ := rfl

/-- One chunk before the others -/
lemma Delivered.cons {calls : ℕ} {chunks : List (List UInt8)} {failure : Option FileError}
    (hne : data.take chunkSize ≠ [])
    (h : Delivered (data.drop (data.take chunkSize).length) chunkSize calls chunks failure) :
    Delivered data chunkSize (calls + 1) (data.take chunkSize :: chunks) failure := by
  have hlen : (data.take chunkSize).length = min chunkSize data.length := List.length_take
  have hpos : 0 < (data.take chunkSize).length := List.length_pos_iff.mpr hne
  have hdata := List.take_append_drop (data.take chunkSize).length data
  rw [take_length_take] at hdata
  constructor
  · rw [List.flatten_cons]
    conv_rhs => rw [← hdata]
    exact (List.prefix_append_right_inj _).mpr h.bytes
  · intro chunk hchunk
    rcases List.mem_cons.mp hchunk with rfl | hmem
    · exact hne
    · exact h.nonempty chunk hmem
  · cases chunks with
    | nil => simp
    | cons next chunks =>
      intro chunk hchunk
      rw [List.dropLast_cons_of_ne_nil (List.cons_ne_nil _ _)] at hchunk
      rcases List.mem_cons.mp hchunk with rfl | hmem
      · -- A short chunk leaves nothing for the next one.
        by_contra hshort
        have hbytes := h.bytes
        rw [List.drop_eq_nil_of_le (by omega), List.prefix_nil, List.flatten_cons] at hbytes
        exact h.nonempty next List.mem_cons_self (List.append_eq_nil_iff.mp hbytes).1
      · exact h.full chunk hmem
  · refine h.reported.imp_right fun ⟨hfailure, hflatten⟩ => ⟨hfailure, ?_⟩
    rw [List.flatten_cons, hflatten, hdata]
  · intro henough
    refine h.ended ?_
    rw [Nat.add_one_mul] at henough
    rw [List.length_drop]
    cases calls with
    | zero => omega
    | succ calls =>
      rw [Nat.add_one_mul] at henough ⊢
      omega

end Delivered

section Download

variable {image : List UInt8} {chunkSize : ℕ}

lemma spec_readChunks (himage : image.length + downloadSliceLen < 2 ^ 32) (hpos : 0 < chunkSize)
    (hsize : chunkSize ≤ maxFileChunkLen) {fuel : ℕ} (hfuel : 2 * chunkSize + 2 ≤ fuel)
    {E : Error → Link → Prop} (calls : ℕ) :
    ∀ {n l}, ReadTo image n l → Spec (readChunks (serve image) fuel (List.replicate calls chunkSize))
      (fun r l' => l'.gaveUp = false → Delivered (image.drop n) chunkSize calls r.1 r.2) E l := by
  induction calls with
  | zero =>
    intro n l _
    exact Dev.wp_pure fun _ => delivered_zero hpos
  | succ calls ih =>
    intro n l h
    rw [List.replicate_succ, readChunks]
    refine Dev.wp_seq (spec_readFileChunk himage hpos hsize hfuel h) ?_
    intro r l' hr
    cases r with
    | ok chunk =>
      obtain ⟨rfl, hne, hread⟩ := hr
      refine Dev.wp_seq (ih hread) ?_
      rintro ⟨chunks, failure⟩ l'' hrest
      refine Dev.wp_pure fun hgave => Delivered.cons hne ?_
      rw [List.drop_drop]
      exact hrest hgave
    | error e =>
      cases e with
      | endOfFile =>
        refine Dev.wp_pure fun _ => ?_
        rw [List.drop_eq_nil_of_le hr]
        exact delivered_end _
      | readError =>
        refine Dev.wp_pure fun hgave => ?_
        rw [show l'.gaveUp = true from hr] at hgave
        cases hgave

/-- Nothing is open, and no retry loop has given up. -/
structure Ready (l : Link) : Prop where
  fileHandle : l.fileHandle = none
  gaveUp : l.gaveUp = false

lemma spec_configure {Q : Unit → Link → Prop} {E : Error → Link → Prop} {l : Link} (hQ : Q () l)
    (hE : ∀ e, E e l) (n : ℕ) : Spec (configure n) Q E l := by
  induction n with
  | zero => exact Dev.wp_pure hQ
  | succ n ih => exact Dev.wp_bind (spec_sendPlain ih (hE _))

/-- A query whose answer is only looked at -/
lemma spec_query {ε : Type} {Q : Except Error ℕ → Link → Prop} {E : ε → Link → Prop} {l : Link}
    (h : ∀ r, Q r l) : Spec ((Io.send fun fate l => some (fate.number, l)).attempt : Io ε _) Q E l :=
  Dev.wp_attempt (spec_send (fun _ => ⟨_, _, rfl, h _, h _⟩) (h _))

lemma spec_awaitRegistered {Q : Unit → Link → Prop} {E : Error → Link → Prop} {l : Link} (hQ : Q () l)
    (retries : ℕ) : Spec (awaitRegistered retries) Q E l := by
  induction retries with
  | zero => exact Dev.wp_pure hQ
  | succ retries ih =>
    unfold awaitRegistered
    refine Dev.wp_bind (spec_query fun r => ?_)
    cases r with
    | ok stat =>
      dsimp only
      split
      · exact Dev.wp_pure hQ
      · exact ih
    | error _ => exact ih

lemma spec_storageFreeSpace {Q : Option ℕ → Link → Prop} {E : Error → Link → Prop} {l : Link}
    (hQ : ∀ r, Q r l) : Spec storageFreeSpace Q E l := by
  unfold storageFreeSpace
  refine Dev.wp_bind (spec_query fun r => ?_)
  cases r with
  | ok freeSize => exact Dev.wp_pure (hQ _)
  | error _ => exact Dev.wp_pure (hQ _)

lemma spec_startDownload (himage : image.length + downloadSliceLen < 2 ^ 32) (url : List UInt8) {l : Link}
    (h : Ready l) :
    Spec (startDownload (serve image) url) (fun _ l' => ReadTo image 0 l') (fun _ _ => True) l := by
  have hfetch : Spec
      (if url.length ≤ maxUrlLen then do
        Io.set fun l => { l with download := some ⟨url, 0, 0, 0, false⟩ }
        fetchSliceWithRetry (serve image) 0 (sliceAttempts - 1)
      else .throw .serialize) (fun _ l' => ReadTo image 0 l') (fun _ _ => True) l := by
    split
    · refine Dev.wp_bind (spec_set (Dev.wp_mono (spec_fetchSliceWithRetry himage (Nat.zero_le _) _
        ⟨rfl, h.fileHandle, h.gaveUp⟩) ?_ (fun _ _ _ => trivial) fun _ => id))
      exact fun _ l' hstored => ⟨_, hstored.1, rfl⟩
    · exact Dev.wp_throw trivial
  unfold startDownload
  refine Dev.wp_bind (spec_configure ?_ (fun _ => trivial) _)
  refine Dev.wp_bind (spec_awaitRegistered (Dev.wp_bind (spec_awaitRegistered ?_ _)) _)
  refine Dev.wp_bind (spec_configure ?_ (fun _ => trivial) _)
  refine Dev.wp_bind (spec_storageFreeSpace fun r => ?_)
  cases r with
  | none => exact hfetch
  | some freeSize =>
    dsimp only
    split
    · exact Dev.wp_seq (spec_deactivateHttpContext (P := fun _ => True) trivial) fun _ _ _ =>
        Dev.wp_throw trivial
    · exact hfetch

lemma spec_downloadFile (himage : image.length + downloadSliceLen < 2 ^ 32) (url : List UInt8) {l : Link}
    (h : l.gaveUp = false) :
    Spec (downloadFile (serve image) url) (fun _ l' => ReadTo image 0 l') (fun _ _ => True) l := by
  unfold downloadFile
  refine Dev.wp_bind (spec_attempt (spec_closeFile (P := Ready) fun _ => ⟨rfl, h⟩) fun _ l₁ h₁ => ?_)
  refine Dev.wp_bind (spec_attempt (spec_deleteFile (P := Ready) fun _ => ⟨h₁.fileHandle, h₁.gaveUp⟩)
    fun _ l₂ h₂ => ?_)
  refine Dev.wp_catch (spec_startDownload himage url h₂) ?_ ?_
  · exact fun _ l' hread => Dev.wp_pure hread
  · intro e l' _
    exact Dev.wp_seq (spec_finishDownload rfl) fun _ _ _ => Dev.wp_throw trivial

/-- With the setup done, a download fails only when the attempts for the first slice are used up. -/
lemma gaveUp_of_downloadFile (himage : image.length + downloadSliceLen < 2 ^ 32) {url : List UInt8}
    (hurl : url.length ≤ maxUrlLen) {start stopped : Device Link Fate} (hstart : start.mem.gaveUp = false)
    (hsetup : SetUp (start.plan.drop (closing start.mem + 1))) {e : Error}
    (h : (downloadFile (serve image) url).run start = .err e stopped) : stopped.mem.gaveUp = true := by
  obtain ⟨l, hnone, hgave, hrun⟩ := run_downloadFile (serve image) url start
  obtain ⟨first, hmem, hfirst⟩ : ∃ first : Device Link Fate,
      first.mem = { l with download := some ⟨url, 0, 0, 0, false⟩ } ∧
        (startDownload (serve image) url).run (after start (closing start.mem + 1) l) =
          (fetchSliceWithRetry (serve image) 0 (sliceAttempts - 1)).run first :=
    ⟨_, rfl, run_startDownload (serve image) hurl hsetup⟩
  have hfetch := spec_fetchSliceWithRetry himage (Nat.zero_le _) (sliceAttempts - 1)
    (l := { l with download := some ⟨url, 0, 0, 0, false⟩ }) ⟨rfl, hnone, hgave.trans hstart⟩ first hmem
    (Dev.within_allFaults first)
  rw [h, hfirst] at hrun
  cases hfetched : (fetchSliceWithRetry (serve image) 0 (sliceAttempts - 1)).run first with
  | ok r d =>
    rw [hfetched] at hrun
    cases hrun
  | off d =>
    rw [hfetched] at hrun
    cases hrun
  | err e' d =>
    rw [hfetched] at hrun hfetch
    have hfinish : Spec (do finishDownload; .throw e' : Io Error Unit) (fun _ _ => False)
        (fun _ l' => l'.gaveUp = true) d.mem :=
      Dev.wp_seq (spec_finishDownload hfetch.2) fun _ _ hgave' => Dev.wp_throw hgave'
    have hend := hfinish d rfl (Dev.within_allFaults d)
    have hstopped : (do finishDownload; .throw e' : Io Error Unit).run d = .err e stopped := hrun.symm
    rw [hstopped] at hend
    exact hend.2

/-- **A download delivers the file**, whatever commands fail, unless a retry loop uses up its attempts; nothing
overflows, and no loop goes on for ever. It starts, unless the attempts for the first slice are used up (as they
are with a URL that has no host), a command of the setup fails, the storage has no room or the URL is too long. -/
theorem download_delivers (himage : image.length < 2 ^ 32 - downloadSliceLen) (hpos : 1 ≤ chunkSize)
    (hsize : chunkSize ≤ maxFileChunkLen) {fuel : ℕ} (hfuel : 2 * chunkSize + 2 ≤ fuel) (url : List UInt8)
    (calls : ℕ) {start : Device Link Fate} (hstart : start.mem.gaveUp = false) :
    (∀ stopped, (downloadFile (serve image) url).run start ≠ .off stopped) ∧
      (∀ e stopped, (downloadFile (serve image) url).run start = .err e stopped →
        stopped.mem.gaveUp = true ∨ ¬SetUp (start.plan.drop (closing start.mem + 1)) ∨
          maxUrlLen < url.length) ∧
      ∀ started, (downloadFile (serve image) url).run start = .ok () started →
        ∃ chunks failure finish,
          (readChunks (serve image) fuel (List.replicate calls chunkSize)).run started =
            .ok (chunks, failure) finish ∧
          (finish.mem.gaveUp = false → Delivered image chunkSize calls chunks failure) := by
  have himage' : image.length + downloadSliceLen < 2 ^ 32 := by omega
  have hload := spec_downloadFile himage' url hstart start rfl (Dev.within_allFaults start)
  refine ⟨?_, ?_, ?_⟩
  · intro stopped hstopped
    rw [hstopped] at hload
    exact hload
  · intro e stopped hstopped
    by_cases hurl : url.length ≤ maxUrlLen
    · by_cases hsetup : SetUp (start.plan.drop (closing start.mem + 1))
      · exact .inl (gaveUp_of_downloadFile himage' hurl hstart hsetup hstopped)
      · exact .inr (.inl hsetup)
    · exact .inr (.inr (Nat.not_le.mp hurl))
  · intro started hstarted
    rw [hstarted] at hload
    have hread := spec_readChunks himage' hpos hsize hfuel (E := fun _ _ => False) calls hload.2 started rfl
      (Dev.within_allFaults started)
    cases hrun : (readChunks (serve image) fuel (List.replicate calls chunkSize)).run started with
    | ok r finish =>
      rw [hrun] at hread
      exact ⟨r.1, r.2, finish, rfl, hread.2⟩
    | err e finish =>
      rw [hrun] at hread
      exact hread.2.elim
    | off finish =>
      rw [hrun] at hread
      exact hread.elim

/-- The result of a run that does not stop -/
def resultOf {α : Type} : Outcome (Device Link Fate) Error α → Option α
  | .ok a _ => some a
  | .err _ _ => none
  | .off _ => none

lemma eq_ok_of_resultOf {α : Type} {o : Outcome (Device Link Fate) Error α} {a : α}
    (h : resultOf o = some a) : o = .ok a o.dev := by
  cases o with
  | ok a' finish =>
    obtain rfl : a' = a := Option.some.inj h
    rfl
  | err e finish => cases h
  | off finish => cases h

def sampleImage : List UInt8 := [10, 20, 30, 40, 50]

/-- `http://h/f` -/
def sampleUrl : List UInt8 := httpScheme ++ [104, 47, 102]

/-- The first request is not answered, the second read fails after it was carried out, and the file cannot
be opened again, so that the slice is fetched once more. -/
def samplePlan : List Fate :=
  List.replicate 5 default ++ [⟨true, false, 1, none⟩, ⟨true, false, 5, none⟩] ++
    List.replicate 8 default ++ [⟨true, false, 20000, none⟩] ++
    -- The request without an answer, and the next one.
    [default, default, ⟨false, false, 0, none⟩] ++ List.replicate 8 default ++
    -- A read that falls short by a byte, one that fails, and the handle that is not opened.
    [⟨true, false, 7, none⟩, default, ⟨true, false, 1, none⟩, ⟨false, true, 0, none⟩, default,
      ⟨false, false, 0, none⟩]

def sampleStart : Device Link Fate where
  mem := ⟨some 3, none, [1, 2], fun _ => some 0, ⟨none, none⟩, [], false⟩
  plan := default :: samplePlan
  readPlan := []

/-- The modem when the download has started -/
def sampleStarted : Device Link Fate := ((downloadFile (serve sampleImage) sampleUrl).run sampleStart).dev

theorem download_delivers_sample : ∃ started finish,
    (downloadFile (serve sampleImage) sampleUrl).run sampleStart = .ok () started ∧
      (readChunks (serve sampleImage) 6 (List.replicate 4 2)).run started =
        .ok ([[10, 20], [30, 40], [50]], some .endOfFile) finish ∧
      Delivered sampleImage 2 4 [[10, 20], [30, 40], [50]] (some .endOfFile) := by
  have hload : (downloadFile (serve sampleImage) sampleUrl).run sampleStart = .ok () sampleStarted :=
    eq_ok_of_resultOf (by decide +kernel)
  have hread := eq_ok_of_resultOf
    (o := (readChunks (serve sampleImage) 6 (List.replicate 4 2)).run sampleStarted)
    (a := ([[10, 20], [30, 40], [50]], some .endOfFile)) (by decide +kernel)
  have himage : sampleImage.length < 2 ^ 32 - downloadSliceLen := by decide +kernel
  have hgave : ((readChunks (serve sampleImage) 6 (List.replicate 4 2)).run sampleStarted).dev.mem.gaveUp =
      false := by decide +kernel
  obtain ⟨chunks, failure, finish, hrun, hdelivered⟩ :=
    (download_delivers himage (show 1 ≤ 2 by decide) (show 2 ≤ maxFileChunkLen by decide) (Nat.le_refl 6)
      sampleUrl 4 (show sampleStart.mem.gaveUp = false from rfl)).2.2 sampleStarted hload
  rw [hread] at hrun
  obtain ⟨hresult, rfl⟩ := Outcome.ok.inj hrun
  obtain ⟨rfl, rfl⟩ := Prod.mk.inj hresult
  exact ⟨sampleStarted, _, hload, hread, hdelivered hgave⟩

end Download

end SensorLink.Modem
