import Mathlib.Order.Monotone.Basic
import SensorLink.Modem.Runs
import SensorLink.Modem.Slice

/-!
# Provisioning a file

`ensure_provisioned` compares a file of the modem with its reference, chunk by chunk, and replaces it when
they differ. The end of the file is only known from a read that fails: a read of no bytes is taken for a
chunk.
-/

namespace SensorLink.Modem.Provisioning

open SensorLink.Lib

/-- `read_file_chunk` of the driver: the next bytes of the file, which is opened first if none is -/
def readFileChunk (chunkSize : ℕ) : Io Error (Option (List UInt8)) := do
  if chunkSize > maxFileChunkLen then .throw .serialize
  else
    if (← Io.get).fileHandle.isNone then
      let handle ← openCommand
      Io.set fun l => { l with fileHandle := some handle }
      seekCommand handle 0
    match (← Io.get).fileHandle with
    | some handle =>
      match ← ((readCommand handle chunkSize).attempt : Io Error _) with
      | .ok bytes => pure (some (bytes.take (min bytes.length chunkSize)))
      | .error _ => pure none
    | none => pure none

/-- The loop that compares the file with its reference: whether it needs an update -/
def compareFile (reference : List UInt8) : ℕ → ℕ → Io Error Bool
  | 0, _ => Io.panic
  | fuel + 1, offset => do
    if offset < reference.length then
      match ← readFileChunk maxFileChunkLen with
      | some content =>
        let stop := offset + content.length
        if stop > reference.length then pure true
        else if content ≠ (reference.take stop).drop offset then pure true
        else compareFile reference fuel stop
      -- The end of the file
      | none => pure true
    else pure false

/-- The bytes follow the announced upload, and the modem reports how many of them it has stored. -/
def uploadFile (contents : List UInt8) : Io Error Unit := do
  Io.sendPlain
  let size ← Io.send fun fate l =>
    let stored := contents.take (contents.length - fate.number)
    some (stored.length, { l with file := stored })
  if contents.length ≠ size then .throw .serialize

/-- What follows the comparison -/
def applyUpdate (reference : List UInt8) (needsUpdate : Bool) : Io Error Unit := do
  let _ ← (closeFile.attempt : Io Error _)
  if needsUpdate then
    let _ ← (deleteFile.attempt : Io Error _)
    uploadFile reference

def ensureProvisioned (fuel : ℕ) (reference : List UInt8) : Io Error Unit := do
  if reference = [] then pure ()
  else
    let needsUpdate ← compareFile reference fuel 0
    applyUpdate reference needsUpdate

/-- The call ends and, if it returns, the file is the reference; the loop needs some number of turns. -/
def ProvisionsRight (reference : List UInt8) (start : Device Link Fate) : Prop :=
  ∃ turns, ∀ fuel, turns ≤ fuel → match (ensureProvisioned fuel reference).run start with
    | .ok () finish => finish.mem.file = reference
    | .err _ _ => True
    | .off _ => False

/-! ### The reads -/

/-- Where the reads begin, with their fates: in a file that is open, or at the start of one that opens. -/
def firstRead (start : Device Link Fate) : Option (ℕ × List Fate) :=
  match start.mem.fileHandle with
  | some handle => (start.mem.position handle).map fun position => (position, start.plan)
  | none =>
    if (fateAt start.plan 0).ok ∧ (fateAt start.plan 1).ok then some (0, start.plan.drop 2) else none

section

variable (rest : List UInt8) (fates : List Fate)

/-- The modem answers the first reads. -/
def Answers (reads : ℕ) : Prop := ∀ j < reads, (fateAt fates j).ok = true

/-- How much of the file the modem has read after some reads, each of at most `maxFileChunkLen` bytes -/
def readTo : ℕ → ℕ
  | 0 => 0
  | reads + 1 =>
    readTo reads + ((rest.drop (readTo reads)).take (maxFileChunkLen - (fateAt fates reads).number)).length

/-- What a read gives -/
def chunk (reads : ℕ) : List UInt8 :=
  (rest.drop (readTo rest fates reads)).take (maxFileChunkLen - (fateAt fates reads).number)

/-- The file is the beginning of the reference, and its end is never signalled by a failed read. -/
def EndsSilently (reference : List UInt8) : Prop :=
  rest <+: reference ∧ rest ≠ reference ∧ ∀ reads, Answers fates reads

/-- The reference is the beginning of what is read, and a read ends where the reference does. -/
def CutAtReference (reference : List UInt8) : Prop :=
  reference <+: rest ∧ ∃ reads, Answers fates reads ∧ readTo rest fates reads = reference.length

/-- The comparison does not see that the file differs. -/
def Overlooked (reference : List UInt8) (start : Device Link Fate) : Prop :=
  ∃ position fates, firstRead start = some (position, fates) ∧
    (EndsSilently (start.mem.file.drop position) fates reference ∨
      start.mem.file ≠ reference ∧ CutAtReference (start.mem.file.drop position) fates reference)

/-- What the loop decides in some turns: whether the file needs an update -/
def decision (reference : List UInt8) : ℕ → ℕ → Option Bool
  | 0, _ => none
  | turns + 1, reads =>
    if readTo rest fates reads < reference.length then
      if (fateAt fates reads).ok = true ∧ readTo rest fates (reads + 1) ≤ reference.length ∧
          chunk rest fates reads =
            (reference.take (readTo rest fates (reads + 1))).drop (readTo rest fates reads) then
        decision reference turns (reads + 1)
      else some true
    else some false

end

section Decision

variable {rest : List UInt8} {fates : List Fate} {reference : List UInt8} {turns reads : ℕ}

lemma readTo_succ (reads : ℕ) :
    readTo rest fates (reads + 1) = readTo rest fates reads + (chunk rest fates reads).length := rfl

lemma readTo_le (reads : ℕ) : readTo rest fates reads ≤ rest.length := by
  induction reads with
  | zero => exact Nat.zero_le _
  | succ reads ih =>
    rw [readTo_succ, chunk, List.length_take, List.length_drop]
    omega

lemma readTo_mono : Monotone (readTo rest fates) :=
  monotone_nat_of_le_succ fun reads => by
    rw [readTo_succ]
    omega

/-- A read gives the bytes between its two positions. -/
lemma chunk_eq (reads : ℕ) : chunk rest fates reads =
    (rest.take (readTo rest fates (reads + 1))).drop (readTo rest fates reads) := by
  rw [List.drop_take, readTo_succ, Nat.add_sub_cancel_left]
  unfold chunk
  rw [List.length_take, List.take_eq_take_iff]
  omega

/-- Behind the plan, the reads go on until the end of the file. -/
lemma exists_readTo (rest : List UInt8) (fates : List Fate) :
    ∃ reads, readTo rest fates reads = rest.length := by
  have hgrow : ∀ n, min n rest.length ≤ readTo rest fates (fates.length + n) := by
    intro n
    induction n with
    | zero => omega
    | succ n ih =>
      have hdefault : fateAt fates (fates.length + n) = default :=
        List.getD_eq_default _ _ (Nat.le_add_right _ _)
      rw [← Nat.add_assoc, readTo_succ, chunk, hdefault, List.length_take, List.length_drop]
      have hlen : maxFileChunkLen - (default : Fate).number = 600 := rfl
      omega
  refine ⟨fates.length + rest.length, Nat.le_antisymm (readTo_le _) ?_⟩
  have := hgrow rest.length
  omega

/-- The loop goes on as long as what is read agrees with the reference. -/
lemma decision_agrees (hlt : readTo rest fates reads < reference.length)
    (hok : (fateAt fates reads).ok = true) (hle : readTo rest fates (reads + 1) ≤ reference.length)
    (heq : rest.take (readTo rest fates (reads + 1)) = reference.take (readTo rest fates (reads + 1))) :
    decision rest fates reference (turns + 1) reads = decision rest fates reference turns (reads + 1) := by
  rw [decision, if_pos hlt, if_pos ⟨hok, hle, by rw [chunk_eq, heq]⟩]

/-- A loop that never fails and never meets a difference does not end. -/
lemma decision_endsSilently (h : EndsSilently rest fates reference) (turns reads : ℕ) :
    decision rest fates reference turns reads = none := by
  obtain ⟨⟨tail, rfl⟩, hne, hall⟩ := h
  have htail : tail ≠ [] := fun hc => hne (by rw [hc, List.append_nil])
  have hpos := List.length_pos_iff.mpr htail
  have hle : ∀ n, readTo rest fates n < (rest ++ tail).length := by
    intro n
    rw [List.length_append]
    have hread : readTo rest fates n ≤ rest.length := readTo_le n
    omega
  induction turns generalizing reads with
  | zero => rfl
  | succ turns ih =>
    rw [decision_agrees (hle _) (hall (reads + 1) reads (Nat.lt_succ_self _)) (hle _).le, ih]
    rw [List.take_append_of_le_length (readTo_le _)]

/-- A read that ends where the reference does ends the loop. -/
lemma decision_cutAtReference {tail : List UInt8} (reads n : ℕ)
    (hall : Answers fates (reads + n))
    (hend : readTo (reference ++ tail) fates (reads + n) = reference.length) :
    decision (reference ++ tail) fates reference (n + 1) reads = some false := by
  induction n generalizing reads with
  | zero => rw [decision, if_neg (by rw [← hend]; exact Nat.lt_irrefl _)]
  | succ n ih =>
    have hle : ∀ j, j ≤ reads + (n + 1) → readTo (reference ++ tail) fates j ≤ reference.length :=
      fun j hj => hend ▸ readTo_mono hj
    by_cases hlt : readTo (reference ++ tail) fates reads < reference.length
    · rw [decision_agrees hlt (hall reads (by omega)) (hle _ (by omega))]
      · exact ih (reads + 1) (by rwa [Nat.add_right_comm]) (by rwa [Nat.add_right_comm])
      · rw [List.take_append_of_le_length (hle _ (by omega))]
    · rw [decision, if_neg hlt]

/-- The first reads are answered and agree with the reference. -/
structure Agreed (rest : List UInt8) (fates : List Fate) (reference : List UInt8) (reads : ℕ) : Prop where
  answers : Answers fates reads
  le : readTo rest fates reads ≤ reference.length
  eq : rest.take (readTo rest fates reads) = reference.take (readTo rest fates reads)

lemma agreed_zero : Agreed rest fates reference 0 where
  answers _ hj := absurd hj (Nat.not_lt_zero _)
  le := Nat.zero_le _
  eq := rfl

lemma Agreed.succ (h : Agreed rest fates reference reads) (hok : (fateAt fates reads).ok = true)
    (hle : readTo rest fates (reads + 1) ≤ reference.length)
    (heq : chunk rest fates reads =
      (reference.take (readTo rest fates (reads + 1))).drop (readTo rest fates reads)) :
    Agreed rest fates reference (reads + 1) := by
  refine ⟨fun j hj => ?_, hle, ?_⟩
  · rcases Nat.lt_succ_iff_lt_or_eq.mp hj with hlt | rfl
    · exact h.answers j hlt
    · exact hok
  · have hmin : min (readTo rest fates reads) (readTo rest fates (reads + 1)) = readTo rest fates reads :=
      Nat.min_eq_left (readTo_mono (Nat.le_succ reads))
    rw [chunk_eq] at heq
    rw [← List.take_append_drop (readTo rest fates reads) (rest.take (readTo rest fates (reads + 1))),
      ← List.take_append_drop (readTo rest fates reads) (reference.take (readTo rest fates (reads + 1))),
      heq, List.take_take, List.take_take, hmin, h.eq]

/-- What is taken to be up to date begins with the reference, and a read has ended at its end. -/
lemma Agreed.cutAtReference (h : Agreed rest fates reference reads)
    (hfalse : decision rest fates reference turns reads = some false) :
    CutAtReference rest fates reference := by
  induction turns generalizing reads with
  | zero => cases hfalse
  | succ turns ih =>
    rw [decision] at hfalse
    split_ifs at hfalse with hlt hgoes
    · exact ih (h.succ hgoes.1 hgoes.2.1 hgoes.2.2) hfalse
    · cases hfalse
    · have hend : readTo rest fates reads = reference.length := Nat.le_antisymm h.le (Nat.not_lt.mp hlt)
      refine ⟨?_, reads, h.answers, hend⟩
      rw [← List.take_length (l := reference), ← hend, ← h.eq]
      exact List.take_prefix _ _

/-- A loop that does not end has read everything, in agreement with the reference. -/
lemma endsSilently_of_decision (h : ∀ turns, decision rest fates reference turns 0 = none) :
    EndsSilently rest fates reference := by
  have hgoes : ∀ reads, Agreed rest fates reference reads ∧
      ∀ turns, decision rest fates reference turns reads = none := by
    intro reads
    induction reads with
    | zero => exact ⟨agreed_zero, h⟩
    | succ reads ih =>
      obtain ⟨hagreed, hnone⟩ := ih
      have hstep : ∀ turns, readTo rest fates reads < reference.length ∧
          Agreed rest fates reference (reads + 1) ∧
            decision rest fates reference turns (reads + 1) = none := by
        intro turns
        have hturn := hnone (turns + 1)
        rw [decision] at hturn
        split_ifs at hturn with hlt hgo
        exact ⟨hlt, hagreed.succ hgo.1 hgo.2.1 hgo.2.2, hturn⟩
      exact ⟨(hstep 0).2.1, fun turns => (hstep turns).2.2⟩
  obtain ⟨reads, hall⟩ := exists_readTo rest fates
  have hrest : rest = reference.take rest.length := by
    have := (hgoes reads).1.eq
    rwa [hall, List.take_length] at this
  have hlt : rest.length < reference.length := by
    have hturn := (hgoes reads).2 1
    rw [decision, hall] at hturn
    by_contra hc
    rw [if_neg hc] at hturn
    cases hturn
  refine ⟨?_, fun hc => ?_, fun n => (hgoes n).1.answers⟩
  · rw [hrest]
    exact List.take_prefix _ _
  · rw [hc] at hlt
    exact Nat.lt_irrefl _ hlt

lemma decision_mono {update : Bool} (h : decision rest fates reference turns reads = some update) {more : ℕ}
    (hle : turns ≤ more) : decision rest fates reference more reads = some update := by
  induction turns generalizing reads more with
  | zero => cases h
  | succ turns ih =>
    obtain ⟨more, rfl⟩ := Nat.exists_eq_add_of_lt hle
    rw [decision] at h ⊢
    split_ifs at h ⊢ with hlt hgo
    · exact ih h (by omega)
    · exact h
    · exact h

end Decision

/-- The file is open at the position of that read, and its fate is the next one. -/
structure AtRead (file : List UInt8) (position : ℕ) (fates : List Fate) (reads : ℕ) (d : Device Link Fate) :
    Prop where
  content : d.mem.file = file
  plan : d.plan = fates.drop reads
  opened : ∃ handle, d.mem.fileHandle = some handle ∧
    d.mem.position handle = some (position + readTo (file.drop position) fates reads)

section Compare

variable {file reference : List UInt8} {position : ℕ} {fates : List Fate} {reads : ℕ} {d : Device Link Fate}

lemma length_chunk_le (rest : List UInt8) (fates : List Fate) (reads : ℕ) :
    (chunk rest fates reads).length ≤ maxFileChunkLen := by
  rw [chunk, List.length_take]
  omega

/-- The reply to a read: the next chunk of the file, or an error -/
lemma run_readCommand (h : AtRead file position fates reads d) {handle : ℕ}
    (hhandle : d.mem.fileHandle = some handle)
    (hposition : d.mem.position handle = some (position + readTo (file.drop position) fates reads)) :
    if (fateAt fates reads).ok = true then
      ∃ d', (readCommand handle maxFileChunkLen).run d = .ok (chunk (file.drop position) fates reads) d' ∧
        AtRead file position fates (reads + 1) d'
    else ∃ d', (readCommand handle maxFileChunkLen).run d = .err .client d' ∧ d'.mem.file = file := by
  have hfate : fateAt d.plan 0 = fateAt fates reads := by rw [h.plan, fateAt_drop, Nat.add_zero]
  have hdata : (d.mem.file.drop (position + readTo (file.drop position) fates reads)).take
      (maxFileChunkLen - (fateAt d.plan 0).number) = chunk (file.drop position) fates reads := by
    rw [h.content, hfate, chunk, List.drop_drop]
  have hlen : (chunk (file.drop position) fates reads).length ≤ 1024 :=
    (length_chunk_le _ fates reads).trans (show maxFileChunkLen ≤ 1024 by decide)
  split_ifs with hok
  · refine ⟨_, run_readCommand_ok (by rw [hfate]; exact hok) hposition hdata hlen, h.content, ?_, handle,
      hhandle, ?_⟩
    · simp only [h.plan, List.drop_drop]
    · rw [readTo_succ, ← Nat.add_assoc]
      exact if_pos rfl
  · obtain ⟨d', hrun, hfile⟩ :=
      run_readCommand_err (by rw [hfate]; exact Bool.eq_false_iff.mpr hok) hposition hdata hlen
    exact ⟨d', hrun, hfile.trans h.content⟩

/-- A read of an open file -/
def readOpened (handle : ℕ) : Io Error (Option (List UInt8)) := do
  match ← ((readCommand handle maxFileChunkLen).attempt : Io Error _) with
  | .ok bytes => pure (some (bytes.take (min bytes.length maxFileChunkLen)))
  | .error _ => pure none

lemma run_opened {handle : ℕ} (hhandle : d.mem.fileHandle = some handle) :
    (readFileChunk maxFileChunkLen).run d = (readOpened handle).run d := by
  unfold readFileChunk
  rw [if_neg (Nat.lt_irrefl _), run_get, hhandle]
  simp only [Option.isNone_some, Bool.false_eq_true, if_false, run_get, hhandle]
  rfl

/-- The chunk that is compared next, or none where the read fails -/
lemma run_readFileChunk (h : AtRead file position fates reads d) :
    if (fateAt fates reads).ok = true then
      ∃ d', (readFileChunk maxFileChunkLen).run d = .ok (some (chunk (file.drop position) fates reads)) d' ∧
        AtRead file position fates (reads + 1) d'
    else ∃ d', (readFileChunk maxFileChunkLen).run d = .ok none d' ∧ d'.mem.file = file := by
  obtain ⟨handle, hhandle, hposition⟩ := h.opened
  have hsent := run_readCommand h hhandle hposition
  rw [run_opened hhandle]
  split_ifs at hsent ⊢ with hok
  · obtain ⟨d', hrun, hat⟩ := hsent
    refine ⟨d', (Dev.run_bind_ok (Dev.run_attempt_ok hrun) _).trans ?_, hat⟩
    have hlen := length_chunk_le (file.drop position) fates reads
    simp only [List.take_of_length_le (show _ ≤ min _ _ from Nat.le_min.mpr ⟨Nat.le_refl _, hlen⟩)]
    rfl
  · obtain ⟨d', hrun, hfile⟩ := hsent
    exact ⟨d', Dev.run_bind_ok (Dev.run_attempt_err hrun) _, hfile⟩

/-- The loop decides as `decision` does, and leaves the file alone. -/
lemma run_compareFile (h : AtRead file position fates reads d) (turns : ℕ) :
    match decision (file.drop position) fates reference turns reads with
    | some update => ∃ d', (compareFile reference turns (readTo (file.drop position) fates reads)).run d =
        .ok update d' ∧ d'.mem.file = file
    | none =>
      ∃ d', (compareFile reference turns (readTo (file.drop position) fates reads)).run d = .off d' := by
  induction turns generalizing reads d with
  | zero => exact ⟨_, rfl⟩
  | succ turns ih =>
    have hread := run_readFileChunk h
    rw [decision, compareFile]
    by_cases hlt : readTo (file.drop position) fates reads < reference.length
    · rw [if_pos hlt, if_pos hlt]
      by_cases hok : (fateAt fates reads).ok = true
      · rw [if_pos hok] at hread
        obtain ⟨d', hrun, hat⟩ := hread
        rw [Dev.run_bind_ok hrun]
        dsimp only
        rw [← readTo_succ]
        by_cases hle : readTo (file.drop position) fates (reads + 1) ≤ reference.length
        · rw [if_neg (Nat.not_lt.mpr hle)]
          by_cases heq : chunk (file.drop position) fates reads =
              (reference.take (readTo (file.drop position) fates (reads + 1))).drop
                (readTo (file.drop position) fates reads)
          · rw [if_pos ⟨hok, hle, heq⟩, if_neg (not_not.mpr heq)]
            exact ih hat
          · rw [if_neg fun hc => heq hc.2.2, if_pos heq]
            exact ⟨d', rfl, hat.content⟩
        · rw [if_neg fun hc => hle hc.2.1, if_pos (Nat.not_le.mp hle)]
          exact ⟨d', rfl, hat.content⟩
      · rw [if_neg hok] at hread
        obtain ⟨d', hrun, hfile⟩ := hread
        rw [Dev.run_bind_ok hrun, if_neg fun hc => hok hc.1]
        exact ⟨d', rfl, hfile⟩
    · rw [if_neg hlt, if_neg hlt]
      exact ⟨d, rfl, h.content⟩

end Compare

section FirstRead

variable {reference : List UInt8} {start : Device Link Fate} {position : ℕ} {fates : List Fate}

/-- What follows the opening -/
def seekAndRead (handle : ℕ) : Io Error (Option (List UInt8)) := do
  seekCommand handle 0
  match (← Io.get).fileHandle with
  | some handle => readOpened handle
  | none => pure none

/-- The file is opened when none is. -/
lemma run_unopened (hhandle : start.mem.fileHandle = none) :
    (readFileChunk maxFileChunkLen).run start = (do
      let handle ← openCommand
      Io.set fun l => { l with fileHandle := some handle }
      seekAndRead handle : Io Error _).run start := by
  unfold readFileChunk
  rw [if_neg (Nat.lt_irrefl _), run_get, hhandle]
  rfl

lemma run_opened_first (hhandle : start.mem.fileHandle = none) (hopen : (fateAt start.plan 0).ok = true) :
    (readFileChunk maxFileChunkLen).run start =
      (seekAndRead (fateAt start.plan 0).number).run (opened start) := by
  rw [run_unopened hhandle, Dev.run_bind_ok (run_openCommand hopen)]
  rfl

/-- The commands before the first read leave the file open. -/
lemma exists_atRead (h : firstRead start = some (position, fates)) :
    ∃ d, AtRead start.mem.file position fates 0 d ∧
      (readFileChunk maxFileChunkLen).run start = (readFileChunk maxFileChunkLen).run d := by
  unfold firstRead at h
  cases hhandle : start.mem.fileHandle with
  | some handle =>
    rw [hhandle] at h
    obtain ⟨p, hp, heq⟩ := Option.map_eq_some_iff.mp h
    obtain ⟨rfl, rfl⟩ := Prod.mk.inj heq
    exact ⟨start, ⟨rfl, rfl, handle, hhandle, hp⟩, rfl⟩
  | none =>
    rw [hhandle] at h
    obtain ⟨⟨hopen, hseek⟩, heq⟩ := Option.ite_none_right_eq_some.mp h
    obtain ⟨rfl, rfl⟩ := Prod.mk.inj (Option.some.inj heq)
    exact ⟨sought start 0, ⟨rfl, rfl, _, rfl, if_pos rfl⟩, (run_opened_first hhandle hopen).trans
      ((Dev.run_bind_ok (run_seek 0 hseek) _).trans (run_opened rfl).symm)⟩

/-- Without a first read, the file is taken to differ, or it could not be opened. -/
lemma run_readFileChunk_none (h : firstRead start = none) :
    (∃ d, (readFileChunk maxFileChunkLen).run start = .ok none d) ∨
      ∃ e d, (readFileChunk maxFileChunkLen).run start = .err e d := by
  unfold firstRead at h
  cases hhandle : start.mem.fileHandle with
  | some handle =>
    rw [hhandle] at h
    have hrefused : (readCommand handle maxFileChunkLen).run start =
        .err .client { start with plan := start.plan.drop 1 } :=
      run_send_refused (by rw [Option.map_eq_none_iff.mp h]; rfl)
    left
    exact ⟨_, (run_opened hhandle).trans (Dev.run_bind_ok (Dev.run_attempt_err hrefused) _)⟩
  | none =>
    rw [hhandle] at h
    have hnot : ¬((fateAt start.plan 0).ok = true ∧ (fateAt start.plan 1).ok = true) := by
      intro hc
      rw [if_pos hc] at h
      cases h
    right
    by_cases hopen : (fateAt start.plan 0).ok = true
    · obtain ⟨d, hrun⟩ := run_seek_err 0 (Bool.eq_false_iff.mpr fun hc => hnot ⟨hopen, hc⟩)
      exact ⟨_, _, (run_opened_first hhandle hopen).trans (Dev.run_bind_err hrun _)⟩
    · obtain ⟨l, -, hrun⟩ : ∃ l, _ ∧ openCommand.run start =
          .err .client { start with mem := l, plan := start.plan.drop 1 } :=
        run_send_err (Bool.eq_false_iff.mpr hopen) rfl
      exact ⟨_, _, (run_unopened hhandle).trans (Dev.run_bind_err hrun _)⟩

/-- The comparison of a file that can be read -/
lemma run_compareFile_first (hne : reference ≠ []) (h : firstRead start = some (position, fates))
    (turns : ℕ) :
    match decision (start.mem.file.drop position) fates reference turns 0 with
    | some update =>
      ∃ d, (compareFile reference turns 0).run start = .ok update d ∧ d.mem.file = start.mem.file
    | none => ∃ d, (compareFile reference turns 0).run start = .off d := by
  obtain ⟨d, hat, hread⟩ := exists_atRead h
  cases turns with
  | zero => exact ⟨start, rfl⟩
  | succ turns =>
    have hsame : (compareFile reference (turns + 1) 0).run start =
        (compareFile reference (turns + 1) 0).run d := by
      rw [compareFile, if_pos (List.length_pos_iff.mpr hne)]
      simp only [Bind.bind, hread]
    rw [hsame]
    exact run_compareFile hat (turns + 1)

lemma run_compareFile_none (hne : reference ≠ []) (h : firstRead start = none) (turns : ℕ) :
    (∃ d, (compareFile reference (turns + 1) 0).run start = .ok true d) ∨
      ∃ e d, (compareFile reference (turns + 1) 0).run start = .err e d := by
  rw [compareFile, if_pos (List.length_pos_iff.mpr hne)]
  rcases run_readFileChunk_none h with ⟨d, hrun⟩ | ⟨e, d, hrun⟩
  · exact .inl ⟨d, Dev.run_bind_ok hrun _⟩
  · exact .inr ⟨e, d, Dev.run_bind_err hrun _⟩

end FirstRead

/-! ### The update -/

section Update

variable (reference : List UInt8) {l : Link}

lemma spec_uploadFile :
    Spec (uploadFile reference) (fun _ l => l.file = reference) (fun _ _ => True) l := by
  unfold uploadFile
  refine Dev.wp_bind (spec_sendPlain ?_ trivial)
  refine Dev.wp_bind (spec_send (fun fate => ⟨_, _, rfl, ?_, trivial⟩) trivial)
  split_ifs with hsize
  · exact Dev.wp_throw trivial
  · exact Dev.wp_pure ((List.take_prefix _ _).eq_of_length (not_not.mp hsize).symm)

/-- A file that is up to date is left as it is. -/
lemma spec_applyUpdate_false :
    Spec (applyUpdate reference false) (fun _ l' => l'.file = l.file) (fun _ _ => False) l := by
  unfold applyUpdate
  refine Dev.wp_bind (spec_attempt (spec_closeFile (P := fun l' => l'.file = l.file) fun _ => rfl) ?_)
  exact fun _ _ hfile => Dev.wp_pure hfile

lemma spec_applyUpdate_true :
    Spec (applyUpdate reference true) (fun _ l' => l'.file = reference) (fun _ _ => True) l := by
  unfold applyUpdate
  refine Dev.wp_bind (spec_attempt (spec_closeFile (P := fun _ => True) fun _ => trivial) fun _ _ _ => ?_)
  refine Dev.wp_bind (spec_attempt (spec_deleteFile (P := fun _ => True) fun _ => trivial) fun _ _ _ => ?_)
  exact spec_uploadFile reference

end Update

section Ensure

variable {reference : List UInt8} {start : Device Link Fate} {position : ℕ} {fates : List Fate}

/-- A file that is replaced is right, unless the replacing fails. -/
lemma run_applyUpdate_true (reference : List UInt8) (d : Device Link Fate) :
    match (applyUpdate reference true).run d with
    | .ok () finish => finish.mem.file = reference
    | .err _ _ => True
    | .off _ => False := by
  have hspec := spec_applyUpdate_true reference d rfl (Dev.within_allFaults d)
  revert hspec
  cases (applyUpdate reference true).run d with
  | ok a finish => exact And.right
  | err e finish => exact fun _ => trivial
  | off finish => exact id

lemma run_applyUpdate_false (reference : List UInt8) (d : Device Link Fate) :
    ∃ finish, (applyUpdate reference false).run d = .ok () finish ∧ finish.mem.file = d.mem.file := by
  have hspec := spec_applyUpdate_false reference d rfl (Dev.within_allFaults d)
  revert hspec
  cases (applyUpdate reference false).run d with
  | ok a finish => exact fun h => ⟨finish, rfl, h.2⟩
  | err e finish => exact fun h => h.2.elim
  | off finish => exact False.elim

lemma run_ensureProvisioned (hne : reference ≠ []) (fuel : ℕ) :
    (ensureProvisioned fuel reference).run start =
      (compareFile reference fuel 0 >>= fun update => applyUpdate reference update).run start := by
  rw [ensureProvisioned, if_neg hne]

/-- A file that cannot be read is replaced, or the call fails. -/
lemma provisionsRight_of_none (hne : reference ≠ []) (h : firstRead start = none) :
    ProvisionsRight reference start := by
  refine ⟨1, fun fuel hfuel => ?_⟩
  obtain ⟨turns, rfl⟩ : ∃ turns, fuel = turns + 1 := ⟨fuel - 1, by omega⟩
  rw [run_ensureProvisioned hne]
  rcases run_compareFile_none hne h turns with ⟨d, hrun⟩ | ⟨e, d, hrun⟩
  · rw [Dev.run_bind_ok hrun]
    exact run_applyUpdate_true reference d
  · rw [Dev.run_bind_err hrun]
    trivial

lemma provisionsRight_of_decision (hne : reference ≠ []) (h : firstRead start = some (position, fates))
    {turns : ℕ} {update : Bool}
    (hdecision : decision (start.mem.file.drop position) fates reference turns 0 = some update)
    (hfile : update = false → start.mem.file = reference) : ProvisionsRight reference start := by
  refine ⟨turns, fun fuel hfuel => ?_⟩
  have hcompare := run_compareFile_first hne h fuel
  rw [decision_mono hdecision hfuel] at hcompare
  obtain ⟨d, hrun, hd⟩ := hcompare
  rw [run_ensureProvisioned hne, Dev.run_bind_ok hrun]
  cases update with
  | true => exact run_applyUpdate_true reference d
  | false =>
    obtain ⟨finish, hfinish, hsame⟩ := run_applyUpdate_false reference d
    rw [hfinish]
    exact hsame.trans (hd.trans (hfile rfl))

/-- The loop does not end, or the file stays. -/
lemma not_provisionsRight (hne : reference ≠ []) (h : Overlooked reference start) :
    ¬ ProvisionsRight reference start := by
  rintro ⟨turns, hturns⟩
  obtain ⟨position, fates, hfirst, hsilent | ⟨hdiffers, ⟨tail, htail⟩, reads, hall, hend⟩⟩ := h
  · have hcompare := run_compareFile_first hne hfirst turns
    rw [decision_endsSilently hsilent] at hcompare
    obtain ⟨d, hrun⟩ := hcompare
    have hright := hturns turns (Nat.le_refl _)
    rw [run_ensureProvisioned hne] at hright
    simp only [Bind.bind, hrun, Dev.andThen] at hright
  · have hcompare := run_compareFile_first hne hfirst (max turns (reads + 1))
    rw [← htail] at hend hcompare
    have hdecision := decision_cutAtReference 0 reads (by rwa [Nat.zero_add]) (by rwa [Nat.zero_add])
    rw [decision_mono hdecision (Nat.le_max_right _ _)] at hcompare
    obtain ⟨d, hrun, hd⟩ := hcompare
    obtain ⟨finish, hfinish, hsame⟩ := run_applyUpdate_false reference d
    have hright := hturns _ (Nat.le_max_left turns (reads + 1))
    rw [run_ensureProvisioned hne, Dev.run_bind_ok hrun, hfinish] at hright
    exact hdiffers (hd.symm.trans (hsame.symm.trans hright))

/-- The loop ends, since a file that it has read to its end without a failure is the reference. -/
lemma provisionsRight_of_seen (hne : reference ≠ []) (hseen : ¬ Overlooked reference start) :
    ProvisionsRight reference start := by
  cases hfirst : firstRead start with
  | none => exact provisionsRight_of_none hne hfirst
  | some first =>
    obtain ⟨position, fates⟩ := first
    have hsees : ¬ EndsSilently (start.mem.file.drop position) fates reference :=
      fun hc => hseen ⟨position, fates, hfirst, .inl hc⟩
    obtain ⟨turns, hturns⟩ : ∃ turns,
        decision (start.mem.file.drop position) fates reference turns 0 ≠ none := by
      by_contra hc
      exact hsees (endsSilently_of_decision fun turns => not_not.mp fun hn => hc ⟨turns, hn⟩)
    obtain ⟨update, hupdate⟩ := Option.ne_none_iff_exists'.mp hturns
    refine provisionsRight_of_decision hne hfirst hupdate ?_
    rintro rfl
    by_contra hdiffers
    exact hseen ⟨position, fates, hfirst, .inr ⟨hdiffers, agreed_zero.cutAtReference hupdate⟩⟩

/-- The file is right after the call unless the comparison does not see that it differs. -/
theorem provisions_right_iff (hne : reference ≠ []) :
    ProvisionsRight reference start ↔ ¬ Overlooked reference start :=
  ⟨fun h hc => not_provisionsRight hne hc h, provisionsRight_of_seen hne⟩

/-- A modem that holds that file, has nothing open, and carries everything out -/
def holding (file : List UInt8) : Device Link Fate :=
  .working ⟨none, none, file, fun _ => none, ⟨none, none⟩, [], false⟩

theorem provisions_right_replaced : ProvisionsRight [1] (holding [2]) := by
  refine (provisions_right_iff (by decide)).mpr ?_
  rintro ⟨position, fates, hfirst, ⟨⟨tail, htail⟩, -⟩ | ⟨-, ⟨tail, htail⟩, -⟩⟩
  · obtain ⟨rfl, rfl⟩ := Prod.mk.inj (Option.some.inj hfirst)
    cases htail
  · obtain ⟨rfl, rfl⟩ := Prod.mk.inj (Option.some.inj hfirst)
    cases htail

/-- An empty file is read without an end, and a file that is a byte longer than its reference is kept. -/
theorem provisioning_overlooks : ¬ ProvisionsRight [1] (holding []) ∧
    ¬ ProvisionsRight (List.replicate 600 1) (holding (List.replicate 601 1)) := by
  constructor
  · refine not_provisionsRight (by decide) ⟨0, [], rfl, .inl ⟨List.nil_prefix, by decide, ?_⟩⟩
    exact fun _ _ _ => rfl
  · refine not_provisionsRight (by decide) ⟨0, [], rfl, .inr ⟨?_, ⟨[1], ?_⟩, 1, ?_, ?_⟩⟩
    · intro hc
      have := congrArg List.length hc
      rw [holding] at this
      simp only [Device.working, List.length_replicate] at this
      omega
    · exact (List.replicate_succ' (n := 600)).symm
    · exact fun _ _ => rfl
    · rw [readTo_succ, chunk, List.length_take, List.length_drop, List.length_drop]
      simp only [holding, Device.working, List.length_replicate]
      rfl

end Ensure

end SensorLink.Modem.Provisioning
