import SensorLink.Modem.Download
import SensorLink.Modem.Runs

/-!
# The setup of a download

The commands before the first slice, one run of them. Closing and deleting the file of an earlier download,
the queries of the registration and that of the free space may fail; the other twelve commands may not.
-/

namespace SensorLink.Modem

open SensorLink.Lib

/-- How many times the registration is queried -/
def queries : ℕ → List Fate → ℕ
  | 0, _ => 0
  | retries + 1, fates =>
    if (fateAt fates 0).ok = true ∧ ((fateAt fates 0).number = 1 ∨ (fateAt fates 0).number = 5) then 1
    else queries retries (fates.drop 1) + 1

/-- Closing an open file takes a command. -/
def closing (l : Link) : ℕ := if l.fileHandle.isSome then 1 else 0

/-- The number of commands up to the end of the queries, of which there are two rounds -/
def registered (fates : List Fate) : ℕ :=
  let first := 4 + queries 90 (fates.drop 4)
  first + queries 60 (fates.drop first)

/-- The number of the command that asks for the free space -/
def roomAt (start : Device Link Fate) : ℕ :=
  closing start.mem + 1 + (registered (start.plan.drop (closing start.mem + 1)) + 8)

/-- The four commands before the queries and the eight behind them are carried out, and the modem does not
report too little space. -/
structure SetUp (fates : List Fate) : Prop where
  configured : ∀ n < 4, (fateAt fates n).ok = true
  activated : ∀ n < 8, (fateAt fates (registered fates + n)).ok = true
  room : (fateAt fates (registered fates + 8)).ok = true →
    downloadSliceLen ≤ (fateAt fates (registered fates + 8)).number

section Setup

variable {d : Device Link Fate}

lemma run_configure {n : ℕ} (hok : ∀ m < n, (fateAt d.plan m).ok = true) :
    (configure n).run d = .ok () (after d n d.mem) := by
  induction n generalizing d with
  | zero => rfl
  | succ n ih =>
    rw [configure, Dev.run_bind_ok (run_sendPlain (hok 0 (Nat.succ_pos n))), ih fun m hm => ?_, mem_after,
      after_after, Nat.add_comm 1 n]
    rw [fateAt_after]
    exact hok _ (by omega)

/-- A query that is only looked at -/
lemma run_query {ε : Type} (d : Device Link Fate) :
    ((Io.send fun fate l => some (fate.number, l)).attempt : Io ε (Except Error ℕ)).run d =
      .ok (if (fateAt d.plan 0).ok then .ok (fateAt d.plan 0).number else .error .client)
        (after d 1 d.mem) := by
  by_cases hok : (fateAt d.plan 0).ok = true
  · rw [if_pos hok]
    exact Dev.run_attempt_ok (run_send_ok hok rfl)
  · rw [if_neg hok]
    refine Dev.run_attempt_err ?_
    obtain ⟨l, hl, hrun⟩ : ∃ l, (l = d.mem ∨ l = d.mem) ∧
        (Io.send fun fate l => some (fate.number, l)).run d = .err .client (after d 1 l) :=
      run_send_err (Bool.eq_false_iff.mpr hok) rfl
    rwa [hl.elim id id] at hrun

lemma run_awaitRegistered (retries : ℕ) (d : Device Link Fate) :
    (awaitRegistered retries).run d = .ok () (after d (queries retries d.plan) d.mem) := by
  induction retries generalizing d with
  | zero => rfl
  | succ retries ih =>
    have hnext := ih (after d 1 d.mem)
    rw [mem_after, after_after, plan_after, Nat.add_comm 1] at hnext
    rw [awaitRegistered, Dev.run_bind_ok (run_query d), queries]
    by_cases hok : (fateAt d.plan 0).ok = true
    · simp only [hok, if_true, true_and]
      by_cases hstat : (fateAt d.plan 0).number = 1 ∨ (fateAt d.plan 0).number = 5
      · rw [if_pos hstat, if_pos hstat]
        rfl
      · rw [if_neg hstat, if_neg hstat]
        exact hnext
    · rw [if_neg hok, if_neg fun h => hok h.1]
      exact hnext

lemma run_storageFreeSpace (d : Device Link Fate) : storageFreeSpace.run d =
    .ok (if (fateAt d.plan 0).ok then some (fateAt d.plan 0).number else none) (after d 1 d.mem) := by
  refine (Dev.run_bind_ok (run_query d) _).trans ?_
  by_cases hok : (fateAt d.plan 0).ok = true
  · rw [if_pos hok, if_pos hok]
    rfl
  · rw [if_neg hok, if_neg hok]
    rfl

/-- With the setup done, the first slice is fetched. -/
lemma run_startDownload {url : List UInt8} (server : Server) (hurl : url.length ≤ maxUrlLen)
    (h : SetUp d.plan) : (startDownload server url).run d =
      (fetchSliceWithRetry server 0 (sliceAttempts - 1)).run
        (after d (registered d.plan + 9) { d.mem with download := some ⟨url, 0, 0, 0, false⟩ }) := by
  have hfirst := run_awaitRegistered 90 (after d 4 d.mem)
  have hsecond := run_awaitRegistered 60 (after d (4 + queries 90 (d.plan.drop 4)) d.mem)
  rw [mem_after, plan_after, after_after] at hfirst hsecond
  have hactive := run_configure (d := after d (registered d.plan) d.mem) (n := 8) fun n hn => by
    rw [fateAt_after]
    exact h.activated n hn
  have hspace := run_storageFreeSpace (after d (registered d.plan + 8) d.mem)
  rw [mem_after, after_after] at hactive hspace
  rw [fateAt_after, Nat.add_zero] at hspace
  rw [startDownload, Dev.run_bind_ok (run_configure h.configured), Dev.run_bind_ok hfirst,
    Dev.run_bind_ok hsecond]
  refine (Dev.run_bind_ok hactive _).trans ((Dev.run_bind_ok hspace _).trans ?_)
  by_cases hok : (fateAt d.plan (registered d.plan + 8)).ok = true
  · rw [if_pos hok]
    dsimp only
    rw [if_neg (Nat.not_lt.mpr (h.room hok)), if_pos hurl]
    rfl
  · rw [if_neg hok]
    dsimp only
    rw [if_pos hurl]
    rfl

lemma run_closeCommand_err (handle : ℕ) (hok : (fateAt d.plan 0).ok = false) : ∃ l,
    (l = { d.mem with position := fun h => if h = handle then none else d.mem.position h } ∨ l = d.mem) ∧
      (closeCommand handle).run d = .err .client (after d 1 l) := run_send_err hok rfl

lemma run_deleteCommand_err (hok : (fateAt d.plan 0).ok = false) : ∃ l,
    (l = { d.mem with file := [] } ∨ l = d.mem) ∧ deleteCommand.run d = .err .client (after d 1 l) :=
  run_send_err hok rfl

/-- Whether the file of an earlier download is closed or not, the driver has no handle any more. -/
lemma run_closeFile (d : Device Link Fate) : ∃ r l,
    (closeFile.attempt : Io Error _).run d = .ok r (after d (closing d.mem) l) ∧ l.fileHandle = none ∧
      l.gaveUp = d.mem.gaveUp := by
  unfold closing
  cases hhandle : d.mem.fileHandle with
  | none =>
    have hrun : closeFile.run d = .ok () (after d 0 { d.mem with fileHandle := none }) := by
      rw [closeFile, run_get, hhandle]
      rfl
    exact ⟨_, _, Dev.run_attempt_ok hrun, rfl, rfl⟩
  | some handle =>
    have hclose : closeFile.run d =
        (closeCommand handle).run { d with mem := { d.mem with fileHandle := none } } := by
      rw [closeFile, run_get, hhandle]
      rfl
    by_cases hok : (fateAt d.plan 0).ok = true
    · exact ⟨_, _, Dev.run_attempt_ok (hclose.trans (run_send_ok hok rfl)), rfl, rfl⟩
    · obtain ⟨l, hl, hrun⟩ := run_closeCommand_err (d := { d with mem := { d.mem with fileHandle := none } })
        handle (Bool.eq_false_iff.mpr hok)
      refine ⟨_, l, Dev.run_attempt_err (hclose.trans hrun), ?_⟩
      rcases hl with rfl | rfl <;> exact ⟨rfl, rfl⟩

lemma run_deleteFile (d : Device Link Fate) : ∃ r l,
    (deleteFile.attempt : Io Error _).run d = .ok r (after d 1 l) ∧ l.fileHandle = d.mem.fileHandle ∧
      l.gaveUp = d.mem.gaveUp := by
  by_cases hok : (fateAt d.plan 0).ok = true
  · have hrun : deleteFile.run d = .ok () (after d 1 { d.mem with file := [] }) := by
      unfold deleteFile deleteCommand
      exact run_send_ok hok rfl
    exact ⟨_, _, Dev.run_attempt_ok hrun, rfl, rfl⟩
  · obtain ⟨l, hl, hrun⟩ := run_deleteCommand_err (Bool.eq_false_iff.mpr hok)
    refine ⟨_, l, Dev.run_attempt_err hrun, ?_⟩
    rcases hl with rfl | rfl <;> exact ⟨rfl, rfl⟩

/-- A download starts without an open file, behind the commands that get rid of the earlier one. -/
lemma run_downloadFile (server : Server) (url : List UInt8) (start : Device Link Fate) : ∃ l,
    l.fileHandle = none ∧ l.gaveUp = start.mem.gaveUp ∧
      (downloadFile server url).run start =
        Dev.andThen ((startDownload server url).run (after start (closing start.mem + 1) l))
          (fun _ d => .ok () d) fun e => (do finishDownload; .throw e : Io Error Unit).run := by
  obtain ⟨closed, l, hclose, hnone, hgave⟩ := run_closeFile start
  obtain ⟨deleted, l', hdelete, hhandle, hgave'⟩ := run_deleteFile (after start (closing start.mem) l)
  rw [after_after] at hdelete
  refine ⟨l', hhandle.trans hnone, hgave'.trans hgave, ?_⟩
  refine (Dev.run_bind_ok hclose _).trans ((Dev.run_bind_ok hdelete _).trans ?_)
  simp only [Bind.bind, Dev.attempt]
  cases (startDownload server url).run (after start (closing start.mem + 1) l') <;> rfl

end Setup

end SensorLink.Modem
