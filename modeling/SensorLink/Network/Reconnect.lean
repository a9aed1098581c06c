import Mathlib.Algebra.Group.Nat.Defs
import Mathlib.Data.List.Chain
import Mathlib.Data.Nat.Notation
import Mathlib.Tactic.Convert
import SensorLink.Network.Connection
import SensorLink.Lib.Reach

/-!
# The retry loop of `logic/network.rs`

`network_task` connects, handles the connection, and connects again after a delay that doubles each time, until
it was offline for too long. An iteration of its loop is one operation; how long the client, the signal queue
and the timers take in it is part of the operation. Times are in microseconds.
-/

namespace SensorLink.Network

open SensorLink.Lib

namespace Reconnect

/-- `DisconnectInfo` -/
inductive DisconnectInfo
  | final
  | retry (sec : ℕ)
deriving DecidableEq

/-- `NetworkSignal`, of which the task sends these -/
inductive NetworkSignal
  | connected
  | disconnected (info : DisconnectInfo)
  | connectFailed
deriving DecidableEq

/-- `MIN_RETRY_DELAY_SEC` -/
def minRetryDelaySec : ℕ := 3

/-- `NETWORK_CONNECTING_TIMEOUT_SEC` -/
def networkConnectingTimeoutSec : ℕ := 11 * 60

/-- `RETRY_TIMEOUT_SEC` -/
def retryTimeoutSec : ℕ := 5 * 60

/-- `NETWORK_DISCONNECTED_TIMEOUT_MS` -/
def networkDisconnectedTimeoutMs : ℕ := (retryTimeoutSec + networkConnectingTimeoutSec) * 1000

/-- The exponential backoff for the next retry -/
def backoff (nextRetrySec : ℕ) : ℕ :=
  let next := nextRetrySec * 2
  if next > retryTimeoutSec then retryTimeoutSec else next

/-- `with_timeout_ms` of a future that completes after some time, and how long it takes -/
def withTimeoutMs {α : Type} (output : α) (us timeoutMs : ℕ) : Option α × ℕ :=
  if us ≤ timeoutMs * 1000 then (some output, us) else (none, timeoutMs * 1000)

/-- What happens in an iteration: whether `connect` succeeds, whether the cell is known, why the connection is
left, and how long each takes; `lateUs` is how late the delay ends. -/
structure Round where
  connects : Bool
  connectUs : ℕ
  cell : Bool
  reason : DisconnectReason
  onlineUs : ℕ
  disconnectUs : ℕ
  sendUs : ℕ
  lateUs : ℕ

/-- What the task does, and when. With an attempt to connect, its success and the end of the task after failures
comes `offline_since`. -/
inductive Event
  | connecting (time : ℕ) (since : Option ℕ)
  | connected (time : ℕ) (since : Option ℕ)
  | signal (time : ℕ) (sig : NetworkSignal)
  | cellInfo
  | delay (time : ℕ) (sec : ℕ)
  | gaveUp (time : ℕ) (since : Option ℕ)
deriving DecidableEq

/-- The variables of `network_task` at the begin of its loop -/
structure Net where
  now : ℕ
  offlineSince : Option ℕ
  nextRetrySec : ℕ
  done : Bool
  log : List Event

namespace Net

def start (now : ℕ) : Net := ⟨now, some now, minRetryDelaySec, false, []⟩

variable (s : Net)

/-- Time passes. -/
def pass (us : ℕ) : Net := { s with now := s.now + us }

def emit (e : Event) : Net := { s with log := s.log ++ [e] }

/-- `elapsed_sec() as u32` -/
def elapsedSec (since : ℕ) : ℕ := (s.now - since) / 1000000 % 2 ^ 32

/-- A signal is sent. -/
def send (r : Round) (sig : NetworkSignal) : Net := (s.emit (.signal s.now sig)).pass r.sendUs

/-- The end of the loop: the task gives up, or waits. -/
def retry (r : Round) (willRetry : Bool) : Net :=
  if willRetry then
    let waited := (s.emit (.delay s.now s.nextRetrySec)).pass (s.nextRetrySec * 1000 * 1000 + r.lateUs)
    { waited with nextRetrySec := backoff s.nextRetrySec }
  else { s.emit (.gaveUp s.now s.offlineSince) with done := true }

/-- The signal of the disconnect, and what follows it -/
def report (r : Round) (willRetry : Bool) : DisconnectReason → Net
  | .success => { s.send r (.disconnected .final) with done := true }
  | .notConnected => (s.send r .connectFailed).retry r willRetry
  | .fatal => (s.send r (.disconnected .final)).retry r false
  | .error | .unexpected =>
    match willRetry with
    | false => (s.send r (.disconnected .final)).retry r false
    | true => (s.send r (.disconnected (.retry s.nextRetrySec))).retry r true

/-- The next attempt can be made within the timeout. -/
def mayRetry (since : ℕ) : Bool := s.elapsedSec since + s.nextRetrySec ≤ retryTimeoutSec

/-- The decision whether to try again -/
def settle (r : Round) (reason : DisconnectReason) : Net :=
  match s.offlineSince with
  | none => { s with offlineSince := some s.now }.report r true reason
  | some since => s.report r (s.mayRetry since) reason

/-- The task is connected, and handles the connection. -/
def online (r : Round) : Net :=
  let connected := (s.emit (.connected s.now s.offlineSince)).emit (.signal s.now .connected)
  let informed := if r.cell then connected.emit .cellInfo else connected
  { informed with offlineSince := none }.pass (r.onlineUs + r.disconnectUs)

/-- An iteration of the loop -/
def exec (r : Round) : Net :=
  if s.done then s
  else
    let s := s.emit (.connecting s.now s.offlineSince)
    match withTimeoutMs r.connects r.connectUs (networkConnectingTimeoutSec * 1000) with
    | (some false, us) => (s.pass (us + r.disconnectUs)).settle r .notConnected
    | (none, us) => (s.pass (us + r.disconnectUs)).settle r .fatal
    | (some true, us) => ((s.pass us).online r).settle r r.reason

/-- Why `handle_connection` may return -/
def Leaves (reason : DisconnectReason) : Prop :=
  reason = .success ∨ reason = .unexpected ∨ reason = .error

/-- The steps beside connecting and the delay take no longer than a slack. -/
def Guard (slack : ℕ) (_ : Net) (r : Round) : Prop :=
  Leaves r.reason ∧ r.disconnectUs + r.sendUs + r.lateUs ≤ slack

instance (reason : DisconnectReason) : Decidable (Leaves reason) := inferInstanceAs (Decidable (_ ∨ _ ∨ _))

instance (slack : ℕ) (s : Net) (r : Round) : Decidable (Guard slack s r) := inferInstanceAs (Decidable (_ ∧ _))

/-- A run of the task from some time on -/
def Run (slack now : ℕ) (s : Net) : Prop := Reach exec (Guard slack) (start now) s

end Net

/-! ### What an iteration does -/

namespace Net

variable {s : Net} {r : Round} {since : ℕ}

/-- When the decision to retry is made -/
def decidedAt (s : Net) (r : Round) (us : ℕ) : ℕ := s.now + us + r.disconnectUs

/-- The events of a round in which the task is connected, up to the end of the connection -/
def onlineEvents (s : Net) (r : Round) : List Event :=
  [.connecting s.now s.offlineSince, .connected (s.now + r.connectUs) s.offlineSince,
    .signal (s.now + r.connectUs) .connected] ++ if r.cell then [.cellInfo] else []

/-- When the connection was left and closed -/
def leftAt (s : Net) (r : Round) : ℕ := s.now + r.connectUs + (r.onlineUs + r.disconnectUs)

/-- All that an iteration can do -/
inductive Step (s : Net) (r : Round) (since : ℕ) : Net → Prop
  /-- Connecting failed, and is tried again. -/
  | again (hus : r.connectUs ≤ networkConnectingTimeoutSec * 1000 * 1000)
      (hretry : (s.decidedAt r r.connectUs - since) / 1000000 % 2 ^ 32 + s.nextRetrySec ≤ retryTimeoutSec) :
      Step s r since
        ⟨s.decidedAt r r.connectUs + r.sendUs + (s.nextRetrySec * 1000 * 1000 + r.lateUs), some since,
          backoff s.nextRetrySec, false, s.log ++ [.connecting s.now (some since),
            .signal (s.decidedAt r r.connectUs) .connectFailed,
            .delay (s.decidedAt r r.connectUs + r.sendUs) s.nextRetrySec]⟩
  /-- Connecting failed for too long. -/
  | giveUp (hus : r.connectUs ≤ networkConnectingTimeoutSec * 1000 * 1000) :
      Step s r since
        ⟨s.decidedAt r r.connectUs + r.sendUs, some since, s.nextRetrySec, true,
          s.log ++ [.connecting s.now (some since), .signal (s.decidedAt r r.connectUs) .connectFailed,
            .gaveUp (s.decidedAt r r.connectUs + r.sendUs) (some since)]⟩
  /-- Connecting did not end in time. -/
  | timeout (us : ℕ) (hus : us = networkConnectingTimeoutSec * 1000 * 1000) :
      Step s r since
        ⟨s.decidedAt r us + r.sendUs, some since, s.nextRetrySec, true,
          s.log ++ [.connecting s.now (some since), .signal (s.decidedAt r us) (.disconnected .final),
            .gaveUp (s.decidedAt r us + r.sendUs) (some since)]⟩
  /-- The connection was closed on purpose. -/
  | finished (hus : r.connectUs ≤ networkConnectingTimeoutSec * 1000 * 1000) :
      Step s r since
        ⟨s.leftAt r + r.sendUs, some (s.leftAt r), s.nextRetrySec, true,
          s.log ++ (s.onlineEvents r ++ [.signal (s.leftAt r) (.disconnected .final)])⟩
  /-- The connection was lost. -/
  | lost (hus : r.connectUs ≤ networkConnectingTimeoutSec * 1000 * 1000) :
      Step s r since
        ⟨s.leftAt r + r.sendUs + (s.nextRetrySec * 1000 * 1000 + r.lateUs), some (s.leftAt r),
          backoff s.nextRetrySec, false, s.log ++ (s.onlineEvents r ++
            [.signal (s.leftAt r) (.disconnected (.retry s.nextRetrySec)),
              .delay (s.leftAt r + r.sendUs) s.nextRetrySec])⟩

section Unfold

variable (hdone : s.done = false) (hsince : s.offlineSince = some since)

include hdone hsince

lemma exec_failed (hus : r.connectUs ≤ networkConnectingTimeoutSec * 1000 * 1000) (hconnects : r.connects = false) :
    Step s r since (s.exec r) := by
  obtain ⟨now, offlineSince, nextRetrySec, done, log⟩ := s
  obtain rfl : done = false := hdone
  obtain rfl : offlineSince = some since := hsince
  -- the decision falls behind the disconnect
  let decided : Net := ⟨now + r.connectUs + r.disconnectUs, some since, nextRetrySec, false,
    log ++ [.connecting now (some since)]⟩
  have hexec : exec ⟨now, some since, nextRetrySec, false, log⟩ r =
      (decided.send r .connectFailed).retry r (decided.mayRetry since) := by
    simp [exec, withTimeoutMs, hus, hconnects, settle, report, pass, emit, decided, Nat.add_assoc]
  rw [hexec]
  cases hretry : decided.mayRetry since with
  | true =>
    convert Step.again (s := ⟨now, some since, nextRetrySec, false, log⟩) hus (of_decide_eq_true hretry) using 1
    simp [send, retry, pass, emit, decidedAt, decided]
  | false =>
    convert Step.giveUp hus using 1
    simp [send, retry, pass, emit, decidedAt, decided]

lemma exec_timeout (hus : ¬ r.connectUs ≤ networkConnectingTimeoutSec * 1000 * 1000) :
    Step s r since (s.exec r) := by
  obtain ⟨now, offlineSince, nextRetrySec, done, log⟩ := s
  obtain rfl : done = false := hdone
  obtain rfl : offlineSince = some since := hsince
  convert Step.timeout _ rfl using 1
  simp [exec, withTimeoutMs, hus, settle, report, send, retry, pass, emit, decidedAt, Nat.add_assoc]

lemma exec_connected (hus : r.connectUs ≤ networkConnectingTimeoutSec * 1000 * 1000) (hconnects : r.connects = true)
    (hleaves : Leaves r.reason) : Step s r since (s.exec r) := by
  obtain ⟨now, offlineSince, nextRetrySec, done, log⟩ := s
  obtain rfl : done = false := hdone
  obtain rfl : offlineSince = some since := hsince
  -- the connection falls behind
  let s : Net := ⟨now, some since, nextRetrySec, false, log⟩
  have honline : ((s.emit (.connecting now (some since))).pass r.connectUs).online r =
      ⟨s.leftAt r, none, nextRetrySec, false, log ++ s.onlineEvents r⟩ := by
    cases hcell : r.cell <;> simp [online, emit, pass, leftAt, onlineEvents, hcell, s, Nat.add_assoc]
  have hexec : exec s r =
      (⟨s.leftAt r, none, nextRetrySec, false, log ++ s.onlineEvents r⟩ : Net).settle r r.reason := by
    rw [← honline]
    simp [exec, withTimeoutMs, hus, hconnects, s]
  rw [hexec]
  rcases hleaves with hreason | hreason | hreason <;> rw [hreason]
  · convert Step.finished hus using 1
    simp [settle, report, send, emit, pass, s]
  all_goals
    convert Step.lost hus using 1
    simp [settle, report, send, retry, pass, emit, s, Nat.add_assoc]

lemma exec_step (hleaves : Leaves r.reason) : Step s r since (s.exec r) := by
  by_cases hus : r.connectUs ≤ networkConnectingTimeoutSec * 1000 * 1000
  · cases hconnects : r.connects with
    | false => exact exec_failed hdone hsince hus hconnects
    | true => exact exec_connected hdone hsince hus hconnects hleaves
  · exact exec_timeout hdone hsince hus

end Unfold

end Net

/-! ### Delays -/

/-- The delay before a retry, counted from the start of the task -/
def retryDelay (n : ℕ) : ℕ := min (minRetryDelaySec * 2 ^ n) retryTimeoutSec

lemma backoff_retryDelay (n : ℕ) : backoff (retryDelay n) = retryDelay (n + 1) := by
  unfold backoff retryDelay retryTimeoutSec minRetryDelaySec
  dsimp only
  rw [Nat.pow_succ]
  split_ifs <;> omega

lemma retryDelay_le (n : ℕ) : retryDelay n ≤ retryTimeoutSec := Nat.min_le_right _ _

lemma retryDelay_mono {m n : ℕ} (h : m ≤ n) : retryDelay m ≤ retryDelay n := by
  have hpow : minRetryDelaySec * 2 ^ m ≤ minRetryDelaySec * 2 ^ n :=
    Nat.mul_le_mul_left _ (Nat.pow_le_pow_right (by decide) h)
  unfold retryDelay
  omega

/-- The first delays together -/
def firstDelays : ℕ → ℕ
  | 0 => 0
  | n + 1 => firstDelays n + retryDelay n

lemma firstDelays_mono {m n : ℕ} (h : m ≤ n) : firstDelays m ≤ firstDelays n := by
  induction h with
  | refl => exact le_rfl
  | step _ ih => exact le_trans ih (Nat.le_add_right _ _)

/-- Seven delays are longer than the timeout. -/
lemma le_six {n : ℕ} (h : firstDelays n ≤ retryTimeoutSec) : n ≤ 6 := by
  by_contra hn
  have hseven : firstDelays 7 ≤ firstDelays n := firstDelays_mono (by omega)
  have hlong : retryTimeoutSec < firstDelays 7 := by decide
  omega

/-! ### The log -/

def signals (log : List Event) : List NetworkSignal :=
  log.filterMap fun
    | .signal _ sig => some sig
    | _ => none

def delays (log : List Event) : List ℕ :=
  log.filterMap fun
    | .delay _ sec => some sec
    | _ => none

/-- How the number of attempts since the last connection changes -/
def countAttempt (n : ℕ) : Event → ℕ
  | .connecting .. => n + 1
  | .connected .. => 0
  | _ => n

/-- The attempts to connect since the task was last connected -/
def attempts (log : List Event) : ℕ := log.foldl countAttempt 0

/-- The delays since the task was last connected, how many and how long together -/
def addDelay (d : ℕ × ℕ) : Event → ℕ × ℕ
  | .delay _ sec => (d.1 + 1, d.2 + sec)
  | .connected .. => (0, 0)
  | _ => d

def offlineDelays (log : List Event) : ℕ × ℕ := log.foldl addDelay (0, 0)

/-- The task connects in time, counted from when it was last connected or started. -/
def Timely (slack : ℕ) : Event → Prop
  | .connecting time since =>
    ∃ t, since = some t ∧ t ≤ time ∧ time < t + (retryTimeoutSec + 1) * 1000000 + slack
  | .connected time since =>
    ∃ t, since = some t ∧ time < t + networkDisconnectedTimeoutMs * 1000 + 1000000 + slack
  | .gaveUp time since =>
    ∃ t, since = some t ∧ time < t + networkDisconnectedTimeoutMs * 1000 + 1000000 + 2 * slack
  | _ => True

section Timely

variable {slack time since : ℕ}

lemma timely_connecting (hfrom : since ≤ time) (hto : time < since + (retryTimeoutSec + 1) * 1000000 + slack) :
    Timely slack (.connecting time (some since)) :=
  ⟨since, rfl, hfrom, hto⟩

lemma timely_connected (hto : time < since + networkDisconnectedTimeoutMs * 1000 + 1000000 + slack) :
    Timely slack (.connected time (some since)) :=
  ⟨since, rfl, hto⟩

lemma timely_gaveUp (hto : time < since + networkDisconnectedTimeoutMs * 1000 + 1000000 + 2 * slack) :
    Timely slack (.gaveUp time (some since)) :=
  ⟨since, rfl, hto⟩

end Timely

namespace Net

structure Timing (slack : ℕ) (s : Net) : Prop where
  timely : ∀ e ∈ s.log, Timely slack e
  delays : delays s.log = (List.range (delays s.log).length).map retryDelay
  attempts : attempts s.log ≤ 7
  running : s.done = false → ∃ t, s.offlineSince = some t ∧
    t + 1000000 * (offlineDelays s.log).2 ≤ s.now ∧ s.now < t + (retryTimeoutSec + 1) * 1000000 + slack ∧
    s.nextRetrySec = retryDelay (Reconnect.delays s.log).length ∧
    (offlineDelays s.log).1 ≤ (Reconnect.delays s.log).length ∧
    firstDelays (offlineDelays s.log).1 ≤ (offlineDelays s.log).2 ∧ (offlineDelays s.log).1 ≤ 6 ∧
    Reconnect.attempts s.log ≤ (offlineDelays s.log).1

lemma timing_start (slack now : ℕ) : Timing slack (start now) := by
  refine ⟨by simp [start], rfl, Nat.zero_le _, fun _ => ⟨now, rfl, by simp [offlineDelays, start], ?_, rfl, le_rfl,
    le_rfl, Nat.zero_le _, le_rfl⟩⟩
  simp only [start, retryTimeoutSec]
  omega

variable {slack now : ℕ} {s : Net} {r : Round}

/-- What is delayed next comes behind the delays so far. -/
lemma delays_push {log : List Event} {next : ℕ} (hdelays : Reconnect.delays log =
    (List.range (Reconnect.delays log).length).map retryDelay)
    (hnext : next = retryDelay (Reconnect.delays log).length) (events : List Event)
    (hevents : Reconnect.delays events = [next]) :
    Reconnect.delays (log ++ events) = (List.range (Reconnect.delays (log ++ events)).length).map retryDelay ∧
      (Reconnect.delays (log ++ events)).length = (Reconnect.delays log).length + 1 := by
  have happend : Reconnect.delays (log ++ events) = Reconnect.delays log ++ [next] := by
    rw [Reconnect.delays, List.filterMap_append, ← Reconnect.delays, ← Reconnect.delays, hevents]
  have hlength : (Reconnect.delays log ++ [next]).length = (Reconnect.delays log).length + 1 := by simp
  refine ⟨?_, by rw [happend, hlength]⟩
  rw [happend, hlength, List.range_succ, List.map_append, ← hdelays, hnext]
  rfl

/-- No delay is added. -/
lemma delays_keep {log : List Event} (hdelays : Reconnect.delays log =
    (List.range (Reconnect.delays log).length).map retryDelay) (events : List Event)
    (hevents : Reconnect.delays events = []) :
    Reconnect.delays (log ++ events) = (List.range (Reconnect.delays (log ++ events)).length).map retryDelay := by
  have happend : Reconnect.delays (log ++ events) = Reconnect.delays log := by
    rw [Reconnect.delays, List.filterMap_append, ← Reconnect.delays, ← Reconnect.delays, hevents, List.append_nil]
  rw [happend]
  exact hdelays

/-- Beyond 2 ^ 32 seconds `elapsed_sec() as u32` would wrap. -/
def maxSlack : ℕ := 10 ^ 15

lemma timeouts : retryTimeoutSec = 300 ∧ networkConnectingTimeoutSec = 660 ∧
    networkDisconnectedTimeoutMs = 960000 ∧ maxSlack = 1000000000000000 :=
  ⟨rfl, rfl, rfl, by decide⟩

lemma Timing.exec (hslack : slack ≤ maxSlack) (h : Timing slack s) (hg : Guard slack s r) :
    Timing slack (s.exec r) := by
  cases hdone : s.done with
  | true => simpa [Net.exec, hdone] using h
  | false =>
    obtain ⟨hleaves, hspent⟩ := hg
    obtain ⟨since, hsince, hfrom, hto, hnext, hcount, hlow, hsix, hattempts⟩ := h.running hdone
    have hconnecting : Timely slack (.connecting s.now (some since)) := timely_connecting (by omega) hto
    have hstep := exec_step hdone hsince hleaves
    have hcap := retryDelay_le (Reconnect.delays s.log).length
    rw [← hnext] at hcap
    obtain ⟨hretry300, hconnecting660, hoffline960, hmax⟩ := timeouts
    have hattempts' : Reconnect.attempts s.log + 1 ≤ 7 := by omega
    have hconnected : r.connectUs ≤ networkConnectingTimeoutSec * 1000 * 1000 → ∀ e ∈ s.onlineEvents r,
        Timely slack e := by
      intro hus e he
      simp only [onlineEvents, hsince, List.mem_append, List.mem_cons, List.not_mem_nil, or_false] at he
      rcases he with (rfl | rfl | rfl) | hcell
      · exact hconnecting
      · refine timely_connected ?_
        omega
      · trivial
      · split_ifs at hcell
        · rw [List.mem_singleton.mp hcell]
          trivial
        · simp at hcell
    generalize s.exec r = s' at hstep
    cases hstep with
    | again hus hretry =>
      obtain ⟨hdelays, hlength⟩ := delays_push h.delays hnext [.connecting s.now (some since),
        .signal (s.decidedAt r r.connectUs) .connectFailed,
        .delay (s.decidedAt r r.connectUs + r.sendUs) s.nextRetrySec] rfl
      have hoffline : offlineDelays (s.log ++ [.connecting s.now (some since),
          .signal (s.decidedAt r r.connectUs) .connectFailed,
          .delay (s.decidedAt r r.connectUs + r.sendUs) s.nextRetrySec]) =
          ((offlineDelays s.log).1 + 1, (offlineDelays s.log).2 + s.nextRetrySec) := by
        simp [offlineDelays, addDelay]
      have hagain : Reconnect.attempts (s.log ++ [.connecting s.now (some since),
          .signal (s.decidedAt r r.connectUs) .connectFailed,
          .delay (s.decidedAt r r.connectUs + r.sendUs) s.nextRetrySec]) = Reconnect.attempts s.log + 1 := by
        simp [Reconnect.attempts, countAttempt]
      -- what has passed, in seconds, and the delay fit into the timeout
      have hpassed : (s.decidedAt r r.connectUs - since) / 1000000 + s.nextRetrySec ≤ retryTimeoutSec := by
        rwa [Nat.mod_eq_of_lt] at hretry
        simp only [decidedAt]
        omega
      have hfirst : firstDelays ((offlineDelays s.log).1 + 1) ≤ (offlineDelays s.log).2 + s.nextRetrySec := by
        rw [firstDelays, hnext]
        exact Nat.add_le_add hlow (retryDelay_mono hcount)
      have hwithin : (offlineDelays s.log).2 + s.nextRetrySec ≤ retryTimeoutSec := by
        refine le_trans (Nat.add_le_add_right ?_ _) hpassed
        rw [Nat.le_div_iff_mul_le (by decide)]
        simp only [decidedAt]
        omega
      refine ⟨List.forall_mem_append.mpr ⟨h.timely, ?_⟩, hdelays,
        hagain ▸ hattempts', fun _ => ⟨since, rfl, ?_, ?_, ?_, ?_, ?_, ?_, ?_⟩⟩
      · simp only [List.forall_mem_cons]
        exact ⟨hconnecting, trivial, trivial, by simp⟩
      · rw [hoffline]
        simp only [decidedAt]
        omega
      · simp only [decidedAt] at hpassed ⊢
        omega
      · rw [hlength, hnext]
        exact backoff_retryDelay _
      · rw [hoffline, hlength]
        exact Nat.add_le_add_right hcount 1
      · rw [hoffline]
        exact hfirst
      · rw [hoffline]
        exact le_six (le_trans hfirst hwithin)
      · rw [hoffline, hagain]
        exact Nat.add_le_add_right hattempts 1
    | giveUp hus =>
      refine ⟨List.forall_mem_append.mpr ⟨h.timely, ?_⟩, delays_keep h.delays _ rfl, ?_, by simp⟩
      · simp only [List.forall_mem_cons]
        refine ⟨hconnecting, trivial, timely_gaveUp ?_, by simp⟩
        simp only [decidedAt]
        omega
      · simpa [Reconnect.attempts, countAttempt] using hattempts'
    | timeout us hus =>
      refine ⟨List.forall_mem_append.mpr ⟨h.timely, ?_⟩, delays_keep h.delays _ rfl, ?_, by simp⟩
      · simp only [List.forall_mem_cons]
        refine ⟨hconnecting, trivial, timely_gaveUp ?_, by simp⟩
        simp only [decidedAt]
        omega
      · simpa [Reconnect.attempts, countAttempt] using hattempts'
    | finished hus =>
      refine ⟨List.forall_mem_append.mpr ⟨h.timely, ?_⟩, delays_keep h.delays _ ?_, ?_, by simp⟩
      · exact List.forall_mem_append.mpr ⟨hconnected hus, by simp [Timely]⟩
      · cases hcell : r.cell <;> simp [onlineEvents, hcell, Reconnect.delays]
      · cases hcell : r.cell <;> simp [onlineEvents, hcell, Reconnect.attempts, countAttempt]
    | lost hus =>
      obtain ⟨hdelays, hlength⟩ := delays_push h.delays hnext (s.onlineEvents r ++
        [.signal (s.leftAt r) (.disconnected (.retry s.nextRetrySec)),
          .delay (s.leftAt r + r.sendUs) s.nextRetrySec])
        (by cases hcell : r.cell <;> simp [onlineEvents, hcell, Reconnect.delays])
      have hoffline : offlineDelays (s.log ++ (s.onlineEvents r ++
          [.signal (s.leftAt r) (.disconnected (.retry s.nextRetrySec)),
            .delay (s.leftAt r + r.sendUs) s.nextRetrySec])) = (1, s.nextRetrySec) := by
        cases hcell : r.cell <;> simp [onlineEvents, hcell, offlineDelays, addDelay]
      have hnone : Reconnect.attempts (s.log ++ (s.onlineEvents r ++
          [.signal (s.leftAt r) (.disconnected (.retry s.nextRetrySec)),
            .delay (s.leftAt r + r.sendUs) s.nextRetrySec])) = 0 := by
        cases hcell : r.cell <;> simp [onlineEvents, hcell, Reconnect.attempts, countAttempt]
      refine ⟨List.forall_mem_append.mpr ⟨h.timely, ?_⟩, hdelays, ?_,
        fun _ => ⟨s.leftAt r, rfl, ?_, ?_, ?_, ?_, ?_, ?_, ?_⟩⟩
      · exact List.forall_mem_append.mpr ⟨hconnected hus, by simp [Timely]⟩
      · rw [hnone]
        exact Nat.zero_le _
      · rw [hoffline]
        dsimp only
        omega
      · dsimp only
        omega
      · rw [hlength, hnext]
        exact backoff_retryDelay _
      · rw [hoffline, hlength]
        exact Nat.succ_le_succ (Nat.zero_le _)
      · rw [hoffline, hnext]
        exact le_trans (by simp [firstDelays]) (retryDelay_mono (Nat.zero_le _))
      · rw [hoffline]
        change 1 ≤ 6
        decide
      · rw [hnone]
        exact Nat.zero_le _

lemma Run.timing (hslack : slack ≤ maxSlack) (h : Run slack now s) : Timing slack s :=
  h.invariant (timing_start slack now) fun _ _ hs hg => hs.exec hslack hg

end Net

/-! ### Signals -/

/-- What the receiver of the signals knows -/
inductive Phase
  | offline
  | online
  | ended
deriving DecidableEq

/-- The signals that may come in a phase -/
def Phase.next : Phase → NetworkSignal → Option Phase
  | .offline, .connected => some .online
  | .offline, .connectFailed => some .offline
  -- connecting did not end in time
  | .offline, .disconnected .final => some .ended
  | .online, .disconnected .final => some .ended
  | .online, .disconnected (.retry _) => some .offline
  | _, _ => none

/-- A promise to retry is followed by a delay of this length. -/
def Follows (a b : Event) : Prop :=
  ∀ time sec, a = .signal time (.disconnected (.retry sec)) → ∃ time', b = .delay time' sec

namespace Net

structure Paired (s : Net) : Prop where
  phase : ∃ p, (signals s.log).foldlM Phase.next .offline = some p ∧ (s.done = false → p = .offline) ∧
    (s.done = true → p = .ended ∨ p = .offline ∧ (signals s.log).getLast? = some .connectFailed)
  follows : s.log.IsChain Follows
  last : ∀ e ∈ s.log.getLast?, ∀ b, Follows e b

variable {slack now : ℕ} {s : Net} {r : Round} {since : ℕ}

lemma paired_start : Paired (start now) := by
  refine ⟨⟨.offline, rfl, fun _ => rfl, by simp [start]⟩, .nil, ?_⟩
  simp [start]

lemma signals_append (log events : List Event) : signals (log ++ events) = signals log ++ signals events :=
  List.filterMap_append

lemma Paired.exec (h : s.Paired) (hsince : s.done = false → s.offlineSince = some since)
    (hleaves : Leaves r.reason) : (s.exec r).Paired := by
  cases hdone : s.done with
  | true => simpa [Net.exec, hdone] using h
  | false =>
    obtain ⟨p, hp, hoffline, -⟩ := h.phase
    obtain rfl := hoffline hdone
    have hstep := exec_step hdone (hsince hdone) hleaves
    -- the signals of the round come behind an offline task
    have hphase : ∀ {events : List Event} {q : Phase}, (signals events).foldlM Phase.next .offline = some q →
        (signals (s.log ++ events)).foldlM Phase.next .offline = some q := by
      intro events q hq
      rw [signals_append, List.foldlM_append, hp]
      exact hq
    have hround : ∀ events : List Event, events.IsChain Follows →
        (∀ e ∈ events.getLast?, ∀ b, Follows e b) →
        (s.log ++ events).IsChain Follows ∧ ∀ e ∈ (s.log ++ events).getLast?, ∀ b, Follows e b := by
      intro events hchain hlast
      refine ⟨h.follows.append hchain fun x hx y _ => h.last x hx y, fun e he => ?_⟩
      rw [List.getLast?_append, Option.mem_def, Option.or_eq_some_iff] at he
      rcases he with he | ⟨-, he⟩
      · exact hlast e he
      · exact h.last e he
    generalize s.exec r = s' at hstep
    cases hstep with
    | again hus hretry =>
      obtain ⟨hfollows, hlast⟩ := hround [.connecting s.now (some since),
        .signal (s.decidedAt r r.connectUs) .connectFailed,
        .delay (s.decidedAt r r.connectUs + r.sendUs) s.nextRetrySec] (by simp [Follows]) (by simp [Follows])
      exact ⟨⟨.offline, hphase rfl, fun _ => rfl, by simp⟩, hfollows, hlast⟩
    | giveUp hus =>
      obtain ⟨hfollows, hlast⟩ := hround [.connecting s.now (some since),
        .signal (s.decidedAt r r.connectUs) .connectFailed,
        .gaveUp (s.decidedAt r r.connectUs + r.sendUs) (some since)] (by simp [Follows]) (by simp [Follows])
      refine ⟨⟨.offline, hphase rfl, fun _ => rfl, fun _ => .inr ⟨rfl, ?_⟩⟩, hfollows, hlast⟩
      simp [signals]
    | timeout us hus =>
      obtain ⟨hfollows, hlast⟩ := hround [.connecting s.now (some since),
        .signal (s.decidedAt r us) (.disconnected .final),
        .gaveUp (s.decidedAt r us + r.sendUs) (some since)] (by simp [Follows]) (by simp [Follows])
      exact ⟨⟨.ended, hphase rfl, by simp, fun _ => .inl rfl⟩, hfollows, hlast⟩
    | finished hus =>
      obtain ⟨hfollows, hlast⟩ := hround (s.onlineEvents r ++ [.signal (s.leftAt r) (.disconnected .final)])
        (by cases hcell : r.cell <;> simp [onlineEvents, hcell, Follows])
        (by cases hcell : r.cell <;> simp [onlineEvents, hcell, Follows])
      refine ⟨⟨.ended, hphase ?_, by simp, fun _ => .inl rfl⟩, hfollows, hlast⟩
      cases hcell : r.cell <;> simp only [onlineEvents, hcell] <;> rfl
    | lost hus =>
      obtain ⟨hfollows, hlast⟩ := hround (s.onlineEvents r ++
        [.signal (s.leftAt r) (.disconnected (.retry s.nextRetrySec)),
          .delay (s.leftAt r + r.sendUs) s.nextRetrySec])
        (by cases hcell : r.cell <;> simp [onlineEvents, hcell, Follows])
        (by cases hcell : r.cell <;> simp [onlineEvents, hcell, Follows])
      refine ⟨⟨.offline, hphase ?_, fun _ => rfl, by simp⟩, hfollows, hlast⟩
      cases hcell : r.cell <;> simp only [onlineEvents, hcell] <;> rfl

lemma Run.paired (hslack : slack ≤ maxSlack) (h : Run slack now s) : s.Paired := by
  refine (h.invariant (P := fun s => Timing slack s ∧ s.Paired) ⟨timing_start slack now, paired_start⟩ ?_).2
  rintro s r ⟨htiming, hpaired⟩ hg
  refine ⟨htiming.exec hslack hg, ?_⟩
  cases hdone : s.done with
  | true => simpa [Net.exec, hdone] using hpaired
  | false =>
    obtain ⟨since, hsince, -⟩ := htiming.running hdone
    exact hpaired.exec (fun _ => hsince) hg.1

end Net

/-- **The task does not stay offline for long.** In every run, where closing a connection, sending a signal and
the lateness of a timer take no longer than a slack, each attempt to connect begins within the retry timeout and
one second, counted from the start of the task or the last disconnect; the connection is there, or the task has
given up, within one second of `NETWORK_DISCONNECTED_TIMEOUT_MS`, beside the slack; and the task gives up after at
most seven attempts in a row. -/
theorem offline_bounded {slack now : ℕ} {s : Net} (hslack : slack ≤ Net.maxSlack) (h : s.Run slack now) :
    (∀ time since, .connecting time since ∈ s.log →
      ∃ t, since = some t ∧ t ≤ time ∧ time < t + (retryTimeoutSec + 1) * 1000000 + slack) ∧
    (∀ time since, .connected time since ∈ s.log →
      ∃ t, since = some t ∧ time < t + networkDisconnectedTimeoutMs * 1000 + 1000000 + slack) ∧
    (∀ time since, .gaveUp time since ∈ s.log →
      ∃ t, since = some t ∧ time < t + networkDisconnectedTimeoutMs * 1000 + 1000000 + 2 * slack) ∧
    attempts s.log ≤ 7 := by
  have ht := h.timing hslack
  exact ⟨fun _ _ he => ht.timely _ he, fun _ _ he => ht.timely _ he, fun _ _ he => ht.timely _ he, ht.attempts⟩

/-- **The signals tell the state of the network.** In every run, a connection is announced only to who knows that
the network is offline, and its end exactly once; nothing comes behind a final disconnect. While the task runs,
the receiver knows that it is offline; a task that is done has sent a final disconnect, or that connecting failed
as the last thing. Each disconnect with a retry is followed by the delay that it announces, and the delays are
those of the backoff over the whole run: no connection resets them. -/
theorem signals_follow {slack now : ℕ} {s : Net} (hslack : slack ≤ Net.maxSlack) (h : s.Run slack now) :
    (∃ p, (signals s.log).foldlM Phase.next .offline = some p ∧ (s.done = false → p = .offline) ∧
      (s.done = true → p = .ended ∨ p = .offline ∧ (signals s.log).getLast? = some .connectFailed)) ∧
    s.log.IsChain Follows ∧ delays s.log = (List.range (delays s.log).length).map retryDelay :=
  have hp := h.paired hslack
  ⟨hp.phase, hp.follows, (h.timing hslack).delays⟩

/-- Connecting fails once and then succeeds; the connection is lost. -/
def sampleRun : List Round :=
  [⟨false, 20000000, false, .success, 0, 1000, 10, 5⟩,
    ⟨true, 15000000, true, .unexpected, 3600000000, 1000, 10, 5⟩]

def sample : Net := sampleRun.foldl Net.exec (.start 0)

lemma sample_run : sample.Run 2000 0 := Reach.run sampleRun .start (by decide)

theorem offline_bounded_sample :
    (∃ t, some 0 = some t ∧ 38001015 < t + 960000 * 1000 + 1000000 + 2000) ∧ attempts sample.log ≤ 7 :=
  have hsample := offline_bounded (by decide) sample_run
  ⟨hsample.2.1 38001015 (some 0) (by decide), hsample.2.2.2⟩

theorem signals_follow_sample : delays sample.log = [3, 6] :=
  (signals_follow (by decide) sample_run).2.2

end Reconnect

namespace Conn

open Reconnect.Net

variable {U E : Type} (c : Conn U) (a : Answers U E)

lemma perform_leaves (op : Op U) {reason : DisconnectReason} (h : (c.perform a op).2.2 = .error reason) :
    Leaves reason := by
  cases op with
  | read =>
    simp only [perform] at h
    cases hread : a.handleRead <;> rw [hread] at h <;> cases h
    exact .inr (.inl rfl)
  | stop =>
    cases h
    exact .inl rfl
  | upload upload => cases h
  | none => cases h
  | action action =>
    cases action with
    | downloadUpdate =>
      simp only [perform] at h
      rcases hstart : a.downloadFirmwareUpdate with _ | _ | _ <;> rw [hstart] at h <;> cases h
      exact .inr (.inr rfl)
    | sendStatus token =>
      simp only [perform] at h
      cases hstatus : a.sendStatus <;> rw [hstatus] at h <;> cases h
    | disconnect => cases h
    | setTimeout newTimeout => cases h
    | sendDeviceInfo => cases h

lemma settle_leaves (isUpload : Bool) (result : SendResult E) {reason : DisconnectReason}
    (h : (c.settle isUpload result).2.2 = some reason) : Leaves reason := by
  have herror : reason = .error := by
    cases result with
    | ok _ =>
      simp only [settle] at h
      split_ifs at h
      cases hpending : c.pendingUpload <;> rw [hpending] at h <;> cases h
    | error error => cases error <;> cases h <;> rfl
  exact .inr (.inr herror)

/-- `handle_connection` returns one of the reasons that the retry loop is prepared for. -/
lemma iteration_leaves {reason : DisconnectReason} (h : (c.iteration a).2.2 = some reason) : Leaves reason := by
  rcases hop : c.nextOp a with ⟨c', events, _ | op⟩ <;> simp only [iteration, hop] at h
  · cases h
    exact .inl rfl
  · rcases hperform : c'.perform a op with ⟨c'', events', reason' | result⟩ <;> simp only [finish, hperform] at h
    · cases h
      exact perform_leaves c' a op (by rw [hperform])
    · exact settle_leaves c'' op.isUpload result h

end Conn

end SensorLink.Network
