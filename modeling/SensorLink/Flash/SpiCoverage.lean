import SensorLink.Flash.SpiIssued
import SensorLink.Lib.Tiling

/-!
# What the driver of the SPI flash programs and erases

The commands of `program` and `erase` cover the range of the call from its start on, whatever the chip
answers: a failure only ends the sequence.
-/

namespace SensorLink.Flash.Spi

open SensorLink.Lib (Stop Tiles)
open SensorLink.Lib.Stateful

/-! ### Pages -/

section Program

variable (chip : Chip)

/-- A frame is issued, whatever comes of it. -/
lemma transaction_isReady {mode : Mode} {t : Transaction} {c : Addressed} (hc : decode mode t = some c)
    (s : State) : Issued mode s (after ((transaction chip t >>= fun _ => isReady chip) s)) [c] ∧
      (after ((transaction chip t >>= fun _ => isReady chip) s)).mode = s.mode := by
  have hissued : Issued mode s { s with log := s.log ++ [t] } [c] := by
    refine ⟨[t], rfl, ?_⟩
    rw [List.filterMap_cons, hc]
    rfl
  have hafter := after_transaction chip t s
  rcases bind_cases (transaction chip t) (fun _ => isReady chip) s with
    ⟨_, s', hrun, heq⟩ | ⟨e, s', hrun, heq⟩
  · rw [hrun] at hafter
    obtain rfl : s' = { s with log := s.log ++ [t] } := hafter
    have hready := quiet_isReady chip { s with log := s.log ++ [t] }
    rw [heq]
    exact ⟨hissued.trans (hready.1 mode), hready.2⟩
  · rw [hrun] at hafter
    obtain rfl : s' = { s with log := s.log ++ [t] } := hafter
    rw [heq]
    exact ⟨hissued, rfl⟩

/-- The command of a page is issued once, unless the chip cannot be enabled. -/
lemma programPage_spec {mode : Mode} {cmdAddr bytes : List UInt8} {c : Addressed}
    (hc : decode mode ⟨cmdAddr ++ bytes, 0⟩ = some c) (s : State) :
    (after (programPage chip cmdAddr bytes s)).mode = s.mode ∧
      (Issued mode s (after (programPage chip cmdAddr bytes s)) [c] ∨
        Issued mode s (after (programPage chip cmdAddr bytes s)) [] ∧
          ¬Returns (programPage chip cmdAddr bytes s)) := by
  have henable := quiet_writeEnable chip s
  unfold programPage
  rcases bind_cases (writeEnable chip) _ s with ⟨_, s', hrun, heq⟩ | ⟨e, s', hrun, heq⟩
  · rw [hrun] at henable
    rw [heq]
    obtain ⟨hissued, hmode⟩ := transaction_isReady chip hc s'
    exact ⟨hmode.trans henable.2, .inl ((henable.1 mode).trans hissued)⟩
  · rw [hrun] at henable
    rw [heq]
    exact ⟨henable.2, .inr ⟨henable.1 mode, not_returns_error e s'⟩⟩

/-- A page and what comes after it: the command is issued and the rest runs, or it is the last one, if it is
issued at all, and an error. -/
lemma programPage_then {mode : Mode} {cmdAddr bytes : List UInt8} {c : Addressed}
    (hc : decode mode ⟨cmdAddr ++ bytes, 0⟩ = some c) (rest : Driver Unit) (s : State) :
    (∃ s', s'.mode = s.mode ∧ Issued mode s s' [c] ∧
        (programPage chip cmdAddr bytes >>= fun _ => rest) s = rest s') ∨
      ∃ e s', s'.mode = s.mode ∧ (Issued mode s s' [c] ∨ Issued mode s s' []) ∧
        (programPage chip cmdAddr bytes >>= fun _ => rest) s = .error e s' := by
  obtain ⟨hmode, hissued⟩ := programPage_spec chip hc s
  rcases bind_cases (programPage chip cmdAddr bytes) (fun _ => rest) s with
    ⟨_, s', hrun, heq⟩ | ⟨e, s', hrun, heq⟩
  · rw [hrun] at hmode hissued
    exact .inl ⟨s', hmode, hissued.resolve_right fun h => h.2 ⟨_, _, rfl⟩, heq⟩
  · rw [hrun] at hmode hissued
    exact .inr ⟨e, s', hmode, hissued.imp_right fun h => h.1, heq⟩

/-- A range that starts in a page and is not longer than what is left of it -/
lemma same_page {a n pageSize : ℕ} (hpos : 0 < n) (hn : n ≤ pageSize - a % pageSize) :
    (a + n - 1) / pageSize = a / pageSize := by
  have hdiv := Nat.div_add_mod a pageSize
  rw [Nat.mul_comm] at hdiv
  refine Nat.div_eq_of_lt_le (by omega) ?_
  rw [Nat.succ_mul]
  omega

/-- What the loop writes in one page -/
structure PageCommand (pageSize : ℕ) (c : Addressed) : Prop where
  opcode : c.opcode = Command.programPage.code
  payload_ne_nil : c.payload ≠ []
  one_page : (c.address + c.payload.length - 1) / pageSize = c.address / pageSize

/-- The commands of a program of bytes, from an address on -/
structure Programs (pageSize start : ℕ) (bytes : List UInt8) (commands : List Addressed) : Prop where
  page : ∀ c ∈ commands, PageCommand pageSize c
  contiguous : ∃ stop, Tiles Addressed.address (fun c => c.payload.length) start commands stop
  prefix_bytes : commands.flatMap Addressed.payload <+: bytes

lemma Programs.nil {pageSize start : ℕ} {bytes : List UInt8} : Programs pageSize start bytes [] where
  page c hc := by cases hc
  contiguous := ⟨start, .nil⟩
  prefix_bytes := List.nil_prefix

lemma Programs.cons {pageSize n : ℕ} {bytes : List UInt8} {c : Addressed} {commands : List Addressed}
    (hc : PageCommand pageSize c) (hpayload : c.payload = bytes.take n)
    (h : Programs pageSize (c.address + c.payload.length) (bytes.drop n) commands) :
    Programs pageSize c.address bytes (c :: commands) where
  page := List.forall_mem_cons.mpr ⟨hc, h.page⟩
  contiguous := by
    obtain ⟨stop, hstop⟩ := h.contiguous
    exact ⟨stop, rfl, List.length_pos_iff.mpr hc.payload_ne_nil, hstop⟩
  prefix_bytes := by
    rw [List.flatMap_cons, hpayload]
    conv_rhs => rw [← List.take_append_drop n bytes]
    exact (List.prefix_append_right_inj _).mpr h.prefix_bytes

/-- What a loop does from a state on: the mode stays, the commands are those of a program of the bytes, and
they are all of it if the loop returns. -/
def LoopPrograms (mode : Mode) (pageSize start : ℕ) (bytes : List UInt8) (s : State)
    (o : EStateM.Result (Stop Error) State Unit) : Prop :=
  (after o).mode = s.mode ∧ ∃ commands, Issued mode s (after o) commands ∧
    Programs pageSize start bytes commands ∧ (Returns o → commands.flatMap Addressed.payload = bytes)

lemma toNat_add_ofNat {addr : UInt32} {offset : ℕ} (h : addr.toNat + offset < 2 ^ 32) :
    (addr + UInt32.ofNat offset).toNat = addr.toNat + offset := by
  have hoffset : (UInt32.ofNat offset).toNat = offset :=
    UInt32.toNat_ofNat_of_lt' (by change _ < 2 ^ 32; omega)
  rw [UInt32.toNat_add, hoffset, Nat.mod_eq_of_lt h]

/-- **The loop of `program`**, by induction on the bytes that are left. -/
lemma programLoop_spec {pageSize : ℕ} (hpage : 0 < pageSize) {addr : UInt32} {mode : Mode}
    {bytes : List UInt8} (hbounds : addr.toNat + bytes.length < 2 ^ 32)
    (hmode : mode = .b24 → addr.toNat + bytes.length ≤ 2 ^ 24) {offset : ℕ} (hoffset : offset ≤ bytes.length)
    (s : State) : LoopPrograms mode pageSize (addr.toNat + offset) (bytes.drop offset) s
      (programLoop chip pageSize addr mode bytes offset s) := by
  induction hleft : bytes.length - offset using Nat.strong_induction_on generalizing offset s with
  | h left ih =>
    have haddr : (addr + UInt32.ofNat offset).toNat = addr.toNat + offset := toNat_add_ofNat (by omega)
    rw [programLoop, haddr]
    set n := min (bytes.length - offset) (pageSize - (addr.toNat + offset) % pageSize) with hn
    have hmod := Nat.mod_lt (addr.toNat + offset) hpage
    by_cases hdone : n = 0
    · -- no space is left in the page only if no bytes are left
      have hnil : bytes.drop offset = [] := List.drop_eq_nil_of_le (by omega)
      rw [dif_pos hdone, hnil]
      exact ⟨rfl, [], .refl mode s, .nil, fun _ => rfl⟩
    rw [dif_neg hdone]
    have hshort : mode = .b24 → (addr + UInt32.ofNat offset).toNat < 2 ^ 24 := by
      intro h
      have hend := hmode h
      omega
    have hframe := decode_cmdAndAddr .programPage hshort ((bytes.drop offset).take n)
    rw [haddr] at hframe
    have hlen : ((bytes.drop offset).take n).length = n := by
      rw [List.length_take, List.length_drop]
      omega
    have hcommand : PageCommand pageSize
        ⟨Command.programPage.code, addr.toNat + offset, (bytes.drop offset).take n⟩ := by
      refine ⟨rfl, ?_, ?_⟩
      · exact List.ne_nil_of_length_pos (by rw [hlen]; omega)
      · rw [hlen]
        exact same_page (by omega) (Nat.min_le_right _ _)
    rcases programPage_then chip hframe (programLoop chip pageSize addr mode bytes (offset + n)) s with
      ⟨s', hsame, hissued, heq⟩ | ⟨e, s', hsame, hissued, heq⟩
    · obtain ⟨hrest, commands, hcommands, hprograms, hall⟩ := ih (bytes.length - (offset + n)) (by omega)
        (show offset + n ≤ bytes.length by omega) s' rfl
      rw [heq]
      refine ⟨hrest.trans hsame, _ :: commands, hissued.trans hcommands, .cons hcommand rfl ?_, ?_⟩
      · rw [hlen, List.drop_drop, Nat.add_assoc]
        exact hprograms
      · intro hreturns
        rw [List.flatMap_cons, hall hreturns, ← List.drop_drop]
        exact List.take_append_drop n _
    · rw [heq]
      rcases hissued with hissued | hissued
      · exact ⟨hsame, _, hissued, .cons hcommand rfl .nil, fun h => (not_returns_error e s' h).elim⟩
      · exact ⟨hsame, [], hissued, .nil, fun h => (not_returns_error e s' h).elim⟩

/-- A method that is run, and the chip put to sleep before its result is returned -/
lemma asleep_spec {α : Type} (m : Driver α) (s : State) :
    Quiet (after (m s)) (after ((do
      let r ← result m
      sleep chip
      ofResult r) s)) ∧
    (Returns ((do
      let r ← result m
      sleep chip
      ofResult r) s) → Returns (m s)) := by
  have htail : ∀ r : Except Error α, Keeps Quiet (do
      sleep chip
      ofResult r) := fun r => .bind quiet_frame (quiet_sleep chip) fun _ => keeps_ofResult quiet_frame r
  have hquiet := after_result m s
  rcases bind_cases (result m) (fun r => do
      sleep chip
      ofResult r) s with ⟨r, s', hrun, heq⟩ | ⟨e, s', hrun, heq⟩
  · rw [hrun] at hquiet
    obtain rfl : s' = after (m s) := hquiet
    rw [heq]
    refine ⟨htail r _, fun h => ?_⟩
    rcases result_ok hrun with ⟨a, hm⟩ | ⟨e, rfl⟩
    · exact ⟨a, _, hm⟩
    · -- the error of the method is that of the whole
      have hthrow : Triple (fun _ => True) (do
          sleep chip
          ofResult (.error e) : Driver α) fun _ _ => False :=
        .bind (triple_of_quiet (quiet_sleep chip) fun _ => True) fun _ => .throw _
      obtain ⟨a, s', hok⟩ := h
      exact (hthrow _ trivial a s' hok).elim
  · rw [hrun] at hquiet
    obtain rfl : s' = after (m s) := hquiet
    rw [heq]
    exact ⟨quiet_frame.refl _, fun h => (not_returns_error e _ h).elim⟩

variable {maxEraseSize : ℕ} (cfg : ValidFlashDescriptor maxEraseSize)

/-- What a program issues, whatever the chip answers; all bytes if it returns -/
theorem program_issues (address : UInt32) (bytes : List UInt8) (s : State) :
    ∃ commands, Issued (after (program chip cfg address bytes s)).mode s
        (after (program chip cfg address bytes s)) commands ∧
      Programs cfg.pageSize address.toNat bytes commands ∧
      (Returns (program chip cfg address bytes s) → commands.flatMap Addressed.payload = bytes) := by
  have hsilent := silent_initAndCheckAddr chip cfg address bytes.length s
  have hinit := initAndCheckAddr_spec chip cfg address bytes.length s trivial
  rcases bind_cases (initAndCheckAddr chip cfg address bytes.length) (fun r => do
      let result ← result (programLoop chip cfg.pageSize r.1 r.2 bytes 0)
      sleep chip
      ofResult result) s with ⟨⟨addr, mode⟩, s', hrun, heq⟩ | ⟨e, s', hrun, heq⟩
  · change program chip cfg address bytes s = _ at heq
    obtain ⟨rfl, hin, hmode, hfits⟩ := hinit _ _ hrun
    rw [hrun] at hsilent
    have htotal := cfg.totalSize_lt
    obtain ⟨hkeeps, commands, hissued, hprograms, hall⟩ := programLoop_spec chip cfg.pageSize_pos
      (by omega) (fun h => hin.trans (hfits h)) (Nat.zero_le _) s'
    obtain ⟨hquiet, hreturns⟩ := asleep_spec chip (programLoop chip cfg.pageSize addr mode bytes 0) s'
    rw [← heq] at hquiet hreturns
    have hfinal : (after (program chip cfg addr bytes s)).mode = mode :=
      hquiet.2.trans (hkeeps.trans hmode)
    have hcommands := (hsilent mode).trans (hissued.trans (hquiet.1 mode))
    rw [List.nil_append, List.append_nil] at hcommands
    rw [hfinal]
    exact ⟨commands, hcommands, hprograms, fun h => hall (hreturns h)⟩
  · change program chip cfg address bytes s = _ at heq
    rw [hrun] at hsilent
    rw [heq]
    exact ⟨[], hsilent _, .nil, fun h => (not_returns_error e s' h).elim⟩

end Program

/-! ### Sectors -/

section Erase

variable (chip : Chip)

/-- The commands that erase from an address on, to the one where they stop -/
structure Erases (eraseSize : ℕ) (mode : Mode) (start stop : ℕ) (commands : List Addressed) : Prop where
  sector : ∀ c ∈ commands, c.opcode = (eraseCommand mode).code ∧ c.payload = []
  tiles : Tiles Addressed.address (fun _ => eraseSize) start commands stop

/-- The body of the loop is that of a page without data. -/
lemma eraseLoop_cons (addr : UInt32) (mode : Mode) (offset : ℕ) (offsets : List ℕ) :
    eraseLoop chip addr mode (offset :: offsets) = (do
      programPage chip (cmdAndAddr (eraseCommand mode) (addr + UInt32.ofNat offset) mode) []
      eraseLoop chip addr mode offsets) := by
  rw [eraseLoop]
  unfold programPage
  simp only [bind_assoc, List.append_nil]

/-- **The loop of `erase`**, by induction on the sectors that are left, `m` from sector `i` on. -/
lemma eraseLoop_spec {step : ℕ} (hstep : 0 < step) (addr : UInt32) (mode : Mode) (m i : ℕ)
    (hbounds : addr.toNat + (i + m) * step < 2 ^ 32)
    (hmode : mode = .b24 → addr.toNat + (i + m) * step ≤ 2 ^ 24) (s : State) :
    (after (eraseLoop chip addr mode ((List.range' i m).map (· * step)) s)).mode = s.mode ∧
      ∃ commands stop, Issued mode s
          (after (eraseLoop chip addr mode ((List.range' i m).map (· * step)) s)) commands ∧
        Erases step mode (addr.toNat + i * step) stop commands ∧ stop ≤ addr.toNat + (i + m) * step ∧
        (Returns (eraseLoop chip addr mode ((List.range' i m).map (· * step)) s) →
          stop = addr.toNat + (i + m) * step) := by
  induction m generalizing i s with
  | zero =>
    exact ⟨rfl, [], _, .refl mode s, ⟨List.forall_mem_nil _, rfl⟩, Nat.le_refl _, fun _ => rfl⟩
  | succ m ih =>
    rw [show i + (m + 1) = i + 1 + m by omega] at hbounds hmode ⊢
    have hnext : addr.toNat + i * step + step ≤ addr.toNat + (i + 1 + m) * step := by
      have hmul : (i + 1) * step ≤ (i + 1 + m) * step := Nat.mul_le_mul_right _ (by omega)
      rw [Nat.succ_mul] at hmul
      omega
    have haddr : (addr + UInt32.ofNat (i * step)).toNat = addr.toNat + i * step :=
      toNat_add_ofNat (by omega)
    have hshort : mode = .b24 → (addr + UInt32.ofNat (i * step)).toNat < 2 ^ 24 := by
      intro h
      have hend := hmode h
      omega
    have hframe := decode_cmdAndAddr (eraseCommand mode) hshort []
    rw [haddr] at hframe
    rw [List.range'_succ, List.map_cons, eraseLoop_cons]
    rcases programPage_then chip hframe (eraseLoop chip addr mode ((List.range' (i + 1) m).map (· * step))) s
      with ⟨s', hsame, hissued, heq⟩ | ⟨e, s', hsame, hissued, heq⟩
    · obtain ⟨hrest, commands, stop, hcommands, herases, hle, hall⟩ := ih (i + 1) hbounds hmode s'
      rw [heq]
      refine ⟨hrest.trans hsame, _ :: commands, stop, hissued.trans hcommands, ⟨?_, rfl, hstep, ?_⟩, hle,
        hall⟩
      · exact List.forall_mem_cons.mpr ⟨⟨rfl, rfl⟩, herases.sector⟩
      · have htiles := herases.tiles
        rw [Nat.succ_mul, ← Nat.add_assoc] at htiles
        exact htiles
    · rw [heq]
      rcases hissued with hissued | hissued
      · refine ⟨hsame, _, _, hissued, ⟨?_, rfl, hstep, rfl⟩, hnext, fun h => (not_returns_error e s' h).elim⟩
        exact List.forall_mem_cons.mpr ⟨⟨rfl, rfl⟩, List.forall_mem_nil _⟩
      · exact ⟨hsame, [], _, hissued, ⟨List.forall_mem_nil _, .nil⟩, by omega,
          fun h => (not_returns_error e s' h).elim⟩

variable {maxEraseSize : ℕ} (cfg : ValidFlashDescriptor maxEraseSize)

lemma stepBy_eq {len step : ℕ} (hstep : 0 < step) (h : step ∣ len) :
    ∃ m, m * step = len ∧ stepBy len step = (List.range' 0 m).map (· * step) := by
  obtain ⟨m, rfl⟩ := h
  refine ⟨m, Nat.mul_comm _ _, ?_⟩
  have hdiv : (step * m + step - 1) / step = m := by
    rw [Nat.add_sub_assoc hstep, Nat.mul_add_div hstep, Nat.div_eq_of_lt (by omega), Nat.add_zero]
  unfold stepBy
  rw [hdiv, List.range_eq_range']

/-- The sectors of a call, for an address that passed the checks -/
def eraseSectors (addr : UInt32) (mode : Mode) (len : ℕ) : Driver (UInt32 × ℕ) :=
  if ¬(cfg.eraseSize ∣ addr.toNat ∧ cfg.eraseSize ∣ len) then do
    sleep chip
    throw (.err .alignment)
  else if cfg.eraseSize = 0 then throw .panic
  else do
    let error ← result (eraseLoop chip addr mode (stepBy len cfg.eraseSize))
    sleep chip
    ofResult error
    return (addr, len)

lemma eraseSectors_spec {addr : UInt32} {mode : Mode} {len : ℕ} (hin : addr.toNat + len ≤ cfg.totalSize)
    (hfits : Fits cfg mode) (s : State) :
    (after (eraseSectors chip cfg addr mode len s)).mode = s.mode ∧
      ∃ commands stop, Issued mode s (after (eraseSectors chip cfg addr mode len s)) commands ∧
        Erases cfg.eraseSize mode addr.toNat stop commands ∧ stop ≤ addr.toNat + len ∧
        (Returns (eraseSectors chip cfg addr mode len s) → stop = addr.toNat + len) := by
  unfold eraseSectors
  split
  · have hquiet : Quiet s (after ((do
        sleep chip
        throw (.err .alignment) : Driver (UInt32 × ℕ)) s)) :=
      Keeps.bind quiet_frame (quiet_sleep chip) (fun _ => .throw quiet_frame _) s
    have hthrow : Triple (fun _ => True) (do
        sleep chip
        throw (.err .alignment) : Driver (UInt32 × ℕ)) fun _ _ => False :=
      .bind (triple_of_quiet (quiet_sleep chip) fun _ => True) fun _ => .throw _
    refine ⟨hquiet.2, [], _, hquiet.1 mode, ⟨List.forall_mem_nil _, .nil⟩, Nat.le_add_right _ _, ?_⟩
    rintro ⟨a, s', hok⟩
    exact (hthrow _ trivial a s' hok).elim
  rename_i haligned
  have hlen := (not_not.mp haligned).2
  split
  · exact ⟨rfl, [], _, .refl mode s, ⟨List.forall_mem_nil _, .nil⟩, Nat.le_add_right _ _,
      fun h => (not_returns_error _ s h).elim⟩
  · rename_i hsize
    have htotal := cfg.totalSize_lt
    obtain ⟨m, rfl, hoffsets⟩ := stepBy_eq (Nat.pos_of_ne_zero hsize) hlen
    have hloop := eraseLoop_spec chip (Nat.pos_of_ne_zero hsize) addr mode m 0
      (by rw [Nat.zero_add]; omega) (fun h => by have := hfits h; rw [Nat.zero_add]; omega) s
    rw [← hoffsets, Nat.zero_mul, Nat.zero_add] at hloop
    obtain ⟨hmode, commands, stop, hissued, herases, hle, hall⟩ := hloop
    have hasleep := asleep_spec chip (eraseLoop chip addr mode (stepBy (m * cfg.eraseSize) cfg.eraseSize)) s
    have hpure := bind_pure_spec (do
      let error ← result (eraseLoop chip addr mode (stepBy (m * cfg.eraseSize) cfg.eraseSize))
      sleep chip
      ofResult error) (addr, m * cfg.eraseSize) s
    simp only [bind_assoc] at hpure
    rw [hpure.1]
    refine ⟨hasleep.1.2.trans hmode, commands, stop, ?_, herases, hle, fun h => ?_⟩
    · have hcommands := hissued.trans (hasleep.1.1 mode)
      rw [List.append_nil] at hcommands
      exact hcommands
    · exact hall (hasleep.2 (hpure.2 h))

/-- What an erase issues, whatever the chip answers; all sectors if it returns -/
theorem erase_issues (address : UInt32) (len : ℕ) (s : State) :
    ∃ commands stop, Issued (after (erase chip cfg address len s)).mode s
        (after (erase chip cfg address len s)) commands ∧
      Erases cfg.eraseSize (after (erase chip cfg address len s)).mode address.toNat stop commands ∧
      stop ≤ address.toNat + len ∧
      (Returns (erase chip cfg address len s) → stop = address.toNat + len) := by
  have hsilent := silent_initAndCheckAddr chip cfg address len s
  have hinit := initAndCheckAddr_spec chip cfg address len s trivial
  rcases bind_cases (initAndCheckAddr chip cfg address len)
    (fun r => eraseSectors chip cfg r.1 r.2 len) s with ⟨⟨addr, mode⟩, s', hrun, heq⟩ | ⟨e, s', hrun, heq⟩
  · change erase chip cfg address len s = _ at heq
    obtain ⟨rfl, hin, hmode, hfits⟩ := hinit _ _ hrun
    rw [hrun] at hsilent
    obtain ⟨hkeeps, commands, stop, hissued, herases, hstop⟩ := eraseSectors_spec chip cfg hin hfits s'
    have hfinal : (after (eraseSectors chip cfg addr mode len s')).mode = mode := hkeeps.trans hmode
    rw [heq, hfinal]
    exact ⟨commands, stop, (hsilent mode).trans hissued, herases, hstop⟩
  · change erase chip cfg address len s = _ at heq
    rw [hrun] at hsilent
    rw [heq]
    exact ⟨[], _, hsilent _, ⟨List.forall_mem_nil _, .nil⟩, Nat.le_add_right _ _,
      fun h => (not_returns_error e s' h).elim⟩

end Erase

/-! ### A chip that works -/

/-- No transaction fails, and the status is always that of an enabled chip that is ready. -/
def Works (chip : Chip) : Prop :=
  ∀ log, ∃ read, chip log = some read ∧ isBusy (read 0) = false ∧ isWriteEnableSet (read 0) = true

/-- A chip that answers every byte with its write enable bit -/
example : Works fun _ => some fun _ => 2 := fun _ => ⟨fun _ => 2, rfl, by decide, by decide⟩

section Works

variable {α β : Type}

lemma total_result {m : Driver α} {P : α → Prop} (hm : Total m P) :
    Total (result m) fun r => ∃ a, r = .ok a ∧ P a := by
  intro s
  obtain ⟨a, s', hrun, ha⟩ := hm s
  refine ⟨.ok a, s', ?_, a, rfl, ha⟩
  unfold Spi.result
  rw [hrun]

variable {chip : Chip} (hchip : Works chip)

include hchip

lemma total_transaction (t : Transaction) : Total (transaction chip t)
    fun read => isBusy (read 0) = false ∧ isWriteEnableSet (read 0) = true := by
  intro s
  obtain ⟨read, hread, hstatus⟩ := hchip (s.log ++ [t])
  refine ⟨read, { s with log := s.log ++ [t] }, ?_, hstatus⟩
  unfold transaction
  simp only [hread]

lemma total_sendCommand (cmd : Command) : Total (sendCommand chip cmd) fun _ => True :=
  .bind (total_transaction hchip _) fun _ _ => .pure trivial

lemma total_status : Total (status chip)
    fun status => isBusy status = false ∧ isWriteEnableSet status = true :=
  .bind (total_transaction hchip _) fun _ h => .pure h

lemma total_isReady : Total (isReady chip) fun _ => True := by
  refine .bind (total_status hchip) fun status h => ?_
  rw [h.1]
  exact .pure trivial

lemma total_writeEnable : Total (writeEnable chip) fun _ => True := by
  refine .bind (total_sendCommand hchip _) fun _ _ => ?_
  refine .bind (total_status hchip) fun status h => ?_
  rw [h.2]
  exact .pure trivial

lemma total_programPage (cmdAddr bytes : List UInt8) :
    Total (programPage chip cmdAddr bytes) fun _ => True :=
  .bind (total_writeEnable hchip) fun _ _ =>
    .bind (total_transaction hchip _) fun _ _ => total_isReady hchip

lemma total_sleep : Total (sleep chip) fun _ => True := by
  refine .bind (.modify _) fun _ _ => ?_
  refine .bind (total_result (total_sendCommand hchip _)) fun r h => ?_
  obtain ⟨a, rfl, -⟩ := h
  exact .pure trivial

lemma total_wakeup : Total (wakeup chip) fun _ => True := by
  refine .bind .get fun s _ => ?_
  split
  · refine .bind (P := fun _ => True) ?_ fun _ _ => .modify _
    refine .bind (total_result (total_sendCommand hchip _)) fun r h => ?_
    obtain ⟨a, rfl, -⟩ := h
    exact .pure trivial
  · exact .pure trivial

variable {maxEraseSize : ℕ} (cfg : ValidFlashDescriptor maxEraseSize)

lemma total_enter4ByteMode : Total (enter4ByteMode chip) fun _ => True := by
  refine .bind (total_wakeup hchip) fun _ _ => ?_
  refine .bind (total_result (total_sendCommand hchip _)) fun r h => ?_
  obtain ⟨a, rfl, -⟩ := h
  exact .modify _

lemma total_switchMode : Total (switchMode chip cfg) fun _ => True := by
  refine .bind .get fun s _ => ?_
  cases s.mode with
  | b32 => exact .pure trivial
  | b24 =>
    change Total (if _ then _ else _) _
    split
    · exact total_enter4ByteMode hchip
    · exact .pure trivial

lemma total_initAndCheckAddr {address : UInt32} {len : ℕ} (hin : address.toNat + len ≤ cfg.totalSize) :
    Total (initAndCheckAddr chip cfg address len) fun r => r.1 = address := by
  unfold initAndCheckAddr
  rw [(boundsCheck_eq_ok cfg.totalSize_lt).mpr ⟨rfl, hin⟩]
  refine .bind (.pure (P := fun addr => addr = address) rfl) fun addr haddr => ?_
  refine .bind (total_switchMode hchip cfg) fun _ _ => ?_
  refine .bind .get fun s _ => ?_
  exact .bind (total_wakeup hchip) fun _ _ => .pure haddr

lemma total_programLoop (pageSize : ℕ) (addr : UInt32) (mode : Mode) (bytes : List UInt8) (offset : ℕ) :
    Total (programLoop chip pageSize addr mode bytes offset) fun _ => True := by
  induction offset using programLoop.induct pageSize addr bytes with
  | case1 offset blockAddress blockMaxLen bytesToProgram hdone =>
    rw [programLoop, dif_pos hdone]
    exact .pure trivial
  | case2 offset blockAddress blockMaxLen bytesToProgram hdone ih =>
    rw [programLoop, dif_neg hdone]
    exact .bind (total_programPage hchip _ _) fun _ _ => ih

lemma total_eraseLoop (addr : UInt32) (mode : Mode) (offsets : List ℕ) :
    Total (eraseLoop chip addr mode offsets) fun _ => True := by
  induction offsets with
  | nil => exact .pure trivial
  | cons offset offsets ih =>
    rw [eraseLoop_cons]
    exact .bind (total_programPage hchip _ _) fun _ _ => ih

theorem program_returns {address : UInt32} {bytes : List UInt8}
    (hin : address.toNat + bytes.length ≤ cfg.totalSize) :
    Total (program chip cfg address bytes) fun _ => True := by
  refine .bind (total_initAndCheckAddr hchip cfg hin) fun r _ => ?_
  refine .bind (total_result (total_programLoop hchip _ _ _ _ _)) fun r h => ?_
  obtain ⟨a, rfl, -⟩ := h
  exact .bind (total_sleep hchip) fun _ _ => .pure trivial

theorem erase_returns {address : UInt32} {len : ℕ} (hin : address.toNat + len ≤ cfg.totalSize)
    (haddress : cfg.eraseSize ∣ address.toNat) (hlen : cfg.eraseSize ∣ len) (hsize : cfg.eraseSize ≠ 0) :
    Total (erase chip cfg address len) fun _ => True := by
  refine .bind (total_initAndCheckAddr hchip cfg hin) fun ⟨addr, mode⟩ haddr => ?_
  obtain rfl : addr = address := haddr
  change Total (if _ then _ else if _ then _ else _) _
  rw [if_neg (not_not.mpr ⟨haddress, hlen⟩), if_neg hsize]
  refine .bind (total_result (total_eraseLoop hchip _ _ _)) fun r h => ?_
  obtain ⟨a, rfl, -⟩ := h
  exact .bind (total_sleep hchip) fun _ _ => .pure trivial

end Works

/-! ### Exact coverage -/

section Coverage

variable {maxEraseSize : ℕ}

/-- No command of a program is outside of the range of the bytes. -/
lemma Programs.bounds {pageSize start : ℕ} {bytes : List UInt8} {commands : List Addressed}
    (h : Programs pageSize start bytes commands) {c : Addressed} (hc : c ∈ commands) :
    start ≤ c.address ∧ c.address + c.payload.length ≤ start + bytes.length := by
  obtain ⟨stop, hstop⟩ := h.contiguous
  have hsum := hstop.hi_eq
  have hlen : (commands.map fun c => c.payload.length).sum ≤ bytes.length := by
    rw [← List.length_flatMap]
    exact h.prefix_bytes.length_le
  have hbounds := hstop.bounds hc
  omega

/-- **Writes stay in the erased range**, whatever the chip answers. -/
theorem write_in_range (chip : Chip) (cfg : ValidFlashDescriptor maxEraseSize) {startAddr : UInt32}
    {maxLen : ℕ} (hmax : maxLen < 2 ^ 32) (address : UInt32) (bytes : List UInt8) (s : State) :
    ∃ commands, Issued (after (write chip cfg startAddr maxLen address bytes s)).mode s
        (after (write chip cfg startAddr maxLen address bytes s)) commands ∧
      (∀ c ∈ commands, startAddr.toNat ≤ c.address ∧
        c.address + c.payload.length ≤ startAddr.toNat + maxLen) ∧
      (Returns (write chip cfg startAddr maxLen address bytes s) →
        commands.flatMap Addressed.payload = bytes) := by
  unfold write
  cases hcheck : boundsCheck address bytes.length startAddr maxLen with
  | error e =>
    exact ⟨[], .refl _ s, List.forall_mem_nil _, fun h => (not_returns_error _ s h).elim⟩
  | ok addr =>
    obtain ⟨rfl, hstart, hend⟩ := boundsCheck_range hmax hcheck
    obtain ⟨commands, hissued, hprograms, hall⟩ := program_issues chip cfg addr bytes s
    refine ⟨commands, hissued, fun c hc => ?_, hall⟩
    have hbounds := hprograms.bounds hc
    omega

/-- The page commands of a program, from the start address on; their payloads are the bytes, or a prefix of
them where the program fails. -/
def ProgramsExactly (chip : Chip) (cfg : ValidFlashDescriptor maxEraseSize) (address : UInt32)
    (bytes : List UInt8) (s : State) : Prop :=
  ∃ commands, Issued (after (program chip cfg address bytes s)).mode s
      (after (program chip cfg address bytes s)) commands ∧
    Programs cfg.pageSize address.toNat bytes commands ∧
    (Returns (program chip cfg address bytes s) → commands.flatMap Addressed.payload = bytes)

/-- The erase commands of a call, from the start address on; their sectors are the range, or a first part of
it where the erase fails. -/
def ErasesExactly (chip : Chip) (cfg : ValidFlashDescriptor maxEraseSize) (address : UInt32) (len : ℕ)
    (s : State) : Prop :=
  ∃ commands stop, Issued (after (erase chip cfg address len s)).mode s
      (after (erase chip cfg address len s)) commands ∧
    Erases cfg.eraseSize (after (erase chip cfg address len s)).mode address.toNat stop commands ∧
    stop ≤ address.toNat + len ∧
    (Returns (erase chip cfg address len s) → ∀ x,
      (∃ c ∈ commands, c.address ≤ x ∧ x < c.address + cfg.eraseSize) ↔
        address.toNat ≤ x ∧ x < address.toNat + len)

/-- **The driver covers exactly what it is asked to**, whatever the chip answers: the addresses are those that
the chip reads from the frames. With a chip that works, every program in bounds and every aligned erase in
bounds returns. -/
theorem covers_exactly (chip : Chip) (cfg : ValidFlashDescriptor maxEraseSize) (s : State) :
    (∀ address bytes, ProgramsExactly chip cfg address bytes s ∧
      (Works chip → address.toNat + bytes.length ≤ cfg.totalSize →
        Returns (program chip cfg address bytes s))) ∧
    ∀ address len, ErasesExactly chip cfg address len s ∧
      (Works chip → address.toNat + len ≤ cfg.totalSize → cfg.eraseSize ∣ address.toNat →
        cfg.eraseSize ∣ len → cfg.eraseSize ≠ 0 → Returns (erase chip cfg address len s)) := by
  refine ⟨fun address bytes => ⟨program_issues chip cfg address bytes s, fun hchip hin => ?_⟩,
    fun address len => ⟨?_, fun hchip hin haddress hlen hsize => ?_⟩⟩
  · exact (program_returns hchip cfg hin).returns s
  · obtain ⟨commands, stop, hissued, herases, hle, hall⟩ := erase_issues chip cfg address len s
    refine ⟨commands, stop, hissued, herases, hle, fun hreturns x => ?_⟩
    rw [← hall hreturns]
    exact herases.tiles.mem_iff x
  · exact (erase_returns hchip cfg hin haddress hlen hsize).returns s

end Coverage

end SensorLink.Flash.Spi
