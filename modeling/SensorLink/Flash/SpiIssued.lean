import SensorLink.Flash.SpiFlash
import SensorLink.Lib.Stateful

/-!
# The commands that the driver of the SPI flash issues

The commands with an address are read from the issued frames as the chip reads them in its address mode.
The status, the write enable, the sleep and the switch of the mode issue none.
-/

namespace SensorLink.Flash.Spi

open SensorLink.Lib (leBytes ofLeBytes ofLeBytes_leBytes Stop)
open SensorLink.Lib.Stateful

/-! ### The frames -/

/-- A command with an address -/
structure Addressed where
  opcode : UInt8
  address : ℕ
  payload : List UInt8
deriving DecidableEq

def addressBytes : Mode → ℕ
  | .b24 => 3
  | .b32 => 4

/-- The command in a frame, none if it is too short for an address -/
def decode (mode : Mode) (t : Transaction) : Option Addressed :=
  match t.written with
  | [] => none
  | opcode :: rest =>
    if rest.length < addressBytes mode then none
    else some ⟨opcode, ofLeBytes (rest.take (addressBytes mode)).reverse, rest.drop (addressBytes mode)⟩

lemma decode_short {mode : Mode} {cmd : Command} {n : ℕ} : decode mode ⟨[cmd.code], n⟩ = none := by
  cases mode <;> rfl

/-- An address is not truncated where three bytes are enough for it. -/
lemma decode_cmdAndAddr (cmd : Command) {addr : UInt32} {mode : Mode}
    (hmode : mode = .b24 → addr.toNat < 2 ^ 24) (payload : List UInt8) :
    decode mode ⟨cmdAndAddr cmd addr mode ++ payload, 0⟩ = some ⟨cmd.code, addr.toNat, payload⟩ := by
  have haddr : addr.toNat < 2 ^ 32 := addr.toNat_lt
  cases mode with
  | b24 =>
    have hlow : (toBeBytes addr).drop 1 = (leBytes 3 addr.toNat).reverse := rfl
    have hlen : ((leBytes 3 addr.toNat).reverse).length = 3 := by simp
    unfold decode cmdAndAddr addressBytes
    simp only [List.cons_append, hlow]
    rw [if_neg (by simp), List.take_left' hlen, List.drop_left' hlen, List.reverse_reverse,
      ofLeBytes_leBytes, show 256 ^ 3 = 2 ^ 24 from rfl, Nat.mod_eq_of_lt (hmode rfl)]
  | b32 =>
    have hlen : ((leBytes 4 addr.toNat).reverse).length = 4 := by simp
    unfold decode cmdAndAddr addressBytes toBeBytes
    simp only [List.cons_append]
    rw [if_neg (by simp), List.take_left' hlen, List.drop_left' hlen, List.reverse_reverse,
      ofLeBytes_leBytes, show 256 ^ 4 = 2 ^ 32 from rfl, Nat.mod_eq_of_lt haddr]

example : decode .b24 ⟨cmdAndAddr .eraseSector 0x5000 .b24, 0⟩ = some ⟨0x20, 0x5000, []⟩ := by decide

/-! ### What a method issues -/

/-- The commands with an address that were issued between two states -/
def Issued (mode : Mode) (s s' : State) (commands : List Addressed) : Prop :=
  ∃ issued, s'.log = s.log ++ issued ∧ issued.filterMap (decode mode) = commands

lemma Issued.refl (mode : Mode) (s : State) : Issued mode s s [] := ⟨[], by simp, rfl⟩

lemma Issued.trans {mode : Mode} {s s' s'' : State} {commands commands' : List Addressed}
    (h : Issued mode s s' commands) (h' : Issued mode s' s'' commands') :
    Issued mode s s'' (commands ++ commands') := by
  obtain ⟨issued, hlog, rfl⟩ := h
  obtain ⟨issued', hlog', rfl⟩ := h'
  exact ⟨issued ++ issued', by rw [hlog', hlog, List.append_assoc], by rw [List.filterMap_append]⟩

/-- Only commands without an address were issued. -/
def Silent (s s' : State) : Prop := ∀ mode, Issued mode s s' []

/-- Moreover the mode is the same. -/
def Quiet (s s' : State) : Prop := Silent s s' ∧ s'.mode = s.mode

lemma silent_frame : Frame Silent where
  refl s mode := .refl mode s
  trans h h' mode := (h mode).trans (h' mode)

lemma quiet_frame : Frame Quiet where
  refl s := ⟨silent_frame.refl s, rfl⟩
  trans h h' := ⟨silent_frame.trans h.1 h'.1, h'.2.trans h.2⟩

section Keeps

variable {α : Type} {R : State → State → Prop}

/-- A quiet method does not change the mode. -/
lemma triple_of_quiet {m : Driver α} (h : Keeps Quiet m) (P : Mode → Prop) :
    Triple (fun s => P s.mode) m fun _ s => P s.mode := by
  intro s hs a s' hrun
  have hmode := (h s).2
  rw [hrun] at hmode
  change s'.mode = s.mode at hmode
  rw [hmode]
  exact hs

lemma after_result (m : Driver α) (s : State) : after (result m s) = after (m s) := by
  unfold result
  split <;> rename_i h <;> rw [h] <;> rfl

lemma result_ok {m : Driver α} {s s' : State} {r : Except Error α} (h : result m s = .ok r s') :
    (∃ a, m s = .ok a s') ∨ ∃ e, r = .error e := by
  unfold result at h
  split at h
  · rename_i a s'' hm
    cases h
    exact .inl ⟨a, hm⟩
  · rename_i e s'' hm
    cases h
    exact .inr ⟨e, rfl⟩
  · cases h

lemma keeps_result {m : Driver α} (hm : Keeps R m) : Keeps R (result m) := by
  intro s
  rw [after_result]
  exact hm s

lemma keeps_ofResult (hR : Frame R) (r : Except Error α) : Keeps R (ofResult r) := by
  cases r with
  | ok a => exact .pure hR a
  | error e => exact .throw hR _

end Keeps

section Quiet

variable (chip : Chip)

lemma after_transaction (t : Transaction) (s : State) :
    after (transaction chip t s) = { s with log := s.log ++ [t] } := by
  unfold transaction
  cases hread : chip (s.log ++ [t]) <;> simp only [hread] <;> rfl

lemma quiet_transaction (cmd : Command) (n : ℕ) : Keeps Quiet (transaction chip ⟨[cmd.code], n⟩) := by
  intro s
  rw [after_transaction]
  refine ⟨fun mode => ⟨[⟨[cmd.code], n⟩], rfl, ?_⟩, rfl⟩
  rw [List.filterMap_cons, decode_short]
  rfl

lemma quiet_sendCommand (cmd : Command) : Keeps Quiet (sendCommand chip cmd) :=
  .bind quiet_frame (quiet_transaction chip cmd 0) fun _ => .pure quiet_frame _

lemma quiet_status : Keeps Quiet (status chip) :=
  .bind quiet_frame (quiet_transaction chip .readStatus 1) fun _ => .pure quiet_frame _

lemma quiet_isReadyLoop (n : ℕ) : Keeps Quiet (isReadyLoop chip n) := by
  induction n with
  | zero => exact .throw quiet_frame _
  | succ n ih =>
    refine .bind quiet_frame (quiet_status chip) fun status => ?_
    split
    · exact ih
    · exact .pure quiet_frame _

lemma quiet_isReady : Keeps Quiet (isReady chip) := quiet_isReadyLoop chip 10

lemma quiet_writeEnable : Keeps Quiet (writeEnable chip) := by
  refine .bind quiet_frame (quiet_sendCommand chip _) fun _ => ?_
  refine .bind quiet_frame (quiet_status chip) fun status => ?_
  split
  · exact .pure quiet_frame _
  · exact .throw quiet_frame _

lemma quiet_sleepLoop (n : ℕ) : Keeps Quiet (sleepLoop chip n) := by
  induction n with
  | zero => exact .pure quiet_frame _
  | succ n ih =>
    refine .bind quiet_frame (keeps_result (quiet_sendCommand chip _)) fun r => ?_
    cases r with
    | ok _ => exact .pure quiet_frame _
    | error _ => exact ih

lemma quiet_setAwake (awake : Bool) :
    Keeps Quiet (modify fun s => { s with awake := awake } : Driver Unit) :=
  fun _ => ⟨fun _ => ⟨[], (List.append_nil _).symm, rfl⟩, rfl⟩

lemma quiet_sleep : Keeps Quiet (sleep chip) :=
  .bind quiet_frame (quiet_setAwake false) fun _ => quiet_sleepLoop chip 2

lemma quiet_wakeupLoop (n : ℕ) : Keeps Quiet (wakeupLoop chip n) := by
  induction n with
  | zero => exact .pure quiet_frame _
  | succ n ih =>
    refine .bind quiet_frame (keeps_result (quiet_sendCommand chip _)) fun r => ?_
    cases r with
    | ok _ => exact .pure quiet_frame _
    | error e =>
      change Keeps Quiet (if n = 0 then _ else _)
      split
      · exact .bind quiet_frame (quiet_sleep chip) fun _ => .throw quiet_frame _
      · exact ih

lemma quiet_wakeup : Keeps Quiet (wakeup chip) := by
  refine .bind quiet_frame (.get quiet_frame) fun s => ?_
  split
  · exact .bind quiet_frame (quiet_wakeupLoop chip 5) fun _ => quiet_setAwake true
  · exact .pure quiet_frame _

end Quiet

/-! ### The start of a call -/

section Init

variable (chip : Chip) {maxEraseSize : ℕ} (cfg : ValidFlashDescriptor maxEraseSize)

/-- The bounds of an erased range -/
lemma boundsCheck_range {address minAddr addr : UInt32} {len maxLen : ℕ} (hmax : maxLen < 2 ^ 32)
    (h : boundsCheck address len minAddr maxLen = .ok addr) :
    addr = address ∧ minAddr.toNat ≤ address.toNat ∧ address.toNat + len ≤ minAddr.toNat + maxLen := by
  unfold boundsCheck at h
  by_cases hmin : address < minAddr
  · rw [if_pos hmin] at h
    cases h
  rw [if_neg hmin] at h
  by_cases hlen : maxLen < len
  · rw [if_pos hlen] at h
    cases h
  rw [if_neg hlen] at h
  by_cases hoffset : UInt32.ofNat (maxLen - len) < address - minAddr
  · simp only [if_pos hoffset] at h
    cases h
  simp only [if_neg hoffset] at h
  cases h
  have hroom : (UInt32.ofNat (maxLen - len)).toNat = maxLen - len :=
    UInt32.toNat_ofNat_of_lt' (by change _ < 2 ^ 32; omega)
  have hle : minAddr ≤ address := UInt32.not_lt.mp hmin
  have hsub := UInt32.toNat_sub_of_le address minAddr hle
  rw [UInt32.lt_iff_toNat_lt, hroom, hsub] at hoffset
  rw [UInt32.le_iff_toNat_le] at hle
  exact ⟨rfl, hle, by omega⟩

/-- The bounds of the whole flash -/
lemma boundsCheck_eq_ok {address addr : UInt32} {len total : ℕ} (htotal : total < 2 ^ 32) :
    boundsCheck address len 0 total = .ok addr ↔ addr = address ∧ address.toNat + len ≤ total := by
  constructor
  · intro h
    obtain ⟨haddr, -, hend⟩ := boundsCheck_range htotal h
    rw [show (0 : UInt32).toNat = 0 from rfl, Nat.zero_add] at hend
    exact ⟨haddr, hend⟩
  · rintro ⟨rfl, hend⟩
    have hroom : (UInt32.ofNat (total - len)).toNat = total - len :=
      UInt32.toNat_ofNat_of_lt' (by change _ < 2 ^ 32; omega)
    unfold boundsCheck
    rw [if_neg (by rw [UInt32.lt_iff_toNat_lt]; exact Nat.not_lt_zero _), if_neg (by omega),
      UInt32.sub_zero]
    simp only [UInt32.lt_iff_toNat_lt, hroom]
    rw [if_neg (by omega)]

/-- The address mode has enough bytes for the flash. -/
def Fits (cfg : ValidFlashDescriptor maxEraseSize) (mode : Mode) : Prop :=
  mode = .b24 → cfg.totalSize ≤ 2 ^ 24

lemma silent_of_quiet {α : Type} {m : Driver α} (h : Keeps Quiet m) : Keeps Silent m :=
  h.mono fun _ _ => And.left

lemma silent_enter4ByteMode : Keeps Silent (enter4ByteMode chip) := by
  refine .bind silent_frame (silent_of_quiet (quiet_wakeup chip)) fun _ => ?_
  refine .bind silent_frame (silent_of_quiet (keeps_result (quiet_sendCommand chip _))) fun r => ?_
  cases r with
  | error e => exact .bind silent_frame (silent_of_quiet (quiet_sleep chip)) fun _ => .throw silent_frame _
  | ok _ => exact fun s mode => ⟨[], (List.append_nil _).symm, rfl⟩

lemma silent_switchMode : Keeps Silent (switchMode chip cfg) := by
  refine .bind silent_frame (.get silent_frame) fun s => ?_
  cases s.mode with
  | b32 => exact .pure silent_frame _
  | b24 =>
    change Keeps Silent (if _ then _ else _)
    split
    · exact silent_enter4ByteMode chip
    · exact .pure silent_frame _

/-- Four address bytes are enough for any flash. -/
lemma fits_b32 : Fits cfg .b32 := fun h => by cases h

lemma fits_enter4ByteMode (P : State → Prop) :
    Triple P (enter4ByteMode chip) fun _ s => Fits cfg s.mode := by
  refine .bind (Triple.trivial _) fun _ => ?_
  refine .bind (triple_of_quiet (keeps_result (quiet_sendCommand chip _)) fun _ => True) fun r => ?_
  cases r with
  | error e => exact .bind (triple_of_quiet (quiet_sleep chip) fun _ => True) fun _ => .throw _
  | ok _ =>
    intro s _ a s' h
    cases h
    exact fits_b32 cfg

/-- The mode fits after the switch. -/
lemma fits_switchMode (P : State → Prop) :
    Triple P (switchMode chip cfg) fun _ s => Fits cfg s.mode := by
  intro s _ a s' h
  unfold switchMode at h
  rcases bind_cases get _ s with ⟨_, s₁, hget, hrun⟩ | ⟨e, s₁, hget, -⟩
  · cases hget
    rw [hrun] at h
    cases hmode : s.mode with
    | b32 =>
      rw [hmode] at h
      cases h
      rw [hmode]
      exact fits_b32 cfg
    | b24 =>
      rw [hmode] at h
      by_cases hlarge : 0x1000000 < cfg.totalSize
      · simp only [if_pos hlarge] at h
        exact fits_enter4ByteMode chip cfg (fun _ => True) s trivial a s' h
      · simp only [if_neg hlarge] at h
        cases h
        exact fun _ => Nat.not_lt.mp hlarge
  · cases hget

lemma silent_initAndCheckAddr (addr : UInt32) (len : ℕ) :
    Keeps Silent (initAndCheckAddr chip cfg addr len) := by
  refine .bind silent_frame (keeps_ofResult silent_frame _) fun addr' => ?_
  refine .bind silent_frame (silent_switchMode chip cfg) fun _ => ?_
  refine .bind silent_frame (.get silent_frame) fun s => ?_
  exact .bind silent_frame (silent_of_quiet (quiet_wakeup chip)) fun _ => .pure silent_frame _

/-- A call goes on with an address in bounds, in a mode that fits. -/
lemma initAndCheckAddr_spec (address : UInt32) (len : ℕ) :
    Triple (fun _ => True) (initAndCheckAddr chip cfg address len) fun r s =>
      r.1 = address ∧ address.toNat + len ≤ cfg.totalSize ∧ s.mode = r.2 ∧ Fits cfg r.2 := by
  have hbounds : Triple (fun _ => True) (ofResult (boundsCheck address len 0 cfg.totalSize))
      fun addr _ => addr = address ∧ address.toNat + len ≤ cfg.totalSize := by
    intro s _ addr s' h
    cases hcheck : boundsCheck address len 0 cfg.totalSize with
    | error e =>
      rw [hcheck] at h
      cases h
    | ok addr' =>
      rw [hcheck] at h
      cases h
      exact (boundsCheck_eq_ok cfg.totalSize_lt).mp hcheck
  refine .bind hbounds fun addr => ?_
  intro s haddr r s' h
  obtain ⟨rfl, hin⟩ := haddr
  have hrest : Triple (fun _ => True) (do
      switchMode chip cfg
      let mode := (← get).mode
      wakeup chip
      return (addr, mode)) fun r s => r.1 = addr ∧ s.mode = r.2 ∧ Fits cfg r.2 := by
    refine .bind (fits_switchMode chip cfg _) fun _ => ?_
    refine .bind (Q := fun s₀ s => s.mode = s₀.mode ∧ Fits cfg s₀.mode) ?_ fun s₀ => ?_
    · intro s hfits s₀ s' h
      cases h
      exact ⟨rfl, hfits⟩
    · refine .bind (triple_of_quiet (quiet_wakeup chip) fun m => m = s₀.mode ∧ Fits cfg s₀.mode) fun _ => ?_
      intro s hs r s' h
      cases h
      exact ⟨rfl, hs⟩
  obtain ⟨h1, h2, h3⟩ := hrest s trivial r s' h
  exact ⟨h1, hin, h2, h3⟩

end Init

end SensorLink.Flash.Spi
