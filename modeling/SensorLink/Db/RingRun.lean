import SensorLink.Db.Recovery
import SensorLink.Lib.Reach

/-!
# Runs of a circular

Fragments are written one after the other and deleted from the oldest on. Any flash operation in this
may fail, and power may be lost at any of them. Whatever happens, `find_circular_range` finds what is
stored (`rangeRecovered_of_reach`).
-/

namespace SensorLink.Db

open SensorLink.Lib SensorLink.Flash RingBuffer

variable {dev : BlockDevice}

/-- The flash, the sequence number to be written next, and what was stored and deleted so far. -/
structure RingWorld where
  mem : Mem
  next : ℕ
  stored : List ℕ
  deleted : List ℕ

/-- The calls, with the fates of their flash operations. -/
inductive RingCall
  | write (data : List UInt8) (plan : List Fate)
  | delete (n : ℕ) (plan : List Fate)
  | restart

namespace RingWorld

variable (c : RingBuffer dev)

def exec (s : RingWorld) : RingCall → RingWorld
  | .write data plan =>
    match (writeCircularFragment dev c.toCircular s.next data).run ⟨s.mem, plan, []⟩ with
    | .ok _ d => { s with mem := d.mem, next := s.next + 1, stored := s.next :: s.stored }
    | .err e d =>
      { s with mem := d.mem, next := if e = .fragmentNotWriteable then s.next + 1 else s.next }
    -- power may have been lost when the fragment was complete
    | .off d => { s with
        mem := d.mem
        stored := if status c (dev.view d.mem) s.next = some .valid then s.next :: s.stored
          else s.stored }
  | .delete n plan =>
    { s with
      mem := ((deleteCircularFragment dev c.toCircular n).run ⟨s.mem, plan, []⟩).dev.mem
      deleted := n :: s.deleted }
  | .restart =>
    match (findCircularRange dev c.toCircular).eval s.mem with
    | .ok r _ => { s with next := r.stop }
    | _ => s

/-- The sequence numbers do not wrap, and the oldest fragment is deleted first. -/
def Allowed (s : RingWorld) : RingCall → Prop
  | .write _ _ => s.next / c.perBlock * c.perBlock + c.perBlock < 2 ^ 32
  | .delete n _ => (n < s.next ∨ status c (dev.view s.mem) n = some .valid) ∧
    ∀ k, status c (dev.view s.mem) k = some .valid → n ≤ k
  | .restart => True

end RingWorld

/-- The range has all valid fragments, starts at the first one, and ends after everything that was ever
stored. -/
structure RangeRecovered (c : RingBuffer dev) (s : RingWorld) (r : CircularRange) : Prop where
  valid : ∀ n, status c (dev.view s.mem) n = some .valid → r.start ≤ n ∧ n < r.stop
  first : (∃ n, status c (dev.view s.mem) n = some .valid) →
    status c (dev.view s.mem) r.start = some .valid
  empty : (∀ n, status c (dev.view s.mem) n ≠ some .valid) →
    r.start = r.stop ∧ ∀ n ∈ s.deleted, n ≤ r.start
  stored : ∀ n ∈ s.stored, n < r.stop

/-- What a run keeps, with the frontier `F`. -/
structure RunInv (c : RingBuffer dev) (s : RingWorld) (F : ℕ) : Prop where
  ring : RingInv c (dev.view s.mem) F
  next_le : s.next ≤ F
  present : ∀ k, s.next ≤ k → k < F → c.slot (dev.view s.mem) k ≠ none
  order : ∀ e d, status c (dev.view s.mem) e = some .obsolete →
    status c (dev.view s.mem) d = some .valid → e < d
  stored : ∀ n ∈ s.stored, n < F ∧ (status c (dev.view s.mem) n = some .valid ∨
    ∀ d, status c (dev.view s.mem) d = some .valid → n < d)
  deleted : ∀ n ∈ s.deleted, n < F

section Steps

variable {c : RingBuffer dev} {s : RingWorld} {F : ℕ}

/-! ### Writing -/

lemma written_or_torn {data : List UInt8} {fr : Frag} (h : Complete c data fr ∨ Torn fr) :
    fr.status = .valid ∨ fr.status = .invalid := by
  rcases h with ⟨rfl, -⟩ | h
  · exact Or.inl rfl
  · exact Or.inr h

/-- Whatever a write leaves behind. -/
lemma RunInv.effect (h : RunInv c s F) {P : Frag → Prop} {mem : Mem}
    (hP : ∀ fr, P fr → fr.status = .valid ∨ fr.status = .invalid)
    (heff : WriteEffect c (dev.view s.mem) s.next P (dev.view mem))
    (hlast : s.next / c.perBlock * c.perBlock + c.perBlock < 2 ^ 32) :
    ∃ F', RunInv c { s with mem := mem } F' ∧ F ≤ F' := by
  have hused : ∀ fr, P fr → fr.status ≠ .empty := by
    intro fr hfr
    rcases hP fr hfr with hst | hst <;> rw [hst] <;> decide
  obtain ⟨F', hmoved⟩ := h.ring.effect heff hused h.next_le (fun hlt => h.present _ le_rfl hlt) hlast
  have hle := hmoved.le
  obtain ⟨hring, -, hslots⟩ := id hmoved
  -- the fragments that the write may have changed
  have hold : ∀ k s', status c (dev.view mem) k = some s' → s' ≠ .empty →
      k < F ∧ status c (dev.view s.mem) k = some s' ∨ k = F ∧ s' ≠ .obsolete := by
    intro k s' hk hs'
    rcases hmoved.used hk hs' with ⟨hlt, heq⟩ | ⟨rfl, -, fr, hfr, hslot⟩
    · rw [status, heq] at hk
      exact Or.inl ⟨hlt, hk⟩
    · rw [status, hslot] at hk
      obtain rfl := Option.some.inj hk
      refine Or.inr ⟨rfl, ?_⟩
      rcases hP fr hfr with hst | hst <;> rw [hst] <;> decide
  refine ⟨F', ⟨hring, h.next_le.trans hle, fun k hk hkF => hmoved.present h.present hk hkF,
    fun e d he hd => ?_, fun n hn => ?_, fun n hn => (h.deleted n hn).trans_le hle⟩, hle⟩
  · rcases hold e _ he (by decide) with ⟨heF, he'⟩ | ⟨-, hne⟩
    · rcases hold d _ hd (by decide) with ⟨-, hd'⟩ | ⟨rfl, -⟩
      · exact h.order e d he' hd'
      · exact heF
    · exact absurd rfl hne
  · obtain ⟨hnF, hcase⟩ := h.stored n hn
    refine ⟨hnF.trans_le hle, ?_⟩
    rcases hslots n hnF with heq | ⟨-, -, -, hlt⟩
    · rcases hcase with hvalid | hbelow
      · left
        show status c (dev.view mem) n = _
        rw [status, heq]
        exact hvalid
      · right
        intro d hd
        rcases hold d _ hd (by decide) with ⟨-, hd'⟩ | ⟨rfl, -⟩
        · exact hbelow d hd'
        · exact hnF
    · right
      intro d hd
      obtain ⟨fr, hfr, -⟩ := Option.map_eq_some_iff.mp hd
      exact hlt d fr hfr

lemma RunInv.advance (h : RunInv c s F) (hlt : s.next < F) :
    RunInv c { s with next := s.next + 1 } F :=
  ⟨h.ring, hlt, fun k hk => h.present k (Nat.le_of_succ_le hk), h.order, h.stored, h.deleted⟩

lemma RunInv.store (h : RunInv c s F) {n : ℕ} (hn : status c (dev.view s.mem) n = some .valid) :
    RunInv c { s with stored := n :: s.stored } F := by
  refine ⟨h.ring, h.next_le, h.present, h.order, fun k hk => ?_, h.deleted⟩
  rcases List.mem_cons.mp hk with rfl | hk
  · exact ⟨h.ring.lt_of_valid hn (by decide), Or.inl hn⟩
  · exact h.stored k hk

/-- The ends of a write. -/
lemma RunInv.wp_write (h : RunInv c s F) (data : List UInt8)
    (hlast : s.next / c.perBlock * c.perBlock + c.perBlock < 2 ^ 32) :
    Dev.wp (faults True True False) (writeCircularFragment dev c.toCircular s.next data)
      (fun _ mem => (∃ F', RunInv c { s with mem := mem } F' ∧ F ≤ F') ∧
        status c (dev.view mem) s.next = some .valid)
      (fun e mem => (∃ F', RunInv c { s with mem := mem } F' ∧ F ≤ F') ∧
        (e = .fragmentNotWriteable → s.next < F))
      (fun mem => ∃ F', RunInv c { s with mem := mem } F' ∧ F ≤ F') s.mem := by
  have hself : ∃ F', RunInv c { s with mem := s.mem } F' ∧ F ≤ F' := ⟨F, h, le_rfl⟩
  refine wp_writeCircularFragment h.ring.own hlast (fun fr hfr hst => ?_) (fun mem V hV hfresh hlen hv => ?_)
    (fun fr hfr hst e he => ⟨hself, fun _ => ?_⟩) (fun hnone hne => ⟨hself, fun _ => ?_⟩)
    (fun _ => ⟨hself, fun hc => by cases hc⟩) (fun _ mem heff => ⟨?_, fun hc => by cases hc⟩)
    (fun _ mem heff => ⟨?_, fun hc => by cases hc⟩) fun _ mem heff => ?_
  · rcases Nat.lt_or_ge s.next F with hlt | hge
    · exact absurd hst (h.ring.used _ fr hlt hfr)
    · exact h.ring.unused _ fr hge hfr
  · have heff : WriteEffect c (dev.view s.mem) s.next (Complete c data) (dev.view mem) := by
      rw [hv]
      exact .filled V _ hV hfresh ⟨rfl, hlen⟩
    refine ⟨h.effect (fun fr hfr => written_or_torn (Or.inl hfr)) heff hlast, ?_⟩
    rw [status, hv, slot_setSlot hfresh, if_pos rfl]
    rfl
  · rcases Nat.lt_or_ge s.next F with hlt | hge
    · exact hlt
    · rw [h.ring.unused _ fr hge hfr] at hst
      exact absurd (Frag.fresh_status _) hst
  · -- the block of a fragment that is not the first is there
    rcases Nat.eq_or_lt_of_le h.next_le with heq | hlt
    · rw [heq] at hne hnone
      exact absurd hnone (h.ring.current hne).slot
    · exact absurd hnone (h.present _ le_rfl hlt)
  · exact h.effect (fun fr hfr => Or.inr hfr) heff hlast
  · exact h.effect (fun fr hfr => Or.inr hfr) heff hlast
  · exact h.effect (fun fr hfr => written_or_torn hfr) heff hlast

lemma within_plan (mem : Mem) (plan : List Fate) :
    Device.Within (faults True True False) (⟨mem, plan, []⟩ : Device Mem Fate) := by
  refine ⟨fun fate _ => ?_, fun _ => rfl⟩
  cases fate <;> trivial

lemma RunInv.exec_write (h : RunInv c s F) (data : List UInt8)
    (plan : List Fate) (hlast : s.next / c.perBlock * c.perBlock + c.perBlock < 2 ^ 32) :
    ∃ F', RunInv c (s.exec c (.write data plan)) F' := by
  have hrun := h.wp_write data hlast ⟨s.mem, plan, []⟩ rfl (within_plan _ _)
  unfold RingWorld.exec
  simp only
  revert hrun
  cases (writeCircularFragment dev c.toCircular s.next data).run ⟨s.mem, plan, []⟩ with
  | ok _ d =>
    rintro ⟨-, ⟨F', hinv, -⟩, hvalid⟩
    have hlt : s.next < F' := hinv.ring.lt_of_valid hvalid (by decide)
    exact ⟨F', RunInv.advance (hinv.store hvalid) hlt⟩
  | err e d =>
    rintro ⟨-, ⟨F', hinv, hle⟩, hskip⟩
    refine ⟨F', ?_⟩
    by_cases he : e = .fragmentNotWriteable
    · simp only [if_pos he]
      exact hinv.advance ((hskip he).trans_le hle)
    · simp only [if_neg he]
      exact hinv
  | off d =>
    rintro ⟨F', hinv, -⟩
    refine ⟨F', ?_⟩
    by_cases hvalid : status c (dev.view d.mem) s.next = some .valid
    · simp only [if_pos hvalid]
      exact hinv.store hvalid
    · simp only [if_neg hvalid]
      exact hinv

/-! ### Deleting -/

/-- A fragment before all valid ones is not valid any more. -/
lemma RunInv.setSlot (h : RunInv c s F) {n : ℕ} {fr fr' : Frag} {mem : Mem}
    (hslot : c.slot (dev.view s.mem) n = some fr) (hst : fr.status = .valid)
    (hst' : fr'.status = .invalid ∨ fr'.status = .obsolete)
    (hfirst : ∀ k, status c (dev.view s.mem) k = some .valid → n ≤ k)
    (hv : dev.view mem = c.setSlot (dev.view s.mem) n fr') : RunInv c { s with mem := mem } F := by
  have hn : n < F := h.ring.lt_of_valid (by rw [status, hslot, Option.map_some, hst])
    (show FragmentStatus.valid ≠ .empty by decide)
  have hne : fr'.status ≠ .empty := by
    rcases hst' with hst' | hst' <;> rw [hst'] <;> decide
  have hstatus : ∀ k, status c (dev.view mem) k =
      if k = n then some fr'.status else status c (dev.view s.mem) k := by
    intro k
    rw [status, hv, slot_setSlot hslot]
    split
    · rfl
    · rfl
  have hvalid : ∀ d, status c (dev.view mem) d = some .valid →
      n < d ∧ status c (dev.view s.mem) d = some .valid := by
    intro d hd
    rw [hstatus] at hd
    split at hd
    · rcases hst' with hst' | hst' <;> rw [hst'] at hd <;> cases hd
    next hdn => exact ⟨lt_of_le_of_ne (hfirst d hd) (Ne.symm hdn), hd⟩
  refine ⟨?_, h.next_le, fun k hk hkF => ?_, fun e d he hd => ?_, fun k hk => ?_, h.deleted⟩
  · show RingInv c (dev.view mem) F
    rw [hv]
    exact h.ring.setSlot hn hslot hne
  · show c.slot (dev.view mem) k ≠ none
    rw [hv, slot_setSlot hslot]
    split
    · exact Option.some_ne_none fr'
    · exact h.present k hk hkF
  · obtain ⟨hnd, hd⟩ := hvalid d hd
    rw [hstatus] at he
    split at he
    next hen => exact hen ▸ hnd
    · exact h.order e d he hd
  · obtain ⟨hkF, hcase⟩ := h.stored k hk
    refine ⟨hkF, ?_⟩
    by_cases hkn : k = n
    · right
      intro d hd
      exact hkn ▸ (hvalid d hd).1
    · rcases hcase with hk' | hbelow
      · left
        show status c (dev.view mem) k = _
        rw [hstatus, if_neg hkn, hk']
      · right
        intro d hd
        exact hbelow d (hvalid d hd).2

lemma RunInv.exec_delete (h : RunInv c s F) {n : ℕ} (plan : List Fate)
    (hn : n < s.next ∨ status c (dev.view s.mem) n = some .valid)
    (hfirst : ∀ k, status c (dev.view s.mem) k = some .valid → n ≤ k) :
    RunInv c (s.exec c (.delete n plan)) F := by
  have hnF : n < F := by
    rcases hn with hn | hn
    · exact hn.trans_le h.next_le
    · exact h.ring.lt_of_valid hn (by decide)
  have hset : ∀ fr, c.slot (dev.view s.mem) n = some fr → fr.status = .valid → ∀ mem fr',
      (fr'.status = .invalid ∨ fr'.status = .obsolete) →
      dev.view mem = c.setSlot (dev.view s.mem) n fr' → RunInv c { s with mem := mem } F :=
    fun fr hfr hst mem fr' hst' hv => h.setSlot hfr hst hst' hfirst hv
  have hwp : Dev.wp (faults True True False) (deleteCircularFragment dev c.toCircular n)
      (fun _ mem => RunInv c { s with mem := mem } F) (fun _ mem => RunInv c { s with mem := mem } F)
      (fun mem => RunInv c { s with mem := mem } F) s.mem := by
    refine wp_deleteCircularFragment h.ring.own False.elim (fun fr hfr => h.ring.used n fr hnF hfr)
      (fun _ => ⟨h, h⟩) (fun fr hfr hst mem hv => hset fr hfr hst mem _ (Or.inr rfl) hv)
      (fun _ fr hfr hst mem hv => hset fr hfr hst mem _ (Or.inl rfl) hv)
      fun _ fr hfr hst mem hv => ?_
    rcases hv with hv | hv | hv
    · refine ⟨?_, h.next_le, ?_, ?_, ?_, h.deleted⟩
      · show RingInv c (dev.view mem) F
        rw [hv]
        exact h.ring
      · rw [hv]
        exact h.present
      · rw [hv]
        exact h.order
      · rw [hv]
        exact h.stored
    · exact hset fr hfr hst mem _ (Or.inl rfl) hv
    · exact hset fr hfr hst mem _ (Or.inr rfl) hv
  have hinv : RunInv c { s with
      mem := ((deleteCircularFragment dev c.toCircular n).run ⟨s.mem, plan, []⟩).dev.mem } F := by
    have hrun := hwp ⟨s.mem, plan, []⟩ rfl (within_plan _ _)
    revert hrun
    cases (deleteCircularFragment dev c.toCircular n).run ⟨s.mem, plan, []⟩ with
    | ok _ d => exact And.right
    | err e d => exact And.right
    | off d => exact id
  refine ⟨hinv.ring, hinv.next_le, hinv.present, hinv.order, hinv.stored, fun k hk => ?_⟩
  rcases List.mem_cons.mp hk with rfl | hk
  · exact hnF
  · exact h.deleted k hk

/-! ### The range -/

/-- `find_circular_range` on a device that works. -/
lemma RunInv.exists_range (h : RunInv c s F) (hm : 2 ≤ c.dataBlocks) : ∃ r,
    (findCircularRange dev c.toCircular).eval s.mem = .ok r s.mem ∧
      RangeSpec c (dev.view s.mem) F r := by
  have hwp : Dev.wp (faults False False False) (findCircularRange dev c.toCircular)
      (fun r mem => mem = s.mem ∧ RangeSpec c (dev.view s.mem) F r) (fun _ _ => False) (fun _ => False)
      s.mem := by
    refine wp_findCircularRange h.ring False.elim fun F' r _ hF' hspec => ⟨rfl, ?_⟩
    rcases hF' with rfl | ⟨hone, -⟩
    · exact hspec
    · omega
  obtain ⟨r, mem, heval, rfl, hspec⟩ := Dev.exists_eval hwp
  exact ⟨r, heval, hspec⟩

lemma RunInv.exec_restart (h : RunInv c s F) (hm : 2 ≤ c.dataBlocks) :
    RunInv c (s.exec c .restart) F := by
  obtain ⟨r, heval, hspec⟩ := h.exists_range hm
  simp only [RingWorld.exec, heval]
  exact ⟨h.ring, hspec.stop_le, fun k hk hkF => hspec.present h.ring hk hkF, h.order, h.stored, h.deleted⟩

lemma RunInv.recovered (h : RunInv c s F) {r : CircularRange}
    (hspec : RangeSpec c (dev.view s.mem) F r) : RangeRecovered c s r := by
  have hvalid : ∀ n, status c (dev.view s.mem) n = some .valid → r.start ≤ n ∧ n < r.stop := by
    intro n hn
    rcases hspec.bounds n hn with hbounds | ⟨e, hne, he⟩
    · exact hbounds
    · have := h.order e n he hn
      omega
  refine ⟨hvalid, ?_, fun hnone => ?_, fun n hn => ?_⟩
  · rintro ⟨n, hn⟩
    rcases hspec.first with ⟨heq, -⟩ | hstart
    · have := hvalid n hn
      omega
    · exact hstart
  · rcases hspec.first with ⟨heq, hF⟩ | hstart
    · refine ⟨heq, fun n hn => ?_⟩
      have := h.deleted n hn
      omega
    · exact absurd hstart (hnone _)
  · obtain ⟨hnF, hcase⟩ := h.stored n hn
    rcases hspec.last with heq | ⟨d, hd, hdv⟩
    · exact heq ▸ hnF
    · rcases hcase with hn | hbelow
      · exact (hvalid n hn).2
      · exact (hbelow d hdv).trans hd

end Steps

/-- The world before anything was written. -/
def RingWorld.start (mem : Mem) : RingWorld := ⟨mem, 0, [], []⟩

lemma runInv_start {c : RingBuffer dev} {mem : Mem}
    (hv : ∀ q, dev.view mem (c.chunkBlock q) = none) : RunInv c (.start mem) 0 := by
  have hring := ringInv_zero (c := c) hv
  refine ⟨hring, le_rfl, fun k _ hk => absurd hk (Nat.not_lt_zero k), fun e d he hd => ?_,
    fun n hn => absurd hn List.not_mem_nil, fun n hn => absurd hn List.not_mem_nil⟩
  exact absurd (hring.lt_of_valid hd (by decide)) (Nat.not_lt_zero d)

lemma exists_runInv {c : RingBuffer dev} {mem : Mem} {s : RingWorld} (hm : 2 ≤ c.dataBlocks)
    (hv : ∀ q, dev.view mem (c.chunkBlock q) = none)
    (h : Reach (RingWorld.exec c) (RingWorld.Allowed c) (.start mem) s) : ∃ F, RunInv c s F := by
  refine h.invariant (P := fun s => ∃ F, RunInv c s F) ⟨0, runInv_start hv⟩ fun s call hinv hallowed => ?_
  obtain ⟨F, hinv⟩ := hinv
  cases call with
  | write data plan => exact hinv.exec_write data plan hallowed
  | delete n plan => exact ⟨F, hinv.exec_delete plan hallowed.1 hallowed.2⟩
  | restart => exact ⟨F, hinv.exec_restart hm⟩

/-- **`find_circular_range` recovers what is stored**, after any run of a circular with at least two
data blocks. -/
theorem rangeRecovered_of_reach (c : RingBuffer dev) (hm : 2 ≤ c.dataBlocks) (mem : Mem)
    (hv : ∀ q, dev.view mem (c.chunkBlock q) = none) (s : RingWorld)
    (h : Reach (RingWorld.exec c) (RingWorld.Allowed c) (.start mem) s) :
    ∃ r, (findCircularRange dev c.toCircular).eval s.mem = .ok r s.mem ∧ RangeRecovered c s r := by
  obtain ⟨F, hinv⟩ := exists_runInv hm hv h
  obtain ⟨r, heval, hspec⟩ := hinv.exists_range hm
  exact ⟨r, heval, hinv.recovered hspec⟩

def ringDevice : BlockDevice := smallDevice

def sampleCircular : Circular where
  id := 1
  fragmentSize := 2
  blocksStart := 0
  blocksEnd := 3
  capacity := 12
  overwriteOnFull := false
  autoFormat := false

/-- A circular of two data blocks with three fragments of two bytes each. -/
def sampleRing : RingBuffer ringDevice :=
  { sampleCircular with
    id_lt := by decide
    fragmentSize_pos := by decide
    fragmentSize_lt := by decide
    two_blocks := by decide
    blocks_le := by decide
    fits := by decide }

/-- Two fragments, where power is lost in the second one, and a third one after the restart. -/
def sampleRun : List RingCall :=
  [.write [1] [], .write [2] [.ok, .offTorn], .restart, .write [3] [], .write [3] []]

/-- The run, and then the first fragment is deleted. -/
def sampleRingWorld : RingWorld :=
  (sampleRun.foldl (RingWorld.exec sampleRing) (.start fun _ => erased)).exec sampleRing (.delete 0 [])

theorem rangeRecovered_sample :
    Reach (RingWorld.exec sampleRing) (RingWorld.Allowed sampleRing) (.start fun _ => erased)
      sampleRingWorld ∧
    ∃ r, (findCircularRange ringDevice sampleRing.toCircular).eval sampleRingWorld.mem =
      .ok r sampleRingWorld.mem ∧ RangeRecovered sampleRing sampleRingWorld r := by
  have hrun : Reach.Guarded (RingWorld.exec sampleRing) (RingWorld.Allowed sampleRing)
      (.start fun _ => erased) sampleRun :=
    ⟨show _ < _ by decide +kernel, show _ < _ by decide +kernel, trivial,
      show _ < _ by decide +kernel, show _ < _ by decide +kernel, trivial⟩
  have hreach : Reach (RingWorld.exec sampleRing) (RingWorld.Allowed sampleRing) _ sampleRingWorld :=
    .step (RingCall.delete 0 []) (Reach.run sampleRun Reach.start hrun)
      ⟨Or.inl (by decide +kernel), fun k _ => Nat.zero_le k⟩
  exact ⟨hreach, rangeRecovered_of_reach sampleRing (by decide) _
    (fun q => congrFun (BlockDevice.view_erased _) _) _ hreach⟩

end SensorLink.Db
