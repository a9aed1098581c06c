import SensorLink.Db.FileVersions
import SensorLink.Db.Region

/-!
# What is written to a file is read back

Other objects share the flash with the file. As long as the file was rewritten less than 100 times, no
version comes back, so `write_file` finds all fragments blank. It leaves the contents, filled up with
erased bytes to the end of the last fragment, and `read_file` returns as much of them as fits into the
buffer. Only the empty contents cannot be read back: `read_file` reports a file that is not readable.
-/

namespace SensorLink.Db

open SensorLink.Lib SensorLink.Flash

/-! ### Other objects -/

section Others

variable {dev : BlockDevice}

/-- The calls to other objects that change the flash. -/
inductive OtherCall (dev : BlockDevice)
  | delete (o : Layout dev)
  | writeFile (o : Layout dev) (bytes : List UInt8)
  | writeFileFragment (o : Layout dev) (version fragmentIndex : ℕ) (bytes : List UInt8)
  | writeCircularFragment (c : RingBuffer dev) (fragNo : ℕ) (bytes : List UInt8)
  | deleteCircularFragment (c : RingBuffer dev) (fragNo : ℕ)

namespace OtherCall

def layout : OtherCall dev → Layout dev
  | delete o => o
  | writeFile o _ => o
  | writeFileFragment o _ _ _ => o
  | writeCircularFragment c _ _ => c.toLayout
  | deleteCircularFragment c _ => c.toLayout

def program : OtherCall dev → Io Error Unit
  | delete o => do
    let _ ← Db.delete dev o.toObject
  | writeFile o bytes => Db.writeFile dev o.toObject bytes
  | writeFileFragment o version i bytes => Db.writeFileFragment dev o.toObject version i bytes
  | writeCircularFragment c n bytes => Db.writeCircularFragment dev c.toCircular n bytes
  | deleteCircularFragment c n => Db.deleteCircularFragment dev c.toCircular n

lemma touches_program (call : OtherCall dev) : TouchesOnly call.layout.region call.program := by
  cases call with
  | delete o =>
    apply Touches.bind (touches_delete o)
    intro _ _
    exact .pure trivial
  | writeFile o bytes => exact touches_writeFile o bytes
  | writeFileFragment o version i bytes => exact touches_writeFileFragment o version i bytes
  | writeCircularFragment c n bytes => exact touches_writeCircularFragment c n bytes
  | deleteCircularFragment c n => exact touches_deleteCircularFragment c n

end OtherCall

/-- All reads of a file return the same. -/
structure SameFile (o : Layout dev) (mem mem' : Mem) : Prop where
  handle : returned (fileHandle dev o.toObject) mem' = returned (fileHandle dev o.toObject) mem
  fragment : ∀ version i len, returned (readFileFragment dev o.toObject version i len) mem' =
    returned (readFileFragment dev o.toObject version i len) mem
  file : ∀ len, returned (readFile dev o.toObject len) mem' = returned (readFile dev o.toObject len) mem

/-- All reads of a circular return the same. -/
structure SameCircular (c : RingBuffer dev) (mem mem' : Mem) : Prop where
  range : returned (findCircularRange dev c.toCircular) mem' =
    returned (findCircularRange dev c.toCircular) mem
  fragment : ∀ n len offset,
    returned (readCircularFragmentAtOffset dev c.toCircular n len offset) mem' =
      returned (readCircularFragmentAtOffset dev c.toCircular n len offset) mem

variable {mem mem' : Mem}

lemma sameFile {o : Layout dev} (h : ∀ a ∈ o.region, mem' a = mem a) : SameFile o mem mem' :=
  ⟨returned_congr (touches_fileHandle o) h,
    fun version i len => returned_congr (touches_readFileFragment o version i len) h,
    fun len => returned_congr (touches_readFile o len) h⟩

lemma sameCircular {c : RingBuffer dev} (h : ∀ a ∈ c.toLayout.region, mem' a = mem a) :
    SameCircular c mem mem' :=
  ⟨returned_congr (touches_findCircularRange c) h,
    fun n len offset => returned_congr (touches_readCircularFragmentAtOffset c n len offset) h⟩

end Others

/-! ### Runs -/

section Runs

variable {dev : BlockDevice} {f : File dev} {s : FileWorld}

/-- A call to the file or to another object. -/
inductive SharedCall (dev : BlockDevice)
  | own (call : FileCall)
  | other (call : OtherCall dev)

namespace SharedCall

def exec (f : File dev) (s : FileWorld) : SharedCall dev → FileWorld
  | own call => s.exec f call
  | other call => { s with mem := (call.program.eval s.mem).dev }

/-- The blocks of other objects are others. -/
def Allowed (f : File dev) (_ : FileWorld) : SharedCall dev → Prop
  | own _ => True
  | other call => f.toLayout.Disjoint call.layout

end SharedCall

/-- `FileInv`, and the blocks were formatted with handles that were given out. -/
structure SharedInv (f : File dev) (s : FileWorld) : Prop extends FileInv f s where
  past : ∀ b n, s.formatter b = some n → n < s.handles.length

lemma apart_of_lt (h : SharedInv f s) (hlt : s.handles.length < 100) : s.Apart f := by
  intro b n _ _ hn
  have := h.past b n hn
  omega

/-- Only the blocks of the file count. -/
lemma FileInv.of_views (h : FileInv f s) {mem : Mem}
    (hv : ∀ b, f.blocksStart ≤ b → b < f.blocksEnd → dev.view mem b = dev.view s.mem b) :
    FileInv f { s with mem := mem } := by
  have hend := spare_lt_end f.toLayout
  have hdata : ∀ b, f.blocksStart ≤ b → b < f.spareBlock → dev.view mem b = dev.view s.mem b := by
    intro b h1 h2
    exact hv b h1 (h2.trans hend)
  have hspare := hv f.spareBlock f.start_lt_spare.le hend
  refine ⟨⟨h.handles, ?_, ?_⟩, ?_, ?_, ?_⟩
  · intro hnil b h1 h2
    rw [hv b h1 (h2.trans_lt hend)]
    exact h.erased hnil b h1 h2
  · intro hne
    rw [hspare]
    exact h.spare hne
  · intro b block h1 h2 hb
    rw [hdata b h1 h2] at hb
    exact h.tidy b block h1 h2 hb
  · intro b block h1 h2 hb
    rw [hdata b h1 h2] at hb
    exact h.formatted b block h1 h2 hb
  · intro i hi hnot block hb
    rw [hdata _ (Nat.le_add_right _ _) (f.block_lt hi)] at hb
    exact h.blank i hi hnot block hb

lemma exec_too_long {bytes : List UInt8} (hlen : f.capacity < bytes.length) :
    s.exec f (.writeFile bytes) = s := by
  have heval : (Db.writeFile dev f.toObject bytes).eval s.mem = .err .noSpaceAvailable s.mem := by
    unfold Db.writeFile
    rw [if_pos hlen]
    rfl
  simp only [FileWorld.exec, heval, Outcome.dev]

lemma exec_fragment (f : File dev) (s : FileWorld) (handle i : ℕ) (bytes : List UInt8) :
    (s.exec f (.writeFileFragment handle i bytes)).handles = s.handles ∧
      ∀ b n, (s.exec f (.writeFileFragment handle i bytes)).formatter b = some n →
        s.formatter b = some n ∨ n < s.handles.length := by
  have hformatter : ∀ (version : ℕ), handle < s.handles.length → ∀ b n,
      (if formats f s.mem version i bytes then Function.update s.formatter (f.blockOf i) (some handle)
        else s.formatter) b = some n → s.formatter b = some n ∨ n < s.handles.length := by
    intro version hlt b n hn
    split at hn
    · by_cases hb : b = f.blockOf i
      · rw [hb, Function.update_self] at hn
        obtain rfl := Option.some.inj hn
        exact Or.inr hlt
      · rw [Function.update_of_ne hb] at hn
        exact Or.inl hn
    · exact Or.inl hn
  unfold FileWorld.exec
  dsimp only
  split
  · exact ⟨rfl, fun b n hn => Or.inl hn⟩
  next version hget =>
    have hlt : handle < s.handles.length := (List.getElem?_eq_some_iff.mp hget).1
    split
    · exact ⟨rfl, hformatter version hlt⟩
    · exact ⟨rfl, hformatter version hlt⟩

/-- A call without a handle of the file does nothing. -/
lemma exec_no_handle {handle i : ℕ} {bytes : List UInt8} (h : s.handles.length ≤ handle) :
    s.exec f (.writeFileFragment handle i bytes) = s := by
  unfold FileWorld.exec
  dsimp only
  rw [List.getElem?_eq_none h]

lemma shared_own (h : SharedInv f s) (ha : s.Apart f) (call : FileCall) :
    SharedInv f (s.exec f call) := by
  cases call with
  | delete =>
    refine ⟨inv_delete h.toFileInv ha, ?_⟩
    obtain ⟨mem, hexec, -⟩ := exec_delete h.toSpareInv
    rw [hexec]
    intro b n hn
    dsimp only at hn ⊢
    rw [List.length_append, List.length_singleton]
    by_cases hb : b = f.blocksStart
    · rw [hb, Function.update_self] at hn
      obtain rfl := Option.some.inj hn
      omega
    · rw [Function.update_of_ne hb] at hn
      have := h.past b n hn
      omega
  | writeFile bytes =>
    rcases Nat.lt_or_ge f.capacity bytes.length with hlong | hlen
    · rw [exec_too_long hlong]
      exact h
    · refine ⟨inv_writeFile h.toFileInv ha hlen, ?_⟩
      obtain ⟨mem, hexec, -⟩ := exec_writeFile h.toFileInv ha hlen
      rw [hexec]
      intro b n hn
      dsimp only at hn ⊢
      rw [List.length_append, List.length_singleton]
      split at hn
      · obtain rfl := Option.some.inj hn
        omega
      · have := h.past b n hn
        omega
  | writeFileFragment handle i bytes =>
    rcases Nat.lt_or_ge handle s.handles.length with hlt | hge
    · refine ⟨inv_writeFileFragment h.toFileInv hlt, ?_⟩
      obtain ⟨hhandles, hformatter⟩ := exec_fragment f s handle i bytes
      intro b n hn
      rw [hhandles]
      rcases hformatter b n hn with hold | hnew
      · exact h.past b n hold
      · exact hnew
    · rw [exec_no_handle hge]
      exact h

lemma shared_exec (h : SharedInv f s) (ha : s.Apart f) (call : SharedCall dev)
    (hallowed : call.Allowed f s) : SharedInv f (call.exec f s) := by
  cases call with
  | own call => exact shared_own h ha call
  | other call =>
    refine ⟨h.toFileInv.of_views ?_, h.past⟩
    intro b h1 h2
    exact Layout.view_of_disjoint hallowed.symm call.touches_program h1 h2

lemma handles_le (s : FileWorld) (call : SharedCall dev) :
    s.handles.length ≤ (call.exec f s).handles.length := by
  cases call with
  | other call => exact le_rfl
  | own call =>
    cases call with
    | writeFileFragment handle i bytes => exact (congrArg List.length (exec_fragment f s handle i bytes).1).ge
    | delete =>
      simp only [SharedCall.exec, FileWorld.exec]
      split
      · simp
      · exact le_rfl
    | writeFile bytes =>
      simp only [SharedCall.exec, FileWorld.exec]
      split
      · simp
      · exact le_rfl

lemma sharedInv_start (f : File dev) : SharedInv f FileWorld.start :=
  ⟨inv_start f, fun _ _ hn => by cases hn⟩

/-- The handles are not more than 100 in any state before. -/
theorem sharedInv_of_reach
    (h : Reach (fun s call => SharedCall.exec f s call) (SharedCall.Allowed f) FileWorld.start s)
    (hlt : s.handles.length < 100) : SharedInv f s := by
  induction h with
  | start => exact sharedInv_start f
  | @step s call hs hallowed ih =>
    have hlt' : s.handles.length < 100 := (handles_le s call).trans_lt hlt
    exact shared_exec (ih hlt') (apart_of_lt (ih hlt') hlt') call hallowed

/-- What follows when the contents were written to the file. -/
structure RoundTrip (f : File dev) (mem mem' : Mem) (bytes : List UInt8) : Prop where
  read : bytes ≠ [] → ∀ len, returned (readFile dev f.toObject len) mem' =
    some (.ok ((f.padded bytes).take (min len f.capacity)))
  empty : bytes = [] → ∀ len, returned (readFile dev f.toObject len) mem' =
    some (if min len f.capacity = 0 then .ok [] else .error .fileNotReadable)
  files : ∀ o : Layout dev, f.toLayout.Disjoint o → SameFile o mem mem'
  circulars : ∀ c : RingBuffer dev, f.toLayout.Disjoint c.toLayout → SameCircular c mem mem'

lemma returned_readFile {mem : Mem} {bytes : List UInt8} (h : FileInv f s) (ha : s.Apart f)
    (hlen : bytes.length ≤ f.capacity) (hv : dev.view mem = doneV (dev.view s.mem) f bytes) (len : ℕ) :
    returned (readFile dev f.toObject len) mem = some (readsBack f bytes len) := by
  have hback : returned (readFile dev f.toObject len) mem = readBack f mem len := by
    unfold returned readBack
    cases (readFile dev f.toObject len).eval mem <;> rfl
  rw [hback, readBack_eq, readFileV_doneV (noClash_of_apart h ha) hlen hv]

/-- **The round trip**, from every state in which the file was rewritten less than 100 times. -/
theorem roundTrip_of_reach (f : File dev) (s : FileWorld)
    (h : Reach (fun s call => SharedCall.exec f s call) (SharedCall.Allowed f) FileWorld.start s)
    (hlt : s.handles.length < 100) (bytes : List UInt8) (hlen : bytes.length ≤ f.capacity) :
    ∃ mem', (writeFile dev f.toObject bytes).eval s.mem = .ok () mem' ∧ RoundTrip f s.mem mem' bytes := by
  have hinv := sharedInv_of_reach h hlt
  have ha := apart_of_lt hinv hlt
  obtain ⟨mem', heval, hv⟩ := exists_writeFile hinv.toFileInv ha hlen
  have hread := returned_readFile hinv.toFileInv ha hlen hv
  have hother : ∀ o : Layout dev, f.toLayout.Disjoint o → ∀ a ∈ o.region, mem' a = s.mem a := by
    intro o hdisj a ha
    have hmem := Layout.mem_of_disjoint hdisj (touches_writeFile f.toLayout bytes) s.mem a ha
    rw [heval] at hmem
    exact hmem
  refine ⟨mem', heval, ?_, ?_, ?_, ?_⟩
  · intro hne len
    rw [hread, readsBack, if_neg fun hc => hne hc.1]
  · intro hempty len
    rw [hread, readsBack, hempty, f.padded_nil, List.take_nil]
    rcases Nat.eq_zero_or_pos (min len f.capacity) with hzero | hpos
    · rw [if_neg (by omega), if_pos hzero]
    · rw [if_pos ⟨rfl, hpos⟩, if_neg hpos.ne']
  · intro o hdisj
    exact sameFile (hother o hdisj)
  · intro c hdisj
    exact sameCircular (hother c.toLayout hdisj)

end Runs

theorem roundTrip_sample :
    Reach (fun s call => SharedCall.exec sampleFile s call) (SharedCall.Allowed sampleFile)
        FileWorld.start (FileWorld.start.exec sampleFile .delete) ∧
      (FileWorld.start.exec sampleFile .delete).handles.length < 100 ∧
      [1, 2, 3].length ≤ sampleFile.capacity ∧
      ∃ mem', (writeFile sampleDevice sampleFile.toObject [1, 2, 3]).eval
        (FileWorld.start.exec sampleFile .delete).mem = .ok () mem' ∧
        RoundTrip sampleFile (FileWorld.start.exec sampleFile .delete).mem mem' [1, 2, 3] := by
  have hreach : Reach (fun s call => SharedCall.exec sampleFile s call) (SharedCall.Allowed sampleFile)
      FileWorld.start (FileWorld.start.exec sampleFile .delete) :=
    .step (SharedCall.own .delete) .start trivial
  have hhandles : (FileWorld.start.exec sampleFile .delete).handles.length < 100 := by decide +kernel
  have hlen : [1, 2, 3].length ≤ sampleFile.capacity := by decide
  exact ⟨hreach, hhandles, hlen, roundTrip_of_reach sampleFile _ hreach hhandles [1, 2, 3] hlen⟩

/-- **The empty file is not read back**: after writing it, a read of one byte fails. -/
theorem empty_not_read_back : ¬ ∀ s,
    Reach (fun s call => SharedCall.exec sampleFile s call) (SharedCall.Allowed sampleFile)
      FileWorld.start s → s.handles.length < 100 → ∀ bytes : List UInt8,
      bytes.length ≤ sampleFile.capacity → ∀ mem',
      (writeFile sampleDevice sampleFile.toObject bytes).eval s.mem = .ok () mem' → ∀ len,
        ∃ r, returned (readFile sampleDevice sampleFile.toObject len) mem' = some (.ok r) := by
  intro h
  have hzero : FileWorld.start.handles.length < 100 := by decide
  have hlen : ([] : List UInt8).length ≤ sampleFile.capacity := Nat.zero_le _
  obtain ⟨mem', heval, hv⟩ := exists_writeFile (inv_start sampleFile) apart_start hlen
  obtain ⟨r, hr⟩ := h FileWorld.start .start hzero [] hlen mem' heval 1
  rw [returned_readFile (inv_start sampleFile) apart_start hlen hv] at hr
  cases hr

end SensorLink.Db
