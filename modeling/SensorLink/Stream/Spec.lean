import SensorLink.Db.Recovery
import SensorLink.Stream.Store

/-!
# What the operations of a stream do

On a circular that was written in order: `cleanup` deletes fragments below the frontier, `readItem`
returns the item of a valid fragment, and `enqueue` writes at the next sequence number.
-/

namespace SensorLink.Stream

open SensorLink.Lib SensorLink.Flash SensorLink.Db RingBuffer

variable {dev : BlockDevice} {c : RingBuffer dev} {V V' : ℕ → Option Block} {F : ℕ}

/-! ### Deleting what was confirmed -/

/-- From `V` to `V'` only valid fragments from `lo` up to `hi` have changed, and are not valid any
more. -/
def Cleaned (c : RingBuffer dev) (lo hi : ℕ) (V V' : ℕ → Option Block) : Prop :=
  ∀ n, c.slot V' n = c.slot V n ∨ lo ≤ n ∧ n < hi ∧ ∃ fr fr', c.slot V n = some fr ∧
    fr.status = .valid ∧ c.slot V' n = some fr' ∧ (fr'.status = .invalid ∨ fr'.status = .obsolete)

section Cleaned

variable {lo hi : ℕ}

lemma Cleaned.refl (V : ℕ → Option Block) : Cleaned c lo hi V V := fun _ => Or.inl rfl

lemma Cleaned.set (h : Cleaned c lo hi V V') {n : ℕ} {fr fr' : Frag} (hlo : lo ≤ n) (hhi : n < hi)
    (hslot : c.slot V' n = some fr) (hst : fr.status = .valid)
    (hst' : fr'.status = .invalid ∨ fr'.status = .obsolete) :
    Cleaned c lo hi V (c.setSlot V' n fr') := by
  intro k
  rw [slot_setSlot hslot]
  by_cases hk : k = n
  · right
    rw [if_pos hk, hk]
    refine ⟨hlo, hhi, ?_⟩
    rcases h n with heq | ⟨-, -, _, fr₁, -, -, hslot', hst₁⟩
    · exact ⟨fr, fr', heq ▸ hslot, hst, rfl, hst'⟩
    · rw [hslot] at hslot'
      obtain rfl := Option.some.inj hslot'
      rw [hst] at hst₁
      rcases hst₁ with hc | hc <;> cases hc
  · rw [if_neg hk]
    exact h k

/-- What is valid after the deletes was so before, and has not changed. -/
lemma Cleaned.of_valid (h : Cleaned c lo hi V V') {n : ℕ} (hn : status c V' n = some .valid) :
    c.slot V' n = c.slot V n := by
  rcases h n with heq | ⟨-, -, _, fr', -, -, hslot, hst⟩
  · exact heq
  · rw [status, hslot, Option.map_some, Option.some.injEq] at hn
    rw [hn] at hst
    rcases hst with hc | hc <;> cases hc

lemma Cleaned.of_not_mem (h : Cleaned c lo hi V V') {n : ℕ} (hn : n < lo ∨ hi ≤ n) :
    c.slot V' n = c.slot V n := by
  rcases h n with heq | ⟨h1, h2, -⟩
  · exact heq
  · omega

lemma Cleaned.ne_none (h : Cleaned c lo hi V V') {n : ℕ} (hn : c.slot V n ≠ none) :
    c.slot V' n ≠ none := by
  rcases h n with heq | ⟨-, -, _, fr', -, -, hslot, -⟩
  · rw [heq]
    exact hn
  · rw [hslot]
    exact Option.some_ne_none fr'

end Cleaned

section Wp

variable {errors cuts reads : Prop} {mem : Mem} {O : Mem → Prop}

/-- The deletes of a clean-up. -/
lemma wp_cleanup {Q : Unit → Mem → Prop} {E : Error → Mem → Prop} {lo hi : ℕ} (k oldest : ℕ)
    (h : RingInv c (dev.view mem) F) (hk : oldest + k = hi) (hhi : hi ≤ F) (hlo : lo ≤ oldest)
    (hclean : Cleaned c lo hi V (dev.view mem))
    (hdone : ∀ n, lo ≤ n → n < oldest → status c (dev.view mem) n ≠ some .valid)
    (hok : ∀ mem', RingInv c (dev.view mem') F → Cleaned c lo hi V (dev.view mem') →
      (∀ n, lo ≤ n → n < hi → status c (dev.view mem') n ≠ some .valid) → Q () mem')
    (herr : errors ∨ reads → ∀ mem', RingInv c (dev.view mem') F → Cleaned c lo hi V (dev.view mem') →
      E .flash mem')
    (hoff : cuts → ∀ mem', RingInv c (dev.view mem') F → Cleaned c lo hi V (dev.view mem') → O mem') :
    Dev.wp (faults errors cuts reads) (cleanup dev c.toCircular k oldest) Q E O mem := by
  induction k generalizing oldest mem with
  | zero =>
    obtain rfl : oldest = hi := hk
    exact Dev.wp_pure (hok mem h hclean hdone)
  | succ k ih =>
    have hold : oldest < F := by omega
    have hnext : wrappingAdd oldest 1 = oldest + 1 := by
      have := h.noWrap
      exact wrappingAdd_eq (by omega)
    -- the fragment is not valid any more
    have hstep : ∀ mem', RingInv c (dev.view mem') F → Cleaned c lo hi V (dev.view mem') →
        (∀ n, lo ≤ n → n < oldest + 1 → status c (dev.view mem') n ≠ some .valid) →
        Dev.wp (faults errors cuts reads) (cleanup dev c.toCircular k (wrappingAdd oldest 1)) Q E O
          mem' := by
      intro mem' h' hclean' hdone'
      rw [hnext]
      exact ih (oldest + 1) h' (by omega) (by omega) hclean' hdone'
    have hset : ∀ fr fr' mem', c.slot (dev.view mem) oldest = some fr → fr.status = .valid →
        (fr'.status = .invalid ∨ fr'.status = .obsolete) →
        dev.view mem' = c.setSlot (dev.view mem) oldest fr' →
        RingInv c (dev.view mem') F ∧ Cleaned c lo hi V (dev.view mem') := by
      intro fr fr' mem' hslot hst hst' hv
      rw [hv]
      refine ⟨h.setSlot hold hslot ?_, hclean.set hlo (by omega) hslot hst hst'⟩
      rcases hst' with hst' | hst' <;> rw [hst'] <;> decide
    refine Dev.wp_bind (Dev.wp_attempt (wp_deleteCircularFragment h.own
      (fun hreads => Dev.wp_throw (herr (Or.inr hreads) mem h hclean))
      (fun fr hfr => h.used oldest fr hold hfr) (fun hnot => ?_) (fun fr hfr hst mem' hv => ?_)
      (fun he fr hfr hst mem' hv => ?_) fun hcut fr hfr hst mem' hv => ?_))
    · have hgone : ∀ n, lo ≤ n → n < oldest + 1 → status c (dev.view mem) n ≠ some .valid := by
        intro n hn hlt
        rcases Nat.lt_succ_iff_lt_or_eq.mp hlt with hlt | rfl
        · exact hdone n hn hlt
        · intro hst
          obtain ⟨fr, hfr, hst⟩ := Option.map_eq_some_iff.mp hst
          exact hnot fr hfr hst
      exact ⟨hstep mem h hclean hgone, hstep mem h hclean hgone⟩
    · obtain ⟨h', hclean'⟩ := hset fr _ mem' hfr hst (Or.inr rfl) hv
      refine hstep mem' h' hclean' fun n hn hlt => ?_
      rw [status, hv, slot_setSlot hfr]
      by_cases hno : n = oldest
      · rw [if_pos hno]
        simp
      · rw [if_neg hno]
        exact hdone n hn (by omega)
    · obtain ⟨h', hclean'⟩ := hset fr _ mem' hfr hst (Or.inl rfl) hv
      exact Dev.wp_throw (herr (Or.inl he) mem' h' hclean')
    · rcases hv with hv | hv | hv
      · exact hoff hcut mem' (hv ▸ h) (hv ▸ hclean)
      · obtain ⟨h', hclean'⟩ := hset fr _ mem' hfr hst (Or.inl rfl) hv
        exact hoff hcut mem' h' hclean'
      · obtain ⟨h', hclean'⟩ := hset fr _ mem' hfr hst (Or.inr rfl) hv
        exact hoff hcut mem' h' hclean'

/-! ### Items -/

section Frame

variable {crc : List UInt8 → UInt32} {data : List UInt8}

lemma length_frame : (frame crc data).length = streamOverheadBytes + data.length := by
  simp [frame, streamOverheadBytes, Nat.add_assoc]

lemma take_frame (pad : List UInt8) : (frame crc data ++ pad).take streamOverheadBytes =
    leBytes lenOverheadBytes data.length ++ leBytes crcOverheadBytes (crc data).toNat := by
  unfold frame
  rw [List.append_assoc]
  exact List.take_left' (by simp [streamOverheadBytes])

lemma drop_frame (pad : List UInt8) :
    ((frame crc data ++ pad).drop streamOverheadBytes).take data.length = data := by
  unfold frame
  rw [List.append_assoc, List.drop_left' (by simp [streamOverheadBytes])]
  exact List.take_left' rfl

/-- An item that fits into a fragment. -/
def Fits (c : RingBuffer dev) (data : List UInt8) : Prop :=
  streamOverheadBytes + data.length ≤ c.fragmentSize

/-- The fragment of a sequence number holds the item. -/
def Holds (c : RingBuffer dev) (crc : List UInt8 → UInt32) (V : ℕ → Option Block) (n : ℕ)
    (data : List UInt8) : Prop :=
  c.slot V n = some (c.written (frame crc data)) ∧ Fits c data

lemma Holds.status {n : ℕ} (h : Holds c crc V n data) : status c V n = some .valid := by
  rw [Db.status, h.1]
  rfl

/-- The deletes leave items only. -/
lemma Cleaned.items (h : Cleaned c lo hi V V')
    (hitems : ∀ n, Db.status c V n = some .valid → ∃ data, Holds c crc V n data) {n : ℕ}
    (hn : Db.status c V' n = some .valid) : ∃ data, Holds c crc V' n data := by
  have heq := h.of_valid hn
  obtain ⟨data, hdata⟩ := hitems n (by rwa [Db.status, ← heq])
  exact ⟨data, heq.trans hdata.1, hdata.2⟩

/-- A fragment holds at most one item. -/
lemma Holds.inj {n : ℕ} {data' : List UInt8} (h : Holds c crc V n data) (h' : Holds c crc V n data') :
    data = data' := by
  have hlen : ∀ {d : List UInt8}, Fits c d → d.length < 256 ^ lenOverheadBytes := by
    intro d hd
    have h1 := c.fragmentSize_lt
    have h2 : d.length ≤ c.fragmentSize := (Nat.le_add_left _ _).trans hd
    unfold lenOverheadBytes
    omega
  have heq : (c.written (frame crc data)).data = (c.written (frame crc data')).data :=
    congrArg Frag.data (Option.some.inj (h.1.symm.trans h'.1))
  have hheader := congrArg (fun l => ofLeBytes ((l.take streamOverheadBytes).take lenOverheadBytes)) heq
  have hlength : data.length = data'.length := by
    simp only [Layout.written, take_frame, List.take_left' (length_leBytes _ _), ofLeBytes_leBytes,
      Nat.mod_eq_of_lt (hlen h.2), Nat.mod_eq_of_lt (hlen h'.2)] at hheader
    exact hheader
  have hdata := congrArg (fun l => (l.drop streamOverheadBytes).take data.length) heq
  simp only [Layout.written, drop_frame] at hdata
  rw [hlength, drop_frame] at hdata
  exact hdata

/-- The item of a sequence number that holds one, or the error for one that is not valid. -/
lemma wp_readItem {Q : Except Error (List UInt8) × HandleUse → Mem → Prop} {E : Empty → Mem → Prop}
    {n bufferLen : ℕ} (hown : c.Own (dev.view mem))
    (hitem : status c (dev.view mem) n = some .valid → ∃ data, Holds c crc (dev.view mem) n data)
    (hok : ∀ data, Holds c crc (dev.view mem) n data → data.length ≤ bufferLen →
      Q (.ok data, .keep) mem)
    (hlong : ∀ data, Holds c crc (dev.view mem) n data → bufferLen < data.length →
      Q (.error .bufferTooSmall, .confirm) mem)
    (hbad : status c (dev.view mem) n ≠ some .valid →
      ∀ e, e = .fragmentNotReadable ∨ e = .fragmentNotFound → Q (.error e, .confirm) mem)
    (hheader : reads → Q (.error .flash, .drop) mem) (hdata : reads → Q (.error .flash, .confirm) mem) :
    Dev.wp (faults errors cuts reads) (readItem dev c.toCircular crc n bufferLen) Q E O mem := by
  have hnot : (∀ fr, c.slot (dev.view mem) n = some fr → fr.status ≠ .valid) →
      Db.status c (dev.view mem) n ≠ some .valid := by
    intro hall hst
    obtain ⟨fr, hfr, hst⟩ := Option.map_eq_some_iff.mp hst
    exact hall fr hfr hst
  refine Dev.wp_bind (Dev.wp_attempt (wp_readCircularFragment hown (Nat.zero_le _)
    (fun hreads => Dev.wp_pure (hheader hreads)) (fun fr hfr hst => ?_) fun hall e he => ?_))
  · obtain ⟨data, hdata⟩ := hitem (by rw [Db.status, hfr, Option.map_some, hst])
    obtain ⟨hslot, hfits⟩ := hdata
    have hfr' := hslot
    rw [hfr, Option.some.injEq] at hfr'
    subst hfr'
    have hlen : data.length < 256 ^ lenOverheadBytes := by
      unfold lenOverheadBytes
      have := c.fragmentSize_lt
      have : data.length ≤ c.fragmentSize := (Nat.le_add_left _ _).trans hfits
      omega
    have hcrc : (crc data).toNat < 256 ^ crcOverheadBytes := (crc data).toNat_lt
    have hheader : ((c.written (frame crc data)).data.drop 0).take streamOverheadBytes =
        leBytes lenOverheadBytes data.length ++ leBytes crcOverheadBytes (crc data).toNat :=
      take_frame _
    have hfull : (leBytes lenOverheadBytes data.length ++
        leBytes crcOverheadBytes (crc data).toNat).length = streamOverheadBytes := by
      simp [streamOverheadBytes]
    simp only [hheader, hfull, Nat.sub_self, List.replicate_zero, List.append_nil]
    rw [List.take_left' (length_leBytes _ _), List.drop_left' (length_leBytes _ _), ofLeBytes_leBytes,
      ofLeBytes_leBytes, Nat.mod_eq_of_lt hlen, Nat.mod_eq_of_lt hcrc]
    by_cases hbuf : bufferLen < data.length
    · rw [if_pos hbuf]
      exact Dev.wp_pure (hlong data ⟨hslot, hfits⟩ hbuf)
    · rw [if_neg hbuf]
      refine Dev.wp_bind (Dev.wp_attempt (wp_readCircularFragment hown
        ((Nat.le_add_right _ _).trans hfits) (fun hreads => Dev.wp_pure (hdata hreads))
        (fun fr' hfr' hst' => ?_) fun hall => ?_))
      · rw [hslot, Option.some.injEq] at hfr'
        subst hfr'
        have hread : ((c.written (frame crc data)).data.drop streamOverheadBytes).take data.length =
            data := drop_frame _
        simp only [hread]
        rw [if_neg (by simp)]
        exact Dev.wp_pure (hok data ⟨hslot, hfits⟩ (by omega))
      · exact absurd hst (hall _ hslot)
  · have hq := hbad (hnot hall) e he
    rcases he with rfl | rfl
    · exact Dev.wp_pure hq
    · exact Dev.wp_pure hq

/-! ### Peeking -/

/-- The ends of a `peek_next` that leaves `V`, by the handle that the queue gave out: a failed delete,
no handle, the item, an item that is too long for the buffer, or a fragment that is not valid. -/
inductive PeekEnd (c : RingBuffer dev) (crc : List UInt8 → UInt32) (V : ℕ → Option Block)
    (bufferLen : ℕ) : Option ℕ → Peeked → Prop
  | failed (n : ℕ) : PeekEnd c crc V bufferLen (some n) ⟨.error .flash, .drop⟩
  | failedNone : PeekEnd c crc V bufferLen none ⟨.error .flash, .keep⟩
  | nothing : PeekEnd c crc V bufferLen none ⟨.ok none, .keep⟩
  | item (n : ℕ) (data : List UInt8) : Holds c crc V n data → data.length ≤ bufferLen →
    PeekEnd c crc V bufferLen (some n) ⟨.ok (some (data, n)), .keep⟩
  | long (n : ℕ) (data : List UInt8) : Holds c crc V n data → bufferLen < data.length →
    PeekEnd c crc V bufferLen (some n) ⟨.error .bufferTooSmall, .confirm⟩
  | bad (n : ℕ) (e : Error) : Db.status c V n ≠ some .valid →
    (e = .fragmentNotReadable ∨ e = .fragmentNotFound) →
    PeekEnd c crc V bufferLen (some n) ⟨.error e, .confirm⟩

/-- The queue after the handle was used. -/
def settled (queue : Peek.Queue maxPeeks) (handle : Option ℕ) (use : HandleUse) : Peek.Queue maxPeeks :=
  match handle with
  | none => queue
  | some n => use.settle queue n

lemma wp_peekInitialized {Q : StreamStore × Peeked → Mem → Prop} {E : Empty → Mem → Prop}
    {s : StreamStore} {bufferLen : ℕ} (h : RingInv c (dev.view mem) F)
    (hmono : s.queue.existingRange.1 ≤ s.queue.peekNext.2.existingRange.1)
    (hle : s.queue.peekNext.2.existingRange.1 ≤ F)
    (hitem : ∀ n, Db.status c (dev.view mem) n = some .valid →
      ∃ data, Holds c crc (dev.view mem) n data)
    (hok : ∀ mem' peeked, RingInv c (dev.view mem') F →
      Cleaned c s.queue.existingRange.1 s.queue.peekNext.2.existingRange.1 (dev.view mem)
        (dev.view mem') →
      (peeked.result ≠ .error .flash →
        ∀ n, s.queue.existingRange.1 ≤ n → n < s.queue.peekNext.2.existingRange.1 →
          Db.status c (dev.view mem') n ≠ some .valid) →
      (peeked.result = .error .flash → errors) →
      PeekEnd c crc (dev.view mem') bufferLen s.queue.peekNext.1.toOption peeked →
      Q (⟨settled s.queue.peekNext.2 s.queue.peekNext.1.toOption peeked.use, s.initDone⟩, peeked) mem')
    (hoff : cuts → ∀ mem', RingInv c (dev.view mem') F →
      Cleaned c s.queue.existingRange.1 s.queue.peekNext.2.existingRange.1 (dev.view mem)
        (dev.view mem') → O mem') :
    Dev.wp (faults errors cuts False) (peekInitialized dev c.toCircular crc s bufferLen) Q E O mem := by
  unfold peekInitialized
  rcases hpeek : s.queue.peekNext with ⟨peekResult, queue⟩
  rw [hpeek] at hmono hle hok hoff
  have hnoWrap := h.noWrap
  simp only at hmono hle hok hoff ⊢
  rw [wrappingSub_eq hmono (by omega)]
  refine Dev.wp_bind (Dev.wp_attempt (wp_cleanup _ _ h (Nat.add_sub_cancel' hmono) hle le_rfl
    (Cleaned.refl _) (fun n h1 h2 => absurd h2 (by omega)) (fun mem' h' hclean hdone => ?_)
    (fun he mem' h' hclean => ?_) hoff))
  · cases peekResult with
    | error e => exact Dev.wp_pure (hok mem' _ h' hclean (fun _ => hdone) (fun hc => by cases hc) .nothing)
    | ok n =>
      have hitem' : Db.status c (dev.view mem') n = some .valid →
          ∃ data, Holds c crc (dev.view mem') n data := by
        intro hst
        have heq := hclean.of_valid hst
        obtain ⟨data, hdata⟩ := hitem n (by rwa [Db.status, heq] at hst)
        exact ⟨data, heq.trans hdata.1, hdata.2⟩
      refine Dev.wp_bind (wp_readItem h'.own hitem' (fun data hdata hlen => ?_)
        (fun data hdata hlen => ?_) (fun hst e he => ?_) False.elim False.elim)
      · exact Dev.wp_pure (hok mem' _ h' hclean (fun _ => hdone) (fun hc => by cases hc)
          (.item n data hdata hlen))
      · exact Dev.wp_pure (hok mem' _ h' hclean (fun _ => hdone) (fun hc => by cases hc)
          (.long n data hdata hlen))
      · refine Dev.wp_pure (hok mem' _ h' hclean (fun _ => hdone) (fun hc => ?_) (.bad n e hst he))
        rcases he with rfl | rfl <;> cases hc
  · cases peekResult with
    | error e =>
      exact Dev.wp_pure (hok mem' _ h' hclean (fun hc => absurd rfl hc) (fun _ => he.resolve_right id)
        .failedNone)
    | ok n =>
      exact Dev.wp_pure (hok mem' _ h' hclean (fun hc => absurd rfl hc) (fun _ => he.resolve_right id)
        (.failed n))

/-! ### Enqueueing -/

lemma wp_enqueueInitialized {Q : StreamStore × Except Error ℕ → Mem → Prop} {E : Empty → Mem → Prop}
    {s : StreamStore} (h : RingInv c (dev.view mem) F) (hn : s.queue.writeIndex ≤ F)
    (hpresent : s.queue.writeIndex < F → c.slot (dev.view mem) s.queue.writeIndex ≠ none)
    (hlast : s.queue.writeIndex / c.perBlock * c.perBlock + c.perBlock < 2 ^ 32)
    (henqueue : ∃ i, s.queue.enqueue.1 = .ok i)
    (hok : s.queue.writeIndex = F → ∀ mem',
      WriteEffect c (dev.view mem) s.queue.writeIndex (Complete c (frame crc data))
        (dev.view mem') → Holds c crc (dev.view mem') s.queue.writeIndex data →
      Q (⟨s.queue.enqueue.2, s.initDone⟩, .ok s.queue.writeIndex) mem')
    (hskip : s.queue.writeIndex < F →
      Q (⟨s.queue.enqueue.2, s.initDone⟩, .error .fragmentNotWriteable) mem)
    (hsame : ∀ e, Q (s, .error e) mem)
    (hfail : errors ∨ reads ∨ c.fragmentSize < streamOverheadBytes → ∀ e mem',
      WriteEffect c (dev.view mem) s.queue.writeIndex Torn (dev.view mem') → Q (s, .error e) mem')
    (hoff : cuts → ∀ mem', WriteEffect c (dev.view mem) s.queue.writeIndex
      (fun fr => Complete c (frame crc data) fr ∨ Torn fr) (dev.view mem') → O mem') :
    Dev.wp (faults errors cuts reads) (enqueueInitialized dev c.toCircular crc s data) Q E O mem := by
  unfold enqueueInitialized Peek.Queue.writableSeqNo
  simp only
  split
  · exact Dev.wp_pure (hsame _)
  split
  · exact Dev.wp_pure (hsame _)
  next hlen _ =>
    refine Dev.wp_bind (Dev.wp_attempt (wp_writeCircularFragment h.own hlast (fun fr hfr hst => ?_)
      (fun mem' V₁ hV hfresh hlen hv => ?_) (fun fr hfr hst e he => ?_) (fun hnone hne => ?_)
      (fun _ => Dev.wp_pure (hsame _)) (fun hlong mem' heff => ?_)
      (fun he mem' heff => Dev.wp_pure (hfail (he.imp_right Or.inl) _ mem' heff)) hoff))
    · rcases Nat.lt_or_ge s.queue.writeIndex F with hlt | hge
      · exact absurd hst (h.used _ fr hlt hfr)
      · exact h.unused _ fr hge hfr
    · have heff : WriteEffect c (dev.view mem) s.queue.writeIndex (Complete c (frame crc data))
          (dev.view mem') := by
        rw [hv]
        exact .filled V₁ _ hV hfresh ⟨rfl, hlen⟩
      have hholds : Holds c crc (dev.view mem') s.queue.writeIndex data := by
        refine ⟨?_, ?_⟩
        · rw [hv, slot_setSlot hfresh, if_pos rfl]
        · rw [length_frame] at hlen
          exact hlen
      have hF : s.queue.writeIndex = F := by
        rcases Nat.eq_or_lt_of_le hn with heq | hlt
        · exact heq
        · rcases hV with rfl | ⟨hneeds, -⟩
          · exact absurd (Frag.fresh_status _) (h.used _ _ hlt hfresh)
          · exact absurd hneeds.missing (hpresent hlt)
      obtain ⟨i, hi⟩ := henqueue
      have hq := hok hF mem' heff hholds
      revert hi hq
      rcases s.queue.enqueue with ⟨r, queue⟩
      intro hi hq
      simp only at hi hq ⊢
      subst hi
      exact Dev.wp_pure hq
    · have hlt : s.queue.writeIndex < F := by
        rcases Nat.lt_or_ge s.queue.writeIndex F with hlt | hge
        · exact hlt
        · rw [h.unused _ fr hge hfr] at hst
          exact absurd (Frag.fresh_status _) hst
      rcases he with rfl | rfl
      · exact Dev.wp_pure (hskip hlt)
      · exact Dev.wp_pure (hsame _)
    · -- the block of a fragment that is not the first is there
      rcases Nat.eq_or_lt_of_le hn with heq | hlt
      · rw [heq] at hne hnone
        exact absurd hnone (h.current hne).slot
      · exact absurd hnone (hpresent hlt)
    · refine Dev.wp_pure (hfail (Or.inr (Or.inr ?_)) _ mem' heff)
      rw [length_frame] at hlong
      omega

end Frame

end Wp

end SensorLink.Stream
