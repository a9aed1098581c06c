import Mathlib.Data.List.SplitLengths
import Mathlib.Data.List.TakeWhile
import SensorLink.Firmware.Validator

/-!
# Feeding an image in slices

When the header is complete, `update` restarts the byte counter with the bytes that the last slice
gave to the header. The counter is the length of the header only if that slice held all of it; else
the announced length is compared with a wrong count and the authenticated fields are not hashed. And
as long as the counter is exactly the length of the header, each call hashes the authenticated fields
again. `SplitOk` are the slice lengths that avoid both; `Received` is the invariant they keep: the
validator has the state that the image so far leads to in one call.
-/

set_option linter.unusedSectionVars false

namespace SensorLink.Firmware

open SensorLink.Lib

/-- The lengths of the slices give the outcome of the unsplit image: the image ends in the header; or it
ends with the header, and no empty slice follows; or it is longer, its first non-empty slice has the
whole header, and no empty slice follows directly on the header. -/
def SplitOk (headerSize : ℕ) (lengths : List ℕ) : Prop :=
  lengths.sum < headerSize ∨
  (lengths.sum = headerSize ∧ lengths.getLast? ≠ some 0) ∨
  (headerSize < lengths.sum ∧ ∃ empty first rest, lengths = empty ++ first :: rest ∧
    (∀ n ∈ empty, n = 0) ∧ headerSize ≤ first ∧ (first = headerSize → rest.head? ≠ some 0))

namespace Validator

section Received

variable {C : Crypto} {D H : Type} [ApplicationHeader C D H]

/-- The state after an image longer than its header. -/
def imageState (image : List UInt8) : ValidatorState H :=
  match ApplicationHeader.tryFromBytes (H := H) (image.take (ApplicationHeader.binarySize H)) with
  | .error error => .fail error
  | .ok metadata =>
    match (ApplicationHeader.security metadata).length? with
    | none => .complete metadata (Hasher.new.hash C)
    | some length =>
      if length < ApplicationHeader.binarySize H then .fail .invalidLength
      else
        let hasher := (Hasher.new.update (authFields metadata)).update
          ((image.take length).drop (ApplicationHeader.binarySize H))
        if length ≤ image.length then .complete metadata (hasher.hash C)
        else .needMoreData metadata hasher

/-- The validator has received `image`, as if in one call. -/
structure Received (image : List UInt8) (v : Validator C D H) : Prop where
  init : image.length < ApplicationHeader.binarySize H → ∃ buffer, v.state = .init buffer ∧
    buffer.length = ApplicationHeader.binarySize H ∧ buffer.take image.length = image ∧
    v.nBytes = image.length
  header : image.length = ApplicationHeader.binarySize H →
    v.state = parsed image ∧ v.nBytes = image.length
  image : ApplicationHeader.binarySize H < image.length → v.state = imageState image ∧
    ∀ metadata hasher, v.state = .needMoreData metadata hasher → v.nBytes = image.length

variable {v w : Validator C D H} {image slice : List UInt8} {slices : List (List UInt8)}

lemma received_new (signingKey : C.PubKey) (minSecurity : SecurityLevel) (deviceType : D) :
    Received [] (new signingKey minSecurity deviceType : Validator C D H) := by
  have hpos := ApplicationHeader.binarySize_pos (C := C) (D := D) (H := H)
  refine ⟨fun _ => ⟨_, rfl, List.length_replicate, rfl, rfl⟩, fun h => ?_, fun h => ?_⟩
  · simp only [List.length_nil] at h
    omega
  · simp only [List.length_nil] at h
    omega

/-- Two validators that have received the same image agree. -/
lemma Received.outcome_eq [DecidableEq D] (hv : Received image v) (hw : Received image w)
    (hset : v.settings = w.settings) : v.outcome = w.outcome := by
  rcases lt_trichotomy image.length (ApplicationHeader.binarySize H) with hlt | heq | hgt
  · obtain ⟨b, hb, -⟩ := hv.init hlt
    obtain ⟨b', hb', -⟩ := hw.init hlt
    simp only [outcome, verify, validateUpdate, dataHash, hb, hb']
  · exact outcome_congr hset ((hv.header heq).1.trans (hw.header heq).1.symm)
  · exact outcome_congr hset ((hv.image hgt).1.trans (hw.image hgt).1.symm)

lemma Received.short (h : Received image v) (slice : List UInt8)
    (hlen : (image ++ slice).length < ApplicationHeader.binarySize H) :
    Received (image ++ slice) (v.update slice).1 := by
  rw [List.length_append] at hlen
  obtain ⟨buffer, hs, hsize, htake, hn⟩ := h.init (by omega)
  rw [update_init_short hs (by omega)]
  refine ⟨fun _ => ⟨_, rfl, ?_, ?_, ?_⟩, fun h => ?_, fun h => ?_⟩
  · rw [length_copyInto (by omega), hsize]
  · rw [List.length_append, ← hn, take_copyInto (by omega), hn, htake]
  · rw [List.length_append]
    exact congrArg (· + slice.length) hn
  · rw [List.length_append] at h
    omega
  · rw [List.length_append] at h
    omega

/-- The slice that completes the header of a validator with `image` in its buffer. -/
lemma Received.complete (h : Received image v) (slice : List UInt8)
    (hlt : image.length < ApplicationHeader.binarySize H)
    (hle : ApplicationHeader.binarySize H ≤ (image ++ slice).length) :
    (v.update slice).1 =
      let n := ApplicationHeader.binarySize H - image.length
      let v' := v.withHeader ((image ++ slice).take (ApplicationHeader.binarySize H)) n
      if slice.drop n = [] then v' else (v'.update (slice.drop n)).1 := by
  rw [List.length_append] at hle
  obtain ⟨buffer, hs, hsize, htake, hn⟩ := h.init hlt
  set n := ApplicationHeader.binarySize H - image.length with hndef
  have hcopy : copyInto buffer v.nBytes (slice.take n) =
      (image ++ slice).take (ApplicationHeader.binarySize H) := by
    have hlen : (slice.take n).length = n := by
      rw [List.length_take]
      omega
    rw [copyInto, hn, htake, hlen, List.drop_of_length_le (by omega), List.append_nil,
      List.take_append, List.take_of_length_le hlt.le]
  rw [update_init_full hs (by omega) (by omega), hn]
  dsimp only
  rw [apply_ite Prod.fst]
  simp only [← hndef, ← hcopy, hn]

/-- As long as data is missing, the hasher has the authenticated fields and the data, or will have
them with the next slice. -/
lemma Received.pending (h : Received image v) (hle : ApplicationHeader.binarySize H ≤ image.length)
    {metadata : H} {length : ℕ}
    (hok : ApplicationHeader.tryFromBytes (image.take (ApplicationHeader.binarySize H)) = .ok metadata)
    (hlen : (ApplicationHeader.security metadata).length? = some length)
    (hN : ApplicationHeader.binarySize H ≤ length)
    (hpend : image.length = ApplicationHeader.binarySize H ∨ image.length < length) :
    v.nBytes = image.length ∧ ∃ hasher, v.state = .needMoreData metadata hasher ∧
      ∀ taken, v.hashed metadata hasher taken =
        ⟨authFields metadata ++ (image.drop (ApplicationHeader.binarySize H) ++ taken)⟩ := by
  rcases hle.lt_or_eq with hlt | heq
  · obtain ⟨hs, hn⟩ := h.image hlt
    simp only [imageState, hok, hlen, if_neg (Nat.not_lt.mpr hN),
      if_neg (show ¬ length ≤ image.length by omega)] at hs
    refine ⟨hn _ _ hs, _, hs, fun taken => ?_⟩
    rw [hashed, if_neg (by rw [hn _ _ hs]; omega), List.take_of_length_le (by omega)]
    simp [Hasher.update, Hasher.new]
  · obtain ⟨hs, hn⟩ := h.header heq.symm
    rw [parsed, ← List.take_length (l := image), ← heq, hok] at hs
    refine ⟨hn, _, hs, fun taken => ?_⟩
    rw [hashed, if_pos (by omega), List.drop_of_length_le heq.ge]
    simp [Hasher.update, Hasher.new]

/-- A slice behind the header. Directly behind it the slice must not be empty: the counter would stay
where the authenticated fields are hashed. -/
lemma Received.data (h : Received image v) (slice : List UInt8)
    (hle : ApplicationHeader.binarySize H ≤ image.length)
    (hne : image.length = ApplicationHeader.binarySize H → slice ≠ []) :
    Received (image ++ slice) (v.update slice).1 := by
  have hlt : ApplicationHeader.binarySize H < (image ++ slice).length := by
    rw [List.length_append]
    rcases hle.lt_or_eq with hlt | heq
    · omega
    · have := List.length_pos_iff.mpr (hne heq.symm)
      omega
  suffices hgoal : (v.update slice).1.state = imageState (image ++ slice) ∧
      ∀ metadata hasher, (v.update slice).1.state = .needMoreData metadata hasher →
        (v.update slice).1.nBytes = (image ++ slice).length from
    ⟨fun h => by omega, fun h => by omega, fun _ => hgoal⟩
  have htake : (image ++ slice).take (ApplicationHeader.binarySize H) =
      image.take (ApplicationHeader.binarySize H) := List.take_append_of_le_length hle
  have hparsed : image.length = ApplicationHeader.binarySize H →
      image.take (ApplicationHeader.binarySize H) = image :=
    fun heq => List.take_of_length_le heq.le
  cases hok : ApplicationHeader.tryFromBytes (H := H)
      (image.take (ApplicationHeader.binarySize H)) with
  | error error =>
    have hs : v.state = .fail error := by
      rcases hle.lt_or_eq with hlt | heq
      · simpa only [imageState, hok] using (h.image hlt).1
      · have hs := (h.header heq.symm).1
        rwa [parsed, ← hparsed heq.symm, hok] at hs
    rw [update_fail hs]
    refine ⟨by simp only [hs, imageState, htake, hok], fun _ _ hc => ?_⟩
    rw [hs] at hc
    cases hc
  | ok metadata =>
    cases hlen : (ApplicationHeader.security metadata).length? with
    | none =>
      have hs : (v.update slice).1.state = .complete metadata (Hasher.new.hash C) := by
        rcases hle.lt_or_eq with hlt | heq
        · have hs := (h.image hlt).1
          simp only [imageState, hok, hlen] at hs
          rw [update_complete hs, hs]
        · have hs := (h.header heq.symm).1
          rw [parsed, ← hparsed heq.symm, hok] at hs
          rw [update_needMoreData_none hs hlen]
      refine ⟨by simp only [hs, imageState, htake, hok, hlen], fun _ _ hc => ?_⟩
      rw [hs] at hc
      cases hc
    | some length =>
      by_cases hN : length < ApplicationHeader.binarySize H
      · have hs : (v.update slice).1.state = .fail .invalidLength := by
          rcases hle.lt_or_eq with hlt | heq
          · have hs := (h.image hlt).1
            simp only [imageState, hok, hlen, if_pos hN] at hs
            rw [update_fail hs, hs]
          · obtain ⟨hs, hn⟩ := h.header heq.symm
            rw [parsed, ← hparsed heq.symm, hok] at hs
            rw [update_needMoreData_short hs hlen (by omega)]
        refine ⟨by simp only [hs, imageState, htake, hok, hlen, if_pos hN], fun _ _ hc => ?_⟩
        rw [hs] at hc
        cases hc
      · by_cases hpend : image.length = ApplicationHeader.binarySize H ∨ image.length < length
        · -- the slice is hashed behind the data so far, as much of it as the image needs
          obtain ⟨hn, hasher, hs, hhash⟩ := h.pending hle hok hlen (by omega) hpend
          rw [update_needMoreData_some slice hs hlen (by omega)]
          simp only [imageState, htake, hok, hlen, if_neg hN, hhash, hn, List.length_append]
          have hsplit : ((image ++ slice).take length).drop (ApplicationHeader.binarySize H) =
              image.drop (ApplicationHeader.binarySize H) ++ slice.take (length - image.length) := by
            rw [List.take_append, List.take_of_length_le (by omega), List.drop_append_of_le_length hle]
          rw [hsplit]
          by_cases hdone : length - image.length ≤ slice.length
          · rw [if_pos hdone, if_pos (by omega)]
            exact ⟨by simp [Hasher.update, Hasher.new], fun _ _ hc => by cases hc⟩
          · rw [if_neg hdone, if_neg (by omega), List.take_of_length_le (l := slice) (by omega)]
            refine ⟨by simp [Hasher.update, Hasher.new], fun _ _ _ => ?_⟩
            omega
        · -- complete before the slice
          have hs := (h.image (by omega)).1
          simp only [imageState, hok, hlen, if_neg hN,
            if_pos (show length ≤ image.length by omega)] at hs
          rw [update_complete hs]
          simp only [imageState, htake, hok, hlen, if_neg hN, List.length_append,
            if_pos (show length ≤ image.length + slice.length by omega),
            List.take_append_of_le_length (show length ≤ image.length by omega)]
          refine ⟨hs, fun _ _ hc => ?_⟩
          rw [hs] at hc
          cases hc

/-- A slice that starts the image and has the whole header. -/
lemma Received.header_slice (h : Received [] v)
    (hle : ApplicationHeader.binarySize H ≤ slice.length) : Received slice (v.update slice).1 := by
  have hpos := ApplicationHeader.binarySize_pos (C := C) (D := D) (H := H)
  have hhead : Received (slice.take (ApplicationHeader.binarySize H))
      (v.withHeader (slice.take (ApplicationHeader.binarySize H))
        (ApplicationHeader.binarySize H)) := by
    have hlen : (slice.take (ApplicationHeader.binarySize H)).length =
        ApplicationHeader.binarySize H := by
      rw [List.length_take]
      omega
    exact ⟨fun h => by omega, fun _ => ⟨rfl, hlen.symm⟩, fun h => by omega⟩
  rw [h.complete slice hpos (by simpa using hle)]
  simp only [List.length_nil, Nat.sub_zero, List.nil_append]
  split
  next hnil =>
    rwa [List.take_of_length_le (by simpa using hnil)] at hhead ⊢
  next hne =>
    have := hhead.data (slice.drop (ApplicationHeader.binarySize H))
      (by rw [List.length_take]; omega) (fun _ => hne)
    rwa [List.take_append_drop] at this

/-- One call with a whole image. -/
lemma Received.whole (h : Received [] v) (image : List UInt8) :
    Received image (v.update image).1 := by
  rcases Nat.lt_or_ge image.length (ApplicationHeader.binarySize H) with hlt | hle
  · simpa using h.short image (by simpa using hlt)
  · exact h.header_slice hle

lemma Received.feed_short (h : Received image v) (slices : List (List UInt8))
    (hlen : (image ++ slices.flatten).length < ApplicationHeader.binarySize H) :
    Received (image ++ slices.flatten) (v.feed slices) := by
  induction slices generalizing image v with
  | nil => simpa using h
  | cons slice slices ih =>
    rw [List.flatten_cons, ← List.append_assoc] at hlen ⊢
    exact ih (h.short slice (by rw [List.length_append] at hlen; omega)) hlen

lemma Received.feed_data (h : Received image v)
    (hlt : ApplicationHeader.binarySize H < image.length) :
    Received (image ++ slices.flatten) (v.feed slices) := by
  induction slices generalizing image v with
  | nil => simpa using h
  | cons slice slices ih =>
    rw [List.flatten_cons, ← List.append_assoc]
    exact ih (h.data slice hlt.le (fun heq => absurd heq hlt.ne')) (by rw [List.length_append]; omega)

lemma flatten_eq_nil_of_lengths (h : ∀ n ∈ slices.map List.length, n = 0) : slices.flatten = [] := by
  rw [List.flatten_eq_nil_iff]
  intro slice hmem
  exact List.length_eq_zero_iff.mp (h _ (List.mem_map_of_mem hmem))

lemma length_flatten_eq : slices.flatten.length = (slices.map List.length).sum :=
  List.length_flatten

/-- **Slices of these lengths have the outcome of the unsplit image.** -/
theorem Received.outcome_feed [DecidableEq D] (h : Received [] v)
    (hok : SplitOk (ApplicationHeader.binarySize H) (slices.map List.length)) :
    (v.feed slices).outcome = (v.update slices.flatten).1.outcome := by
  have hset : (v.feed slices).settings = (v.update slices.flatten).1.settings := by
    rw [settings_feed, update, settings_updateLoop]
  rcases hok with hlt | ⟨heq, hlast⟩ | ⟨hgt, empty, first, rest, hsplit, hempty, hle, hnext⟩
  · have hfeed := h.feed_short slices (by
      rw [List.nil_append, length_flatten_eq]
      exact hlt)
    exact hfeed.outcome_eq (h.whole _) hset
  · -- the last slice completes the header, whatever the counter is then
    obtain ⟨pre, last, rfl⟩ : ∃ pre last, slices = pre ++ [last] := by
      rcases List.eq_nil_or_concat' slices with rfl | ⟨pre, last, rfl⟩
      · have hpos := ApplicationHeader.binarySize_pos (C := C) (D := D) (H := H)
        simp only [List.map_nil, List.sum_nil] at heq
        omega
      · exact ⟨pre, last, rfl⟩
    have hpos : 0 < last.length := by
      simp only [List.map_append, List.map_cons, List.map_nil, List.getLast?_concat, ne_eq,
        Option.some.injEq] at hlast
      omega
    have hlen : pre.flatten.length + last.length = ApplicationHeader.binarySize H := by
      rw [length_flatten_eq]
      simpa using heq
    have hpre := h.feed_short pre (by rw [List.nil_append]; omega)
    have hwhole := h.whole (pre ++ [last]).flatten
    refine outcome_congr hset ?_
    rw [(hwhole.header (by rw [length_flatten_eq]; exact heq)).1, feed_append, feed_cons, feed_nil,
      hpre.complete last (by rw [List.nil_append]; omega)
        (by rw [List.nil_append, List.length_append]; omega)]
    rw [if_pos (List.drop_eq_nil_of_le (by rw [List.nil_append]; omega))]
    rw [List.nil_append, List.take_of_length_le (by rw [List.length_append]; omega)]
    simp [withHeader]
  · obtain ⟨pre, post, rfl, hpre, hpost⟩ := List.map_eq_append_iff.mp hsplit
    obtain ⟨slice, tail, rfl, rfl, rfl⟩ := List.map_eq_cons_iff.mp hpost
    have hnil : pre.flatten = [] := flatten_eq_nil_of_lengths (by rw [hpre]; exact hempty)
    have hpos := ApplicationHeader.binarySize_pos (C := C) (D := D) (H := H)
    have hstart := h.feed_short pre (by rw [hnil]; exact hpos)
    rw [hnil, List.append_nil] at hstart
    have hslice := hstart.header_slice hle
    have hfeed : Received (slice ++ tail.flatten) ((v.feed pre).feed (slice :: tail)) := by
      rcases hle.lt_or_eq with hlt | heq
      · exact hslice.feed_data hlt
      · cases tail with
        | nil => simpa using hslice
        | cons next tail =>
          have hne : next ≠ [] := by
            rintro rfl
            exact hnext heq.symm rfl
          have hpos' := List.length_pos_iff.mpr hne
          rw [List.flatten_cons, ← List.append_assoc]
          exact (hslice.data next hle (fun _ => hne)).feed_data
            (by rw [List.length_append]; omega)
    rw [feed_append] at hset ⊢
    rw [List.flatten_append, hnil, List.nil_append, List.flatten_cons] at hset ⊢
    exact hfeed.outcome_eq (h.whole _) hset

end Received

/-! ### Splits that change the outcome -/

section Split

variable {C : Crypto} {D H : Type} [ApplicationHeader C D H]
variable {v : Validator C D H} {metadata : H} {slices : List (List UInt8)}

lemma feed_complete {hash : Hash} (hs : v.state = .complete metadata hash) : v.feed slices = v := by
  induction slices with
  | nil => rfl
  | cons slice slices ih => rw [feed_cons, update_complete hs, ih]

/-- When any further call completes the image, it is complete after any further bytes or slice. -/
lemma Received.complete_after (h : Received [] v) {pre post : List (List UInt8)} {slice : List UInt8}
    (hlt : pre.flatten.length < ApplicationHeader.binarySize H)
    (hle : ApplicationHeader.binarySize H ≤ pre.flatten.length + slice.length)
    (hmore : ApplicationHeader.binarySize H < (pre ++ slice :: post).flatten.length ∨ post ≠ [])
    (hok : ApplicationHeader.tryFromBytes
      ((pre ++ slice :: post).flatten.take (ApplicationHeader.binarySize H)) = .ok metadata)
    (hall : ∀ w : Validator C D H, w.state = .needMoreData metadata Hasher.new →
      w.nBytes = ApplicationHeader.binarySize H - pre.flatten.length →
      ∀ bytes, ∃ hash, (w.update bytes).1.state = .complete metadata hash) :
    ∃ hash, (v.feed (pre ++ slice :: post)).dataHash = .ok hash := by
  have hpre := h.feed_short pre (by rwa [List.nil_append])
  rw [List.nil_append] at hpre
  have htake : (pre ++ slice :: post).flatten.take (ApplicationHeader.binarySize H) =
      (pre.flatten ++ slice).take (ApplicationHeader.binarySize H) := by
    rw [List.flatten_append, List.flatten_cons, ← List.append_assoc,
      List.take_append_of_le_length (by rw [List.length_append]; omega)]
  rw [htake] at hok
  suffices hstate : ∃ hash, (v.feed (pre ++ slice :: post)).state = .complete metadata hash by
    obtain ⟨hash, hs⟩ := hstate
    exact ⟨hash, by simp only [dataHash, hs]⟩
  rw [feed_append, feed_cons, hpre.complete slice hlt (by rw [List.length_append]; omega)]
  set n := ApplicationHeader.binarySize H - pre.flatten.length with hn
  have hw := hall ((v.feed pre).withHeader
    ((pre.flatten ++ slice).take (ApplicationHeader.binarySize H)) n)
    (by simp only [withHeader, parsed, hok]) rfl
  by_cases hrest : slice.drop n = []
  · simp only [if_pos hrest]
    cases post with
    | nil =>
      have hlen : slice.length ≤ n := by simpa using hrest
      simp only [List.flatten_append, List.flatten_cons, List.flatten_nil, List.length_append,
        List.length_nil, ne_eq, not_true_eq_false, or_false] at hmore
      omega
    | cons next post =>
      obtain ⟨hash, hs⟩ := hw next
      exact ⟨hash, by rw [feed_cons, feed_complete hs, hs]⟩
  · simp only [if_neg hrest]
    obtain ⟨hash, hs⟩ := hw (slice.drop n)
    exact ⟨hash, by rw [feed_complete hs, hs]⟩

/-- Empty slices behind the header: each hashes the authenticated fields once more. -/
lemma feed_empty_slices {acc : List UInt8} (hs : v.state = .needMoreData metadata ⟨acc⟩)
    (hn : v.nBytes = ApplicationHeader.binarySize H)
    (hlen : (ApplicationHeader.security metadata).length? =
      some (ApplicationHeader.binarySize H + 1))
    (n : ℕ) (x : UInt8) (next : List UInt8) (post : List (List UInt8)) :
    (v.feed (List.replicate n [] ++ (x :: next) :: post)).dataHash =
      .ok (C.sha256 (acc ++ (List.replicate (n + 1) (authFields metadata)).flatten ++ [x])) := by
  induction n generalizing v acc with
  | zero =>
    have hup := update_needMoreData_some (x :: next) hs hlen (by omega)
    have hstate : (v.update (x :: next)).1.state = .complete metadata
        (C.sha256 (acc ++ (List.replicate 1 (authFields metadata)).flatten ++ [x])) := by
      rw [hup]
      simp [hn, hashed, Hasher.update, Hasher.hash]
    rw [List.replicate_zero, List.nil_append, feed_cons, feed_complete hstate]
    simp only [dataHash, hstate]
  | succ n ih =>
    have hup := update_needMoreData_some [] hs hlen (by omega)
    rw [List.replicate_succ, List.cons_append, feed_cons]
    rw [ih (show (v.update []).1.state = .needMoreData metadata ⟨acc ++ authFields metadata⟩ by
      rw [hup]; simp [hn, hashed, Hasher.update]) (by rw [hup]; simp [hn])]
    simp [List.replicate_succ]

end Split

end Validator

/-- The hash tells data behind repeated authenticated fields from data behind them once. -/
def Crypto.TellsRepeats (C : Crypto) (auth : List UInt8) : Prop :=
  ∀ n, ∃ x, C.sha256 ((List.replicate (n + 2) auth).flatten ++ [x]) ≠ C.sha256 (auth ++ [x])

/-- Where a sum of lengths passes `size`. -/
lemma exists_crossing (lengths : List ℕ) {size n : ℕ} (hlt : n < size)
    (hle : size ≤ n + lengths.sum) :
    ∃ pre a post, lengths = pre ++ a :: post ∧ n + pre.sum < size ∧ size ≤ n + pre.sum + a := by
  induction lengths generalizing n with
  | nil =>
    simp only [List.sum_nil] at hle
    omega
  | cons a lengths ih =>
    by_cases hs : size ≤ n + a
    · exact ⟨[], a, lengths, rfl, by simpa using hlt, by simpa using hs⟩
    · rw [List.sum_cons] at hle
      obtain ⟨pre, b, post, rfl, h1, h2⟩ := ih (n := n + a) (by omega) (by omega)
      refine ⟨a :: pre, b, post, rfl, ?_, ?_⟩ <;> rw [List.sum_cons] <;> omega

namespace V2

variable {C : Crypto} {D : Type} [DeviceType D] {byte : UInt8} {d : D}

lemma authFields_eq (metadata : AppHeader C D) : authFields metadata =
    leBytes 4 metadata.antiDowngradeVersion.toNat ++ [DeviceType.toByte metadata.deviceType] := by
  simp [authFields, ApplicationHeader.authenticatedFieldsAsBytes, AppHeader.authenticatedFieldsAsBytes,
    ApplicationHeader.binarySizeAuth, binarySizeAuth, maxAuthFieldBytes]

lemma exists_none_header (hdev : DeviceType.tryFromByte byte = some d) :
    ∃ head : List UInt8, head.length = binarySize ∧
      ApplicationHeader.tryFromBytes head = .ok (⟨.none, 0, d⟩ : AppHeader C D) := by
  have hok := AppHeader.tryFromBytes_layout (C := C)
    (List.length_replicate (n := 64) (a := 0)) .none (show 0 < 2 ^ 32 by decide) rfl 0 hdev []
  rw [List.append_nil] at hok
  exact ⟨_, AppHeader.length_layout List.length_replicate _ _ _ _, hok⟩

lemma exists_integrity_header (hdev : DeviceType.tryFromByte byte = some d) (length : ℕ)
    (hpos : 0 < length) (hlt : length < 2 ^ 32) :
    ∃ (head : List UInt8) (hash : Hash), head.length = binarySize ∧
      ApplicationHeader.tryFromBytes head =
        .ok (⟨.integrityOnly length hash, 0, d⟩ : AppHeader C D) := by
  have hok := AppHeader.tryFromBytes_layout (C := C)
    (List.length_replicate (n := 64) (a := 0)) .integrityOnly hlt
    (show _ = Except.ok (.integrityOnly length ⟨List.replicate 32 0, List.length_replicate⟩) by
      rw [if_pos hpos]
      rfl) 0 hdev []
  rw [List.append_nil] at hok
  exact ⟨_, _, AppHeader.length_layout List.length_replicate _ _ _ _, hok⟩

end V2

namespace Validator

open V2

section Exact

variable {C : Crypto} {D : Type} [DeviceType D] [DecidableEq D] {byte : UInt8} {d : D}
variable {v : Validator C D (AppHeader C D)} {lengths : List ℕ}

/-- Slices of the given lengths have the outcome of the unsplit image. -/
def SplitInvariant (v : Validator C D (AppHeader C D)) (lengths : List ℕ) : Prop :=
  ∀ slices : List (List UInt8), slices.map List.length = lengths →
    (v.feed slices).outcome = (v.update slices.flatten).1.outcome

/-- An empty slice behind an image that is only a header completes it when its level is none. -/
lemma not_splitInvariant_of_header (h : Received [] v)
    (hdev : DeviceType.tryFromByte byte = some d) (hsum : lengths.sum = binarySize)
    (hlast : lengths.getLast? = some 0) : ¬ SplitInvariant v lengths := by
  intro hinv
  obtain ⟨head, hlen, hok⟩ := exists_none_header (C := C) hdev
  have hpend : (v.update head).1.dataHash = .error .incomplete := by
    simp only [dataHash, ((h.whole head).header hlen).1, parsed, hok]
  obtain ⟨pre, a, post, rfl, h1, h2⟩ := exists_crossing lengths
    (show 0 < binarySize by decide) (by omega)
  obtain ⟨slices, hflat, hmap⟩ : ∃ slices : List (List UInt8), slices.flatten = head ∧
      slices.map List.length = pre ++ a :: post :=
    ⟨_, List.flatten_splitLengths _ _ (by omega), List.map_splitLengths_length _ _ (by omega)⟩
  have hout := congrArg Prod.snd (hinv _ hmap)
  obtain ⟨pre, tail, rfl, rfl, htail⟩ := List.map_eq_append_iff.mp hmap
  obtain ⟨slice, post, rfl, rfl, rfl⟩ := List.map_eq_cons_iff.mp htail
  rw [← length_flatten_eq, Nat.zero_add] at h1 h2
  have hpost : post ≠ [] := by
    rintro rfl
    simp only [List.map_nil, List.getLast?_concat, Option.some.injEq] at hlast
    omega
  have htake : head.take (ApplicationHeader.binarySize (AppHeader C D)) = head :=
    List.take_of_length_le hlen.le
  obtain ⟨hash, hcomplete⟩ := h.complete_after h1 h2 (Or.inr hpost)
    (by rw [hflat, htake]; exact hok)
    (fun w hs _ bytes => ⟨_, congrArg Validator.state (update_needMoreData_none hs rfl)⟩)
  simp only [outcome, hflat, hcomplete, hpend] at hout
  cases hout

/-- A header in several slices: an announced length that is the wrong count completes the image, where
it is too short to be valid. -/
lemma not_splitInvariant_of_split (h : Received [] v)
    (hdev : DeviceType.tryFromByte byte = some d) {pre post : List ℕ} {a : ℕ}
    (hpos : 0 < pre.sum) (hlt : pre.sum < binarySize) (hle : binarySize ≤ pre.sum + a)
    (hsum : binarySize < (pre ++ a :: post).sum) : ¬ SplitInvariant v (pre ++ a :: post) := by
  intro hinv
  have hsize : binarySize = 81 := rfl
  obtain ⟨length, hlength⟩ : ∃ length, length + pre.sum = binarySize := ⟨_, Nat.sub_add_cancel hlt.le⟩
  obtain ⟨head, tag, hlen, hok⟩ := exists_integrity_header (C := C) hdev length
    (by omega) (by omega)
  obtain ⟨image, hilen, htake⟩ : ∃ image : List UInt8, image.length = (pre ++ a :: post).sum ∧
      image.take binarySize = head := by
    refine ⟨head ++ List.replicate ((pre ++ a :: post).sum - binarySize) 0, ?_, List.take_left' hlen⟩
    rw [List.length_append, hlen, List.length_replicate]
    omega
  have hfail : (v.update image).1.dataHash = .error (.invalid .invalidLength) := by
    have hstate := ((h.whole image).image (hilen ▸ hsum)).1
    have hlt' : length < ApplicationHeader.binarySize (AppHeader C D) :=
      show length < binarySize by omega
    simp only [imageState, show image.take (ApplicationHeader.binarySize (AppHeader C D)) = head from
      htake, hok] at hstate
    simp only [dataHash, hstate, ApplicationHeader.security, Security.length?, if_pos hlt']
  obtain ⟨slices, hflat, hmap⟩ : ∃ slices : List (List UInt8), slices.flatten = image ∧
      slices.map List.length = pre ++ a :: post :=
    ⟨_, List.flatten_splitLengths _ _ hilen.le, List.map_splitLengths_length _ _ hilen.ge⟩
  have hout := congrArg Prod.snd (hinv _ hmap)
  obtain ⟨pre, tail, rfl, rfl, htail⟩ := List.map_eq_append_iff.mp hmap
  obtain ⟨slice, post, rfl, rfl, rfl⟩ := List.map_eq_cons_iff.mp htail
  rw [← length_flatten_eq] at hlt hle hpos hlength
  obtain ⟨hash, hcomplete⟩ := h.complete_after hlt hle (Or.inl (by rw [hflat, hilen]; exact hsum))
    (by rw [hflat]; exact (congrArg _ htake).trans hok)
    (fun w hs hn bytes => by
      have hn' : w.nBytes = length := hn.trans (show binarySize - _ = length by omega)
      have hup := update_needMoreData_some bytes hs rfl hn'.le
      rw [if_pos (by omega)] at hup
      exact ⟨_, congrArg Validator.state hup⟩)
  simp only [outcome, hflat, hcomplete, hfail] at hout
  cases hout

/-- Empty slices directly behind the header: their authenticated fields are in the hash. -/
lemma not_splitInvariant_of_empty (h : Received [] v)
    (hdev : DeviceType.tryFromByte byte = some d)
    (hrep : C.TellsRepeats (leBytes 4 0 ++ [DeviceType.toByte d])) {pre post : List ℕ}
    (hpre : pre.sum = 0) (hpos : 0 < post.sum) (hhead : post.head? = some 0) :
    ¬ SplitInvariant v (pre ++ binarySize :: post) := by
  intro hinv
  have hsize : binarySize = 81 := rfl
  obtain ⟨empty, b, rest, rfl, h1, h2⟩ := exists_crossing post (show 0 < 1 by decide)
    (by omega)
  obtain ⟨n, rfl⟩ : ∃ n, empty = List.replicate (n + 1) 0 := by
    have hall : ∀ x ∈ empty, x = 0 := List.sum_eq_zero_iff_forall_eq_nat.mp (by omega)
    cases empty with
    | nil =>
      simp only [List.nil_append, List.head?_cons, Option.some.injEq, List.sum_nil] at hhead h2
      omega
    | cons x empty => exact ⟨empty.length, List.eq_replicate_iff.mpr ⟨rfl, hall⟩⟩
  obtain ⟨b, rfl⟩ : ∃ k, b = k + 1 := ⟨b - 1, by omega⟩
  obtain ⟨x, hx⟩ := hrep n
  obtain ⟨head, tag, hlen, hok⟩ := exists_integrity_header (C := C) hdev
    (binarySize + 1) (by omega) (by omega)
  set metadata : AppHeader C D := ⟨.integrityOnly (binarySize + 1) tag, 0, d⟩
  have hauth : authFields metadata = leBytes 4 0 ++ [DeviceType.toByte d] := authFields_eq metadata
  have hlength : (ApplicationHeader.security metadata).length? =
      some (ApplicationHeader.binarySize (AppHeader C D) + 1) := rfl
  set behind : List (List UInt8) := List.replicate (n + 1) [] ++
    (x :: List.replicate b 0) :: rest.map (List.replicate · 0) with hbehind
  set front : List (List UInt8) := pre.map (List.replicate · 0)
  have hfront : front.flatten = [] := by
    refine flatten_eq_nil_of_lengths ?_
    simp only [front, List.map_map, Function.comp_def, List.length_replicate, List.map_id']
    exact List.sum_eq_zero_iff_forall_eq_nat.mp hpre
  have hmap : (front ++ head :: behind).map List.length =
      pre ++ binarySize :: (List.replicate (n + 1) 0 ++ (b + 1) :: rest) := by
    simp [front, behind, Function.comp_def, hlen]
  have hout := congrArg Prod.snd (hinv _ hmap)
  have hstart := h.feed_short front (by rw [hfront]; exact Nat.succ_pos 80)
  rw [hfront, List.append_nil] at hstart
  obtain ⟨hs, hn⟩ := (hstart.header_slice hlen.ge).header hlen
  simp only [parsed, hok] at hs
  have hfed := feed_empty_slices hs (hn.trans hlen) hlength (n + 1) x (List.replicate b 0)
    (rest.map (List.replicate · 0))
  rw [← hbehind, hauth, List.nil_append] at hfed
  have hflat : (front ++ head :: behind).flatten =
      head ++ x :: (List.replicate b 0 ++ (rest.map (List.replicate · 0)).flatten) := by
    rw [List.flatten_append, hfront, hbehind]
    simp
  have hwhole : (v.update (front ++ head :: behind).flatten).1.dataHash =
      .ok (C.sha256 (leBytes 4 0 ++ [DeviceType.toByte d] ++ [x])) := by
    rw [hflat]
    set tail := List.replicate b 0 ++ (rest.map (List.replicate · (0 : UInt8))).flatten
    have hlt : ApplicationHeader.binarySize (AppHeader C D) < (head ++ x :: tail).length := by
      rw [List.length_append, List.length_cons, hlen]
      exact Nat.lt_add_of_pos_right (Nat.succ_pos _)
    have hstate := ((h.whole (head ++ x :: tail)).image hlt).1
    have htake : (head ++ x :: tail).take (ApplicationHeader.binarySize (AppHeader C D)) = head :=
      List.take_left' hlen
    have hdata : ((head ++ x :: tail).take (ApplicationHeader.binarySize (AppHeader C D) + 1)).drop
        (ApplicationHeader.binarySize (AppHeader C D)) = [x] := by
      rw [← show head.length = ApplicationHeader.binarySize (AppHeader C D) from hlen]
      simp [List.take_append]
    simp only [imageState, htake, hok, hlength, hdata, if_neg (Nat.not_lt.mpr (Nat.le_succ _)),
      if_pos (Nat.succ_le_of_lt hlt), hauth] at hstate
    simp only [dataHash, hstate, Hasher.hash, Hasher.update, Hasher.new, List.nil_append]
  simp only [outcome, feed_append, feed_cons, hfed, hwhole] at hout
  exact hx (Except.ok.inj hout)

/-- **When feeding an image in slices is feeding it in one call.** For every key, required level and
device type: slices of the given lengths always have the outcome of the unsplit image (`verify` with
its header, and `data_hash`) if and only if the lengths are `SplitOk`. -/
theorem splitInvariant_iff (signingKey : C.PubKey) (minSecurity : SecurityLevel) (deviceType : D)
    (hdev : DeviceType.tryFromByte byte = some d)
    (hrep : C.TellsRepeats (leBytes 4 0 ++ [DeviceType.toByte d])) (lengths : List ℕ) :
    SplitInvariant (C := C) (new signingKey minSecurity deviceType) lengths ↔
      SplitOk binarySize lengths := by
  have h := received_new (H := AppHeader C D) signingKey minSecurity deviceType
  constructor
  · intro hinv
    by_contra hbad
    simp only [SplitOk, not_or, not_and, not_lt] at hbad
    obtain ⟨hle, hheader, himage⟩ := hbad
    rcases hle.lt_or_eq with hlt | heq
    · obtain ⟨pre, a, post, rfl, h1, h2⟩ := exists_crossing lengths (n := 0) (by decide)
        (hle.trans (Nat.zero_add _).ge)
      rw [Nat.zero_add] at h1 h2
      rcases Nat.eq_zero_or_pos pre.sum with hzero | hpos
      · have hall := List.sum_eq_zero_iff_forall_eq_nat.mp hzero
        obtain ⟨rfl, hnext⟩ : a = binarySize ∧ post.head? = some 0 := by
          by_contra hc
          refine himage hlt ⟨pre, a, post, rfl, hall, by omega, fun ha hhead => hc ⟨ha, hhead⟩⟩
        refine not_splitInvariant_of_empty h hdev hrep hzero ?_ hnext hinv
        rw [List.sum_append, List.sum_cons] at hlt
        omega
      · exact not_splitInvariant_of_split h hdev hpos h1 h2 hlt hinv
    · have hlast : lengths.getLast? = some 0 := by
        by_contra hc
        exact hheader heq.symm hc
      exact not_splitInvariant_of_header h hdev heq.symm hlast hinv
  · rintro hok slices rfl
    exact h.outcome_feed hok

end Exact

end Validator

/-! ### An image of the tests -/

/-- The device types of the tests of `firmware.rs` -/
inductive MockDeviceType
  | a
  | b
deriving DecidableEq

instance : DeviceType MockDeviceType where
  toByte
    | .a => 0
    | .b => 1
  tryFromByte byte := if byte = 0 then some .a else if byte = 1 then some .b else none

/-- SHA-256 on the messages of the image below; other messages are given the hash of no message. -/
def sampleSha256 (message : List UInt8) : Hash :=
  if message = List.replicate 5 0 ++ [72, 101, 108, 108, 111, 32, 87, 111, 114, 108, 100, 46] then
    ⟨[28, 123, 177, 163, 86, 140, 47, 20, 59, 191, 105, 110, 45, 172, 235, 199, 245, 238, 171, 106,
      152, 127, 56, 200, 164, 164, 177, 65, 48, 186, 149, 120], rfl⟩
  else if message = List.replicate 6 0 then
    ⟨[176, 246, 106, 220, 131, 100, 21, 134, 101, 104, 102, 129, 63, 217, 221, 11, 142, 187, 99, 121,
      96, 117, 102, 27, 164, 93, 26, 168, 8, 158, 29, 68], rfl⟩
  else if message = List.replicate 11 0 then
    ⟨[113, 182, 193, 213, 56, 50, 247, 137, 167, 242, 67, 90, 124, 98, 146, 69, 250, 55, 97, 173, 132,
      135, 119, 94, 191, 73, 87, 51, 2, 19, 167, 6], rfl⟩
  else
    ⟨[227, 176, 196, 66, 152, 252, 28, 20, 154, 251, 244, 200, 153, 111, 185, 36, 39, 174, 65, 228,
      100, 155, 147, 76, 164, 149, 153, 27, 120, 82, 184, 85], rfl⟩

/-- The key and the signatures play no part for an image of level `IntegrityOnly`. -/
def sampleCrypto : Crypto where
  Signature := Unit
  PubKey := Unit
  sha256 := sampleSha256
  signatureFromSlice _ := none
  signatureToBytes _ := List.replicate 64 0
  signatureToBytes_length _ := List.length_replicate
  verifyPrehash _ _ _ := false

lemma sampleCrypto_tellsRepeats : sampleCrypto.TellsRepeats (leBytes 4 0 ++ [0]) := by
  intro n
  have hlen : ((List.replicate (n + 2) (leBytes 4 0 ++ [0])).flatten ++ [0]).length =
      5 * (n + 2) + 1 := by
    simp [Nat.mul_comm]
  refine ⟨0, ?_⟩
  have hone : sampleCrypto.sha256 (leBytes 4 0 ++ [0] ++ [0]) = sampleSha256 (List.replicate 6 0) := rfl
  rw [hone]
  generalize (List.replicate (n + 2) (leBytes 4 0 ++ [0])).flatten ++ [0] = message at hlen
  have hne : message ≠ List.replicate 6 0 := by
    rintro rfl
    simp at hlen
  simp only [sampleCrypto, sampleSha256, if_neg hne]
  split
  · decide
  · split <;> decide

namespace Validator

/-- The validator of `test_validate_integrity_only` -/
def sample : Validator sampleCrypto MockDeviceType (V2.AppHeader sampleCrypto MockDeviceType) :=
  new () .integrityOnly .a

/-- A first slice with the header and some data, then an empty one, then the rest. -/
theorem splitInvariant_iff_sample : SplitInvariant sample [90, 0, 3] :=
  (splitInvariant_iff (C := sampleCrypto) () .integrityOnly MockDeviceType.a
    (show DeviceType.tryFromByte 0 = some MockDeviceType.a from rfl)
    sampleCrypto_tellsRepeats [90, 0, 3]).mpr
    (Or.inr (Or.inr ⟨by decide, [], 90, [0, 3], rfl, by decide, by decide, by decide⟩))

/-- The image of `test_validate_integrity_only`: header, hash and the text `Hello World.` -/
def sampleImage : List UInt8 :=
  V2.AppHeader.layout 1 93 ((sampleSha256 (List.replicate 5 0 ++
    [72, 101, 108, 108, 111, 32, 87, 111, 114, 108, 100, 46])).bytes ++ List.replicate 32 0) 0 0 ++
    [72, 101, 108, 108, 111, 32, 87, 111, 114, 108, 100, 46]

/-- The image is valid in one call, and incomplete in two slices that part its header. -/
theorem split_header_incomplete :
    (sample.update sampleImage).1.verify.isOk = true ∧
      (sample.feed [sampleImage.take 40, sampleImage.drop 40]).verify.isOk = false ∧
      ¬ SplitInvariant sample [40, 53] := by
  have hwhole : (sample.update sampleImage).1.verify.isOk = true := by decide +kernel
  have hsplit : (sample.feed [sampleImage.take 40, sampleImage.drop 40]).verify.isOk = false := by
    decide +kernel
  refine ⟨hwhole, hsplit, fun hinv => ?_⟩
  have hout := congrArg Prod.fst (hinv [sampleImage.take 40, sampleImage.drop 40] (by decide))
  have hflat : [sampleImage.take 40, sampleImage.drop 40].flatten = sampleImage := by
    simp [List.take_append_drop]
  simp only [outcome, hflat] at hout
  rw [hout, hwhole] at hsplit
  cases hsplit

end Validator

end SensorLink.Firmware
