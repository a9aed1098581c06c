import Mathlib.Data.List.Infix
import Mathlib.Tactic.Common

/-!
# The boot log of `rtt.rs`

RTT channel 0 is read until a needle shows up behind the boot banner, or anywhere in a log without the banner.
What the standard library makes of bytes that are no UTF-8, and the lower case of a text, are parameters.
-/

namespace SensorLink.Provision

abbrev Text := List Char

/-- The bytes of a text -/
def utf8 (text : Text) : List UInt8 := text.flatMap String.utf8EncodeChar

/-- `str::split_inclusive` at newlines -/
def splitInclusive : Text → List Text
  | [] => []
  | c :: text =>
    if c = '\n' then [c] :: splitInclusive text
    else match splitInclusive text with
      | [] => [[c]]
      | line :: lines => (c :: line) :: lines

/-- The ends that `str::lines` strips: a newline, and a carriage return before it -/
def stripEnd (line : Text) : Text :=
  if ['\n'] <:+ line then
    let line := line.dropLast
    if ['\r'] <:+ line then line.dropLast else line
  else line

/-- `str::lines` -/
def lines (text : Text) : List Text := (splitInclusive text).map stripEnd

/-- `str::contains` -/
def contains (text needle : Text) : Bool := needle <:+: text

/-- `String::from_utf8_lossy` and `str::to_lowercase` -/
structure Std where
  fromUtf8Lossy : List UInt8 → Text
  toLowercase : Text → Text

variable (std : Std)

/-- One turn of the loop of `seen_after_banner` -/
def seenStep (banner needle : Text) (found : Bool) (line : Text) : Bool :=
  let found := if contains line banner then false else found
  if contains (std.toLowercase line) needle then true else found

def seenAfterBanner (log banner needle : Text) : Bool :=
  (lines log).foldl (seenStep std banner (std.toLowercase needle)) false

/-- The log of some reads -/
def accumulated (reads : List (List UInt8)) : Text := reads.flatMap std.fromUtf8Lossy

/-- `BootLog`; of the RTT handle only whether there is one -/
structure BootLog where
  banner : Text
  attached : Bool
  log : Text

/-- `BootLog::new` -/
def BootLog.new (banner : Text) : BootLog := ⟨banner, false, []⟩

/-- What the probe answers in one turn of `wait_for`: whether the core and the control block are there, and
the bytes that are read, if reading them works -/
structure Answer where
  core : Bool
  attach : Bool
  read : Option (List UInt8)

/-- One turn of the loop of `wait_for` behind its check, or none if it returns an error -/
def BootLog.poll (boot : BootLog) (answer : Answer) : Option BootLog :=
  if !answer.core then none
  else if !boot.attached && !answer.attach then some boot
  else match answer.read with
    | some bytes =>
      some { boot with
        attached := true
        log := if 0 < bytes.length then boot.log ++ std.fromUtf8Lossy bytes else boot.log }
    | none => some { boot with attached := false }

/-- `wait_for`, with the answers until the deadline; none is an error. -/
def BootLog.waitFor (needle : Text) : List Answer → BootLog → Option (Bool × BootLog)
  | [], boot => some (seenAfterBanner std boot.log boot.banner needle, boot)
  | answer :: answers, boot =>
    if seenAfterBanner std boot.log boot.banner needle then some (true, boot)
    else match boot.poll std answer with
      | none => none
      | some boot => waitFor needle answers boot

/-! ### What the check is for -/

/-- The needle occurs case-insensitively in a line. -/
def Mentions (needle line : Text) : Prop := std.toLowercase needle <:+: std.toLowercase line

/-- The needle occurs in the last line with the banner or in a later one. -/
def AfterBanner (banner needle : Text) (lines : List Text) : Prop :=
  ∃ before line behind, lines = before ++ line :: behind ∧ banner <:+: line ∧
    (∀ later ∈ behind, ¬banner <:+: later) ∧ ∃ later ∈ line :: behind, Mentions std needle later

/-- A line has the banner, or none has the needle. -/
def Decided (banner needle : Text) (lines : List Text) : Prop :=
  (∃ line ∈ lines, banner <:+: line) ∨ ∀ line ∈ lines, ¬Mentions std needle line

variable {std}

lemma contains_eq_true {text needle : Text} : contains text needle = true ↔ needle <:+: text :=
  decide_eq_true_iff

lemma not_afterBanner {banner needle : Text} {lines : List Text} (h : ∀ line ∈ lines, ¬banner <:+: line) :
    ¬AfterBanner std banner needle lines := by
  rintro ⟨before, line, behind, rfl, hbanner, -⟩
  exact h line (List.mem_append_right before List.mem_cons_self) hbanner

lemma exists_last_banner {banner : Text} {lines : List Text} (h : ∃ line ∈ lines, banner <:+: line) :
    ∃ before line behind, lines = before ++ line :: behind ∧ banner <:+: line ∧
      ∀ line ∈ behind, ¬banner <:+: line := by
  induction lines using List.reverseRecOn with
  | nil =>
    obtain ⟨line, hline, -⟩ := h
    cases hline
  | append_singleton lines last ih =>
    by_cases hlast : banner <:+: last
    · exact ⟨lines, last, [], rfl, hlast, nofun⟩
    · obtain ⟨line, hline, hbanner⟩ := h
      have hmem : line ∈ lines := by
        rcases List.mem_append.mp hline with hmem | hmem
        · exact hmem
        · rw [List.mem_singleton.mp hmem] at hbanner
          exact absurd hbanner hlast
      obtain ⟨before, line, behind, rfl, hbanner, hbehind⟩ := ih ⟨line, hmem, hbanner⟩
      refine ⟨before, line, behind ++ [last], by simp, hbanner, fun line hline => ?_⟩
      rcases List.mem_append.mp hline with hmem | hmem
      · exact hbehind line hmem
      · rw [List.mem_singleton.mp hmem]
        exact hlast

/-- One line more: with the banner it starts anew, and with the needle it is enough behind a banner. -/
lemma afterBanner_concat {banner needle last : Text} {lines : List Text} :
    AfterBanner std banner needle (lines ++ [last]) ↔
      (banner <:+: last ∧ Mentions std needle last) ∨
      (¬banner <:+: last ∧ (AfterBanner std banner needle lines ∨
        (∃ line ∈ lines, banner <:+: line) ∧ Mentions std needle last)) := by
  constructor
  · rintro ⟨before, line, behind, heq, hbanner, hbehind, line', hline', hmentions⟩
    rcases behind.eq_nil_or_concat' with rfl | ⟨behind, last', rfl⟩
    · obtain ⟨rfl, hlast⟩ := List.append_inj' heq rfl
      obtain rfl := List.singleton_inj.mp hlast
      rw [List.mem_singleton.mp hline'] at hmentions
      exact .inl ⟨hbanner, hmentions⟩
    · rw [← List.cons_append, ← List.append_assoc] at heq
      obtain ⟨rfl, hlast⟩ := List.append_inj' heq rfl
      obtain rfl := List.singleton_inj.mp hlast
      have hnot := hbehind last (List.mem_append_right behind List.mem_cons_self)
      refine .inr ⟨hnot, ?_⟩
      rw [← List.cons_append] at hline'
      rcases List.mem_append.mp hline' with hmem | hmem
      · exact .inl ⟨before, line, behind, rfl, hbanner,
          fun line hline => hbehind line (List.mem_append_left _ hline), line', hmem, hmentions⟩
      · rw [List.mem_singleton.mp hmem] at hmentions
        exact .inr ⟨⟨line, List.mem_append_right before List.mem_cons_self, hbanner⟩, hmentions⟩
  · have hextend {before behind : List Text} {line : Text} (hnot : ¬banner <:+: last)
        (hbanner : banner <:+: line) (hbehind : ∀ line ∈ behind, ¬banner <:+: line)
        (hmentions : ∃ later ∈ line :: (behind ++ [last]), Mentions std needle later) :
        AfterBanner std banner needle (before ++ line :: behind ++ [last]) := by
      refine ⟨before, line, behind ++ [last], by simp, hbanner, fun line hline => ?_, hmentions⟩
      rcases List.mem_append.mp hline with hmem | hmem
      · exact hbehind line hmem
      · rw [List.mem_singleton.mp hmem]
        exact hnot
    rintro (⟨hbanner, hmentions⟩ | ⟨hnot, ⟨before, line, behind, rfl, hbanner, hbehind, line', hline', hm⟩ |
      ⟨hexists, hmentions⟩⟩)
    · exact ⟨lines, last, [], rfl, hbanner, nofun, last, List.mem_cons_self, hmentions⟩
    · refine hextend hnot hbanner hbehind ⟨line', ?_, hm⟩
      rw [← List.cons_append]
      exact List.mem_append_left _ hline'
    · obtain ⟨before, line, behind, rfl, hbanner, hbehind⟩ := exists_last_banner hexists
      exact hextend hnot hbanner hbehind
        ⟨last, List.mem_cons_of_mem _ (List.mem_append_right behind List.mem_cons_self), hmentions⟩

/-- What the loop has found: the needle behind the last banner, or anywhere if there is no banner -/
lemma seen_lines_iff (banner needle : Text) (lines : List Text) :
    lines.foldl (seenStep std banner (std.toLowercase needle)) false = true ↔
      AfterBanner std banner needle lines ∨
        (∀ line ∈ lines, ¬banner <:+: line) ∧ ∃ line ∈ lines, Mentions std needle line := by
  induction lines using List.reverseRecOn with
  | nil =>
    refine ⟨nofun, ?_⟩
    rintro (⟨before, line, behind, heq, -⟩ | ⟨-, line, hline, -⟩)
    · exact absurd heq.symm (List.append_ne_nil_of_right_ne_nil before (List.cons_ne_nil line behind))
    · cases hline
  | append_singleton lines last ih =>
    have hstep : (lines ++ [last]).foldl (seenStep std banner (std.toLowercase needle)) false = true ↔
        Mentions std needle last ∨ ¬banner <:+: last ∧
          lines.foldl (seenStep std banner (std.toLowercase needle)) false = true := by
      rw [List.foldl_append, List.foldl_cons, List.foldl_nil, seenStep]
      by_cases hmentions : Mentions std needle last
      · rw [if_pos (contains_eq_true.mpr hmentions)]
        exact ⟨fun _ => .inl hmentions, fun _ => rfl⟩
      · rw [if_neg fun h => hmentions (contains_eq_true.mp h)]
        by_cases hbanner : banner <:+: last
        · rw [if_pos (contains_eq_true.mpr hbanner)]
          refine ⟨nofun, ?_⟩
          rintro (h | ⟨h, -⟩)
          · exact absurd h hmentions
          · exact absurd hbanner h
        · rw [if_neg fun h => hbanner (contains_eq_true.mp h)]
          exact ⟨fun h => .inr ⟨hbanner, h⟩, fun h => (h.resolve_left hmentions).2⟩
    rw [hstep, ih, afterBanner_concat]
    simp only [List.mem_append, List.mem_singleton, or_imp, forall_and, forall_eq, or_and_right, exists_or,
      exists_eq_left]
    have hexists : (∃ line ∈ lines, banner <:+: line) ↔ ¬∀ line ∈ lines, ¬banner <:+: line := by
      push Not
      rfl
    rw [hexists]
    -- the last line has the banner, or it only matters whether one before it has
    by_cases hbanner : banner <:+: last
    · simp only [hbanner, not_true_eq_false, false_and, and_false, or_false, true_and]
    · by_cases hnone : ∀ line ∈ lines, ¬banner <:+: line
      · rw [eq_true hnone]
        simp only [hbanner, not_false_eq_true, not_true_eq_false, true_and, false_and, false_or, or_false, and_true]
        rw [or_left_comm]
        exact or_congr_right or_comm
      · rw [eq_false hnone]
        simp only [hbanner, not_false_eq_true, true_and, false_and, false_or, or_false]
        exact or_comm

/-- **The check is anchored on the banner** exactly when a line has the banner or none has the needle. -/
lemma seenAfterBanner_spec (std : Std) (log banner needle : Text) :
    (seenAfterBanner std log banner needle = true ↔ AfterBanner std banner needle (lines log)) ↔
      Decided std banner needle (lines log) := by
  rw [seenAfterBanner, seen_lines_iff]
  constructor
  · intro h
    by_cases hbanner : ∃ line ∈ lines log, banner <:+: line
    · exact .inl hbanner
    · have hnone : ∀ line ∈ lines log, ¬banner <:+: line := fun line hline hin => hbanner ⟨line, hline, hin⟩
      refine .inr fun line hline hmentions => not_afterBanner hnone (h.mp (.inr ⟨hnone, ?_⟩))
      exact ⟨line, hline, hmentions⟩
  · rintro (⟨line, hline, hbanner⟩ | hnone)
    · exact ⟨fun h => h.resolve_right fun hnot => hnot.1 line hline hbanner, .inl⟩
    · refine ⟨fun h => h.resolve_right fun hnot => ?_, .inl⟩
      obtain ⟨-, line, hline, hmentions⟩ := hnot
      exact hnone line hline hmentions

/-- Reads that cut no character -/
lemma accumulated_pieces {pieces : List Text} (h : ∀ piece ∈ pieces, std.fromUtf8Lossy (utf8 piece) = piece) :
    accumulated std (pieces.map utf8) = pieces.flatten := by
  induction pieces with
  | nil => rfl
  | cons piece pieces ih =>
    rw [List.map_cons, accumulated, List.flatMap_cons, ← accumulated, List.flatten_cons,
      h piece List.mem_cons_self, ih fun piece hpiece => h piece (List.mem_cons_of_mem _ hpiece)]

lemma BootLog.poll_spec {boot boot' : BootLog} {answer : Answer} (h : boot.poll std answer = some boot') :
    boot'.banner = boot.banner ∧ ∃ reads, boot'.log = boot.log ++ accumulated std reads := by
  have hnone : boot.log = boot.log ++ accumulated std [] := (List.append_nil _).symm
  unfold poll at h
  split_ifs at h
  · cases h
    exact ⟨rfl, [], hnone⟩
  · cases hread : answer.read with
    | none =>
      rw [hread] at h
      cases h
      exact ⟨rfl, [], hnone⟩
    | some bytes =>
      rw [hread] at h
      cases h
      refine ⟨rfl, ?_⟩
      dsimp only
      split_ifs
      · refine ⟨[bytes], ?_⟩
        rw [accumulated, List.flatMap_singleton]
      · exact ⟨[], hnone⟩

/-- A wait ends with the check of what has been read so far. -/
lemma BootLog.waitFor_spec {needle : Text} {answers : List Answer} {boot boot' : BootLog} {found : Bool}
    (h : BootLog.waitFor std needle answers boot = some (found, boot')) :
    found = seenAfterBanner std boot'.log boot.banner needle ∧ boot'.banner = boot.banner ∧
      ∃ reads, boot'.log = boot.log ++ accumulated std reads := by
  induction answers generalizing boot with
  | nil =>
    cases h
    exact ⟨rfl, rfl, [], (List.append_nil _).symm⟩
  | cons answer answers ih =>
    rw [waitFor] at h
    by_cases hseen : seenAfterBanner std boot.log boot.banner needle = true
    · rw [if_pos hseen] at h
      cases h
      exact ⟨hseen.symm, rfl, [], (List.append_nil _).symm⟩
    · rw [if_neg hseen] at h
      cases hpoll : boot.poll std answer with
      | none =>
        rw [hpoll] at h
        cases h
      | some polled =>
        rw [hpoll] at h
        obtain ⟨hbanner, reads, hreads⟩ := poll_spec hpoll
        obtain ⟨hfound, hbanner', reads', hreads'⟩ := ih h
        rw [hbanner] at hfound hbanner'
        refine ⟨hfound, hbanner', reads ++ reads', ?_⟩
        rw [hreads', hreads, List.append_assoc, accumulated, accumulated, accumulated, List.flatMap_append]

/-- **The boot check**, for every way of reading the log, also if the reads cut characters, and as the
answer of wait_for, which stops at the first log that passes. -/
theorem boot_check_iff (std : Std) (banner needle : Text) :
    (∀ reads,
      (seenAfterBanner std (accumulated std reads) banner needle = true ↔
        AfterBanner std banner needle (lines (accumulated std reads))) ↔
      Decided std banner needle (lines (accumulated std reads))) ∧
    (∀ pieces : List Text, (∀ piece ∈ pieces, std.fromUtf8Lossy (utf8 piece) = piece) →
      ((seenAfterBanner std (accumulated std (pieces.map utf8)) banner needle = true ↔
        AfterBanner std banner needle (lines pieces.flatten)) ↔
      Decided std banner needle (lines pieces.flatten))) ∧
    ∀ answers found boot, BootLog.waitFor std needle answers (.new banner) = some (found, boot) →
      (∃ reads, boot.log = accumulated std reads) ∧
      ((found = true ↔ AfterBanner std banner needle (lines boot.log)) ↔
        Decided std banner needle (lines boot.log)) := by
  refine ⟨fun reads => seenAfterBanner_spec std _ banner needle, fun pieces h => ?_,
    fun answers found boot h => ?_⟩
  · rw [accumulated_pieces h]
    exact seenAfterBanner_spec std _ banner needle
  · obtain ⟨rfl, -, reads, hreads⟩ := BootLog.waitFor_spec h
    exact ⟨⟨reads, hreads⟩, seenAfterBanner_spec std _ banner needle⟩

/-- What the standard library does with ASCII -/
def asciiStd : Std where
  fromUtf8Lossy bytes := bytes.map fun byte => Char.ofNat byte.toNat
  toLowercase text := text.map Char.toLower

/-- A stale UID, and the banner cut by a read -/
theorem boot_check_cut :
    (seenAfterBanner asciiStd (accumulated asciiStd (["ABC\n# B".toList, "oot\nhi\n".toList].map utf8))
      "# Boot".toList "abc".toList = true ↔
    AfterBanner asciiStd "# Boot".toList "abc".toList
      (lines ["ABC\n# B".toList, "oot\nhi\n".toList].flatten)) := by
  obtain ⟨-, hpieces, -⟩ := boot_check_iff asciiStd "# Boot".toList "abc".toList
  exact (hpieces _ (by decide)).mpr (.inl (by decide))

/-- A stale UID without a banner behind it passes, and ends the wait before the banner is read. -/
theorem boot_check_stale :
    seenAfterBanner asciiStd (accumulated asciiStd [utf8 "ABC\n".toList]) "# Boot".toList "abc".toList =
      true ∧
    ¬AfterBanner asciiStd "# Boot".toList "abc".toList
      (lines (accumulated asciiStd [utf8 "ABC\n".toList])) ∧
    (BootLog.waitFor asciiStd "abc".toList
      [⟨true, true, some (utf8 "ABC\n".toList)⟩, ⟨true, true, some (utf8 "# Boot\n".toList)⟩]
      (.new "# Boot".toList)).map Prod.fst = some true :=
  ⟨by decide, not_afterBanner (by decide), by decide⟩

end SensorLink.Provision
