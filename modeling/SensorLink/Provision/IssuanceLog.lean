import SensorLink.Provision.Iccid

/-!
# The issuance log of `log_csv.rs`

One row for each provisioned device. A UID is looked up in the second column of all lines but the first one.
-/

namespace SensorLink.Provision

/-- `HEADER` -/
def logHeader : Text := "datetime_utc,uid,sim_icc,cert_serial,cert_sha256".toList

/-- The time of a row, as it is formatted -/
structure Timestamp where
  text : Text
  plain : ',' ∉ text ∧ '\n' ∉ text

structure Row where
  uid : Text
  icc : Text
  certSerial : Text
  certSha256 : Text

namespace Row

/-- The columns behind the UID -/
def details (row : Row) : Text := row.icc ++ ',' :: (row.certSerial ++ ',' :: row.certSha256)

/-- What `append` writes, without the newline -/
def line (row : Row) (ts : Timestamp) : Text := ts.text ++ ',' :: (row.uid ++ ',' :: row.details)

def text (row : Row) (ts : Timestamp) : Text := row.line ts ++ ['\n']

end Row

namespace IssuanceLog

/-- `init` -/
def init (file : Option Text) : Text := file.getD (logHeader ++ ['\n'])

/-- `contains_uid`; there may be no file. -/
def containsUid (file : Option Text) (uid : Text) : Bool :=
  match file with
  | none => false
  | some text => ((lines text).drop 1).any fun line => (line.splitOn ',')[1]? = some uid

/-! ### What has been appended is found -/

/-- The last line ends with a newline. -/
def Whole (text : Text) : Prop := ['\n'] <:+ text

/-- What keeps a row in its line and its UID in its column -/
structure Clean (row : Row) : Prop where
  uid : ',' ∉ row.uid ∧ '\n' ∉ row.uid
  icc : '\n' ∉ row.icc
  serial : '\n' ∉ row.certSerial
  sha256 : '\n' ∉ row.certSha256 ∧ '\r' ∉ row.certSha256

variable {text : Text} {row : Row} {ts : Timestamp}

lemma whole_header : Whole (logHeader ++ ['\n']) := List.suffix_append _ _

lemma whole_append (text : Text) : Whole (text ++ row.text ts) :=
  ⟨text ++ row.line ts, by rw [Row.text, List.append_assoc]⟩

lemma splitInclusive_ne_nil (h : text ≠ []) : splitInclusive text ≠ [] := by
  cases text with
  | nil => exact absurd rfl h
  | cons c text =>
    unfold splitInclusive
    split
    · exact List.cons_ne_nil _ _
    · split <;> exact List.cons_ne_nil _ _

/-- A text that ends with a newline is split on its own. -/
lemma splitInclusive_append (h : text = [] ∨ Whole text) (more : Text) :
    splitInclusive (text ++ more) = splitInclusive text ++ splitInclusive more := by
  induction text with
  | nil => rfl
  | cons c text ih =>
    have hwhole : Whole (c :: text) := h.resolve_left (List.cons_ne_nil _ _)
    have htail : text = [] ∨ Whole text := by
      rcases List.suffix_cons_iff.mp hwhole with heq | hsuffix
      · exact .inl (List.cons.inj heq).2.symm
      · exact .inr hsuffix
    rw [List.cons_append, splitInclusive, splitInclusive, ih htail]
    by_cases hc : c = '\n'
    · rw [if_pos hc, if_pos hc, List.cons_append]
    · rw [if_neg hc, if_neg hc]
      have hne : text ≠ [] := by
        rintro rfl
        obtain ⟨front, hfront⟩ := hwhole
        have := congrArg List.getLast? hfront
        simp only [List.getLast?_append, List.getLast?_singleton] at this
        exact hc (by simpa using this.symm)
      obtain ⟨line, rest, hsplit⟩ := List.exists_cons_of_ne_nil (splitInclusive_ne_nil hne)
      simp only [hsplit, List.cons_append]

lemma lines_append (h : text = [] ∨ Whole text) (more : Text) : lines (text ++ more) = lines text ++ lines more := by
  rw [lines, splitInclusive_append h, List.map_append, ← lines, ← lines]

lemma splitInclusive_line {line : Text} (h : '\n' ∉ line) : splitInclusive (line ++ ['\n']) = [line ++ ['\n']] := by
  induction line with
  | nil => rfl
  | cons c line ih =>
    have hc : c ≠ '\n' := fun hc => h (hc ▸ List.mem_cons_self)
    rw [List.cons_append, splitInclusive, if_neg hc, ih fun hmem => h (List.mem_cons_of_mem _ hmem)]

lemma stripEnd_line {line : Text} (h : ¬['\r'] <:+ line) : stripEnd (line ++ ['\n']) = line := by
  rw [stripEnd, if_pos (List.suffix_append line ['\n'])]
  simp only [List.dropLast_concat, if_neg h]

namespace Clean

lemma newline_notMem (h : Clean row) (ts : Timestamp) : '\n' ∉ row.line ts := by
  simp only [Row.line, Row.details, List.mem_append, List.mem_cons, not_or]
  exact ⟨ts.plain.2, by decide, h.uid.2, by decide, h.icc, by decide, h.serial, by decide, h.sha256.1⟩

/-- The last character of a row is one of the digest or a comma. -/
lemma not_return (h : Clean row) (ts : Timestamp) : ¬['\r'] <:+ row.line ts := by
  have hline : row.line ts = (ts.text ++ ',' :: (row.uid ++ ',' :: (row.icc ++ ',' :: row.certSerial))) ++
      ',' :: row.certSha256 := by simp [Row.line, Row.details]
  rintro ⟨front, hfront⟩
  have hlast : (',' :: row.certSha256).getLast? = some '\r' := by
    rw [← List.getLast?_append_of_ne_nil _ (List.cons_ne_nil _ _), ← hline, ← hfront, List.getLast?_concat]
  have hmem : '\r' ∈ ',' :: row.certSha256 := List.mem_of_getLast? hlast
  rcases List.mem_cons.mp hmem with hcomma | hmem
  · exact absurd hcomma (by decide)
  · exact h.sha256.2 hmem

lemma lines_text (h : Clean row) (ts : Timestamp) : lines (row.text ts) = [row.line ts] := by
  rw [lines, Row.text, splitInclusive_line (h.newline_notMem ts), List.map_singleton,
    stripEnd_line (h.not_return ts)]

lemma uid_column (h : Clean row) (ts : Timestamp) : ((row.line ts).splitOn ',')[1]? = some row.uid := by
  rw [Row.line, List.splitOn_append_cons_self_of_not_mem ts.plain.1,
    List.splitOn_append_cons_self_of_not_mem h.uid.1]
  rfl

end Clean

/-- **A row is found by its UID**, and hides none of the rows before it. -/
lemma containsUid_append (hwhole : Whole text) (hrow : Clean row) (uid : Text) :
    containsUid (some (text ++ row.text ts)) uid = true ↔ containsUid (some text) uid = true ∨ uid = row.uid := by
  have hne : text ≠ [] := by
    rintro rfl
    exact absurd (List.suffix_nil.mp hwhole) (List.cons_ne_nil _ _)
  obtain ⟨first, rest, hlines⟩ : ∃ first rest, lines text = first :: rest :=
    List.exists_cons_of_ne_nil fun hnil => splitInclusive_ne_nil hne (List.map_eq_nil_iff.mp hnil)
  simp only [containsUid, lines_append (.inr hwhole), hrow.lines_text ts, hlines, List.cons_append,
    List.drop_succ_cons, List.drop_zero, List.any_append, List.any_cons, List.any_nil, Bool.or_false,
    Bool.or_eq_true, hrow.uid_column ts, decide_eq_true_eq, Option.some.injEq]
  rw [eq_comm (a := row.uid)]

end IssuanceLog

end SensorLink.Provision
