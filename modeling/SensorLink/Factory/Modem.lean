import SensorLink.Lib.Search
import SensorLink.Lib.Text

/-!
# The AT exchange of `modem.rs`

What the UART answers is a list of turns: when it is asked, and what comes of it in time. A read gives at
most what the buffer has room for.
-/

namespace SensorLink.Factory

open Lib

/-- The time since the first read, and what `read` gives before its timeout: nothing, an error, or bytes -/
structure UartTurn where
  micros : ℕ
  answer : Option (Except Unit (List UInt8))

/-- Whether a command is taken in time, and the answers to the reads -/
structure Uart where
  write : List UInt8 → Bool
  turns : List UartTurn

/-- `contains` -/
def occurs (haystack needle : List UInt8) : Bool :=
  (windows needle.length haystack).any fun w => w == needle

/-- `ends_response` -/
def endsResponse (buf : List UInt8) : Bool :=
  occurs buf (strBytes "OK\r\n") || occurs buf (strBytes "ERROR")

/-- The loop that drains what is left over, up to the first read that gives nothing -/
def drain : List UartTurn → List UartTurn
  | [] => []
  | turn :: turns => if turn.answer.isSome then drain turns else turns

/-- The loop of `exchange`, with what is filled of the buffer -/
def exchangeLoop (capacity timeoutMs : ℕ) : List UartTurn → List UInt8 → List UInt8
  | [], filled => filled
  | turn :: turns, filled =>
    if filled.length < capacity then
      -- the milliseconds are cast to u32
      if timeoutMs - turn.micros / 1000 % 2 ^ 32 = 0 then filled
      else match turn.answer with
        | some (.ok (byte :: bytes)) =>
          let filled := filled ++ (byte :: bytes).take (capacity - filled.length)
          if endsResponse filled then filled else exchangeLoop capacity timeoutMs turns filled
        | _ => filled
    else filled

/-- `exchange`, with a buffer of this capacity -/
def exchange (uart : Uart) (cmd : List UInt8) (capacity timeoutMs : ℕ) : List UInt8 :=
  let turns := drain uart.turns
  if uart.write cmd then exchangeLoop capacity timeoutMs turns [] else []

/-! ### Replies -/

/-- The last line of a reply, where the codes are any bytes -/
inductive FinalResult
  | ok
  | error
  | cmeError (code : List UInt8)
  | cmsError (code : List UInt8)
deriving DecidableEq

def crlf : List UInt8 := [13, 10]

def FinalResult.bytes : FinalResult → List UInt8
  | ok => strBytes "OK" ++ crlf
  | error => strBytes "ERROR" ++ crlf
  | cmeError code => strBytes "+CME ERROR: " ++ code ++ crlf
  | cmsError code => strBytes "+CMS ERROR: " ++ code ++ crlf

/-- Information lines and a final one -/
def reply (lines : List (List UInt8)) (final : FinalResult) : List UInt8 :=
  lines.flatMap (fun line => line ++ crlf) ++ final.bytes

/-- A line that contains neither OK nor ERROR -/
def IsInformation (line : List UInt8) : Prop :=
  ¬strBytes "OK" <:+: line ∧ ¬strBytes "ERROR" <:+: line

instance (line : List UInt8) : Decidable (IsInformation line) := inferInstanceAs (Decidable (_ ∧ _))

/-- Reads that arrive in time -/
def arriving (arrivals : List (ℕ × List UInt8)) : List UartTurn :=
  arrivals.map fun arrival => ⟨arrival.1, some (.ok arrival.2)⟩

/-! ### Where a reply ends -/

lemma occurs_iff {haystack needle : List UInt8} : occurs haystack needle = true ↔ needle <:+: haystack := by
  rw [occurs, List.any_beq', List.contains_iff_mem, mem_windows]

lemma endsResponse_iff {buf : List UInt8} :
    endsResponse buf = true ↔ strBytes "OK\r\n" <:+: buf ∨ strBytes "ERROR" <:+: buf := by
  rw [endsResponse, Bool.or_eq_true, occurs_iff, occurs_iff]

lemma endsResponse_append {buf : List UInt8} (h : endsResponse buf = true) (bytes : List UInt8) :
    endsResponse (buf ++ bytes) = true := by
  rw [endsResponse_iff] at h ⊢
  exact h.imp (fun h => h.trans List.infix_append_left) fun h => h.trans List.infix_append_left

/-- What is found in a reply, and begins with something that no information line contains, is found behind
the information lines. -/
lemma search_lines {m needle xs : List UInt8} {lines : List (List UInt8)} (hm : m <+: needle) (hne : m ≠ [])
    (hcr : 13 ∉ m) (hlf : 10 ∉ m) (hlines : ∀ line ∈ lines, ¬m <:+: line)
    (h : needle <:+: lines.flatMap (fun line => line ++ crlf) ++ xs) : needle <:+: xs := by
  induction lines with
  | nil => exact h
  | cons line lines ih =>
    rw [List.flatMap_cons, crlf, List.append_assoc, List.append_assoc] at h
    rcases infix_append_cons hm hcr h with hline | hrest
    · exact absurd hline (hlines line List.mem_cons_self)
    · have hsearch : m <:+: [] ∨ needle <:+: lines.flatMap (fun line => line ++ [13, 10]) ++ xs :=
        infix_append_cons hm hlf hrest
      rcases hsearch with hnil | hrest
      · exact absurd (List.infix_nil.mp hnil) hne
      · exact ih (fun line hline => hlines line (List.mem_cons_of_mem _ hline)) hrest

section Reply

variable {lines : List (List UInt8)} {final : FinalResult}

lemma ok_in_reply {xs : List UInt8} (hlines : ∀ line ∈ lines, IsInformation line)
    (h : strBytes "OK\r\n" <:+: lines.flatMap (fun line => line ++ crlf) ++ xs) :
    strBytes "OK\r\n" <:+: xs :=
  search_lines (m := strBytes "OK") (by decide) (by decide) (by decide) (by decide)
    (fun line hline => (hlines line hline).1) h

lemma error_in_reply {xs : List UInt8} (hlines : ∀ line ∈ lines, IsInformation line)
    (h : strBytes "ERROR" <:+: lines.flatMap (fun line => line ++ crlf) ++ xs) : strBytes "ERROR" <:+: xs :=
  search_lines (List.prefix_refl _) (by decide) (by decide) (by decide)
    (fun line hline => (hlines line hline).2) h

/-- A final line other than OK is known by the word ERROR at its beginning. -/
lemma FinalResult.bytes_error (h : final ≠ .ok) : ∃ front tail, final.bytes = front ++ tail ∧
    strBytes "ERROR" <:+: front ∧ ¬strBytes "OK\r\n" <:+: front := by
  cases final with
  | ok => exact absurd rfl h
  | error => exact ⟨strBytes "ERROR", crlf, rfl, by decide, by decide⟩
  | cmeError code =>
    exact ⟨strBytes "+CME ERROR: ", code ++ crlf, List.append_assoc _ _ _, by decide, by decide⟩
  | cmsError code =>
    exact ⟨strBytes "+CMS ERROR: ", code ++ crlf, List.append_assoc _ _ _, by decide, by decide⟩

lemma endsResponse_reply (lines : List (List UInt8)) (final : FinalResult) :
    endsResponse (reply lines final) = true := by
  rw [endsResponse_iff]
  by_cases hok : final = .ok
  · rw [hok]
    exact .inl List.infix_append_right
  · obtain ⟨front, tail, hbytes, herror, -⟩ := FinalResult.bytes_error hok
    rw [reply, hbytes]
    exact .inr ((herror.trans List.infix_append_left).trans List.infix_append_right)

/-- A part of a reply is taken for the whole one exactly if it has the word ERROR of the final line. -/
lemma endsResponse_part (hlines : ∀ line ∈ lines, IsInformation line) {part rest : List UInt8}
    (hpart : part ++ rest = reply lines final) (hrest : rest ≠ []) :
    endsResponse part = true ↔ final ≠ .ok ∧ strBytes "ERROR" <:+: part := by
  have hprefix : part <+: lines.flatMap (fun line => line ++ crlf) ++ final.bytes := ⟨rest, hpart⟩
  rw [endsResponse_iff]
  constructor
  · rintro (hok | herror)
    · rcases List.prefix_or_prefix_of_prefix hprefix (List.prefix_append _ final.bytes) with hin | ⟨last, rfl⟩
      · -- within the information lines
        have hnil : strBytes "OK\r\n" <:+: [] := by
          refine ok_in_reply hlines ?_
          rw [List.append_nil]
          exact hok.trans hin.isInfix
        exact absurd hnil (by decide)
      · have hlast := ok_in_reply hlines hok
        rw [reply, List.append_assoc, List.append_cancel_left_eq] at hpart
        by_cases hfinal : final = .ok
        · -- a proper part of OK and the line end is too short
          have hlen := hlast.length_le
          rw [hfinal] at hpart
          have hbytes : last.length + rest.length = 4 := by
            rw [← List.length_append, hpart]
            rfl
          have hpos := List.length_pos_iff.mpr hrest
          exact absurd hlen (by rw [show (strBytes "OK\r\n").length = 4 from rfl]; omega)
        · refine ⟨hfinal, ?_⟩
          obtain ⟨front, tail, hbytes, herror, hnot⟩ := FinalResult.bytes_error hfinal
          rw [hbytes] at hpart
          rcases List.prefix_or_prefix_of_prefix ⟨rest, hpart⟩ (List.prefix_append front tail) with hin | hin
          · exact absurd (hlast.trans hin.isInfix) hnot
          · exact (herror.trans hin.isInfix).trans List.infix_append_right
    · refine ⟨?_, herror⟩
      rintro rfl
      exact absurd (error_in_reply hlines (herror.trans hprefix.isInfix)) (by decide)
  · exact fun h => .inr h.2

end Reply

/-! ### The exchange -/

lemma drain_append {stale turns : List UartTurn} (h : ∀ turn ∈ stale, turn.answer.isSome) (micros : ℕ) :
    drain (stale ++ ⟨micros, none⟩ :: turns) = turns := by
  induction stale with
  | nil => rfl
  | cons turn stale ih =>
    rw [List.cons_append, drain, if_pos (h turn List.mem_cons_self)]
    exact ih fun turn hturn => h turn (List.mem_cons_of_mem _ hturn)

/-- A read that arrives in time and finds room -/
lemma exchangeLoop_arriving {capacity timeoutMs micros : ℕ} {bytes filled : List UInt8}
    {turns : List UartTurn} (hbytes : bytes ≠ []) (htime : micros / 1000 < timeoutMs)
    (htimeout : timeoutMs < 2 ^ 32) (hfits : (filled ++ bytes).length ≤ capacity) :
    exchangeLoop capacity timeoutMs (⟨micros, some (.ok bytes)⟩ :: turns) filled =
      if endsResponse (filled ++ bytes) then filled ++ bytes
      else exchangeLoop capacity timeoutMs turns (filled ++ bytes) := by
  obtain ⟨byte, rest, rfl⟩ := List.exists_cons_of_ne_nil hbytes
  rw [List.length_append] at hfits
  have hroom : filled.length < capacity := by
    rw [List.length_cons] at hfits
    omega
  have hremaining : ¬timeoutMs - micros / 1000 % 2 ^ 32 = 0 := by omega
  rw [exchangeLoop, if_pos hroom, if_neg hremaining]
  dsimp only
  rw [List.take_of_length_le (by omega)]

/-- The loop gives the whole reply exactly if no part that ends with a read looks complete. -/
lemma exchangeLoop_iff {capacity timeoutMs : ℕ} {arrivals : List (ℕ × List UInt8)}
    {filled : List UInt8} (later : List UartTurn) (hne : arrivals ≠ [])
    (hbytes : ∀ arrival ∈ arrivals, arrival.2 ≠ [])
    (htime : ∀ arrival ∈ arrivals, arrival.1 / 1000 < timeoutMs) (htimeout : timeoutMs < 2 ^ 32)
    (hfits : (filled ++ (arrivals.map Prod.snd).flatten).length ≤ capacity)
    (hfilled : endsResponse filled = false)
    (hends : endsResponse (filled ++ (arrivals.map Prod.snd).flatten) = true) :
    exchangeLoop capacity timeoutMs (arriving arrivals ++ later) filled =
        filled ++ (arrivals.map Prod.snd).flatten ↔
      endsResponse (filled ++ (arrivals.map Prod.snd).dropLast.flatten) = false := by
  induction arrivals generalizing filled with
  | nil => exact absurd rfl hne
  | cons arrival arrivals ih =>
    obtain ⟨micros, bytes⟩ := arrival
    have hread := hbytes _ List.mem_cons_self
    rw [List.map_cons, List.flatten_cons, ← List.append_assoc] at hfits hends ⊢
    dsimp only at hread hfits hends ⊢
    have hfits' : (filled ++ bytes).length ≤ capacity := by
      rw [List.length_append] at hfits
      omega
    rw [arriving, List.map_cons, List.cons_append, ← arriving,
      exchangeLoop_arriving hread (htime _ List.mem_cons_self) htimeout hfits']
    by_cases hlast : arrivals = []
    · rw [hlast, List.map_nil, List.flatten_nil, List.append_nil] at hends
      rw [if_pos hends, hlast]
      simp [hfilled]
    have hdrop : (bytes :: arrivals.map Prod.snd).dropLast = bytes :: (arrivals.map Prod.snd).dropLast :=
      List.dropLast_cons_of_ne_nil fun hnil => hlast (List.map_eq_nil_iff.mp hnil)
    rw [hdrop, List.flatten_cons, ← List.append_assoc]
    cases hearly : endsResponse (filled ++ bytes) with
    | true =>
      -- the rest of the reads is not empty
      obtain ⟨next, rest, rfl⟩ := List.exists_cons_of_ne_nil hlast
      rw [if_pos rfl, endsResponse_append hearly]
      refine ⟨fun heq => absurd (List.self_eq_append_right.mp heq) ?_, nofun⟩
      rw [List.map_cons, List.flatten_cons]
      exact List.append_ne_nil_of_left_ne_nil (hbytes next (by simp)) _
    | false =>
      rw [if_neg Bool.false_ne_true]
      exact ih hlast (fun arrival h => hbytes arrival (List.mem_cons_of_mem _ h))
        (fun arrival h => htime arrival (List.mem_cons_of_mem _ h)) hfits hearly hends

/-- **An exchange returns the whole reply** exactly if its final line is OK, or the word ERROR is complete
only with the last read. -/
theorem exchange_whole_iff {uart : Uart} {cmd : List UInt8} {capacity timeoutMs micros : ℕ}
    {stale later : List UartTurn} {arrivals : List (ℕ × List UInt8)} {lines : List (List UInt8)}
    {final : FinalResult} (hlines : ∀ line ∈ lines, IsInformation line) (hwrite : uart.write cmd = true)
    (hstale : ∀ turn ∈ stale, turn.answer.isSome)
    (hturns : uart.turns = stale ++ ⟨micros, none⟩ :: (arriving arrivals ++ later))
    (hreply : (arrivals.map Prod.snd).flatten = reply lines final)
    (hbytes : ∀ arrival ∈ arrivals, arrival.2 ≠ [])
    (htime : ∀ arrival ∈ arrivals, arrival.1 / 1000 < timeoutMs) (htimeout : timeoutMs < 2 ^ 32)
    (hfits : (reply lines final).length ≤ capacity) :
    exchange uart cmd capacity timeoutMs = reply lines final ↔
      final = .ok ∨ ¬strBytes "ERROR" <:+: (arrivals.map Prod.snd).dropLast.flatten := by
  have hne : arrivals ≠ [] := by
    rintro rfl
    have hends := endsResponse_reply lines final
    rw [← hreply] at hends
    exact absurd hends (by decide)
  have hmap : arrivals.map Prod.snd ≠ [] := fun hnil => hne (List.map_eq_nil_iff.mp hnil)
  have hsplit := List.dropLast_append_getLast hmap
  have hlast : (arrivals.map Prod.snd).getLast hmap ≠ [] := by
    obtain ⟨arrival, harrival, heq⟩ := List.mem_map.mp (List.getLast_mem hmap)
    rw [← heq]
    exact hbytes arrival harrival
  have hpart : (arrivals.map Prod.snd).dropLast.flatten ++ (arrivals.map Prod.snd).getLast hmap =
      reply lines final := by
    rw [← hreply]
    conv_rhs => rw [← hsplit]
    rw [List.flatten_append, List.flatten_singleton]
  have hroom : ([] ++ (arrivals.map Prod.snd).flatten).length ≤ capacity := by
    rw [List.nil_append, hreply]
    exact hfits
  have hends : endsResponse ([] ++ (arrivals.map Prod.snd).flatten) = true := by
    rw [List.nil_append, hreply]
    exact endsResponse_reply lines final
  have hloop := exchangeLoop_iff later hne hbytes htime htimeout hroom (by decide) hends
  rw [List.nil_append, List.nil_append, hreply] at hloop
  rw [exchange, hturns, drain_append hstale, if_pos hwrite, hloop, Bool.eq_false_iff,
    Ne, endsResponse_part hlines hpart hlast]
  tauto

/-- A UART that takes every command: a stale line, and then these reads, a millisecond after another -/
def sampleUart (reads : List String) : Uart where
  write _ := true
  turns := ⟨0, some (.ok (strBytes "RDY\r\n"))⟩ :: ⟨0, none⟩ ::
    arriving (reads.mapIdx fun i read => (1000 * i, strBytes read))

/-- A final OK that is cut by a read -/
theorem exchange_whole_ok :
    exchange (sampleUart ["\r\n+CPIN: REA", "DY\r\n\r\nO", "K\r\n"]) (strBytes "AT+CPIN?\r") 64 1000 =
      reply [[], strBytes "+CPIN: READY", []] .ok := by
  have hturns : (sampleUart ["\r\n+CPIN: REA", "DY\r\n\r\nO", "K\r\n"]).turns =
      [⟨0, some (.ok (strBytes "RDY\r\n"))⟩] ++ ⟨0, none⟩ :: (arriving [(0, strBytes "\r\n+CPIN: REA"),
        (1000, strBytes "DY\r\n\r\nO"), (2000, strBytes "K\r\n")] ++ []) := rfl
  exact (exchange_whole_iff (by decide) rfl (by decide) hturns (by decide) (by decide) (by decide)
    (by decide) (by decide)).mpr (.inl rfl)

/-- A read that ends with the word ERROR: the code is lost. -/
theorem exchange_cut_error :
    (∀ line ∈ [[], []], IsInformation line) ∧
    (["\r\n+CME ERROR", ": 10\r\n"].map strBytes).flatten = reply [[]] (.cmeError (strBytes "10")) ∧
    exchange (sampleUart ["\r\n+CME ERROR", ": 10\r\n"]) (strBytes "AT+CPIN?\r") 64 1000 =
      strBytes "\r\n+CME ERROR" ∧
    exchange (sampleUart ["\r\n+CME ERROR", ": 10\r\n"]) (strBytes "AT+CPIN?\r") 64 1000 ≠
      reply [[]] (.cmeError (strBytes "10")) := by
  decide

end SensorLink.Factory
