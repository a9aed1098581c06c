import Mathlib.Data.List.GetD
import SensorLink.Modem.Commands

/-!
# One run of the modem

What a program of the driver does when the fates of its commands are known.
-/

namespace SensorLink.Modem

open SensorLink.Lib

/-- The fate of the command of that number -/
def fateAt (fates : List Fate) (n : ℕ) : Fate := fates.getD n default

lemma fateAt_drop (fates : List Fate) (n m : ℕ) : fateAt (fates.drop n) m = fateAt fates (n + m) := by
  unfold fateAt
  rw [List.getD_eq_getElem?_getD, List.getElem?_drop, ← List.getD_eq_getElem?_getD]

/-- What holds of the planned fates and of the default one -/
lemma fateAt_of_forall {P : Fate → Prop} {fates : List Fate} (h : ∀ fate ∈ fates, P fate)
    (hdefault : P default) (n : ℕ) : P (fateAt fates n) := by
  rcases Nat.lt_or_ge n fates.length with hlt | hge
  · rw [fateAt, List.getD_eq_getElem _ _ hlt]
    exact h _ (List.getElem_mem hlt)
  · rwa [fateAt, List.getD_eq_default _ _ hge]

section Run

variable {α : Type} {d : Device Link Fate} {reply : Fate → Link → Option (α × Link)}

lemma headD_eq_fateAt (fates : List Fate) : fates.headD default = fateAt fates 0 := by
  cases fates <;> rfl

lemma run_get {ε : Type} (k : Link → Io ε α) : (Io.get >>= k).run d = (k d.mem).run d := rfl

lemma run_pure {ε β : Type} (b : β) (k : β → Io ε α) : (pure b >>= k).run d = (k b).run d := rfl

lemma run_send_ok {a : α} {l : Link} (hok : (fateAt d.plan 0).ok = true)
    (hreply : reply (fateAt d.plan 0) d.mem = some (a, l)) :
    (Io.send reply).run d = .ok a { d with mem := l, plan := d.plan.drop 1 } := by
  unfold Io.send Dev.act
  simp only [headD_eq_fateAt, hreply, hok, if_true]
  rw [List.drop_one]
  rfl

lemma run_send_err {a : α} {l : Link} (hok : (fateAt d.plan 0).ok = false)
    (hreply : reply (fateAt d.plan 0) d.mem = some (a, l)) :
    ∃ l', (l' = l ∨ l' = d.mem) ∧
      (Io.send reply).run d = .err .client { d with mem := l', plan := d.plan.drop 1 } := by
  unfold Io.send Dev.act
  simp only [headD_eq_fateAt, hreply, hok]
  rw [List.drop_one]
  cases (fateAt d.plan 0).took with
  | true => exact ⟨l, .inl rfl, rfl⟩
  | false => exact ⟨d.mem, .inr rfl, rfl⟩

lemma run_send_refused (hreply : reply (fateAt d.plan 0) d.mem = none) :
    (Io.send reply).run d = .err .client { d with plan := d.plan.drop 1 } := by
  unfold Io.send Dev.act
  simp only [headD_eq_fateAt, hreply]
  rw [List.drop_one]
  rfl

end Run

/-- The device when that many fates are used up -/
def after (d : Device Link Fate) (used : ℕ) (l : Link) : Device Link Fate :=
  { d with mem := l, plan := d.plan.drop used }

@[simp] lemma after_after (d : Device Link Fate) (n m : ℕ) (l l' : Link) :
    after (after d n l) m l' = after d (n + m) l' := by
  simp only [after, List.drop_drop]

@[simp] lemma fateAt_after (d : Device Link Fate) (n m : ℕ) (l : Link) :
    fateAt (after d n l).plan m = fateAt d.plan (n + m) := fateAt_drop _ _ _

lemma plan_after (d : Device Link Fate) (n : ℕ) (l : Link) : (after d n l).plan = d.plan.drop n := rfl

@[simp] lemma mem_after (d : Device Link Fate) (n : ℕ) (l : Link) : (after d n l).mem = l := rfl

lemma run_sendPlain {d : Device Link Fate} (hok : (fateAt d.plan 0).ok = true) :
    Io.sendPlain.run d = .ok () (after d 1 d.mem) := run_send_ok hok rfl

/-! ### Files -/

/-- The position of that handle is moved. -/
def moved (handle position : ℕ) (l : Link) : Link :=
  { l with position := fun h => if h = handle then some position else l.position h }

section Open

variable {start : Device Link Fate}

/-- The device once the file is opened -/
def opened (start : Device Link Fate) : Device Link Fate :=
  let handle := (fateAt start.plan 0).number
  { start with
    mem := { moved handle 0 start.mem with fileHandle := some handle }
    plan := start.plan.drop 1 }

lemma run_openCommand (hopen : (fateAt start.plan 0).ok = true) :
    openCommand.run start = .ok (fateAt start.plan 0).number
      { start with mem := moved (fateAt start.plan 0).number 0 start.mem, plan := start.plan.drop 1 } :=
  run_send_ok hopen rfl

/-- The device once the file is to be read from that position -/
def sought (start : Device Link Fate) (position : ℕ) : Device Link Fate :=
  { opened start with
    mem := moved (fateAt start.plan 0).number position (opened start).mem
    plan := start.plan.drop 2 }

/-- The modem knows the handle. -/
lemma seek_reply (position : ℕ) : ((opened start).mem.position (fateAt start.plan 0).number).map (fun _ =>
    ((), moved (fateAt start.plan 0).number position (opened start).mem)) =
    some ((), moved (fateAt start.plan 0).number position (opened start).mem) := by
  simp only [opened, moved, if_true, Option.map_some]

lemma run_seek (position : ℕ) (hseek : (fateAt start.plan 1).ok = true) :
    (seekCommand (fateAt start.plan 0).number position).run (opened start) =
      .ok () (sought start position) := by
  have hfate : fateAt (opened start).plan 0 = fateAt start.plan 1 := fateAt_drop _ _ _
  refine (run_send_ok (by rw [hfate]; exact hseek) (seek_reply position)).trans ?_
  simp only [sought, opened, List.drop_drop]

lemma run_seek_err (position : ℕ) (hseek : (fateAt start.plan 1).ok = false) :
    ∃ d, (seekCommand (fateAt start.plan 0).number position).run (opened start) = .err .client d := by
  have hfate : fateAt (opened start).plan 0 = fateAt start.plan 1 := fateAt_drop _ _ _
  obtain ⟨l, -, hrun⟩ : ∃ l, (l = moved (fateAt start.plan 0).number position (opened start).mem ∨
      l = (opened start).mem) ∧ (seekCommand (fateAt start.plan 0).number position).run (opened start) =
        .err .client { opened start with mem := l, plan := (opened start).plan.drop 1 } :=
    run_send_err (by rw [hfate]; exact hseek) (seek_reply position)
  exact ⟨_, hrun⟩

end Open

section Read

variable {d : Device Link Fate} {handle len position : ℕ} {data : List UInt8}

/-- What the modem has read it announces and sends. -/
lemma read_reply (hposition : d.mem.position handle = some position)
    (hdata : (d.mem.file.drop position).take (len - (fateAt d.plan 0).number) = data)
    (hlen : data.length ≤ 1024) : (do
      let position ← d.mem.position handle
      let data := (d.mem.file.drop position).take (len - (fateAt d.plan 0).number)
      let bytes ← parseRead data.length data
      some (bytes, moved handle (position + data.length) d.mem)) =
    some (data, moved handle (position + data.length) d.mem) := by
  have hparse : parseRead data.length data = some data := by
    simp only [parseRead, Nat.min_self, List.take_length]
    rw [if_pos (by omega), if_pos hlen]
  simp only [hposition, Option.bind_eq_bind, Option.bind_some, hdata, hparse]

lemma run_readCommand_ok (hok : (fateAt d.plan 0).ok = true)
    (hposition : d.mem.position handle = some position)
    (hdata : (d.mem.file.drop position).take (len - (fateAt d.plan 0).number) = data)
    (hlen : data.length ≤ 1024) :
    (readCommand handle len).run d =
      .ok data { d with mem := moved handle (position + data.length) d.mem, plan := d.plan.drop 1 } :=
  run_send_ok hok (read_reply hposition hdata hlen)

lemma run_readCommand_err (hok : (fateAt d.plan 0).ok = false)
    (hposition : d.mem.position handle = some position)
    (hdata : (d.mem.file.drop position).take (len - (fateAt d.plan 0).number) = data)
    (hlen : data.length ≤ 1024) :
    ∃ d', (readCommand handle len).run d = .err .client d' ∧ d'.mem.file = d.mem.file := by
  obtain ⟨l, hl, hrun⟩ : ∃ l, (l = moved handle (position + data.length) d.mem ∨ l = d.mem) ∧
      (readCommand handle len).run d = .err .client { d with mem := l, plan := d.plan.drop 1 } :=
    run_send_err hok (read_reply hposition hdata hlen)
  refine ⟨_, hrun, ?_⟩
  rcases hl with rfl | rfl <;> rfl

end Read

end SensorLink.Modem
