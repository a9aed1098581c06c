import SensorLink.Modem.Download

/-!
# The stored slice

The slice that the driver believes to be stored is stored, and an open handle stands where the next read
is to go on: a read that fails closes the handle, and a slice that is fetched again is read from the same
place.
-/

namespace SensorLink.Modem

open SensorLink.Lib

/-- Whatever the fates of its commands are, the program does not panic; it ends with a result in `Q` or with
an error in `E`. -/
abbrev Spec {ε α : Type} (p : Io ε α) (Q : α → Link → Prop) (E : ε → Link → Prop) (l : Link) : Prop :=
  Dev.wp (Dev.allFaults Fate) p Q E (fun _ => False) l

section Rules

variable {ε α : Type} {Q : α → Link → Prop} {E : ε → Link → Prop} {l : Link}

lemma spec_get {Q : Link → Link → Prop} (h : Q l l) : Spec Io.get Q E l := Dev.wp_update h

lemma spec_set {Q : Unit → Link → Prop} {f : Link → Link} (h : Q () (f l)) : Spec (Io.set f) Q E l :=
  Dev.wp_update h

lemma spec_unwrap {o : Option α} {a : α} (ho : o = some a) (h : Q a l) : Spec (Io.unwrap o) Q E l := by
  subst ho
  exact Dev.wp_pure h

lemma spec_add {Q : ℕ → Link → Prop} {a b : ℕ} (hlt : a + b < 2 ^ 32) (h : Q (a + b) l) :
    Spec (Io.add a b) Q E l := by
  unfold Io.add
  rw [if_pos hlt]
  exact Dev.wp_pure h

lemma spec_sub {Q : ℕ → Link → Prop} {a b : ℕ} (hle : b ≤ a) (h : Q (a - b) l) :
    Spec (Io.sub a b) Q E l := by
  unfold Io.sub
  rw [if_pos hle]
  exact Dev.wp_pure h

/-- A command that the modem does not refuse -/
lemma spec_send {E : Error → Link → Prop} {reply : Fate → Link → Option (α × Link)}
    (h : ∀ fate, ∃ a l', reply fate l = some (a, l') ∧ Q a l' ∧ E .client l') (hE : E .client l) :
    Spec (Io.send reply) Q E l := by
  refine Dev.wp_act trivial fun fate _ => ?_
  obtain ⟨a, l', hreply, hQ, hE'⟩ := h fate
  simp only [hreply]
  cases fate.ok with
  | true => exact hQ
  | false => cases fate.took with
    | true => exact hE'
    | false => exact hE

lemma spec_sendPlain {Q : Unit → Link → Prop} {E : Error → Link → Prop} (hQ : Q () l) (hE : E .client l) :
    Spec Io.sendPlain Q E l := spec_send (fun _ => ⟨(), l, rfl, hQ, hE⟩) hE

/-- A command that the program does not rely on -/
lemma spec_ignorePlain {Q : Except Error Unit → Link → Prop} (h : ∀ r, Q r l) :
    Spec (Io.sendPlain.attempt : Io ε _) Q E l := Dev.wp_attempt (spec_sendPlain (h _) (h _))

lemma spec_giveUp {E : Error → Link → Prop} {e : Error} (h : E e { l with gaveUp := true }) :
    Spec (Io.giveUp e : Io Error α) Q E l := Dev.wp_bind (spec_set (Dev.wp_throw h))

lemma spec_extend {Q : List UInt8 → Link → Prop} {E : Error → Link → Prop} {chunk part : List UInt8}
    (hlen : (chunk ++ part).length ≤ maxFileChunkLen) (h : Q (chunk ++ part) l) :
    Spec (Io.extend chunk part) Q E l := by
  unfold Io.extend
  rw [if_pos hlen]
  exact Dev.wp_pure h

/-- A program of which both ends are known to be in `P`, and whose error is ignored. -/
lemma spec_attempt {ε' : Type} {p : Io ε' α} {P : Link → Prop} {Q : Except ε' α → Link → Prop}
    (h : Spec p (fun _ => P) (fun _ => P) l) (hQ : ∀ r l', P l' → Q r l') :
    Spec (p.attempt : Io ε _) Q E l := by
  refine Dev.wp_attempt (Dev.wp_mono h ?_ ?_ fun _ => id)
  · intro a l' hP
    exact hQ _ l' hP
  · intro e l' hP
    exact hQ _ l' hP

end Rules

/-! ### The file -/

section File

variable {E : Error → Link → Prop} {l : Link} {P : Link → Prop}

/-- Whether closing fails or not, the driver has no handle any more. -/
lemma spec_closeFile (h : ∀ position, P { l with fileHandle := none, position := position }) :
    Spec closeFile (fun _ => P) (fun _ => P) l := by
  unfold closeFile
  refine Dev.wp_bind (spec_get (Dev.wp_bind (spec_set ?_)))
  cases l.fileHandle with
  | none => exact Dev.wp_pure (h _)
  | some handle => exact spec_send (fun _ => ⟨(), _, rfl, h _, h _⟩) (h _)

lemma spec_deleteFile (h : ∀ file, P { l with file := file }) :
    Spec deleteFile (fun _ => P) (fun _ => P) l := by
  unfold deleteFile deleteCommand
  exact spec_send (fun _ => ⟨(), _, rfl, h [], h []⟩) (h l.file)

lemma spec_discardSliceFile
    (h : ∀ position file, P { l with fileHandle := none, position := position, file := file }) :
    Spec discardSliceFile (fun _ => P) E l := by
  unfold discardSliceFile
  refine Dev.wp_bind (spec_attempt (spec_closeFile (P := fun l' =>
    ∃ position, l' = { l with fileHandle := none, position := position }) fun _ => ⟨_, rfl⟩) ?_)
  rintro r l' ⟨position, rfl⟩
  refine Dev.wp_bind (spec_attempt (spec_deleteFile (P := P) fun file => h position file) ?_)
  exact fun _ _ hP => Dev.wp_pure hP

end File

/-! ### The slice -/

section Slice

variable (image : List UInt8)

/-- The progress of the download agrees with the file. -/
structure Slice (d : Download) : Prop where
  offset_le : d.sliceOffset ≤ image.length
  len : d.sliceLen = min downloadSliceLen (image.length - d.sliceOffset)
  read_le : d.sliceRead ≤ d.sliceLen
  complete : d.complete = decide (d.sliceLen < downloadSliceLen)

/-- The slice is stored; an open handle may stand anywhere. -/
structure Loose (d : Download) (l : Link) : Prop where
  download : l.download = some d
  slice : Slice image d
  file : d.sliceLen ≠ 0 → l.file = (image.drop d.sliceOffset).take downloadSliceLen
  gaveUp : l.gaveUp = false

/-- The slice is stored, and an open handle stands where it was read to. -/
structure Stored (d : Download) (l : Link) : Prop extends Loose image d l where
  handle : ∀ handle, l.fileHandle = some handle → l.position handle = some d.sliceRead

/-- A slice is about to be fetched. -/
structure Fetching (d : Download) (l : Link) : Prop where
  download : l.download = some d
  fileHandle : l.fileHandle = none
  gaveUp : l.gaveUp = false

/-- The slice at `offset` has been fetched. -/
def fetchedAt (d : Download) (offset : ℕ) : Download :=
  d.fetched offset (min downloadSliceLen (image.length - offset))

end Slice

section Fetch

variable {image : List UInt8} {d : Download} {l : Link} {offset : ℕ}

lemma slice_fetchedAt (hoffset : offset ≤ image.length) : Slice image (fetchedAt image d offset) where
  offset_le := hoffset
  len := rfl
  read_le := Nat.zero_le _
  complete := rfl

/-- The answer of the server to the request for a slice -/
def Answered (image : List UInt8) (offset : ℕ) (answer : HttpGet) (body : List UInt8) : Prop :=
  offset < image.length ∧
      answer = ⟨some 206, some (min downloadSliceLen (image.length - offset))⟩ ∧
      body = (image.drop offset).take downloadSliceLen ∨
    offset = image.length ∧ answer = ⟨some 416, none⟩

lemma answered_serve (host path : List UInt8) (hoffset : offset ≤ image.length) :
    Answered image offset (serve image ⟨host, path, offset, offset + downloadSliceLen - 1⟩).1
      (serve image ⟨host, path, offset, offset + downloadSliceLen - 1⟩).2 := by
  have hlast : offset + downloadSliceLen - 1 + 1 - offset = downloadSliceLen := by
    unfold downloadSliceLen
    omega
  unfold serve
  split
  · next hlt =>
    simp only [hlast, List.length_take, List.length_drop]
    exact .inl ⟨hlt, rfl, rfl⟩
  · next hge =>
    refine .inr ⟨?_, rfl⟩
    dsimp only at hge
    omega

/-- The slice has been stored in the file. -/
lemma spec_storeSlice {Q : Unit → Link → Prop} {E : Error → Link → Prop}
    (hQ : Q () { l with file := l.body }) (hE : ∀ e file, E e { l with file := file }) :
    Spec storeSlice Q E l := by
  unfold storeSlice
  refine Dev.wp_bind (spec_sendPlain ?_ (hE _ l.file))
  refine Dev.wp_bind (Dev.wp_act trivial fun fate _ => ?_)
  cases fate.ok with
  | true => exact Dev.wp_pure hQ
  | false =>
    cases fate.took with
    | true => exact Dev.wp_throw (hE _ _)
    | false => exact Dev.wp_throw (hE _ _)

lemma spec_sendRequest {request : Request} {Q : Unit → Link → Prop} {E : Error → Link → Prop}
    (hQ : Q () { l with answer := (serve image request).1, body := (serve image request).2 })
    (hE : ∀ answer body, E .client { l with answer := answer, body := body }) :
    Spec (sendRequest (serve image) request) Q E l := by
  unfold sendRequest
  exact spec_send (fun _ => ⟨(), _, rfl, hQ, hE _ _⟩) (hE l.answer l.body)

/-- What may come back for a request -/
def CameBack (l : Link) (r : Option HttpGet) : Prop :=
  r = some l.answer ∨ r = some ⟨none, none⟩ ∨ r = none

lemma spec_awaitHttpGet {Q : Option HttpGet → Link → Prop} {E : Error → Link → Prop}
    (hQ : ∀ r, CameBack l r → Q r l) : Spec awaitHttpGet Q E l := by
  refine Dev.wp_act trivial fun fate _ => hQ _ ?_
  cases fate.ok with
  | true => exact .inl rfl
  | false =>
    cases fate.took with
    | true => exact .inr (.inl rfl)
    | false => exact .inr (.inr rfl)

/-- What came back gives the length of the slice, or an error. -/
lemma spec_sliceLenOf {r : Option HttpGet} {Q : ℕ → Link → Prop} {E : Error → Link → Prop}
    (hr : CameBack l r) (hanswer : Answered image offset l.answer l.body) (hE : ∀ e, E e l)
    (hQ : Q (min downloadSliceLen (image.length - offset)) l) : Spec (sliceLenOf offset r) Q E l := by
  rcases hr with rfl | rfl | rfl
  · rcases hanswer with ⟨-, hanswer, -⟩ | ⟨rfl, hanswer⟩
    · rw [hanswer]
      exact Dev.wp_pure hQ
    · rw [hanswer]
      refine Dev.wp_pure ?_
      rwa [Nat.sub_self, Nat.min_zero] at hQ
  · exact Dev.wp_throw (hE _)
  · exact Dev.wp_throw (hE _)

/-- The progress is that of the slice in the file. -/
lemma spec_recordSlice {E : Error → Link → Prop} (hoffset : offset ≤ image.length) (h : Fetching d l)
    (hfile : min downloadSliceLen (image.length - offset) ≠ 0 →
      l.file = (image.drop offset).take downloadSliceLen) :
    Spec (recordSlice offset (min downloadSliceLen (image.length - offset)))
      (fun _ l' => Stored image (fetchedAt image d offset) l' ∧ l'.fileHandle = none) E l := by
  unfold recordSlice
  refine Dev.wp_bind (spec_get (Dev.wp_bind (spec_unwrap h.download (spec_set ?_))))
  refine ⟨⟨⟨rfl, slice_fetchedAt hoffset, hfile, h.gaveUp⟩, fun handle hhandle => ?_⟩, h.fileHandle⟩
  rw [show l.fileHandle = none from h.fileHandle] at hhandle
  cases hhandle

/-- The slice is stored or, after an error, the progress is as before. -/
lemma spec_fetchSlice (himage : image.length + downloadSliceLen < 2 ^ 32) (hoffset : offset ≤ image.length)
    (h : Fetching d l) :
    Spec (fetchSlice (serve image) offset)
      (fun _ l' => Stored image (fetchedAt image d offset) l' ∧ l'.fileHandle = none)
      (fun _ l' => Fetching d l') l := by
  have hE : ∀ (answer : HttpGet) (body file : List UInt8),
      Fetching d { l with answer := answer, body := body, file := file } :=
    fun _ _ _ => ⟨h.download, h.fileHandle, h.gaveUp⟩
  have hlast : offset + downloadSliceLen < 2 ^ 32 := by omega
  unfold fetchSlice
  refine Dev.wp_bind (spec_get ?_)
  simp only [h.download]
  refine Dev.wp_bind (spec_add hlast ?_)
  cases splitUrl d.url with
  | none => exact Dev.wp_throw h
  | some hostAndPath =>
    obtain ⟨host, path⟩ := hostAndPath
    refine Dev.wp_bind (spec_sendPlain ?_ h)
    refine Dev.wp_bind (spec_sendRequest ?_ fun _ _ => hE _ _ _)
    have hanswer := answered_serve host path hoffset
    revert hanswer
    generalize serve image ⟨host, path, offset, offset + downloadSliceLen - 1⟩ = served
    intro hanswer
    refine Dev.wp_bind (spec_awaitHttpGet fun r hr => Dev.wp_bind ?_)
    refine spec_sliceLenOf hr hanswer (fun _ => hE _ _ _) ?_
    split
    · next hne =>
      have hbody : served.2 = (image.drop offset).take downloadSliceLen := by
        rcases hanswer with ⟨-, -, hbody⟩ | ⟨rfl, -⟩
        · exact hbody
        · rw [Nat.sub_self, Nat.min_zero] at hne
          exact absurd rfl hne
      refine Dev.wp_bind (spec_storeSlice ?_ fun _ _ => hE _ _ _)
      refine Dev.wp_bind (spec_add (by omega) ?_)
      exact spec_recordSlice hoffset (hE _ _ _) fun _ => hbody
    · next heq => exact spec_recordSlice hoffset (hE _ _ _) fun hne => absurd hne heq

lemma spec_cancelHttpRequest {Q : Unit → Link → Prop} {E : Error → Link → Prop} (h : Q () l) :
    Spec cancelHttpRequest Q E l := by
  unfold cancelHttpRequest
  exact Dev.wp_bind (spec_ignorePlain fun _ => Dev.wp_bind (spec_ignorePlain fun _ => Dev.wp_pure h))

/-- The slice is stored, unless the attempts are used up. -/
lemma spec_fetchSliceWithRetry (himage : image.length + downloadSliceLen < 2 ^ 32)
    (hoffset : offset ≤ image.length) (left : ℕ) :
    ∀ {l}, Fetching d l → Spec (fetchSliceWithRetry (serve image) offset left)
      (fun _ l' => Stored image (fetchedAt image d offset) l' ∧ l'.fileHandle = none)
      (fun _ l' => l'.gaveUp = true) l := by
  induction left with
  | zero =>
    intro l h
    unfold fetchSliceWithRetry
    refine Dev.wp_catch (spec_fetchSlice himage hoffset h) ?_ ?_
    · exact fun _ l' hstored => Dev.wp_pure hstored
    · exact fun e l' _ => spec_giveUp rfl
  | succ left ih =>
    intro l h
    unfold fetchSliceWithRetry
    refine Dev.wp_catch (spec_fetchSlice himage hoffset h) ?_ ?_
    · exact fun _ l' hstored => Dev.wp_pure hstored
    · intro e l' h'
      refine Dev.wp_bind (spec_cancelHttpRequest (Dev.wp_bind (spec_discardSliceFile fun _ _ => ih ?_)))
      exact ⟨h'.download, rfl, h'.gaveUp⟩

end Fetch

/-! ### Reading -/

section Read

variable {image : List UInt8} {d : Download} {l : Link} {len : ℕ}

lemma spec_seekCommand {handle offset position : ℕ} {Q : Unit → Link → Prop} {E : Error → Link → Prop}
    (hopen : l.position handle = some position)
    (hQ : Q () { l with position := fun h => if h = handle then some offset else l.position h })
    (hE : ∀ position, E .client { l with position := position }) :
    Spec (seekCommand handle offset) Q E l := by
  unfold seekCommand
  refine spec_send (fun _ => ⟨(), _, ?_, hQ, hE _⟩) (hE l.position)
  rw [hopen]
  rfl

/-- The handle stands where the slice was read to. -/
lemma spec_openSlice (h : Stored image d l) :
    Spec (openSlice d.sliceRead)
      (fun handle l' => Loose image d l' ∧ l'.fileHandle = some handle ∧
        l'.position handle = some d.sliceRead)
      (fun _ l' => Loose image d l') l := by
  have hloose : ∀ fileHandle position,
      Loose image d { l with fileHandle := fileHandle, position := position } :=
    fun _ _ => ⟨h.download, h.slice, h.file, h.gaveUp⟩
  unfold openSlice
  refine Dev.wp_bind (spec_get ?_)
  cases hhandle : l.fileHandle with
  | some handle => exact Dev.wp_pure ⟨h.toLoose, hhandle, h.handle handle hhandle⟩
  | none =>
    refine Dev.wp_bind ?_
    unfold openCommand
    refine spec_send (fun fate => ⟨_, _, rfl, ?_, hloose _ _⟩) h.toLoose
    refine Dev.wp_bind (spec_set (Dev.wp_bind (spec_seekCommand (if_pos rfl) ?_ fun _ => hloose _ _)))
    exact Dev.wp_pure ⟨hloose _ _, rfl, if_pos rfl⟩

lemma parseRead_self {data : List UInt8} (h : data.length ≤ 1024) :
    parseRead data.length data = some data := by
  simp [parseRead, h]

/-- A read gives the bytes at the position of the handle, perhaps fewer than it was asked for. -/
lemma spec_readCommand {handle position : ℕ} {Q : List UInt8 → Link → Prop} {E : Error → Link → Prop}
    (hopen : l.position handle = some position) (hlen : len ≤ 1024)
    (hQ : ∀ n ≤ len, Q ((l.file.drop position).take n) { l with
      position := fun h =>
        if h = handle then some (position + ((l.file.drop position).take n).length) else l.position h })
    (hE : ∀ position, E .client { l with position := position }) : Spec (readCommand handle len) Q E l := by
  unfold readCommand
  refine spec_send (fun fate => ⟨_, _, ?_, hQ (len - fate.number) (Nat.sub_le _ _), hE _⟩) (hE l.position)
  have hdata : ((l.file.drop position).take (len - fate.number)).length ≤ 1024 := by
    rw [List.length_take]
    omega
  simp only [hopen, Option.bind_eq_bind, Option.bind_some, parseRead_self hdata]

/-- The part that a read of the slice gave, and the slice after it -/
structure Part (image : List UInt8) (d : Download) (len : ℕ) (part : List UInt8) (l : Link) : Prop where
  stored : Stored image { d with sliceRead := d.sliceRead + part.length } l
  pos : 0 < part.length
  le : part.length ≤ len
  eq : part = (image.drop (d.sliceOffset + d.sliceRead)).take part.length

/-- The bytes of the file at a position of the slice are those of the image. -/
lemma take_drop_slice (image : List UInt8) (offset position n : ℕ) :
    ∃ k ≤ n, (((image.drop offset).take downloadSliceLen).drop position).take n =
      (image.drop (offset + position)).take k := by
  refine ⟨min n (downloadSliceLen - position), Nat.min_le_left _ _, ?_⟩
  rw [List.drop_take, List.drop_drop, List.take_take]

lemma take_length_take (l : List UInt8) (n : ℕ) : l.take (l.take n).length = l.take n := by
  rw [List.length_take, List.take_eq_take_iff]
  omega

/-- A read gives a part of the slice or, after an error, the slice is still stored. -/
lemma spec_readSlice (himage : image.length + downloadSliceLen < 2 ^ 32) (hpos : 0 < len)
    (hlen : len ≤ maxFileChunkLen) (hle : len ≤ d.sliceLen - d.sliceRead) (h : Stored image d l) :
    Spec (readSlice len) (fun part l' => Part image d len part l') (fun _ l' => Loose image d l') l := by
  unfold readSlice
  refine Dev.wp_bind (spec_get ?_)
  simp only [h.download]
  refine Dev.wp_seq (spec_openSlice h) ?_
  rintro handle l' ⟨hloose, hhandle, hposition⟩
  have hmax : len ≤ 1024 := by
    unfold maxFileChunkLen at hlen
    omega
  have hsome : d.sliceLen ≠ 0 := by omega
  have hloose' : ∀ position, Loose image d { l' with position := position } :=
    fun _ => ⟨hloose.download, hloose.slice, hloose.file, hloose.gaveUp⟩
  refine Dev.wp_bind (spec_readCommand hposition hmax ?_ fun _ => hloose' _)
  intro n hn
  obtain ⟨k, hk, hbytes⟩ := take_drop_slice image d.sliceOffset d.sliceRead n
  rw [← hloose.file hsome] at hbytes
  rw [hbytes]
  have hself : (image.drop (d.sliceOffset + d.sliceRead)).take k = 
      (image.drop (d.sliceOffset + d.sliceRead)).take
        ((image.drop (d.sliceOffset + d.sliceRead)).take k).length := (take_length_take _ _).symm
  have hshort : ((image.drop (d.sliceOffset + d.sliceRead)).take k).length ≤ len := by
    rw [List.length_take]
    omega
  revert hself hshort
  generalize (image.drop (d.sliceOffset + d.sliceRead)).take k = part
  intro hself hshort
  simp only [Nat.min_eq_left hshort, List.take_length]
  have hslice := hloose.slice
  have hread := hslice.read_le
  have hsliceLen := hslice.len
  split
  · exact Dev.wp_throw (hloose' _)
  · next hne =>
    refine Dev.wp_bind (spec_extend (Nat.le_trans hshort hlen) ?_)
    refine Dev.wp_bind (spec_get (Dev.wp_bind (spec_unwrap hloose.download ?_)))
    refine Dev.wp_bind (spec_add (by omega) (Dev.wp_bind (spec_set (Dev.wp_pure ?_))))
    refine ⟨⟨⟨rfl, ⟨hslice.offset_le, hsliceLen, ?_, hslice.complete⟩, hloose.file, hloose.gaveUp⟩, ?_⟩,
      Nat.pos_of_ne_zero hne, hshort, hself⟩
    · show d.sliceRead + part.length ≤ d.sliceLen
      omega
    · intro handle' hhandle'
      rw [show l'.fileHandle = some handle' from hhandle'] at hhandle
      obtain rfl : handle' = handle := Option.some.inj hhandle
      exact if_pos rfl

/-- Without a handle the slice may be read on. -/
lemma Loose.closed {position : ℕ → Option ℕ} (h : Loose image d l) :
    Stored image d { l with fileHandle := none, position := position } :=
  ⟨⟨h.download, h.slice, h.file, h.gaveUp⟩, fun _ hhandle => by cases hhandle⟩

/-- A slice that is fetched again is the same slice. -/
lemma Stored.restore (hslice : Slice image d) (h : Stored image (fetchedAt image d d.sliceOffset) l)
    (hhandle : l.fileHandle = none) :
    Stored image d
      { l with download := some { fetchedAt image d d.sliceOffset with sliceRead := d.sliceRead } } := by
  have heq : { fetchedAt image d d.sliceOffset with sliceRead := d.sliceRead } = d := by
    obtain ⟨url, sliceOffset, sliceLen, sliceRead, complete⟩ := d
    have hlen := hslice.len
    have hcomplete := hslice.complete
    simp only at hlen hcomplete
    simp only [fetchedAt, Download.fetched, ← hlen, hcomplete]
  rw [heq]
  refine ⟨⟨rfl, hslice, fun hne => ?_, h.gaveUp⟩, fun handle hsome => ?_⟩
  · refine h.file ?_
    rwa [hslice.len] at hne
  · rw [show l.fileHandle = some handle from hsome] at hhandle
    cases hhandle

/-- A part of the slice is read, unless the attempts are used up. -/
lemma spec_readSliceWithRetry (himage : image.length + downloadSliceLen < 2 ^ 32) (hpos : 0 < len)
    (hlen : len ≤ maxFileChunkLen) (hle : len ≤ d.sliceLen - d.sliceRead) (left : ℕ) :
    ∀ {l}, Stored image d l → Spec (readSliceWithRetry (serve image) len left)
      (fun part l' => Part image d len part l') (fun _ l' => l'.gaveUp = true) l := by
  induction left with
  | zero =>
    intro l h
    unfold readSliceWithRetry
    refine Dev.wp_catch (spec_readSlice himage hpos hlen hle h) ?_ ?_
    · exact fun part l' hpart => Dev.wp_pure hpart
    · intro e l' hloose
      exact Dev.wp_bind (spec_get (Dev.wp_bind (spec_unwrap hloose.download (spec_giveUp rfl))))
  | succ left ih =>
    intro l h
    unfold readSliceWithRetry
    refine Dev.wp_catch (spec_readSlice himage hpos hlen hle h) ?_ ?_
    · exact fun part l' hpart => Dev.wp_pure hpart
    · intro e l' hloose
      refine Dev.wp_bind (spec_get (Dev.wp_bind (spec_unwrap hloose.download ?_)))
      refine Dev.wp_bind (spec_attempt (spec_closeFile (P := Stored image d) fun _ => hloose.closed) ?_)
      intro r l'' hstored
      split
      · refine Dev.wp_bind (spec_discardSliceFile fun _ _ => ?_)
        have hfetching : ∀ position file,
            Fetching d { l'' with fileHandle := none, position := position, file := file } :=
          fun _ _ => ⟨hstored.download, rfl, hstored.gaveUp⟩
        refine Dev.wp_seq (spec_fetchSliceWithRetry himage hstored.slice.offset_le _ (hfetching _ _)) ?_
        rintro - l₃ ⟨hfetched, hhandle⟩
        refine Dev.wp_bind (spec_get (Dev.wp_bind (spec_unwrap hfetched.download ?_)))
        refine Dev.wp_bind (spec_set ?_)
        exact ih (hfetched.restore hstored.slice hhandle)
      · exact ih hstored

end Read

end SensorLink.Modem
