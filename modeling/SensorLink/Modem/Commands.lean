import SensorLink.Lib.Device
import SensorLink.Lib.Wrap

/-!
# The modem

The driver and the modem it talks to, with one file in the storage of the modem. Each command has a fate:
it is carried out and answered, or it fails, and then it may have been carried out nevertheless. What comes
back for a request is up to the server.
-/

namespace SensorLink.Modem

open SensorLink.Lib

/-- `Error<atat::Error>` -/
inductive Error
  | client
  | serialize
  | timeOut
  | mqtt (text : String)
deriving DecidableEq, Repr

inductive FileError
  | readError
  | endOfFile
deriving DecidableEq, Repr

/-- The progress of a file download that is fetched in slices. -/
structure Download where
  url : List UInt8
  sliceOffset : ℕ
  sliceLen : ℕ
  sliceRead : ℕ
  complete : Bool
deriving DecidableEq, Repr

/-- `+QHTTPGET`: a status and a length, unless the request failed. -/
structure HttpGet where
  resp : Option ℕ
  contentLength : Option ℕ
deriving DecidableEq, Repr

/-- A GET request for the bytes `first..=last`. -/
structure Request where
  host : List UInt8
  path : List UInt8
  first : ℕ
  last : ℕ
deriving DecidableEq, Repr

/-- The driver and its modem; `gaveUp` says that a retry loop has used up its attempts. -/
structure Link where
  fileHandle : Option ℕ
  download : Option Download
  /-- The content of the file; a file that does not exist is created empty when it is opened. -/
  file : List UInt8
  /-- The positions of the open handles -/
  position : ℕ → Option ℕ
  /-- What the server has answered -/
  answer : HttpGet
  body : List UInt8
  gaveUp : Bool

/-- The fate of a command: `took` says that a failed one was carried out, `number` is what the modem gives
where it is free to (a handle, a registration status, the free space, how many bytes a read falls short by),
and `left` is what a failed store leaves in the file. -/
structure Fate where
  ok : Bool
  took : Bool
  number : ℕ
  left : Option (List UInt8)
deriving DecidableEq, Repr

instance : Inhabited Fate := ⟨⟨true, false, 0, none⟩⟩

/-- Programs of the driver. A panic, or a loop that runs out of fuel, ends like a power loss. -/
abbrev Io := Dev Link Fate

namespace Io

variable {ε α : Type}

def get : Io ε Link := .update fun l => .ok l l

def set (f : Link → Link) : Io ε Unit := .update fun l => .ok () (f l)

def panic : Io ε α := .update fun l => .off l

/-- `Option::unwrap` -/
def unwrap : Option α → Io ε α
  | some a => pure a
  | none => panic

/-- `a + b` on `u32` -/
def add (a b : ℕ) : Io ε ℕ := if a + b < 2 ^ 32 then pure (a + b) else panic

/-- `a - b` on `u32` -/
def sub (a b : ℕ) : Io ε ℕ := if b ≤ a then pure (a - b) else panic

/-- `client.send`: the modem may refuse a command. -/
def send (reply : Fate → Link → Option (α × Link)) : Io Error α :=
  .act fun fate l =>
    match reply fate l with
    | none => .err .client l
    | some (a, l') => if fate.ok then .ok a l' else .err .client (if fate.took then l' else l)

/-- A command whose effect lies outside of the model. -/
def sendPlain : Io Error Unit := send fun _ l => some ((), l)

end Io

/-! ### File commands -/

/-- `file::Open` gives a handle at the start of the file. -/
def openCommand : Io Error ℕ :=
  .send fun fate l =>
    some (fate.number, { l with position := fun h => if h = fate.number then some 0 else l.position h })

/-- `file::Seek` from the beginning of the file -/
def seekCommand (handle offset : ℕ) : Io Error Unit :=
  .send fun _ l =>
    (l.position handle).map fun _ =>
      ((), { l with position := fun h => if h = handle then some offset else l.position h })

/-- `parse_read`: the announced size, and the bytes that follow. -/
def parseRead (size : ℕ) (leftover : List UInt8) : Option (List UInt8) :=
  let bytes := leftover.take (min size leftover.length)
  if leftover.length + 1 ≥ size then
    if bytes.length ≤ 1024 then some bytes else none
  else none

/-- `file::Read`: the modem announces as many bytes as it has read from its position, and sends them. -/
def readCommand (handle len : ℕ) : Io Error (List UInt8) :=
  .send fun fate l => do
    let position ← l.position handle
    let data := (l.file.drop position).take (len - fate.number)
    let bytes ← parseRead data.length data
    some (bytes, { l with
      position := fun h => if h = handle then some (position + data.length) else l.position h })

/-- `file::Close` -/
def closeCommand (handle : ℕ) : Io Error Unit :=
  .send fun _ l => some ((), { l with position := fun h => if h = handle then none else l.position h })

/-- `file::Delete` -/
def deleteCommand : Io Error Unit := .send fun _ l => some ((), { l with file := [] })

/-! ### HTTP commands -/

/-- What a server answers, with the body of the answer -/
abbrev Server := Request → HttpGet × List UInt8

/-- The server that honours ranges: the requested range as far as the file goes, or 416 beyond its end -/
def serve (image : List UInt8) (request : Request) : HttpGet × List UInt8 :=
  if request.first < image.length then
    let body := (image.drop request.first).take (request.last + 1 - request.first)
    (⟨some 206, some body.length⟩, body)
  else (⟨some 416, none⟩, [])

/-- The request header is sent, and the server answers. -/
def sendRequest (server : Server) (request : Request) : Io Error Unit :=
  .send fun _ l =>
    let (answer, body) := server request
    some ((), { l with answer := answer, body := body })

/-- Waits for `+QHTTPGET`: the answer of the server, an error of the modem, or nothing. -/
def awaitHttpGet : Io Error (Option HttpGet) :=
  .act fun fate l =>
    .ok (if fate.ok then some l.answer else if fate.took then some ⟨none, none⟩ else none) l

/-- Waits for `+QHTTPREADFILE`, whose error is 0 when the body is stored in the file. -/
def awaitHttpReadFile : Io Error (Option ℕ) :=
  .act fun fate l =>
    if fate.ok then .ok (some 0) { l with file := l.body }
    else .ok (if fate.took then some (fate.number + 1) else none) { l with file := fate.left.getD l.file }

end SensorLink.Modem
