import SensorLink.Modem.Commands

/-!
# Downloads in slices

`download_file` fetches the first slice of a file into the storage of the modem. `read_file_chunk` reads
it out chunk by chunk, and fetches the next slice when one is read. Fetching and reading a slice are tried
again a few times.
-/

namespace SensorLink.Modem

open SensorLink.Lib

@[irreducible] def downloadSliceLen : ℕ := 16000

def sliceAttempts : ℕ := 3

def maxFileChunkLen : ℕ := 600

def maxUrlLen : ℕ := 128

/-- `https://` -/
def httpsScheme : List UInt8 := [104, 116, 116, 112, 115, 58, 47, 47]

/-- `http://` -/
def httpScheme : List UInt8 := [104, 116, 116, 112, 58, 47, 47]

/-- The host, with its port, and the path of a URL -/
def splitUrl (url : List UInt8) : Option (List UInt8 × List UInt8) := do
  let hostAndPath ← (url.dropPrefix? httpsScheme).or (url.dropPrefix? httpScheme)
  if hostAndPath.contains 47 then some (hostAndPath.span (· ≠ 47)) else some (hostAndPath, [47])

namespace Io

/-- A retry loop has used up its attempts. -/
def giveUp {α : Type} (e : Error) : Io Error α := do
  set fun l => { l with gaveUp := true }
  .throw e

/-- `extend_from_slice(..).unwrap()` on a chunk -/
def extend (chunk part : List UInt8) : Io Error (List UInt8) :=
  if (chunk ++ part).length ≤ maxFileChunkLen then pure (chunk ++ part) else panic

end Io

/-! ### The file -/

def closeFile : Io Error Unit := do
  let handle := (← Io.get).fileHandle
  Io.set fun l => { l with fileHandle := none }
  match handle with
  | some handle => closeCommand handle
  | none => pure ()

def deleteFile : Io Error Unit := deleteCommand

/-- Failures are only logged. -/
def discardSliceFile : Io Error Unit := do
  let _ ← (closeFile.attempt : Io Error _)
  let _ ← (deleteFile.attempt : Io Error _)

/-! ### Fetching a slice -/

/-- The length of the slice, from what came back for a request at `offset`. -/
def sliceLenOf (offset : ℕ) : Option HttpGet → Io Error ℕ
  | some ⟨some 206, some sliceLen⟩ => pure sliceLen
  -- The whole file: the server has ignored the range.
  | some ⟨some 200, some sliceLen⟩ =>
    if offset = 0 ∧ sliceLen ≤ downloadSliceLen then pure sliceLen
    else .throw (.mqtt "Range request not supported")
  | some ⟨some 416, _⟩ => pure 0
  | some ⟨_, _⟩ => .throw .serialize
  | none => .throw .timeOut

/-- The body of the answer is stored in the file. -/
def storeSlice : Io Error Unit := do
  Io.sendPlain
  match ← awaitHttpReadFile with
  | some 0 => pure ()
  | some _ => .throw (.mqtt "Read to File failed")
  | none => .throw .timeOut

/-- The progress of a download whose slice at `offset` was just stored. -/
def Download.fetched (download : Download) (offset sliceLen : ℕ) : Download :=
  { download with
    sliceOffset := offset
    sliceLen := sliceLen
    sliceRead := 0
    complete := decide (sliceLen < downloadSliceLen) }

def recordSlice (offset sliceLen : ℕ) : Io Error Unit := do
  let download ← Io.unwrap (← Io.get).download
  Io.set fun l => { l with download := some (download.fetched offset sliceLen) }

section

variable (server : Server)

def fetchSlice (offset : ℕ) : Io Error Unit := do
  match (← Io.get).download with
  | none => .throw (.mqtt "No download in progress")
  | some download =>
    let last ← Io.add offset downloadSliceLen
    match splitUrl download.url with
    | none => .throw .serialize
    | some (host, path) =>
      Io.sendPlain
      sendRequest server ⟨host, path, offset, last - 1⟩
      let sliceLen ← sliceLenOf offset (← awaitHttpGet)
      if sliceLen ≠ 0 then
        storeSlice
        let _ ← Io.add offset sliceLen
      recordSlice offset sliceLen

/-- `AT+QHTTPSTOP`, and the `+QHTTPGET` of the cancelled request if it comes -/
def cancelHttpRequest : Io Error Unit := do
  let _ ← (Io.sendPlain.attempt : Io Error _)
  let _ ← (Io.sendPlain.attempt : Io Error _)

/-- With `left` attempts left after this one -/
def fetchSliceWithRetry (offset : ℕ) : ℕ → Io Error Unit
  | 0 => do
    match ← (fetchSlice server offset).attempt with
    | .ok () => pure ()
    | .error e => Io.giveUp e
  | left + 1 => do
    match ← (fetchSlice server offset).attempt with
    | .ok () => pure ()
    | .error _ =>
      cancelHttpRequest
      discardSliceFile
      fetchSliceWithRetry offset left

/-! ### Reading a slice -/

/-- The open handle, or a new one at `position` -/
def openSlice (position : ℕ) : Io Error ℕ := do
  match (← Io.get).fileHandle with
  | some handle => pure handle
  | none =>
    let handle ← openCommand
    Io.set fun l => { l with fileHandle := some handle }
    seekCommand handle position
    pure handle

def readSlice (len : ℕ) : Io Error (List UInt8) := do
  match (← Io.get).download with
  | none => .throw (.mqtt "No download in progress")
  | some download =>
    let handle ← openSlice download.sliceRead
    let bytes ← readCommand handle len
    let n := min bytes.length len
    if n = 0 then .throw (.mqtt "Slice ended early")
    else
      let part ← Io.extend [] (bytes.take n)
      let download ← Io.unwrap (← Io.get).download
      let sliceRead ← Io.add download.sliceRead n
      Io.set fun l => { l with download := some { download with sliceRead := sliceRead } }
      pure part

/-- With `left` attempts left after this one. From the second retry on, the slice is fetched again. -/
def readSliceWithRetry (len : ℕ) : ℕ → Io Error (List UInt8)
  | 0 => do
    match ← (readSlice len).attempt with
    | .ok part => pure part
    | .error e =>
      let _ ← Io.unwrap (← Io.get).download
      Io.giveUp e
  | left + 1 => do
    match ← (readSlice len).attempt with
    | .ok part => pure part
    | .error _ =>
      let download ← Io.unwrap (← Io.get).download
      let _ ← (closeFile.attempt : Io Error _)
      -- `attempt > 1`
      if left + 2 < sliceAttempts then
        discardSliceFile
        fetchSliceWithRetry server download.sliceOffset (sliceAttempts - 1)
        let fetched ← Io.unwrap (← Io.get).download
        Io.set fun l => { l with download := some { fetched with sliceRead := download.sliceRead } }
      readSliceWithRetry len left

/-! ### Chunks -/

/-- The loop of `read_download_chunk`; chunks are filled up across slice boundaries. -/
def readDownloadChunk (chunkSize : ℕ) : ℕ → List UInt8 → Io Error (List UInt8)
  | 0, _ => Io.panic
  | fuel + 1, chunk => do
    if chunk.length < chunkSize then
      match (← Io.get).download with
      | none => pure chunk
      | some download =>
        let remaining ← Io.sub download.sliceLen download.sliceRead
        if remaining = 0 then
          if download.complete then pure chunk
          else
            let next ← Io.add download.sliceOffset download.sliceLen
            discardSliceFile
            fetchSliceWithRetry server next (sliceAttempts - 1)
            readDownloadChunk chunkSize fuel chunk
        else
          let len := min (chunkSize - chunk.length) remaining
          let part ← readSliceWithRetry server len (sliceAttempts - 1)
          let chunk ← Io.extend chunk part
          readDownloadChunk chunkSize fuel chunk
    else pure chunk

def deactivateHttpContext : Io Error Unit := do
  match ← (Io.sendPlain.attempt : Io Error _) with
  | .ok () => pure ()
  | .error _ => .throw (.mqtt "Deactivate Context")

def finishDownload : Io Error Unit := do
  let download := (← Io.get).download
  Io.set fun l => { l with download := none }
  if download.isSome then discardSliceFile
  let _ ← (deactivateHttpContext.attempt : Io Error _)

/-- `read_file_chunk` of the client -/
def readFileChunk (fuel chunkSize : ℕ) : Io Error (Except FileError (List UInt8)) := do
  if chunkSize > maxFileChunkLen then pure (.error .readError)
  else
    match ← (readDownloadChunk server chunkSize fuel []).attempt with
    | .ok [] =>
      finishDownload
      pure (.error .endOfFile)
    | .ok chunk => pure (.ok chunk)
    | .error _ =>
      finishDownload
      pure (.error .readError)

/-! ### Starting a download -/

/-- The queries of the network registration end when it is registered, or after `retries`. -/
def awaitRegistered : ℕ → Io Error Unit
  | 0 => pure ()
  | retries + 1 => do
    match ← ((Io.send fun fate l => some (fate.number, l)).attempt : Io Error _) with
    | .ok stat => if stat = 1 ∨ stat = 5 then pure () else awaitRegistered retries
    | .error _ => awaitRegistered retries

/-- A number of commands that only configure the modem -/
def configure : ℕ → Io Error Unit
  | 0 => pure ()
  | n + 1 => do
    Io.sendPlain
    configure n

def storageFreeSpace : Io Error (Option ℕ) := do
  match ← ((Io.send fun fate l => some (fate.number, l)).attempt : Io Error _) with
  | .ok freeSize => pure (some freeSize)
  | .error _ => pure none

/-- `download_file` of the driver -/
def startDownload (url : List UInt8) : Io Error Unit := do
  -- The contexts, the headers and the packet domain.
  configure 4
  awaitRegistered 90
  awaitRegistered 60
  -- The activation, the five settings of SSL, and the URL.
  configure 8
  match ← storageFreeSpace with
  | some freeSize =>
    if freeSize < downloadSliceLen then
      deactivateHttpContext
      .throw (.mqtt "Download slice does not fit in storage")
  | none => pure ()
  if url.length ≤ maxUrlLen then
    Io.set fun l => { l with download := some ⟨url, 0, 0, 0, false⟩ }
    fetchSliceWithRetry server 0 (sliceAttempts - 1)
  else .throw .serialize

/-- `download_file` of the client -/
def downloadFile (url : List UInt8) : Io Error Unit := do
  let _ ← (closeFile.attempt : Io Error _)
  let _ ← (deleteFile.attempt : Io Error _)
  match ← (startDownload server url).attempt with
  | .ok () => pure ()
  | .error e =>
    finishDownload
    .throw e

/-- Successive calls of `read_file_chunk` with these chunk sizes, up to the first error -/
def readChunks (fuel : ℕ) : List ℕ → Io Error (List (List UInt8) × Option FileError)
  | [] => pure ([], none)
  | chunkSize :: sizes => do
    match ← readFileChunk server fuel chunkSize with
    | .ok chunk =>
      let (chunks, last) ← readChunks fuel sizes
      pure (chunk :: chunks, last)
    | .error e => pure ([], some e)

end

end SensorLink.Modem
