import SensorLink.Lib.Base64
import SensorLink.Lib.Fields
import SensorLink.Network.Connection
import SensorLink.Protocol.Topics

/-!
# The protocol client of `logic/client.rs`

A client handles messages, or streams the chunks of a firmware file that its driver has downloaded. The
driver is the trait `MqttClient` with its calls as functions; JSON and base64 are other packages.
-/

namespace SensorLink.Network

open SensorLink.Lib SensorLink.Protocol

/-! ### `fwupdate.rs` -/

def fwChunkSize : ℕ := 300

def b64EncodedChunkSize : ℕ := (fwChunkSize + 2) / 3 * 4

/-- `FWUpdateURL` -/
abbrev FWUpdateURL := HString 128

/-- `FWChunk`; the number is a `u16`. -/
structure FWChunk where
  sequenceNo : ℕ
  bytes : List UInt8
deriving DecidableEq

inductive FWStatus
  | start
  | failed
  | received
  | complete
deriving DecidableEq

/-! ### `mqtt.rs` -/

inductive FileError
  | fileNotFound
  | readError
  | endOfFile
deriving DecidableEq

structure Message where
  topic : TopicString
  payload : List UInt8

/-- `mqtt::Event` -/
inductive MqttEvent
  | receivedMessage (message : Message)
  | disconnected

/-- The calls of the trait `MqttClient` that the client makes here, with the driver behind the call -/
structure MqttClient (M E : Type) where
  publish : M → TopicString → List UInt8 → SendResult E × M
  handleResponse : M → Option MqttEvent × M
  downloadFile : M → FWUpdateURL → SendResult E × M
  readFileChunk : M → ℕ → Except FileError (List UInt8) × M

/-- `serde_json_core` and `base64`: how a status is written and what is read from a payload, and
`decode_slice`, with the output behind the call -/
structure Packages (Cmd ServerStatus : Type) where
  statusPayload : FWStatus → Option (List UInt8)
  commandFromSlice : List UInt8 → Option Cmd
  timestampFromSlice : List UInt8 → Option ℤ
  announceFromSlice : List UInt8 → Option FWUpdateURL
  serverStatusFromSlice : List UInt8 → Option ServerStatus
  decodeBase64 : List UInt8 → List UInt8 → Option ℕ × List UInt8

/-- `parse_json_payload` -/
def parseJsonPayload {T : Type} (fromSlice : List UInt8 → Option T) (bytes : List UInt8) : Option T :=
  if bytes.length ≤ 1 then none else fromSlice bytes

/-! ### `client.rs` -/

inductive ClientEvent (Cmd ServerStatus : Type)
  | commandReceived (cmd : Cmd)
  | timestampReceived (time : ℤ)
  | fwChunkReceived (chunk : FWChunk)
  | fwDownloadComplete
  | fwDownloadFailed
  | firmwareUpdateAnnounced
  | disconnected
  | serverStatus (status : ServerStatus)
deriving DecidableEq

/-- An event of a firmware download -/
def ClientEvent.isDownload {Cmd ServerStatus : Type} : ClientEvent Cmd ServerStatus → Bool
  | fwChunkReceived _ | fwDownloadComplete | fwDownloadFailed => true
  | _ => false

inductive ClientState
  | normal
  | firmwareUpdate
deriving DecidableEq

structure Client (M : Type) where
  driver : M
  uid : HString maxUidLen
  state : ClientState
  updateUrl : Option FWUpdateURL
  updateSeqNum : ℕ

namespace Client

section Calls

variable {M E Cmd ServerStatus : Type} (api : MqttClient M E) (lib : Packages Cmd ServerStatus)

/-- `Client::new` -/
def new (driver : M) (uid : HString maxUidLen) : Client M := ⟨driver, uid, .normal, none, 0⟩

def sendFirmwareUpdateStatus (c : Client M) (status : FWStatus) : SendResult E × Client M :=
  match lib.statusPayload status with
  | none => (.error .serialize, c)
  | some s =>
    match TopicFromDevice.fwStatus.toTopicString c.uid.str with
    | .error _ => (.error .serializeTopic, c)
    | .ok topic =>
      let (result, driver) := api.publish c.driver topic s
      (result, { c with driver := driver })

def downloadFirmwareUpdate (c : Client M) : Except (Error E) FirmwareDownloadStart × Client M :=
  -- an error is only logged
  let (_, c) := c.sendFirmwareUpdateStatus api lib .start
  match c.updateUrl with
  | some url =>
    match api.downloadFile c.driver url with
    | (.ok _, driver) =>
      (.ok .started, { c with driver := driver, updateSeqNum := 0, state := .firmwareUpdate })
    | (.error _, driver) =>
      match { c with driver := driver }.sendFirmwareUpdateStatus api lib .failed with
      | (.error err, c) => (.error err, c)
      | (.ok _, c) => (.ok .failed, c)
  | none => (.ok .failed, c)

def failFirmwareDownload (c : Client M) : ClientEvent Cmd ServerStatus × Client M :=
  let (_, c) := { c with state := .normal }.sendFirmwareUpdateStatus api lib .failed
  (.fwDownloadFailed, c)

/-- The sequence number is a `u16`: one more than the last panics. -/
def handleUpdateState (c : Client M) :
    Attempt Empty (Option (ClientEvent Cmd ServerStatus) × Client M) :=
  match api.readFileChunk c.driver b64EncodedChunkSize with
  | (.ok chunk, driver) =>
    let c := { c with driver := driver }
    match lib.decodeBase64 chunk (List.replicate fwChunkSize 0) with
    | (some _, bytes) =>
      let sequenceNo := c.updateSeqNum
      if sequenceNo + 1 < 2 ^ 16 then
        .ok (some (.fwChunkReceived ⟨sequenceNo, bytes⟩), { c with updateSeqNum := sequenceNo + 1 })
      else .error .panic
    | (none, _) =>
      let (event, c) := c.failFirmwareDownload api lib
      .ok (some event, c)
  | (.error .readError, driver) =>
    let (event, c) := { c with driver := driver }.failFirmwareDownload api lib
    .ok (some event, c)
  | (.error .endOfFile, driver) =>
    let (_, c) := { c with driver := driver, state := .normal }.sendFirmwareUpdateStatus api lib .complete
    .ok (some .fwDownloadComplete, c)
  | (.error .fileNotFound, driver) =>
    let (event, c) := { c with driver := driver }.failFirmwareDownload api lib
    .ok (some event, c)

def handleCommonTopic (c : Client M) (topic : TopicToDevice) (payload : List UInt8) :
    Option (ClientEvent Cmd ServerStatus) × Client M :=
  match topic with
  | .command => ((parseJsonPayload lib.commandFromSlice payload).map .commandReceived, c)
  | .time => ((parseJsonPayload lib.timestampFromSlice payload).map .timestampReceived, c)
  | .fwUpdateAnnounce =>
    match parseJsonPayload lib.announceFromSlice payload with
    | some url => (some .firmwareUpdateAnnounced, { c with updateUrl := some url })
    | none => (none, c)

def handleNormalState (c : Client M) : Option (ClientEvent Cmd ServerStatus) × Client M :=
  match api.handleResponse c.driver with
  | (some (.receivedMessage message), driver) =>
    let c := { c with driver := driver }
    let status := match parseSystemTopic message.topic.str with
      | some .serverStatus => lib.serverStatusFromSlice message.payload
      | _ => none
    match status with
    | some status => (some (.serverStatus status), c)
    | none =>
      match parseTopicToDevice message.topic.str with
      | .ok topicParts => c.handleCommonTopic lib topicParts.topic message.payload
      | .error _ => (none, c)
  | (some .disconnected, driver) => (some .disconnected, { c with driver := driver })
  | (none, driver) => (some .disconnected, { c with driver := driver })

def handleResponse (c : Client M) :
    Attempt Empty (Option (ClientEvent Cmd ServerStatus) × Client M) :=
  match c.state with
  | .normal => .ok (c.handleNormalState api lib)
  | .firmwareUpdate => c.handleUpdateState api lib

/-- `n` calls of `handle_response`, one after another -/
def handleResponses : ℕ → Client M →
    Attempt Empty (List (Option (ClientEvent Cmd ServerStatus)) × Client M)
  | 0, c => return ([], c)
  | n + 1, c => do
    let (event, c) ← c.handleResponse api lib
    let (events, c) ← handleResponses n c
    return (event :: events, c)

end Calls

end Client

/-! ### What a download is -/

/-- The bytes of chunk `k` -/
def chunkAt (image : List UInt8) (k : ℕ) : List UInt8 :=
  padTo fwChunkSize ((image.drop (fwChunkSize * k)).take fwChunkSize)

def chunkCount (image : List UInt8) : ℕ := (image.length + (fwChunkSize - 1)) / fwChunkSize

/-- The events of `n` chunks, from chunk `k` on -/
def delivered {Cmd ServerStatus : Type} (image : List UInt8) (k n : ℕ) :
    List (Option (ClientEvent Cmd ServerStatus)) :=
  (List.range' k n).map fun i => some (.fwChunkReceived ⟨i, chunkAt image i⟩)

/-- Decoding is the inverse of encoding: the bytes stand at the front of the output, as far as they fit. -/
def Packages.DecodesGroups {Cmd ServerStatus : Type} (lib : Packages Cmd ServerStatus) : Prop :=
  ∀ bytes, bytes.length ≤ fwChunkSize →
    lib.decodeBase64 (Base64.encode bytes) (List.replicate fwChunkSize 0) =
      (some bytes.length, padTo fwChunkSize bytes)

/-- A driver that has downloaded `text`: `left driver rest` says that `rest` is not read yet. A read gives
a full chunk, or the last one, and then the end of the file; or it fails, at any time, with an error or
with a chunk that does not decode. -/
structure MqttClient.Serves {M E Cmd ServerStatus : Type} (api : MqttClient M E)
    (lib : Packages Cmd ServerStatus) (left : M → List UInt8 → Prop) (text : List UInt8) : Prop where
  downloaded : ∀ driver url driver', api.downloadFile driver url = (.ok (), driver') → left driver' text
  read : ∀ driver rest, left driver rest → match api.readFileChunk driver b64EncodedChunkSize with
    | (.ok chunk, driver') =>
      (rest ≠ [] ∧ chunk = rest.take b64EncodedChunkSize ∧ left driver' (rest.drop b64EncodedChunkSize)) ∨
        (lib.decodeBase64 chunk (List.replicate fwChunkSize 0)).1 = none
    | (.error .endOfFile, _) => rest = []
    | (.error _, _) => True

/-- The result of a read is a chunk that does not decode, or an error other than the end of the file. -/
def BadRead {Cmd ServerStatus : Type} (lib : Packages Cmd ServerStatus) :
    Except FileError (List UInt8) → Prop
  | .ok chunk => (lib.decodeBase64 chunk (List.replicate fwChunkSize 0)).1 = none
  | .error error => error ≠ .endOfFile

instance {Cmd ServerStatus : Type} (lib : Packages Cmd ServerStatus) : DecidablePred (BadRead lib)
  | .ok _ => inferInstanceAs (Decidable (_ = none))
  | .error _ => inferInstanceAs (Decidable (_ ≠ _))

/-- The result of read `k` from a driver, counted from zero -/
def MqttClient.readAt {M E : Type} (api : MqttClient M E) : ℕ → M → Except FileError (List UInt8)
  | 0, driver => (api.readFileChunk driver b64EncodedChunkSize).1
  | k + 1, driver => api.readAt k (api.readFileChunk driver b64EncodedChunkSize).2

section Chunks

variable {image : List UInt8} {k : ℕ}

lemma lt_chunkCount : k < chunkCount image ↔ fwChunkSize * k < image.length := by
  unfold chunkCount fwChunkSize
  omega

/-- The text behind `k` chunks is that of the image behind them. -/
def textFrom (image : List UInt8) (k : ℕ) : List UInt8 := Base64.encode (image.drop (fwChunkSize * k))

lemma textFrom_eq_nil : textFrom image k = [] ↔ chunkCount image ≤ k := by
  rw [textFrom, Base64.encode_eq_nil, List.drop_eq_nil_iff, ← not_lt, ← not_lt, lt_chunkCount]

lemma take_textFrom : (textFrom image k).take b64EncodedChunkSize =
    Base64.encode ((image.drop (fwChunkSize * k)).take fwChunkSize) := Base64.take_encode 100 _

lemma drop_textFrom : (textFrom image k).drop b64EncodedChunkSize = textFrom image (k + 1) := by
  have hdrop : (textFrom image k).drop b64EncodedChunkSize =
    Base64.encode ((image.drop (fwChunkSize * k)).drop fwChunkSize) := Base64.drop_encode 100 _
  rw [hdrop, textFrom, List.drop_drop, Nat.mul_succ]

end Chunks

namespace Client

section Stream

variable {M E Cmd ServerStatus : Type} {api : MqttClient M E} {lib : Packages Cmd ServerStatus}
  {left : M → List UInt8 → Prop} {image : List UInt8} {c c' : Client M} {k : ℕ}

lemma sendFirmwareUpdateStatus_state (c : Client M) (status : FWStatus) :
    (c.sendFirmwareUpdateStatus api lib status).2.state = c.state := by
  unfold sendFirmwareUpdateStatus
  split
  · rfl
  · split <;> rfl

/-- The client streams, and `k` chunks were delivered. -/
structure Streams (left : M → List UInt8 → Prop) (image : List UInt8) (k : ℕ) (c : Client M) :
    Prop where
  state : c.state = .firmwareUpdate
  seqNum : c.updateSeqNum = k
  left : left c.driver (textFrom image k)

/-- How a download ends behind `k` chunks, with the result of the last read: it is complete behind the last
chunk, or it fails with the read. -/
def Ends (lib : Packages Cmd ServerStatus) (image : List UInt8) (k : ℕ)
    (result : Except FileError (List UInt8)) (stop : ClientEvent Cmd ServerStatus) (c : Client M) : Prop :=
  c.state = .normal ∧
    (stop = .fwDownloadComplete ∧ k = chunkCount image ∧ ¬BadRead lib result ∨
      stop = .fwDownloadFailed ∧ BadRead lib result)

lemma failFirmwareDownload_ends {result : Except FileError (List UInt8)} (h : BadRead lib result)
    (c : Client M) :
    Ends lib image k result (c.failFirmwareDownload api lib).1 (c.failFirmwareDownload api lib).2 :=
  ⟨sendFirmwareUpdateStatus_state _ _, .inr ⟨rfl, h⟩⟩

/-- A call delivers the next chunk, or the download ends. -/
lemma handleResponse_streams (hlib : lib.DecodesGroups) (hdriver : api.Serves lib left (textFrom image 0))
    (hsize : chunkCount image ≤ 65535) (h : Streams left image k c) (hk : k ≤ chunkCount image) :
    (∃ c', c.handleResponse api lib = .ok (some (.fwChunkReceived ⟨k, chunkAt image k⟩), c') ∧
      k < chunkCount image ∧ Streams left image (k + 1) c' ∧
      ¬BadRead lib (api.readAt 0 c.driver) ∧
      c'.driver = (api.readFileChunk c.driver b64EncodedChunkSize).2) ∨
    ∃ stop c', c.handleResponse api lib = .ok (some stop, c') ∧
      Ends lib image k (api.readAt 0 c.driver) stop c' := by
  have hread := hdriver.read c.driver _ h.left
  rw [handleResponse, h.state, MqttClient.readAt]
  dsimp only
  unfold handleUpdateState
  split at hread
  next chunk driver heq =>
    rw [heq]
    dsimp only
    rcases hread with ⟨hrest, rfl, hleft⟩ | hgarbage
    · have hlt : k < chunkCount image := not_le.mp fun hle => hrest (textFrom_eq_nil.mpr hle)
      have hdecode := hlib ((image.drop (fwChunkSize * k)).take fwChunkSize) (List.length_take_le _ _)
      rw [take_textFrom, hdecode, h.seqNum]
      dsimp only
      rw [if_pos (by omega)]
      refine .inl ⟨_, rfl, hlt, ⟨h.state, rfl, drop_textFrom ▸ hleft⟩, fun hbad => ?_, rfl⟩
      cases (congrArg Prod.fst hdecode).symm.trans hbad
    · cases hdec : lib.decodeBase64 chunk (List.replicate fwChunkSize 0) with
      | mk result bytes =>
        have hbad : BadRead lib (.ok chunk) := hgarbage
        rw [hdec] at hgarbage
        dsimp only at hgarbage
        subst hgarbage
        exact .inr ⟨_, _, rfl, failFirmwareDownload_ends hbad _⟩
  next driver heq =>
    rw [heq]
    refine .inr ⟨_, _, rfl, sendFirmwareUpdateStatus_state _ _, .inl ⟨rfl, ?_, not_not.mpr rfl⟩⟩
    exact le_antisymm hk (textFrom_eq_nil.mp hread)
  next error driver hne heq =>
    rw [heq]
    have hbad : BadRead lib (.error error) := fun h => hne (h ▸ rfl)
    cases error with
    | endOfFile => exact absurd rfl hne
    | readError | fileNotFound => exact .inr ⟨_, _, rfl, failFirmwareDownload_ends hbad _⟩

/-- A download starts with the first chunk. -/
lemma streams_of_started (hdriver : api.Serves lib left (textFrom image 0))
    (hstart : c.downloadFirmwareUpdate api lib = (.ok .started, c')) : Streams left image 0 c' := by
  unfold downloadFirmwareUpdate at hstart
  dsimp only at hstart
  split at hstart
  next url _ =>
    split at hstart
    next driver heq =>
      cases hstart
      exact ⟨rfl, rfl, hdriver.downloaded _ _ _ heq⟩
    next =>
      split at hstart <;> cases hstart
  next => cases hstart

/-- The calls from chunk `k` on: some chunks, and the end of the download -/
lemma handleResponses_streams (hlib : lib.DecodesGroups)
    (hdriver : api.Serves lib left (textFrom image 0)) (hsize : chunkCount image ≤ 65535)
    (h : Streams left image k c) (hk : k ≤ chunkCount image) :
    ∃ n stop c', k + n ≤ chunkCount image ∧
      c.handleResponses api lib (n + 1) = .ok (delivered image k n ++ [some stop], c') ∧
      (∀ i < n, ¬BadRead lib (api.readAt i c.driver)) ∧
      Ends lib image (k + n) (api.readAt n c.driver) stop c' := by
  generalize hm : chunkCount image - k = m
  induction m generalizing k c with
  | zero =>
    rcases handleResponse_streams hlib hdriver hsize h hk with ⟨c', -, hlt, -⟩ | ⟨stop, c', hcall, hends⟩
    · omega
    · exact ⟨0, stop, c', hk, by simp [handleResponses, hcall, delivered], by simp, hends⟩
  | succ m ih =>
    rcases handleResponse_streams hlib hdriver hsize h hk with
      ⟨c', hcall, hlt, hnext, hgood, hread⟩ | ⟨stop, c', hcall, hends⟩
    · obtain ⟨n, stop, c'', hn, hrun, hreads, hends⟩ := ih hnext hlt (by omega)
      rw [hread] at hreads hends
      refine ⟨n + 1, stop, c'', by omega, ?_, ?_, by rwa [show k + (n + 1) = k + 1 + n by omega]⟩
      · rw [handleResponses, hcall, ok_bind]
        dsimp only
        rw [hrun, ok_bind]
        rfl
      · intro i hi
        cases i with
        | zero => exact hgood
        | succ i => exact hreads i (by omega)
    · exact ⟨0, stop, c', hk, by simp [handleResponses, hcall, delivered], by simp, hends⟩

lemma handleCommonTopic_quiet (h : c.state = .normal) (topic : TopicToDevice) (payload : List UInt8) :
    (c.handleCommonTopic lib topic payload).2.state = .normal ∧
      ∀ e, (c.handleCommonTopic lib topic payload).1 = some e → e.isDownload = false := by
  cases topic with
  | command | time =>
    refine ⟨h, fun e he => ?_⟩
    obtain ⟨_, -, rfl⟩ := Option.map_eq_some_iff.mp he
    rfl
  | fwUpdateAnnounce =>
    unfold handleCommonTopic
    dsimp only
    split
    · refine ⟨h, fun e he => ?_⟩
      cases he
      rfl
    · exact ⟨h, nofun⟩

variable (api lib) in
/-- Without a download, no event of one is returned. -/
lemma handleNormalState_quiet (h : c.state = .normal) :
    (c.handleNormalState api lib).2.state = .normal ∧
      ∀ e, (c.handleNormalState api lib).1 = some e → e.isDownload = false := by
  unfold handleNormalState
  split
  next message driver _ =>
    dsimp only
    generalize (match parseSystemTopic message.topic.str with
      | some .serverStatus => lib.serverStatusFromSlice message.payload
      | _ => none) = status
    cases status with
    | some status =>
      refine ⟨h, fun e he => ?_⟩
      cases he
      rfl
    | none =>
      dsimp only
      split
      · refine handleCommonTopic_quiet ?_ _ _
        exact h
      · exact ⟨h, nofun⟩
  all_goals
    refine ⟨h, fun e he => ?_⟩
    cases he
    rfl

lemma handleResponses_quiet (h : c.state = .normal) (n : ℕ) :
    ∃ events c', c.handleResponses api lib n = .ok (events, c') ∧ c'.state = .normal ∧
      ∀ e, some e ∈ events → e.isDownload = false := by
  induction n generalizing c with
  | zero => exact ⟨[], c, rfl, h, by simp⟩
  | succ n ih =>
    obtain ⟨hstate, hquiet⟩ := handleNormalState_quiet api lib h
    obtain ⟨events, c', hrun, hstate', hevents⟩ := ih hstate
    refine ⟨(c.handleNormalState api lib).1 :: events, c', ?_, hstate', fun e he => ?_⟩
    · rw [handleResponses, handleResponse, h]
      simp [hrun]
    · rcases List.mem_cons.mp he with he | he
      · exact hquiet e he.symm
      · exact hevents e he

variable (c c') in
/-- **The chunks are those of the image.** After a download was started, in whatever state the client was
before, the calls of `handle_response` return the chunks from the first on, in order and none twice, and
then the one event that ends the download: it fails with the first read that is bad, and without one it is
complete behind the last chunk. No call panics. -/
theorem firmware_stream (hlib : lib.DecodesGroups)
    (hdriver : api.Serves lib left (Base64.encode image)) (hsize : chunkCount image ≤ 65535)
    (hstart : c.downloadFirmwareUpdate api lib = (.ok .started, c')) :
    ∃ n stop c'', n ≤ chunkCount image ∧
      c'.handleResponses api lib (n + 1) = .ok (delivered image 0 n ++ [some stop], c'') ∧
      (∀ k < n, ¬BadRead lib (api.readAt k c'.driver)) ∧
      (stop = .fwDownloadComplete ∧ n = chunkCount image ∧ ¬BadRead lib (api.readAt n c'.driver) ∨
        stop = .fwDownloadFailed ∧ BadRead lib (api.readAt n c'.driver)) ∧
      c''.state = .normal ∧
      ∀ m, ∃ events c₃, c''.handleResponses api lib m = .ok (events, c₃) ∧ c₃.state = .normal ∧
        ∀ e, some e ∈ events → e.isDownload = false := by
  have htext : Base64.encode image = textFrom image 0 := rfl
  rw [htext] at hdriver
  obtain ⟨n, stop, c'', hn, hrun, hreads, hstate, hends⟩ := handleResponses_streams hlib hdriver hsize
    (streams_of_started hdriver hstart) (Nat.zero_le _)
  rw [Nat.zero_add] at hn hends
  exact ⟨n, stop, c'', hn, hrun, hreads, hends, hstate, handleResponses_quiet hstate⟩

end Stream

/-! ### A download of two chunks -/

/-- `decode_slice`: the bytes are written to the front of the output when they fit. -/
def decodeSlice (input output : List UInt8) : Option ℕ × List UInt8 :=
  match Base64.decode input with
  | some bytes =>
    if bytes.length ≤ output.length then (some bytes.length, copyInto output 0 bytes) else (none, output)
  | none => (none, output)

/-- No payload is read, and no status is sent. -/
def samplePackages : Packages Unit Unit where
  statusPayload _ := none
  commandFromSlice _ := none
  timestampFromSlice _ := none
  announceFromSlice _ := none
  serverStatusFromSlice _ := none
  decodeBase64 := decodeSlice

lemma samplePackages_decodesGroups : samplePackages.DecodesGroups := by
  intro bytes hbytes
  have hzeros : (copyFromSlice (List.replicate fwChunkSize 0) 0 bytes.length bytes : Attempt Empty _) =
      .ok (copyInto (List.replicate fwChunkSize 0) 0 bytes) :=
    copyFromSlice_ok (by rwa [List.length_replicate]) (Nat.zero_add _)
  rw [copyFromSlice_zeros rfl hbytes le_rfl, Except.ok.injEq, Nat.sub_self, List.replicate_zero,
    List.append_nil] at hzeros
  simp only [samplePackages, decodeSlice, Base64.decode_encode, List.length_replicate, if_pos hbytes,
    hzeros]

def sampleImage : List UInt8 := List.replicate 301 7

/-- A driver that holds the text that is left -/
def sampleDriver : MqttClient (List UInt8) Unit where
  publish driver _ _ := (.error .timeOut, driver)
  handleResponse driver := (none, driver)
  downloadFile _ _ := (.ok (), Base64.encode sampleImage)
  readFileChunk driver n :=
    match driver with
    | [] => (.error .endOfFile, [])
    | c :: cs => (.ok ((c :: cs).take n), (c :: cs).drop n)

lemma sampleDriver_serves :
    sampleDriver.Serves samplePackages (fun driver rest => driver = rest) (Base64.encode sampleImage) where
  downloaded _ _ _ h := by
    cases h
    rfl
  read driver rest h := by
    subst h
    cases driver with
    | nil => rfl
    | cons c cs => exact .inl ⟨List.cons_ne_nil c cs, rfl, rfl⟩

/-- The download before has failed behind its chunk 7. -/
def sampleClient : Client (List UInt8) := ⟨[], ⟨"mock", by decide⟩, .normal, some ⟨"fw", by decide⟩, 8⟩

theorem firmware_stream_sample :
    ∃ c'', (sampleClient.downloadFirmwareUpdate sampleDriver samplePackages).2.handleResponses sampleDriver
        samplePackages 3 = .ok (delivered sampleImage 0 2 ++ [some .fwDownloadComplete], c'') ∧
      c''.state = .normal := by
  have hcount : chunkCount sampleImage = 2 := by
    rw [chunkCount, sampleImage, List.length_replicate]
    decide
  have hgood : ∀ n < 3, ¬BadRead samplePackages (sampleDriver.readAt n (Base64.encode sampleImage)) := by
    decide +kernel
  obtain ⟨n, stop, c'', hn, hrun, -, hends, hstate, -⟩ := firmware_stream sampleClient _
    samplePackages_decodesGroups sampleDriver_serves (hcount.trans_le (by decide)) rfl
  rw [hcount] at hn hends
  rcases hends with ⟨rfl, rfl, -⟩ | ⟨-, hbad⟩
  · exact ⟨c'', hrun, hstate⟩
  · exact absurd hbad (hgood n (by omega))

end Client

end SensorLink.Network
