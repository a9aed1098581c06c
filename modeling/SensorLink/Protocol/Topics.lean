import SensorLink.Lib.Text

/-!
# The topic strings of `topics.rs`

A topic is written as `prefix/uid/topic_name` and parsed from it; the name may hold the separator. The
names that are written and the names that are matched stand in two tables.
-/

namespace SensorLink.Protocol

open SensorLink.Lib

def maxTopicPrefixLen : ℕ := 8

def maxUidLen : ℕ := 9

def maxTopicLen : ℕ := 40

/-- `TopicString` -/
abbrev TopicString := HString maxTopicLen

inductive TopicSerializeError
  | prefixLength
  | uidLength
  | suffixLength
  | totalLength
  | other
deriving DecidableEq

inductive TopicParseError
  | noMatch
  | missingPrefix
  | suffixParse
deriving DecidableEq

/-! ### Writing -/

def validatePrefix (topicPrefix : String) : Except TopicSerializeError String :=
  if topicPrefix.utf8ByteSize ≤ maxTopicPrefixLen then .ok topicPrefix else .error .prefixLength

def validateUid (uid : String) : Except TopicSerializeError String :=
  if uid.utf8ByteSize ≤ maxUidLen then .ok uid else .error .uidLength

/-- `write!` of parts, one after another, until one does not fit -/
def writeParts : TopicString → List String → Option TopicString
  | output, [] => some output
  | output, part :: parts => (output.pushStr part).bind fun output => writeParts output parts

def buildTopicString (topicPrefix uid topicPart : String) : Except TopicSerializeError TopicString := do
  let prefixStr ← validatePrefix topicPrefix
  let uidStr ← validateUid uid
  match writeParts HString.new [prefixStr, "/", uidStr, "/", topicPart] with
  | some output => .ok output
  | none => .error .totalLength

inductive TopicFromDevice
  | online
  | event
  | fwStatus
  | deviceInfoV2
  | deviceInfoV3
  | status
  | benchmarkEvent
  | benchmarkData
  | chargerStatus
deriving DecidableEq

inductive TopicToDevice
  | command
  | fwUpdateAnnounce
  | time
deriving DecidableEq

def TopicFromDevice.topicName : TopicFromDevice → String
  | .online => "online"
  | .event => "events"
  | .fwStatus => "fw_update/status"
  | .deviceInfoV2 => "info_v2"
  | .deviceInfoV3 => "info_v3"
  | .status => "status"
  | .chargerStatus => "charger_status"
  | .benchmarkEvent => "benchmark_event"
  | .benchmarkData => "benchmark_data"

def TopicToDevice.topicName : TopicToDevice → String
  | .command => "commands"
  | .fwUpdateAnnounce => "fw_update/meta"
  | .time => "time"

def TopicFromDevice.toTopicStringWithPrefix (self : TopicFromDevice) (topicPrefix uid : String) :
    Except TopicSerializeError TopicString := buildTopicString topicPrefix uid self.topicName

def TopicToDevice.toTopicStringWithPrefix (self : TopicToDevice) (topicPrefix uid : String) :
    Except TopicSerializeError TopicString := buildTopicString topicPrefix uid self.topicName

def TopicFromDevice.toTopicString (self : TopicFromDevice) (uid : String) :
    Except TopicSerializeError TopicString := self.toTopicStringWithPrefix "f" uid

def TopicToDevice.toTopicString (self : TopicToDevice) (uid : String) :
    Except TopicSerializeError TopicString := self.toTopicStringWithPrefix "t" uid

/-! ### Parsing -/

structure TopicParts (T : Type) where
  topicPrefix : String
  deviceId : String
  topic : T
deriving DecidableEq

/-- The table of names of `parse_topic_from_device` -/
def topicFromDeviceOf (name : String) : Option TopicFromDevice :=
  match name with
  | "online" => some .online
  | "benchmark_data" => some .benchmarkData
  | "benchmark_event" => some .benchmarkEvent
  | "events" => some .event
  | "status" => some .status
  | "charger_status" => some .chargerStatus
  | "info_v2" => some .deviceInfoV2
  | "info_v3" => some .deviceInfoV3
  | "fw_update/status" => some .fwStatus
  | _ => none

/-- The table of names of `parse_topic_to_device` -/
def topicToDeviceOf (name : String) : Option TopicToDevice :=
  match name with
  | "commands" => some .command
  | "time" => some .time
  | "fw_update/meta" => some .fwUpdateAnnounce
  | _ => none

/-- `parts.next().ok_or(TopicParseError::MissingPrefix)` for part `i` -/
def nextPart (parts : List (List Char)) (i : ℕ) : Except TopicParseError String :=
  match parts[i]? with
  | some part => .ok (String.ofList part)
  | none => .error .missingPrefix

/-- The body that both parsers share, with the table of names -/
def parseTopic {T : Type} (topicOf : String → Option T) (topic : String) :
    Except TopicParseError (TopicParts T) := do
  -- split into 3 parts, keeping the remainder
  let parts := splitn '/' 3 topic.toList
  let topicPrefix ← nextPart parts 0
  let deviceId ← nextPart parts 1
  let topicName ← nextPart parts 2
  match topicOf topicName with
  | some topic => .ok ⟨topicPrefix, deviceId, topic⟩
  | none => .error .noMatch

def parseTopicFromDevice (topic : String) : Except TopicParseError (TopicParts TopicFromDevice) :=
  parseTopic topicFromDeviceOf topic

def parseTopicToDevice (topic : String) : Except TopicParseError (TopicParts TopicToDevice) :=
  parseTopic topicToDeviceOf topic

inductive SystemTopic
  | smsRequest
  | smsResponse
  | serverStatus
deriving DecidableEq

def parseSystemTopic (value : String) : Option SystemTopic :=
  match value with
  | "sms/req" => some .smsRequest
  | "sms/resp" => some .smsResponse
  | "server/status" => some .serverStatus
  | _ => none

/-! ### Both tables hold the same names -/

lemma topicFromDeviceOf_eq_some {name : String} {topic : TopicFromDevice} :
    topicFromDeviceOf name = some topic ↔ name = topic.topicName := by
  constructor
  · intro h
    unfold topicFromDeviceOf at h
    split at h <;> cases h <;> rfl
  · rintro rfl
    cases topic <;> rfl

lemma topicToDeviceOf_eq_some {name : String} {topic : TopicToDevice} :
    topicToDeviceOf name = some topic ↔ name = topic.topicName := by
  constructor
  · intro h
    unfold topicToDeviceOf at h
    split at h <;> cases h <;> rfl
  · rintro rfl
    cases topic <;> rfl

/-- No topic of the device is a topic to the device. -/
lemma topicName_ne (topic : TopicFromDevice) (topic' : TopicToDevice) :
    topic.topicName ≠ topic'.topicName := by
  cases topic <;> cases topic' <;> decide

/-- The longest name -/
def maxTopicNameLen : ℕ := 16

lemma TopicFromDevice.topicName_le (topic : TopicFromDevice) :
    topic.topicName.utf8ByteSize ≤ maxTopicNameLen := by
  cases topic <;> decide

lemma TopicToDevice.topicName_le (topic : TopicToDevice) :
    topic.topicName.utf8ByteSize ≤ maxTopicNameLen := by
  cases topic <;> decide

/-! ### What is written -/

/-- `prefix/uid/topic_name` -/
def joined (topicPrefix uid topicName : String) : String :=
  topicPrefix ++ "/" ++ uid ++ "/" ++ topicName

section Write

variable {topicPrefix uid topicPart : String}

lemma size_le_foldl (parts : List String) (s : String) :
    s.utf8ByteSize ≤ (parts.foldl (· ++ ·) s).utf8ByteSize := by
  induction parts generalizing s with
  | nil => exact le_rfl
  | cons part parts ih =>
    refine le_trans ?_ (ih (s ++ part))
    rw [String.utf8ByteSize_append]
    exact Nat.le_add_right _ _

/-- All parts are written when the whole text fits. -/
lemma writeParts_of_le (parts : List String) (output : TopicString)
    (h : (parts.foldl (· ++ ·) output.str).utf8ByteSize ≤ maxTopicLen) :
    ∃ s, writeParts output parts = some s ∧ s.str = parts.foldl (· ++ ·) output.str := by
  induction parts generalizing output with
  | nil => exact ⟨output, rfl, rfl⟩
  | cons part parts ih =>
    have hpart : (output.str ++ part).utf8ByteSize ≤ maxTopicLen := (size_le_foldl parts _).trans h
    obtain ⟨s, hs, hstr⟩ := ih ⟨output.str ++ part, hpart⟩ h
    refine ⟨s, ?_, hstr⟩
    rw [writeParts, HString.pushStr, HString.tryFrom_of_le hpart, Option.bind_some, hs]

/-- The longest prefix, uid and name fit into a topic string together. -/
lemma buildTopicString_ok (hp : topicPrefix.utf8ByteSize ≤ maxTopicPrefixLen)
    (hu : uid.utf8ByteSize ≤ maxUidLen) (ht : topicPart.utf8ByteSize ≤ maxTopicNameLen) :
    ∃ s, buildTopicString topicPrefix uid topicPart = .ok s ∧
      s.str = joined topicPrefix uid topicPart := by
  have hjoined : [topicPrefix, "/", uid, "/", topicPart].foldl (· ++ ·) "" =
      joined topicPrefix uid topicPart := by
    simp [joined]
  have hsize : (joined topicPrefix uid topicPart).utf8ByteSize ≤ maxTopicLen := by
    have hslash : "/".utf8ByteSize = 1 := rfl
    simp only [joined, String.utf8ByteSize_append, hslash]
    unfold maxTopicPrefixLen at hp
    unfold maxUidLen at hu
    unfold maxTopicNameLen at ht
    unfold maxTopicLen
    omega
  obtain ⟨s, hs, hstr⟩ := writeParts_of_le [topicPrefix, "/", uid, "/", topicPart] HString.new
    (by rw [HString.str_new, hjoined]; exact hsize)
  refine ⟨s, ?_, hstr.trans (by rw [HString.str_new, hjoined])⟩
  have hprefix : validatePrefix topicPrefix = .ok topicPrefix := if_pos hp
  have huid : validateUid uid = .ok uid := if_pos hu
  simp only [buildTopicString, hprefix, huid, bind, Except.bind, hs]

end Write

/-! ### What is parsed -/

section Parse

variable {T : Type} {topicOf : String → Option T} {topic : String} {parts : TopicParts T}

lemma toList_joined (topicPrefix uid topicName : String) :
    (joined topicPrefix uid topicName).toList =
      topicPrefix.toList ++ '/' :: (uid.toList ++ '/' :: topicName.toList) := by
  simp [joined]

/-- The parser accepts what is joined of two parts without the separator and a name of its table. -/
lemma parseTopic_eq_ok : parseTopic topicOf topic = .ok parts ↔
    '/' ∉ parts.topicPrefix.toList ∧ '/' ∉ parts.deviceId.toList ∧
      ∃ name, topicOf name = some parts.topic ∧
        topic = joined parts.topicPrefix parts.deviceId name := by
  constructor
  · intro h
    have hlen : (splitn '/' 3 topic.toList).length ≤ 3 := length_splitn_le 3 _
    rw [parseTopic] at h
    match hparts : splitn '/' 3 topic.toList with
    | [] | [_] | [_, _] =>
      rw [hparts] at h
      cases h
    | [a, b, c] =>
      rw [hparts] at h
      change (match topicOf (String.ofList c) with
        | some topic => Except.ok ⟨String.ofList a, String.ofList b, topic⟩
        | none => Except.error TopicParseError.noMatch) = Except.ok parts at h
      obtain ⟨ha, hb, hs⟩ := splitn_three.mp hparts
      split at h
      next t ht =>
        cases h
        refine ⟨by simpa using ha, by simpa using hb, _, ht, String.toList_inj.mp ?_⟩
        rw [toList_joined, hs]
        simp
      · cases h
    | _ :: _ :: _ :: _ :: _ =>
      rw [hparts] at hlen
      simp only [List.length_cons] at hlen
      omega
  · rintro ⟨hp, hd, name, hname, rfl⟩
    have hsplit := splitn_three.mpr ⟨hp, hd, toList_joined parts.topicPrefix parts.deviceId name⟩
    simp [parseTopic, hsplit, nextPart, hname, bind, Except.bind]

end Parse

lemma parseTopicFromDevice_eq_ok {topic : String} {parts : TopicParts TopicFromDevice} :
    parseTopicFromDevice topic = .ok parts ↔
      '/' ∉ parts.topicPrefix.toList ∧ '/' ∉ parts.deviceId.toList ∧
        topic = joined parts.topicPrefix parts.deviceId parts.topic.topicName := by
  simp [parseTopicFromDevice, parseTopic_eq_ok, topicFromDeviceOf_eq_some]

lemma parseTopicToDevice_eq_ok {topic : String} {parts : TopicParts TopicToDevice} :
    parseTopicToDevice topic = .ok parts ↔
      '/' ∉ parts.topicPrefix.toList ∧ '/' ∉ parts.deviceId.toList ∧
        topic = joined parts.topicPrefix parts.deviceId parts.topic.topicName := by
  simp [parseTopicToDevice, parseTopic_eq_ok, topicToDeviceOf_eq_some]

/-- Two texts that are joined of parts without the separator have the same parts. -/
lemma joined_inj {p u n p' u' n' : String} (hp : '/' ∉ p.toList) (hu : '/' ∉ u.toList)
    (hp' : '/' ∉ p'.toList) (hu' : '/' ∉ u'.toList) (h : joined p u n = joined p' u' n') :
    p = p' ∧ u = u' ∧ n = n' := by
  have hsplit := splitn_three.mpr ⟨hp, hu, toList_joined p u n⟩
  have hsplit' := splitn_three.mpr ⟨hp', hu', toList_joined p' u' n'⟩
  rw [h, hsplit'] at hsplit
  simpa [String.toList_inj, eq_comm] using hsplit

/-- A topic is parsed from the text that was written of it, and a parser accepts only such a text: the
parts are those of no other topic, in either direction. -/
theorem topics_roundtrip :
    (∀ (topicPrefix uid : String), topicPrefix.utf8ByteSize ≤ maxTopicPrefixLen →
      uid.utf8ByteSize ≤ maxUidLen → '/' ∉ topicPrefix.toList → '/' ∉ uid.toList →
      (∀ topic : TopicFromDevice, ∃ s : TopicString,
        topic.toTopicStringWithPrefix topicPrefix uid = .ok s ∧
          s.str = joined topicPrefix uid topic.topicName ∧
          parseTopicFromDevice s.str = .ok ⟨topicPrefix, uid, topic⟩) ∧
      ∀ topic : TopicToDevice, ∃ s : TopicString,
        topic.toTopicStringWithPrefix topicPrefix uid = .ok s ∧
          s.str = joined topicPrefix uid topic.topicName ∧
          parseTopicToDevice s.str = .ok ⟨topicPrefix, uid, topic⟩) ∧
    (∀ (s : String) (parts : TopicParts TopicFromDevice), parseTopicFromDevice s = .ok parts →
      s = joined parts.topicPrefix parts.deviceId parts.topic.topicName ∧
      ∀ p u, '/' ∉ p.toList → '/' ∉ u.toList →
        (∀ topic : TopicFromDevice, s = joined p u topic.topicName → ⟨p, u, topic⟩ = parts) ∧
        ∀ topic : TopicToDevice, s ≠ joined p u topic.topicName) ∧
    ∀ (s : String) (parts : TopicParts TopicToDevice), parseTopicToDevice s = .ok parts →
      s = joined parts.topicPrefix parts.deviceId parts.topic.topicName ∧
      ∀ p u, '/' ∉ p.toList → '/' ∉ u.toList →
        (∀ topic : TopicToDevice, s = joined p u topic.topicName → ⟨p, u, topic⟩ = parts) ∧
        ∀ topic : TopicFromDevice, s ≠ joined p u topic.topicName := by
  refine ⟨fun p u hp hu hp' hu' => ⟨fun topic => ?_, fun topic => ?_⟩, fun s parts h => ?_,
    fun s parts h => ?_⟩
  · obtain ⟨s, hs, hstr⟩ := buildTopicString_ok hp hu topic.topicName_le
    exact ⟨s, hs, hstr, parseTopicFromDevice_eq_ok.mpr ⟨hp', hu', hstr⟩⟩
  · obtain ⟨s, hs, hstr⟩ := buildTopicString_ok hp hu topic.topicName_le
    exact ⟨s, hs, hstr, parseTopicToDevice_eq_ok.mpr ⟨hp', hu', hstr⟩⟩
  · obtain ⟨hpre, hdev, hjoin⟩ := parseTopicFromDevice_eq_ok.mp h
    refine ⟨hjoin, fun p u hp hu => ⟨fun topic htopic => ?_, fun topic htopic => ?_⟩⟩
    · have hok : parseTopicFromDevice s = .ok ⟨p, u, topic⟩ :=
        parseTopicFromDevice_eq_ok.mpr ⟨hp, hu, htopic⟩
      exact Except.ok.inj (hok.symm.trans h)
    · exact topicName_ne _ _ (joined_inj hpre hdev hp hu (hjoin.symm.trans htopic)).2.2
  · obtain ⟨hpre, hdev, hjoin⟩ := parseTopicToDevice_eq_ok.mp h
    refine ⟨hjoin, fun p u hp hu => ⟨fun topic htopic => ?_, fun topic htopic => ?_⟩⟩
    · have hok : parseTopicToDevice s = .ok ⟨p, u, topic⟩ :=
        parseTopicToDevice_eq_ok.mpr ⟨hp, hu, htopic⟩
      exact Except.ok.inj (hok.symm.trans h)
    · exact topicName_ne _ _ (joined_inj hp hu hpre hdev (htopic.symm.trans hjoin)).2.2

/-- A prefix, a uid and a name of the longest lengths -/
theorem topics_roundtrip_longest :
    (∃ s : TopicString, (TopicFromDevice.fwStatus).toTopicStringWithPrefix "supplier" "JTR000001" =
        .ok s ∧ s.str = joined "supplier" "JTR000001" "fw_update/status" ∧
        parseTopicFromDevice s.str = .ok ⟨"supplier", "JTR000001", .fwStatus⟩) ∧
    "t/mock/time" = joined "t" "mock" "time" := by
  have hlongest := topics_roundtrip.1 "supplier" "JTR000001" (by decide) (by decide) (by decide)
    (by decide)
  have hparsed := topics_roundtrip.2.2 "t/mock/time" ⟨"t", "mock", .time⟩ (by decide)
  exact ⟨hlongest.1 .fwStatus, hparsed.1⟩

example : parseTopicFromDevice "t/mock/fw_update/status" = .ok ⟨"t", "mock", .fwStatus⟩ := by decide

example : TopicToDevice.time.toTopicString "mock" = .ok ⟨"t/mock/time", by decide⟩ := by decide

end SensorLink.Protocol
