import AgenticSoc.JsonText
import AgenticSoc.IsoTimestamps
import AgenticSoc.TextLines

/-!
# Telemetry line by line

Each line of a telemetry file is blank, malformed, without a timestamp, or an event.
Nothing checks the types of the parts of a record before their fields are looked up,
and what that raises is not among the exceptions that make a line malformed.
-/
namespace TelemetryLines

open JsonText TextLines BlackboardFirewall

/-- What the parser takes from the language: numbers and their texts, truth of numbers,
the texts of values, timestamps in other formats, the texts of numbers too long to read. -/
structure Library (F : Type) where
  floats : FloatFormat F
  iso : IsoTimestamps.IsoLibrary
  overLong : List Char → Bool
  str : Json F → String
  intOfText : String → Option Int
  floatOfText : String → Option F
  integerValue : F → Option Int
  isZero : F → Bool

/-- The exceptions that parsing a line raises, by their classes. -/
inductive Raised where
  | valueError
  | attributeError
deriving DecidableEq, Repr

/-- Fields of unchecked types stand as they were read. -/
structure MqttEvent (F : Type) where
  tsNs : Int
  internalDeviceName : Json F
  application : Json F
  ip : Json F
  mac : Json F
  fullId : Json F
  topic : Json F
  messageType : Json F
  messageValue : Json F
  qos : Json F
  retained : Json F
  duplicate : Json F
  messageId : Json F
  lineNumber : Nat

structure NdjsonStats where
  linesRead : Nat
  eventsParsed : Nat
  blankLines : Nat
  malformedLines : Nat
  missingTimestampLines : Nat
  malformedSamples : List String
deriving DecidableEq

section Parsing

variable {F : Type} (L : Library F)

def loads (line : String) : Except Raised (Json F) :=
  if L.overLong line.toList then .error .valueError
  else
    match read L.floats line.toList with
    | none => .error .valueError
    | some j => .ok j

def item (members : List (String × Json F)) (key : String) : Json F :=
  ((members.find? fun m => m.1 = key).map Prod.snd).getD .null

/-- `value.get(key)`; only an object has this attribute. -/
def attributeGet (value : Json F) (key : String) : Except Raised (Json F) :=
  match value with
  | .obj members => .ok (item members key)
  | _ => .error .attributeError

def truthy : Json F → Bool
  | .null => false
  | .bool b => b
  | .int n => n ≠ 0
  | .float x => !L.isZero x
  | .str s => s ≠ ""
  | .arr items => !items.isEmpty
  | .obj members => !members.isEmpty

/-- `value or {}` -/
def orEmpty (value : Json F) : Json F := if truthy L value then value else .obj []

/-- `str(value)` -/
def text : Json F → String
  | .str s => s
  | j => L.str j

def clean : Json F → Json F
  | .str s => if strip s = "" then .null else .str (strip s)
  | j => j

def readMessageId : Json F → Json F
  | .str s =>
    match L.intOfText s with
    | some n => .int n
    | none => .str s
  | j => j

def readQos : Json F → Json F
  | .str s =>
    match L.floatOfText s with
    | some x =>
      match L.integerValue x with
      | some n => .int n
      | none => .float x
    | none => .str s
  | j => j

def epochNs (ts : Json F) : Except Raised Int :=
  match IsoTimestamps.epochNsFromIso L.iso (text L ts) with
  | some n => .ok n
  | none => .error .valueError

/-- The event of a record with a timestamp. -/
def buildEvent (tsNs : Int) (general mqtt : Json F) : Except Raised (MqttEvent F) := do
  let messageId ← attributeGet mqtt "message_id"
  let qos ← attributeGet mqtt "qos"
  let deviceName ← attributeGet general "device_name"
  let application ← attributeGet general "application"
  let ip ← attributeGet general "ip"
  let mac ← attributeGet general "mac"
  let fullId ← attributeGet general "full_id"
  let topic ← attributeGet mqtt "topic"
  let messageType ← attributeGet mqtt "message_type"
  let messageValue ← attributeGet mqtt "message_value"
  let retained ← attributeGet mqtt "retained"
  let duplicate ← attributeGet mqtt "duplicate"
  return {
    tsNs := tsNs
    internalDeviceName := clean deviceName
    application := clean application
    ip := clean ip
    mac := clean mac
    fullId := clean fullId
    topic := clean topic
    messageType := clean messageType
    messageValue := messageValue
    qos := readQos L qos
    retained := retained
    duplicate := duplicate
    messageId := readMessageId L messageId
    lineNumber := 0 }

/-- The event of a record, once its timestamp is known to be there. -/
def parseRecord (obj tsRaw : Json F) : Except Raised (MqttEvent F) := do
  let tsNs ← epochNs L tsRaw
  let general ← attributeGet obj "general"
  let mqtt ← attributeGet obj "mqtt"
  buildEvent L tsNs (orEmpty L general) (orEmpty L mqtt)

def parseTelemetryLine (line : String) : Except Raised (Option (MqttEvent F)) := do
  let obj ← loads L line
  let tsRaw ← attributeGet obj "@timestamp"
  match tsRaw with
  | .null => return none
  | ts => (parseRecord L obj ts).map some

/-- The classes that make a line malformed; another exception leaves the generator. -/
def caught : Raised → Bool
  | .valueError => true
  | .attributeError => false

def NdjsonStats.start : NdjsonStats := ⟨0, 0, 0, 0, 0, []⟩

def NdjsonStats.read (stats : NdjsonStats) : NdjsonStats := { stats with linesRead := stats.linesRead + 1 }

def NdjsonStats.blank (stats : NdjsonStats) : NdjsonStats := { stats with blankLines := stats.blankLines + 1 }

def NdjsonStats.missingTimestamp (stats : NdjsonStats) : NdjsonStats :=
  { stats with missingTimestampLines := stats.missingTimestampLines + 1 }

def NdjsonStats.parsed (stats : NdjsonStats) : NdjsonStats := { stats with eventsParsed := stats.eventsParsed + 1 }

def NdjsonStats.malformed (stats : NdjsonStats) (stripped : String) : NdjsonStats :=
  { stats with
    malformedLines := stats.malformedLines + 1
    malformedSamples :=
      if stats.malformedSamples.length < 10 then stats.malformedSamples ++ [String.ofList (stripped.toList.take 200)]
      else stats.malformedSamples }

/-- What a run over the lines has yielded, its counters, and the exception that ended it. -/
structure Outcome (F : Type) where
  events : List (MqttEvent F)
  stats : NdjsonStats
  raised : Option Raised

/-- The loop over the lines from a line number on. -/
def eventsFrom (lineNumber : Nat) (stats : NdjsonStats) : List String → Outcome F
  | [] => ⟨[], stats, none⟩
  | line :: lines =>
    let stats := stats.read
    let stripped := strip line
    if stripped = "" then eventsFrom (lineNumber + 1) stats.blank lines
    else
      match parseTelemetryLine L stripped with
      | .error e =>
        if caught e then eventsFrom (lineNumber + 1) (stats.malformed stripped) lines else ⟨[], stats, some e⟩
      | .ok none => eventsFrom (lineNumber + 1) stats.missingTimestamp lines
      | .ok (some event) =>
        let rest := eventsFrom (lineNumber + 1) stats.parsed lines
        ⟨{ event with lineNumber := lineNumber } :: rest.events, rest.stats, rest.raised⟩

def events (content : List Char) : Outcome F := eventsFrom L 1 .start (fileLines content)

end Parsing

/-! ## Which lines raise -/

section Raising

variable {F : Type} {L : Library F}

/-- A part of a record that is looked into: an object, or nothing by its truth value. -/
def Mapping (L : Library F) (part : Json F) : Prop := truthy L part = true → ∃ members, part = .obj members

/-- A text that, when it can be read, is an object, and whose parts are looked into
only when they can be. -/
def Tame (L : Library F) (line : String) : Prop :=
  ∀ j, loads L line = .ok j → ∃ members, j = .obj members ∧
    (item members "@timestamp" ≠ .null → ∀ tsNs, epochNs L (item members "@timestamp") = .ok tsNs →
      Mapping L (item members "general") ∧ Mapping L (item members "mqtt"))

theorem attributeGet_obj (members : List (String × Json F)) (key : String) :
    attributeGet (.obj members) key = .ok (item members key) := rfl

theorem attributeGet_other {part : Json F} (h : ∀ members, part ≠ .obj members) (key : String) :
    attributeGet part key = .error .attributeError := by
  cases part with
  | obj members => exact absurd rfl (h members)
  | _ => rfl

theorem mapping_iff (part : Json F) : Mapping L part ↔ ∃ members, orEmpty L part = .obj members := by
  unfold Mapping orEmpty
  by_cases h : truthy L part = true
  · simp [h]
  · simp [h]

theorem buildEvent_obj (L : Library F) (tsNs : Int) (general mqtt : List (String × Json F)) :
    ∃ event, buildEvent L tsNs (.obj general) (.obj mqtt) = .ok event := ⟨_, rfl⟩

theorem buildEvent_general {general : Json F} (h : ∀ members, general ≠ .obj members) (tsNs : Int) (mqtt : Json F) :
    buildEvent L tsNs general mqtt = .error .attributeError := by
  cases mqtt with
  | obj members =>
    unfold buildEvent
    simp only [attributeGet_obj, attributeGet_other h, bind, Except.bind]
  | _ => simp only [buildEvent, attributeGet, bind, Except.bind]

theorem buildEvent_mqtt {mqtt : Json F} (h : ∀ members, mqtt ≠ .obj members) (tsNs : Int) (general : Json F) :
    buildEvent L tsNs general mqtt = .error .attributeError := by
  unfold buildEvent
  simp only [attributeGet_other h, bind, Except.bind]

theorem buildEvent_tame (tsNs : Int) {general mqtt : Json F} (hg : Mapping L general) (hm : Mapping L mqtt) :
    ∃ event, buildEvent L tsNs (orEmpty L general) (orEmpty L mqtt) = .ok event := by
  obtain ⟨g, hg⟩ := (mapping_iff general).mp hg
  obtain ⟨m, hm⟩ := (mapping_iff mqtt).mp hm
  rw [hg, hm]
  exact buildEvent_obj L tsNs g m

theorem buildEvent_wild (tsNs : Int) {general mqtt : Json F} (h : ¬ (Mapping L general ∧ Mapping L mqtt)) :
    buildEvent L tsNs (orEmpty L general) (orEmpty L mqtt) = .error .attributeError := by
  rcases not_and_or.mp h with h | h <;> rw [mapping_iff, not_exists] at h
  · exact buildEvent_general h tsNs _
  · exact buildEvent_mqtt h tsNs _

theorem parseRecord_obj (members : List (String × Json F)) (ts : Json F) :
    parseRecord L (.obj members) ts = (epochNs L ts).bind fun tsNs =>
      buildEvent L tsNs (orEmpty L (item members "general")) (orEmpty L (item members "mqtt")) := by
  simp only [parseRecord, attributeGet_obj, bind, Except.bind]

/-- The parser on an object with a timestamp. -/
theorem parse_record {line : String} {members : List (String × Json F)} (hload : loads L line = .ok (.obj members))
    (hts : item members "@timestamp" ≠ .null) :
    parseTelemetryLine L line = (parseRecord L (.obj members) (item members "@timestamp")).map some := by
  unfold parseTelemetryLine
  rw [hload]
  simp only [bind, Except.bind, attributeGet_obj]

/-- A tame text makes a line malformed, without a timestamp, or an event. -/
theorem parse_tame {line : String} (h : Tame L line) :
    parseTelemetryLine L line = .error .valueError ∨ ∃ result, parseTelemetryLine L line = .ok result := by
  cases hload : loads L line with
  | error e =>
    left
    have he : e = .valueError := by
      unfold loads at hload
      split at hload
      · cases hload; rfl
      · split at hload <;> cases hload
        rfl
    unfold parseTelemetryLine
    rw [hload, he]
    rfl
  | ok j =>
    obtain ⟨members, rfl, hparts⟩ := h j hload
    by_cases hts : item members "@timestamp" = .null
    · right
      refine ⟨none, ?_⟩
      unfold parseTelemetryLine
      rw [hload]
      simp only [bind, Except.bind, attributeGet_obj, hts]
      rfl
    · rw [parse_record hload hts, parseRecord_obj]
      cases hns : epochNs L (item members "@timestamp") with
      | error e =>
        left
        unfold epochNs at hns
        split at hns <;> cases hns
        rfl
      | ok tsNs =>
        right
        obtain ⟨hg, hm⟩ := hparts hts tsNs hns
        obtain ⟨event, hevent⟩ := buildEvent_tame tsNs hg hm
        refine ⟨some event, ?_⟩
        simp only [Except.bind, hevent, Except.map]

/-- Any other text raises what is not caught. -/
theorem parse_wild {line : String} (h : ¬ Tame L line) : parseTelemetryLine L line = .error .attributeError := by
  unfold Tame at h
  push Not at h
  obtain ⟨j, hload, hj⟩ := h
  by_cases hobj : ∃ members, j = .obj members
  · obtain ⟨members, rfl⟩ := hobj
    obtain ⟨hts, tsNs, hns, hparts⟩ := hj members rfl
    rw [parse_record hload hts, parseRecord_obj, hns]
    have hwild := buildEvent_wild tsNs (not_and.mpr hparts)
    simp only [Except.bind, hwild, Except.map]
  · unfold parseTelemetryLine
    rw [hload]
    simp only [bind, Except.bind, attributeGet_other (not_exists.mp hobj)]

theorem blank_tame (L : Library F) : Tame L "" := by
  intro j h
  unfold loads at h
  split at h
  · cases h
  · cases h

end Raising

/-! ## Accounting -/

section Accounting

variable {F : Type} {L : Library F}

/-- The lines that one of the four counters has counted. -/
def NdjsonStats.settled (stats : NdjsonStats) : Nat :=
  stats.blankLines + stats.malformedLines + stats.missingTimestampLines + stats.eventsParsed

/-- The event of one line under its number, when the line is one. -/
def parsedLine (L : Library F) (lineNumber : Nat) (line : String) : Option (MqttEvent F) :=
  match parseTelemetryLine L (strip line) with
  | .ok (some event) => some { event with lineNumber := lineNumber }
  | _ => none

def parsedLines (L : Library F) (lineNumber : Nat) (lines : List String) : List (MqttEvent F) :=
  (lines.zipIdx lineNumber).filterMap fun p => parsedLine L p.2 p.1

theorem parsedLines_cons (lineNumber : Nat) (line : String) (lines : List String) :
    parsedLines L lineNumber (line :: lines) =
      (parsedLine L lineNumber line).toList ++ parsedLines L (lineNumber + 1) lines := by
  unfold parsedLines
  rw [List.zipIdx_cons, List.filterMap_cons]
  cases parsedLine L lineNumber line <;> rfl

/-- A line that does not raise is counted once, and yields its event when it has one. -/
theorem eventsFrom_tame (lineNumber : Nat) (stats : NdjsonStats) {line : String} (lines : List String)
    (h : Tame L (strip line)) :
    ∃ stats', stats'.linesRead = stats.linesRead + 1 ∧ stats'.settled = stats.settled + 1 ∧
      stats'.eventsParsed = stats.eventsParsed + (parsedLine L lineNumber line).toList.length ∧
      eventsFrom L lineNumber stats (line :: lines) =
        let rest := eventsFrom L (lineNumber + 1) stats' lines
        ⟨(parsedLine L lineNumber line).toList ++ rest.events, rest.stats, rest.raised⟩ := by
  rw [eventsFrom]
  by_cases hblank : strip line = ""
  · have hparse : parseTelemetryLine L (strip line) = .error .valueError := by
      rw [hblank]
      unfold parseTelemetryLine loads
      split <;> rfl
    simp only [if_pos hblank]
    unfold parsedLine
    rw [hparse]
    refine ⟨stats.read.blank, rfl, ?_, rfl, rfl⟩
    simp only [NdjsonStats.settled, NdjsonStats.read, NdjsonStats.blank]
    omega
  · simp only [if_neg hblank]
    unfold parsedLine
    rcases parse_tame h with hparse | ⟨_ | event, hparse⟩ <;> rw [hparse]
    · refine ⟨stats.read.malformed (strip line), rfl, ?_, rfl, rfl⟩
      simp only [NdjsonStats.settled, NdjsonStats.read, NdjsonStats.malformed]
      omega
    · refine ⟨stats.read.missingTimestamp, rfl, ?_, rfl, rfl⟩
      simp only [NdjsonStats.settled, NdjsonStats.read, NdjsonStats.missingTimestamp]
      omega
    · refine ⟨stats.read.parsed, rfl, ?_, rfl, rfl⟩
      simp only [NdjsonStats.settled, NdjsonStats.read, NdjsonStats.parsed]
      omega

theorem eventsFrom_wild (lineNumber : Nat) (stats : NdjsonStats) {line : String} (lines : List String)
    (h : ¬ Tame L (strip line)) : (eventsFrom L lineNumber stats (line :: lines)).raised = some .attributeError := by
  have hne : strip line ≠ "" := by
    intro hblank
    exact h (hblank ▸ blank_tame L)
  rw [eventsFrom]
  simp only [if_neg hne, parse_wild h]
  rfl

/-- A run over lines that do not raise settles each of them. -/
theorem eventsFrom_settled (lineNumber : Nat) (stats : NdjsonStats) {lines : List String}
    (h : ∀ line ∈ lines, Tame L (strip line)) :
    let outcome := eventsFrom L lineNumber stats lines
    outcome.raised = none ∧ outcome.events = parsedLines L lineNumber lines ∧
      outcome.stats.linesRead = stats.linesRead + lines.length ∧
      outcome.stats.settled = stats.settled + lines.length ∧
      outcome.stats.eventsParsed = stats.eventsParsed + (parsedLines L lineNumber lines).length := by
  induction lines generalizing lineNumber stats with
  | nil => exact ⟨rfl, rfl, rfl, rfl, rfl⟩
  | cons line lines ih =>
    obtain ⟨stats', hread, hsettled, hparsed, hrun⟩ :=
      eventsFrom_tame lineNumber stats lines (h line List.mem_cons_self)
    obtain ⟨hraised, hevents, hread', hsettled', hparsed'⟩ :=
      ih (lineNumber + 1) stats' fun l hl => h l (List.mem_cons_of_mem line hl)
    rw [hrun, parsedLines_cons]
    refine ⟨hraised, ?_, ?_, ?_, ?_⟩
    · show _ ++ _ = _
      rw [hevents]
    · rw [List.length_cons]
      show (eventsFrom L (lineNumber + 1) stats' lines).stats.linesRead = _
      omega
    · rw [List.length_cons]
      show (eventsFrom L (lineNumber + 1) stats' lines).stats.settled = _
      omega
    · rw [List.length_append]
      show (eventsFrom L (lineNumber + 1) stats' lines).stats.eventsParsed = _
      omega

theorem tame_of_ended (lineNumber : Nat) (stats : NdjsonStats) {lines : List String}
    (h : (eventsFrom L lineNumber stats lines).raised = none) : ∀ line ∈ lines, Tame L (strip line) := by
  induction lines generalizing lineNumber stats with
  | nil => exact nofun
  | cons line lines ih =>
    by_cases htame : Tame L (strip line)
    · obtain ⟨stats', -, -, -, hrun⟩ := eventsFrom_tame lineNumber stats lines htame
      rw [hrun] at h
      exact List.forall_mem_cons.mpr ⟨htame, ih (lineNumber + 1) stats' h⟩
    · rw [eventsFrom_wild lineNumber stats lines htame] at h
      cases h

/-- The reader comes to the end of the file, every line is counted as blank, malformed,
without a timestamp or parsed, and the parsed ones are yielded in the order of the file. -/
structure Accounted (L : Library F) (content : List Char) : Prop where
  ended : (events L content).raised = none
  read : (events L content).stats.linesRead = (fileLines content).length
  settled : (events L content).stats.linesRead =
    (events L content).stats.blankLines + (events L content).stats.malformedLines +
      (events L content).stats.missingTimestampLines + (events L content).stats.eventsParsed
  yielded : (events L content).events = parsedLines L 1 (fileLines content)
  parsed : (events L content).stats.eventsParsed = (events L content).events.length

end Accounting

/-- The language on texts without numbers. -/
def plainLibrary : Library Unit where
  floats := PythonJson.nanOnly.toFloatFormat
  iso := ⟨fun _ => none⟩
  overLong := fun _ => false
  str := fun _ => ""
  intOfText := fun _ => none
  floatOfText := fun _ => none
  integerValue := fun _ => none
  isZero := fun _ => false

end TelemetryLines
