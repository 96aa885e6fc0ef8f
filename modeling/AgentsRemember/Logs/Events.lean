import AgentsRemember.Lib.JsonTextBreaks
import AgentsRemember.Lib.Utf8
import Mathlib.Logic.Function.Basic

/-!
# JSONL logs

The files of `controlplane/durable_store.py`, and the stores that read a log
strictly: one line that is no record makes the read raise. A file is its bytes,
or absent. The texts pydantic writes and reads are those of the compact JSON
format.
-/

namespace AgentsRemember.Logs

open Lib Lib.JsonText Lib.Lines

/-- What `model_dump(by_alias=True, exclude_none=True)` leaves of a record, and `model_validate` of it. -/
structure RecordModel (ρ : Type) where
  dump : ρ → List (String × Value)
  validate : Value → Option ρ
  validate_dump : ∀ r, validate (.obj (dump r)) = some r

section
variable {ρ : Type}

def modelDumpJson (m : RecordModel ρ) (r : ρ) : List Char := dumps compact (.obj (m.dump r))

def modelValidateJson (m : RecordModel ρ) (cs : List Char) : Option ρ := (loads cs).bind m.validate

/-- The record's texts hold none of the line breaks that JSON leaves as they are. -/
def Unbroken (m : RecordModel ρ) (r : ρ) : Prop :=
  ∀ t ∈ texts (.obj (m.dump r)), ∀ c ∈ t.toList, isWideBreak c = false

end

/-! ## Files -/

abbrev Bytes := List UInt8

/-- `path.read_text(encoding="utf-8")`; `none` when it raises. -/
def readText (bytes : Bytes) : Option (List Char) := (Utf8.decode bytes).map universal

def readLogText : Option Bytes → Option (List Char)
  | none => some []
  | some bytes => readText bytes

def lineText (line : List Char) : List Char := line ++ ['\n']

def appendLine (file : Option Bytes) (line : List Char) : Option Bytes :=
  some (file.getD [] ++ Utf8.encode (lineText line))

def appendLines (file : Option Bytes) (lines : List (List Char)) : Option Bytes :=
  if lines = [] then file else some (file.getD [] ++ Utf8.encode (lines.flatMap lineText))

def rewriteLines (lines : List (List Char)) : Option Bytes := some (Utf8.encode (lines.flatMap lineText))

section
variable {κ ρ : Type} [DecidableEq κ]

abbrev Files (κ : Type) := κ → Option Bytes

/-- One write of a store to one of its logs. -/
inductive Write (κ ρ : Type)
  | append (path : κ) (record : ρ)
  | appendLines (path : κ) (records : List ρ)
  | rewrite (path : κ) (records : List ρ)

def Write.apply (m : RecordModel ρ) (files : Files κ) : Write κ ρ → Files κ
  | .append path r => Function.update files path (appendLine (files path) (modelDumpJson m r))
  | .appendLines path rs => Function.update files path (Logs.appendLines (files path) (rs.map (modelDumpJson m)))
  | .rewrite path rs => Function.update files path (rewriteLines (rs.map (modelDumpJson m)))

def run (m : RecordModel ρ) (writes : List (Write κ ρ)) : Files κ := writes.foldl (Write.apply m) fun _ => none

def Write.record (path : κ) (records : List ρ) : Write κ ρ → List ρ
  | .append path' r => if path' = path then records ++ [r] else records
  | .appendLines path' rs => if path' = path then records ++ rs else records
  | .rewrite path' rs => if path' = path then rs else records

/-- The records written to one log: those of its last rewrite and everything appended since. -/
def written (path : κ) (writes : List (Write κ ρ)) : List ρ := writes.foldl (Write.record path) []

end

/-! ## The strict stores -/

section
variable {κ ρ : Type}

def readStrict (m : RecordModel ρ) (file : Option Bytes) : Option (List ρ) :=
  (readLogText file).bind fun text => ((splitlines text).filter fun l => !isBlank l).mapM (modelValidateJson m)

/-- `GateStore.read` of the log at `path`. -/
def GateStore.read (m : RecordModel ρ) (files : Files κ) (path : κ) : Option (List ρ) := readStrict m (files path)

def OperatorInboxStore.read (m : RecordModel ρ) (files : Files κ) (path : κ) : Option (List ρ) := readStrict m (files path)

def readTolerant (m : RecordModel ρ) (file : Option Bytes) : Option (List ρ) :=
  (readLogText file).map fun text => ((splitlines text).filter fun l => !isBlank l).filterMap (modelValidateJson m)

def GateStore.readForProjection (m : RecordModel ρ) (files : Files κ) (path : κ) : Option (List ρ) := readTolerant m (files path)

end

/-! ## The event log

`observer/store.py` appends events to one log a lifecycle and reads them back
tolerantly; a lifecycle's heartbeats are kept apart, in a sidecar that holds the
last one. `serving/events.py` tails the same files by byte offset.
-/

/-! ## Events -/

inductive Trust
  | declared
  | observed
  | inferred
  | approved
  deriving DecidableEq

inductive Actor
  | model
  | system
  | developer
  deriving DecidableEq

def Trust.text : Trust → String
  | .declared => "declared"
  | .observed => "observed"
  | .inferred => "inferred"
  | .approved => "approved"

def Actor.text : Actor → String
  | .model => "model"
  | .system => "system"
  | .developer => "developer"

def Trust.all : List Trust := [.declared, .observed, .inferred, .approved]

def Actor.all : List Actor := [.model, .system, .developer]

def observerEventSchema : String := "ar-observer-event/v1"

structure Event where
  schemaVersion : String
  id : String
  ts : String
  kind : String
  trust : Trust
  actor : Actor
  data : List (String × Value)
  lifecycleId : Option String
  enclosure : Option String
  repoId : Option String
  sessionId : Option String
  spanId : Option String

def optField (key : String) : Option String → List (String × Value)
  | none => []
  | some s => [(key, text s)]

def Event.dump (e : Event) : List (String × Value) :=
  [("schema", text e.schemaVersion), ("id", text e.id), ("ts", text e.ts), ("kind", text e.kind),
    ("trust", text e.trust.text), ("actor", text e.actor.text), ("data", .obj e.data)] ++
  optField "lifecycleId" e.lifecycleId ++ optField "enclosure" e.enclosure ++ optField "repoId" e.repoId ++
  optField "sessionId" e.sessionId ++ optField "spanId" e.spanId

def Event.keys : List String :=
  ["schema", "id", "ts", "kind", "trust", "actor", "data", "lifecycleId", "enclosure", "repoId", "sessionId", "spanId"]

def optionalText (fields : List (String × Value)) (key : String) : Option (Option String) :=
  match field fields key with
  | none => some none
  | some (.scalar .null) => some none
  | some v => (asText v).map some

def Event.validate (v : Value) : Option Event := do
  let fields ← asObject v
  -- `extra="forbid"`
  if fields.all fun e => Event.keys.contains e.1 then
    let schemaVersion ← ((field fields "schema").map asText).getD (some observerEventSchema)
    let id ← (field fields "id").bind asText
    let ts ← (field fields "ts").bind asText
    let kind ← (field fields "kind").bind asText
    let trustText ← (field fields "trust").bind asText
    let trust ← Trust.all.find? fun t => t.text = trustText
    let actorText ← (field fields "actor").bind asText
    let actor ← Actor.all.find? fun a => a.text = actorText
    let data ← ((field fields "data").map asObject).getD (some [])
    let lifecycleId ← optionalText fields "lifecycleId"
    let enclosure ← optionalText fields "enclosure"
    let repoId ← optionalText fields "repoId"
    let sessionId ← optionalText fields "sessionId"
    let spanId ← optionalText fields "spanId"
    some ⟨schemaVersion, id, ts, kind, trust, actor, data, lifecycleId, enclosure, repoId, sessionId, spanId⟩
  else none

theorem find?_trust (t : Trust) : (Trust.all.find? fun t' => t'.text = t.text) = some t := by
  cases t <;> decide

theorem find?_actor (a : Actor) : (Actor.all.find? fun a' => a'.text = a.text) = some a := by
  cases a <;> decide

theorem lookupIn_append (key : String) (l l' : List (String × Value)) :
    Dict.lookupIn key (l ++ l') = (Dict.lookupIn key l).or (Dict.lookupIn key l') := by
  induction l with
  | nil => rfl
  | cons e l ih =>
    obtain ⟨k, v⟩ := e
    rw [List.cons_append, Dict.lookupIn, Dict.lookupIn, ih]
    split <;> rfl

theorem lookupIn_optField (key key' : String) (s : Option String) :
    Dict.lookupIn key (optField key' s).reverse = if key' = key then s.map text else none := by
  cases s with
  | none => simp [optField, Dict.lookupIn]
  | some s => simp [optField, Dict.lookupIn]

variable {key : String} {s : Option String}

theorem optionalText_eq {fields : List (String × Value)} (h : field fields key = s.map text) :
    optionalText fields key = some s := by
  rw [optionalText, h]
  cases s <;> rfl

theorem keys_optField {k : String} {v : Value} (h : (k, v) ∈ optField key s) : k = key := by
  cases s with
  | none => cases h
  | some s =>
    simp only [optField, List.mem_singleton, Prod.mk.injEq] at h
    exact h.1

theorem keys_dump (e : Event) : (e.dump.all fun f => Event.keys.contains f.1) = true := by
  rw [List.all_eq_true]
  rintro ⟨k, v⟩ h
  rw [List.contains_iff_mem]
  simp only [Event.dump, List.mem_append] at h
  rcases h with ((((h | h) | h) | h) | h) | h
  · have hk := List.mem_map_of_mem (f := Prod.fst) h
    exact List.mem_append_left ["lifecycleId", "enclosure", "repoId", "sessionId", "spanId"] hk
  all_goals
    rw [keys_optField h]
    simp [Event.keys]

theorem field_dump (e : Event) (key : String) : field e.dump key =
    (if "spanId" = key then e.spanId.map text else none).or ((if "sessionId" = key then e.sessionId.map text else none).or
      ((if "repoId" = key then e.repoId.map text else none).or ((if "enclosure" = key then e.enclosure.map text else none).or
        ((if "lifecycleId" = key then e.lifecycleId.map text else none).or (Dict.lookupIn key
          [("data", .obj e.data), ("actor", text e.actor.text), ("trust", text e.trust.text), ("kind", text e.kind),
            ("ts", text e.ts), ("id", text e.id), ("schema", text e.schemaVersion)]))))) := by
  simp only [field, Event.dump, List.reverse_append, lookupIn_append, lookupIn_optField]
  rfl

attribute [local simp] field_dump Dict.lookupIn

theorem Event.validate_dump (e : Event) : Event.validate (.obj e.dump) = some e := by
  have hschema : field e.dump "schema" = some (text e.schemaVersion) := by simp
  have hid : field e.dump "id" = some (text e.id) := by simp
  have hts : field e.dump "ts" = some (text e.ts) := by simp
  have hkind : field e.dump "kind" = some (text e.kind) := by simp
  have htrust : field e.dump "trust" = some (text e.trust.text) := by simp
  have hactor : field e.dump "actor" = some (text e.actor.text) := by simp
  have hdata : field e.dump "data" = some (.obj e.data) := by simp
  have hlifecycle := optionalText_eq (s := e.lifecycleId) (by simp : field e.dump "lifecycleId" = _)
  have henclosure := optionalText_eq (s := e.enclosure) (by simp : field e.dump "enclosure" = _)
  have hrepo := optionalText_eq (s := e.repoId) (by simp : field e.dump "repoId" = _)
  have hsession := optionalText_eq (s := e.sessionId) (by simp : field e.dump "sessionId" = _)
  have hspan := optionalText_eq (s := e.spanId) (by simp : field e.dump "spanId" = _)
  show (if e.dump.all fun f => Event.keys.contains f.1 then _ else none) = some e
  rw [if_pos (keys_dump e)]
  refine Option.bind_eq_some_iff.mpr ⟨e.schemaVersion, by rw [hschema]; rfl, ?_⟩
  refine Option.bind_eq_some_iff.mpr ⟨e.id, by rw [hid]; rfl, ?_⟩
  refine Option.bind_eq_some_iff.mpr ⟨e.ts, by rw [hts]; rfl, ?_⟩
  refine Option.bind_eq_some_iff.mpr ⟨e.kind, by rw [hkind]; rfl, ?_⟩
  refine Option.bind_eq_some_iff.mpr ⟨e.trust.text, by rw [htrust]; rfl, ?_⟩
  refine Option.bind_eq_some_iff.mpr ⟨e.trust, find?_trust e.trust, ?_⟩
  refine Option.bind_eq_some_iff.mpr ⟨e.actor.text, by rw [hactor]; rfl, ?_⟩
  refine Option.bind_eq_some_iff.mpr ⟨e.actor, find?_actor e.actor, ?_⟩
  refine Option.bind_eq_some_iff.mpr ⟨e.data, by rw [hdata]; rfl, ?_⟩
  refine Option.bind_eq_some_iff.mpr ⟨_, hlifecycle, ?_⟩
  refine Option.bind_eq_some_iff.mpr ⟨_, henclosure, ?_⟩
  refine Option.bind_eq_some_iff.mpr ⟨_, hrepo, ?_⟩
  refine Option.bind_eq_some_iff.mpr ⟨_, hsession, ?_⟩
  exact Option.bind_eq_some_iff.mpr ⟨_, hspan, rfl⟩

def eventModel : RecordModel Event := ⟨Event.dump, Event.validate, Event.validate_dump⟩

/-! ## The event store -/

def heartbeatKind : String := "lifecycle.heartbeat"

structure Directory where
  log : Option Bytes
  sidecar : Option Bytes

structure Layout (κ : Type) where
  lifecycle : String → κ
  workspace : κ

/-- The directory of `log_path`. -/
def Layout.dir {κ : Type} (l : Layout κ) (lifecycleId : Option String) : κ :=
  match lifecycleId with
  | none => l.workspace
  | some id => if id = "" then l.workspace else l.lifecycle id

def Event.coalesced (e : Event) : Bool := truthy e.lifecycleId && e.kind = heartbeatKind

def eventLine (e : Event) : List Char := modelDumpJson eventModel e

section
variable {κ : Type} [DecidableEq κ]

/-- The sidecar is replaced whole or not at all; a line appended to the log may be cut after `cut` bytes. -/
def EventStore.write (l : Layout κ) (root : κ → Directory) (e : Event) (cut : Option Nat) : κ → Directory :=
  if e.coalesced then
    let dir := l.lifecycle (e.lifecycleId.getD "")
    match cut with
    | none => Function.update root dir { root dir with sidecar := some (Utf8.encode (lineText (eventLine e))) }
    | some _ => root
  else
    let dir := l.dir e.lifecycleId
    let line := Utf8.encode (lineText (eventLine e))
    let out := match cut with
      | none => line
      | some n => line.take n
    Function.update root dir { root dir with log := some ((root dir).log.getD [] ++ out) }

def EventStore.append (l : Layout κ) (root : κ → Directory) (e : Event) : κ → Directory := EventStore.write l root e none

end

section
variable {κ : Type}

def EventStore.readLog (l : Layout κ) (root : κ → Directory) (lifecycleId : Option String) : Option (List Event) :=
  readTolerant eventModel (root (l.dir lifecycleId)).log

/-- `read_heartbeat_sidecar`; the outer `none` is a raise. -/
def readHeartbeatSidecar (l : Layout κ) (root : κ → Directory) (lifecycleId : String) : Option (Option Event) :=
  match (root (l.lifecycle lifecycleId)).sidecar with
  | none => some none
  | some bytes =>
    (readText bytes).map fun text => (modelValidateJson eventModel text).bind fun e =>
      if e.kind = heartbeatKind then some e else none

def eventTime (e : Event) : Option Int :=
  let offset := "+00:00".toList
  (fromisoformat (String.ofList (e.ts.toList.flatMap fun c => if c = 'Z' then offset else [c]))).map Stamp.utc

def eventBefore (left right : Event) : Bool :=
  match eventTime left, eventTime right with
  | some l, some r => l < r
  | _, _ => left.ts < right.ts

def withHeartbeat (events : List Event) : Option Event → List Event
  | none => events
  | some h => if (events.getLast?.map (eventBefore h)).getD false then events else events ++ [h]

def EventStore.read (l : Layout κ) (root : κ → Directory) (lifecycleId : Option String) : Option (List Event) :=
  (EventStore.readLog l root lifecycleId).bind fun events =>
    match lifecycleId with
    | none => some events
    | some id => (readHeartbeatSidecar l root id).map (withHeartbeat events)

end

/-! ## The tail -/

def isNewlineByte (b : UInt8) : Bool := b = 10

def lineOffsets (start : Nat) : List Bytes → List (Bytes × Nat) × Nat
  | [] => ([], start)
  | [_] => ([], start)
  | line :: rest :: lines =>
    let after := start + line.length + 1
    let r := lineOffsets after (rest :: lines)
    ((line, after) :: r.1, r.2)

def skipLine (bytes : Bytes) (start : Nat) : Nat :=
  let rest := bytes.drop start
  start + min ((rest.takeWhile fun b => !isNewlineByte b).length + 1) rest.length

def readLinesFrom (bytes : Bytes) (start : Nat) : List (Bytes × Nat) × Nat :=
  let start := min start bytes.length
  let start := if 0 < start ∧ bytes[start - 1]? ≠ some 10 then skipLine bytes start else start
  lineOffsets start (split isNewlineByte (bytes.drop start))

structure Source where
  name : String
  bytes : Bytes
  base : Nat

def readSourceLines (s : Source) (virtualStart : Nat) : List (Bytes × Nat) × Nat :=
  let r := readLinesFrom s.bytes (min (virtualStart - s.base) s.bytes.length)
  (r.1.map fun e => (e.1, s.base + e.2), s.base + r.2)

structure RawEvent where
  source : String
  data : List Char
  payload : List (String × Value)
  cursor : Dict String Nat

def isHeartbeatEvent (payload : List (String × Value)) : Bool :=
  match field payload "kind" with
  | some (.scalar (.str s)) => s = heartbeatKind
  | _ => false

def payloadOf (record : Bytes) : Option (List Char × List (String × Value)) :=
  match Utf8.decode record with
  | none => none
  | some cs =>
    if strip cs = [] then none
    else
      match (loads (strip cs)).bind asObject with
      | none => none
      | some payload => if isHeartbeatEvent payload then none else some (strip cs, payload)

structure TailState where
  events : List RawEvent
  current : Dict String Nat

def tailLines (source : String) (limit : Option Nat) : List (Bytes × Nat) → TailState → TailState × Bool
  | [], s => (s, false)
  | (record, after) :: lines, s =>
    let current := s.current.set source after
    match payloadOf record with
    | none => tailLines source limit lines ⟨s.events, current⟩
    | some (data, payload) =>
      let s' := ⟨s.events ++ [⟨source, data, payload, current⟩], current⟩
      match limit with
      | none => tailLines source limit lines s'
      | some n => if n ≤ s'.events.length then (s', true) else tailLines source limit lines s'

def tailSources (limit : Option Nat) : List Source → TailState → TailState
  | [], s => s
  | source :: sources, s =>
    let lines := readSourceLines source ((s.current.get? source.name).getD 0)
    let r := tailLines source.name limit lines.1 s
    if r.2 then r.1 else tailSources limit sources ⟨r.1.events, r.1.current.set source.name lines.2⟩

def readNewEvents (sources : List Source) (offsets : Dict String Nat) (limit : Option Nat) : List RawEvent × Dict String Nat :=
  let s := tailSources limit sources ⟨[], offsets⟩
  (s.events, s.current)

end AgentsRemember.Logs
