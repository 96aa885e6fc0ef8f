import AgentsRemember.Catalog.Writers
import AgentsRemember.Lib.JsonText
import Mathlib.Logic.Function.Basic

/-!
# The lift of terminal evidence

`terminal_evidence.py`, with the evidence buffer of a bridge and the native
history of a Pi session that it reads. A sweep reads what came after the row's
cursor, maps it, and moves the cursor; a bridge starts its sequences anew. The
mappers of the projectors are parameters, and so are the sizes of frames.
-/

namespace AgentsRemember.Catalog

open Lib

/-! ## Frames and pages -/

structure EvidenceFrame where
  sequence : Int
  kind : String
  createdAt : String
  raw : JsonText.Value
  nativeMethod : Option String := none
  threadId : Option String := none

structure NativeEvidenceFrame where
  nativeId : String
  nativeParentId : Option String := none
  nativeType : String
  createdAt : Option String := none
  raw : JsonText.Value

structure MappedTurnOutcome where
  outcome : TerminalOutcome
  turnId : Option String := none

/-- The turn outcomes that a harness's projector maps a frame to; `none` is `UnmappableShape`. -/
structure Projector where
  mapEvidenceFrame : EvidenceFrame → Option (List MappedTurnOutcome)
  mapNativeFrame : NativeEvidenceFrame → Option (List MappedTurnOutcome)

structure EvidenceConfig extends Config where
  projectorFor : String → Option Projector
  /-- `evidence_frame_wire_bytes` and `native_evidence_frame_wire_bytes`. -/
  wireBytes : EvidenceFrame → Nat
  nativeWireBytes : NativeEvidenceFrame → Nat
  evidenceLimit : Nat := 2000
  evidenceLimit_pos : 0 < evidenceLimit := by decide

def evidencePageByteBudget : Nat := 48 * 1024

def evidencePageLimit : Nat := 500

def nativePageLimit : Nat := 200

def maxNativeLiftPages : Nat := 8

structure Bridge where
  evidence : List EvidenceFrame := []
  evictedBeforeSequence : Int := 0

structure EvidencePage where
  frames : List EvidenceFrame
  latestSequence : Int
  evictedBeforeSequence : Int
  truncated : Bool

namespace Bridge

def latestSequence (b : Bridge) : Int := (b.evidence.getLast?.map EvidenceFrame.sequence).getD 0

/-- `_append_evidence`; a sequence that does not increase is an exception. -/
def appendEvidence (limit : Nat) (b : Bridge) (f : EvidenceFrame) : Option Bridge :=
  if f.sequence ≤ b.latestSequence then none
  else if b.evidence.length = limit then
    some
      { evidence := b.evidence.tail ++ [f]
        evictedBeforeSequence := (b.evidence.head?.map EvidenceFrame.sequence).getD b.evictedBeforeSequence }
  else some { b with evidence := b.evidence ++ [f] }

def pageFrames (wireBytes : EvidenceFrame → Nat) (afterSequence : Int) (limit byteBudget : Nat) :
    List EvidenceFrame → List EvidenceFrame → Nat → List EvidenceFrame × Bool
  | [], frames, _ => (frames, false)
  | f :: rest, frames, used =>
    if f.sequence ≤ afterSequence then pageFrames wireBytes afterSequence limit byteBudget rest frames used
    else if limit ≤ frames.length ∨ (frames ≠ [] ∧ byteBudget < used + wireBytes f) then (frames, true)
    else pageFrames wireBytes afterSequence limit byteBudget rest (frames ++ [f]) (used + wireBytes f)

def page (wireBytes : EvidenceFrame → Nat) (b : Bridge) (afterSequence : Int) : EvidencePage :=
  let cut := pageFrames wireBytes afterSequence evidencePageLimit evidencePageByteBudget b.evidence [] 0
  ⟨cut.1, b.latestSequence, b.evictedBeforeSequence, cut.2⟩

end Bridge

def evidenceProjections (p : Option Projector) (f : EvidenceFrame) : Option (List TerminalEvidenceProjection) :=
  match p with
  | none => some []
  | some p => (p.mapEvidenceFrame f).map fun outputs => outputs.map fun o =>
      { evidence := ⟨o.outcome, o.turnId⟩
        evidenceId := (pyOr o.turnId (some s!"evidence:{f.sequence}")).getD ""
        observedAt := f.createdAt }

def nativeProjections (p : Option Projector) (f : NativeEvidenceFrame) : Option (List TerminalEvidenceProjection) :=
  match p with
  | none => some []
  | some p => (p.mapNativeFrame f).map fun outputs => outputs.map fun o =>
      { evidence := ⟨o.outcome, o.turnId⟩
        evidenceId := s!"native:{f.nativeId}"
        observedAt := f.createdAt.getD "" }

/-- `latest_terminal_evidence`; a frame that does not map is an exception. -/
def latestTerminalEvidence (p : Option Projector) :
    List EvidenceFrame → Option TerminalEvidenceProjection → Option (Option TerminalEvidenceProjection)
  | [], latest => some latest
  | f :: rest, latest =>
    match evidenceProjections p f with
    | none => none
    | some outputs => latestTerminalEvidence p rest (outputs.getLast?.or latest)

def latestNativeTerminalEvidence (p : Option Projector) :
    List NativeEvidenceFrame → Option TerminalEvidenceProjection → Option TerminalEvidenceProjection
  | [], latest => latest
  | f :: rest, latest =>
    match nativeProjections p f with
    | none => latestNativeTerminalEvidence p rest latest
    | some outputs => latestNativeTerminalEvidence p rest (outputs.getLast?.or latest)

/-! ## Pi's history -/

/-- The entries after `since`; an identity that is not there is an exception. -/
def entriesAfter : Option String → List NativeEvidenceFrame → Option (List NativeEvidenceFrame)
  | none, entries => some entries
  | some _, [] => none
  | some since, f :: rest => if f.nativeId = since then some rest else entriesAfter (some since) rest

def nativeWindow (nativeWireBytes : NativeEvidenceFrame → Nat) (limit byteBudget : Nat) :
    List NativeEvidenceFrame → List NativeEvidenceFrame → Nat → List NativeEvidenceFrame × List NativeEvidenceFrame
  | [], selected, _ => (selected, [])
  | f :: rest, selected, used =>
    if limit ≤ selected.length ∨ (selected ≠ [] ∧ byteBudget < used + nativeWireBytes f) then (selected, f :: rest)
    else nativeWindow nativeWireBytes limit byteBudget rest (selected ++ [f]) (used + nativeWireBytes f)

structure NativeWalk where
  terminal : Option TerminalEvidenceProjection
  lastId : Option String
  -- Ghost: the entries mapped.
  examined : List NativeEvidenceFrame

def nativeWalk (c : EvidenceConfig) (entries : List NativeEvidenceFrame) :
    Nat → Option String → NativeWalk → Option NativeWalk
  | 0, _, w => some w
  | pages + 1, cursor, w =>
    match entriesAfter cursor entries with
    | none => none
    | some unread =>
      let (frames, left) := nativeWindow c.nativeWireBytes nativePageLimit evidencePageByteBudget unread [] 0
      let terminal := (latestNativeTerminalEvidence (c.projectorFor "pi") frames none).or w.terminal
      match frames.getLast? with
      | none => some ⟨terminal, w.lastId, w.examined⟩
      | some last =>
        let w : NativeWalk := ⟨terminal, some last.nativeId, w.examined ++ frames⟩
        if left = [] then some w else nativeWalk c entries pages (some last.nativeId) w

/-! ## Bridges and sweeps -/

structure SessionEvidence where
  bridge : Bridge := {}
  /-- The bridge answers its control client. -/
  reachable : Bool := true
  entries : List NativeEvidenceFrame := []
  -- Ghosts of this bridge: the frames it took, those that the lift mapped, those it had when the lift read it, and
  -- the entries that the lift mapped.
  recorded : List EvidenceFrame := []
  examined : List EvidenceFrame := []
  offered : List EvidenceFrame := []
  examinedEntries : List NativeEvidenceFrame := []

def cursorOf (e : TerminalCatalogEntry) : Int := e.terminalEvidenceSequence.getD 0

def readEntryTerminalEvidence (c : EvidenceConfig) (entry : TerminalCatalogEntry) (v : SessionEvidence) :
    EvidenceReply × SessionEvidence :=
  match entry.harness with
  | none => (.read ⟨none, none, none⟩, v)
  | some harness =>
    if entry.kind ≠ .harness ∨ entry.controlEndpoint = none then (.read ⟨none, none, none⟩, v)
    else if v.reachable = false then (.failed, v)
    else if harness = "pi" then
      match nativeWalk c v.entries maxNativeLiftPages entry.terminalNativeCursor ⟨none, entry.terminalNativeCursor, []⟩ with
      | none => (.failed, v)
      | some w => (.read ⟨w.terminal, none, w.lastId⟩, { v with examinedEntries := v.examinedEntries ++ w.examined })
    else
      let page := v.bridge.page c.wireBytes (cursorOf entry)
      match latestTerminalEvidence (c.projectorFor harness) page.frames none with
      | none => (.raised, v)
      | some terminal =>
        (.read ⟨terminal, some page.latestSequence, none⟩,
          { v with
            examined := v.examined ++ page.frames
            offered := v.offered ++ v.bridge.evidence })

structure EvidenceWorld where
  catalog : TerminalCatalog
  sessions : String → SessionEvidence
  /-- The last sweep ended in an exception. -/
  raised : Bool := false

def evidenceExec (c : EvidenceConfig) (outside : Outside) (w : EvidenceWorld) : (k : Command) → k.Answer × EvidenceWorld
  | .ask (.terminalEvidence session entry) =>
    let (reply, v) := readEntryTerminalEvidence c entry (w.sessions session)
    (reply, { w with sessions := Function.update w.sessions session v })
  | k =>
    let (answer, catalog) := exec c.clock outside w.catalog k
    (answer, { w with catalog := catalog })

inductive EvidenceAction
  | record (session : String) (f : EvidenceFrame)
  | addEntry (session : String) (f : NativeEvidenceFrame)
  | reach (session : String) (reachable : Bool)
  -- A new process of the harness, with the history that it has then.
  | openTerminal (session : String) (r : OpenRequest) (entries : List NativeEvidenceFrame) (outside : Outside)
  | mutate (session : String) (m : Mutation)
  | sweep (observed : Bool) (hysteresis : TerminalCatalogLivenessConfig) (checkedAt : Stamp) (choose : Nat → Outside)
  | startingSweep (observed : Bool) (hysteresis : TerminalCatalogLivenessConfig) (checkedAt : Stamp) (choose : Nat → Outside)

namespace EvidenceWorld

def record (c : EvidenceConfig) (w : EvidenceWorld) (session : String) (f : EvidenceFrame) : Option EvidenceWorld :=
  let v := w.sessions session
  (v.bridge.appendEvidence c.evidenceLimit f).map fun bridge =>
    { w with sessions := Function.update w.sessions session { v with bridge := bridge, recorded := v.recorded ++ [f] } }

def addEntry (w : EvidenceWorld) (session : String) (f : NativeEvidenceFrame) : Option EvidenceWorld :=
  let v := w.sessions session
  if f.nativeId ∈ v.entries.map NativeEvidenceFrame.nativeId then none
  else some { w with sessions := Function.update w.sessions session { v with entries := v.entries ++ [f] } }

def openTerminal (c : EvidenceConfig) (w : EvidenceWorld) (session : String) (r : OpenRequest)
    (entries : List NativeEvidenceFrame) (outside : Outside) : Option EvidenceWorld :=
  if (entries.map NativeEvidenceFrame.nativeId).Nodup then
    let live := (w.catalog.rows.get? session).any fun e => outside (.hasSession e.tmuxName)
    let opened := w.catalog.openTerminal c.clock outside session r
    some
      { w with
        catalog := opened.2
        sessions := if opened.1 = .opened ∧ live = false then Function.update w.sessions session { entries := entries }
          else w.sessions }
  else none

def runSweep (c : EvidenceConfig) (w : EvidenceWorld) (call : Call) (choose : Nat → Outside) : EvidenceWorld :=
  let (result, w) := (Job.whole (call.job c.toConfig)).run (evidenceExec c) choose 0 w
  { w with raised := result.isNone }

def step (c : EvidenceConfig) (w : EvidenceWorld) : EvidenceAction → Option EvidenceWorld
  | .record session f => w.record c session f
  | .addEntry session f => w.addEntry session f
  | .reach session reachable =>
    some { w with sessions := Function.update w.sessions session { w.sessions session with reachable := reachable } }
  | .openTerminal session r entries outside => w.openTerminal c session r entries outside
  | .mutate session m => some { w with catalog := (w.catalog.mutate c.clock session m).2 }
  | .sweep observed hysteresis checkedAt choose => some (w.runSweep c (.sweep observed hysteresis checkedAt) choose)
  | .startingSweep observed hysteresis checkedAt choose =>
    some (w.runSweep c (.startingSweep observed hysteresis checkedAt) choose)

end EvidenceWorld

def evidenceSystem (c : EvidenceConfig) : System EvidenceWorld EvidenceAction :=
  ⟨⟨⟨Dict.empty, []⟩, fun _ => {}, false⟩, EvidenceWorld.step c⟩

def SweepsMeet (c : EvidenceConfig) (ok : EvidenceWorld → Command → Prop) (w : EvidenceWorld) : EvidenceAction → Prop
  | .sweep observed hysteresis checkedAt choose =>
    (Job.whole (Call.job c.toConfig (.sweep observed hysteresis checkedAt))).Issues (evidenceExec c) ok choose 0 w
  | .startingSweep observed hysteresis checkedAt choose =>
    (Job.whole (Call.job c.toConfig (.startingSweep observed hysteresis checkedAt))).Issues (evidenceExec c) ok choose 0 w
  | _ => True

end AgentsRemember.Catalog
