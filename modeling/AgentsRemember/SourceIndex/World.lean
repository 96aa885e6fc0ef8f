import AgentsRemember.Lib.Dict
import Mathlib
import AgentsRemember.Lib.System

/-!
# One generation of the source index

A generation is built from the files of a code tree: every readable file is
indexed, and the snapshot id hashes each path with the digest of its content.
The manifest keeps the metadata by which a later opening sees that the tree is
unchanged, the readiness marker names the database that may be queried.
-/

namespace AgentsRemember.SourceIndex

open Lib

abbrev Bytes := List UInt8

def encode (s : String) : Bytes := s.toList.flatMap String.utf8EncodeChar

def SCHEMA_VERSION : Nat := 8
def MAX_SOURCE_FILES : Nat := 100000
def MAX_SOURCE_FILE_BYTES : Nat := 4 * 1024 * 1024
def MAX_SOURCE_BYTES : Nat := 64 * 1024 * 1024
def MAX_INDEX_BYTES : Nat := 256 * 1024 * 1024
def BUILD_ATTEMPTS : Nat := 2

/-! ## What the source tree shows -/

structure Identity where
  path : String
  device : Nat
  inode : Nat
  mode : Nat
  size : Nat
  mtimeNs : Int
  ctimeNs : Int
  deriving DecidableEq

structure SourceFile where
  identity : Identity
  contentSha256 : String := ""

def SourceFile.path (f : SourceFile) : String := f.identity.path

structure TreeState where
  directories : List Identity
  files : List SourceFile
  nodup : (files.map SourceFile.path).Nodup

structure Roots where
  codeRoot : String
  memoryRoot : String
  deriving DecidableEq

inductive StableRead
  | changed
  | unreadable
  | raw (bytes : Bytes)

abbrev Indexed := String × Option Bytes

section
variable (sha256 : Bytes → String)

def digest : Option Bytes → String
  | none => "unreadable"
  | some bytes => sha256 bytes

def hashed (one : Indexed) : String × String := (one.1, digest sha256 one.2)

def snapshotId (hashes : List (String × String)) : String :=
  sha256 (encode s!"citation-source-index-v{SCHEMA_VERSION}" ++ 0 ::
    (hashes.insertionSort fun a b => a.1 ≤ b.1).flatMap fun one => encode one.1 ++ 0 :: encode one.2 ++ [0])

end

/-! ## The three files of a slot -/

structure Manifest where
  roots : Roots
  snapshotId : String
  sourceBytes : Nat
  directories : List Identity
  files : List SourceFile

def Manifest.hashes (m : Manifest) : List (String × String) := m.files.map fun f => (f.path, f.contentSha256)

structure ReadyGeneration where
  generationId : String
  snapshotId : String
  roots : Roots
  filesIndexed : Nat
  sourceBytes : Nat
  databaseBytes : Nat

structure Database where
  generationId : String
  snapshotId : String
  roots : Roots
  filesIndexed : Nat
  sourceBytes : Nat
  rows : List (String × Bytes)
  bytes : Nat

def canonicalHash (value : String) : Bool :=
  value.length = 64 && value.toList.all fun c => ('0' ≤ c && c ≤ '9') || ('a' ≤ c && c ≤ 'f')

def canonicalRoot (value : String) : Bool :=
  let normal (cs : List Char) : Bool :=
    cs = [] || (cs.splitOn '/').all fun part => part ≠ [] && part ≠ ['.'] && part ≠ ['.', '.']
  match value.toList with
  | '/' :: '/' :: cs => normal cs
  | '/' :: cs => normal cs
  | _ => false

def ReadyGeneration.accepted (r : ReadyGeneration) : Bool :=
  canonicalHash r.generationId && canonicalHash r.snapshotId && canonicalRoot r.roots.codeRoot && canonicalRoot r.roots.memoryRoot &&
    r.filesIndexed ≤ MAX_SOURCE_FILES && r.sourceBytes ≤ MAX_SOURCE_BYTES && 1 ≤ r.databaseBytes &&
    r.databaseBytes ≤ MAX_INDEX_BYTES

def readyGeneration (roots : Roots) (marker : Option ReadyGeneration) : Option ReadyGeneration :=
  marker.filter fun r => r.accepted && r.roots = roots

def Database.opens (d : Database) (r : ReadyGeneration) : Bool :=
  d.bytes = r.databaseBytes && d.generationId = r.generationId && d.snapshotId = r.snapshotId && d.roots = r.roots &&
    d.filesIndexed = r.filesIndexed && d.sourceBytes = r.sourceBytes

/-! ## Validation of a manifest against the tree -/

structure Validation where
  state : TreeState
  stale : Bool
  metadataChanged : Bool

section
variable (sha256 : Bytes → String)

def readContent : StableRead → Except Unit (Option Bytes)
  | .changed => .error ()
  | .unreadable => .ok none
  | .raw bytes => .ok (some bytes)

def contentSame (previous : List (String × String)) (read : String → StableRead) : List SourceFile → Except Unit Bool
  | [] => .ok true
  | one :: rest => do
    let content ← readContent (read one.path)
    if Dict.lookupIn one.path previous = some (digest sha256 content) then contentSame previous read rest else .ok false

def sameMembers {α : Type} [DecidableEq α] (xs ys : List α) : Bool := xs.all (· ∈ ys) && ys.all (· ∈ xs)

def changedFiles (manifest : Manifest) (current : TreeState) : List SourceFile :=
  manifest.files.filterMap fun old =>
    (current.files.find? fun one => one.path = old.path).filter fun one => one.identity ≠ old.identity

def validate (manifest : Manifest) (roots : Roots) (current : TreeState) (read : String → StableRead) (checkContent : Bool) :
    Except Unit Validation :=
  if manifest.roots ≠ roots then .ok ⟨current, true, false⟩
  else if sameMembers (manifest.files.map SourceFile.path) (current.files.map SourceFile.path) = false then
    .ok ⟨current, true, false⟩
  else
    let changed := changedFiles manifest current
    if changed ≠ [] ∧ checkContent = false then .ok ⟨current, false, true⟩
    else do
      let same ← contentSame sha256 manifest.hashes read changed
      if same then .ok ⟨current, false, changed ≠ [] || !sameMembers manifest.directories current.directories⟩
      else .ok ⟨current, true, false⟩

def sizeOf (files : List SourceFile) : Nat := (files.map fun f => f.identity.size).sum

def withHashes (hashes : List (String × String)) (files : List SourceFile) : List SourceFile :=
  files.map fun one => { one with contentSha256 := (Dict.lookupIn one.path hashes).getD "" }

def refreshedManifest (manifest : Manifest) (state : TreeState) : Manifest :=
  let files := withHashes manifest.hashes state.files
  { manifest with sourceBytes := sizeOf files, directories := state.directories, files := files }

/-! ## Building -/

inductive BuildError
  | sourceTreeChanged
  | sourceIndex

structure BuildObservation where
  initial : TreeState
  read : String → StableRead
  databaseBytes : Nat
  final : TreeState

structure Built where
  indexed : List Indexed
  database : Database
  manifest : Manifest
  readiness : ReadyGeneration
  state : TreeState

def checkSourceBounds (state : TreeState) : Except BuildError Unit :=
  if state.files.length > MAX_SOURCE_FILES then .error .sourceIndex
  else if state.files.any fun f => f.identity.size > MAX_SOURCE_FILE_BYTES then .error .sourceIndex
  else if sizeOf state.files > MAX_SOURCE_BYTES then .error .sourceIndex
  else .ok ()

def readFiles (read : String → StableRead) : List SourceFile → Except BuildError (List Indexed)
  | [] => .ok []
  | one :: rest =>
    match readContent (read one.path) with
    | .error _ => .error .sourceTreeChanged
    | .ok content => (readFiles read rest).map ((one.path, content) :: ·)

def rows (indexed : List Indexed) : List (String × Bytes) := indexed.filterMap fun one => one.2.map fun bytes => (one.1, bytes)

def identities (state : TreeState) : List Identity × List Identity := (state.directories, state.files.map SourceFile.identity)

def buildOnce (generationId : String) (roots : Roots) (o : BuildObservation) : Except BuildError Built := do
  checkSourceBounds o.initial
  let indexed ← readFiles o.read o.initial.files
  let hashes := indexed.map (hashed sha256)
  let snapshot := snapshotId sha256 hashes
  let readiness := ⟨generationId, snapshot, roots, o.initial.files.length, sizeOf o.initial.files, o.databaseBytes⟩
  if identities o.initial ≠ identities o.final then .error .sourceTreeChanged
  else
    let files := withHashes hashes o.final.files
    .ok {
      indexed := indexed
      database := ⟨generationId, snapshot, roots, o.initial.files.length, sizeOf o.initial.files, rows indexed, o.databaseBytes⟩
      manifest := ⟨roots, snapshot, sizeOf files, o.final.directories, files⟩
      readiness := readiness
      state := o.final }

end

/-! ## Openings and publications of one cache slot

A slot holds the database, the manifest and the readiness marker, and a lock.
Any number of processes open it, with their own roots; each takes one file
operation, one lock operation or one look at its source tree at a time, and
anything may happen between two of them. A process may end at any point, by an
exception or by a crash: its locks are released and the files stay as they are.
What a process sees of its source tree is part of the action.
-/

structure Generation where
  roots : Roots
  indexed : List Indexed
  database : Database
  manifest : Manifest
  readiness : ReadyGeneration

def Built.generation (roots : Roots) (built : Built) : Generation :=
  ⟨roots, built.indexed, built.database, built.manifest, built.readiness⟩

structure Slot where
  database : Option Database
  manifest : Option Manifest
  readiness : Option ReadyGeneration
  completed : List Generation

inductive LockMode
  | shared | exclusive
  deriving DecidableEq

structure Lease where
  database : Database
  readiness : ReadyGeneration
  manifest : Option Manifest
  snapshotId : String

inductive Phase
  | requested
  | readingManifest (mode : LockMode)
  | readingReadiness (mode : LockMode) (manifest : Manifest)
  | validating (mode : LockMode) (manifest : Manifest) (readiness : ReadyGeneration)
  | openingDatabase (mode : LockMode) (manifest : Manifest) (readiness : ReadyGeneration) (validation : Validation)
  | upgrading
  | building (attempt : Nat)
  | removingReadiness (attempt : Nat) (built : Built)
  | replacingDatabase (attempt : Nat) (built : Built)
  | writingManifest (attempt : Nat) (built : Built)
  | checkingBoundary (attempt : Nat) (built : Built)
  | writingReadiness (built : Built)
  | reopening (manifest : Manifest)
  | reopeningDatabase (manifest : Manifest) (readiness : ReadyGeneration)
  | refreshing (lease : Lease) (manifest : Manifest)
  | downgrading (lease : Lease)
  | relocking (lease : Lease)
  | expectedReadiness
  | expectedDatabase (readiness : ReadyGeneration)
  | leased (lease : Lease)
  | ended

def Phase.lock : Phase → Option LockMode
  | requested | upgrading | relocking _ | ended => none
  | readingManifest mode | readingReadiness mode _ | validating mode _ _ | openingDatabase mode _ _ _ => some mode
  | building _ | removingReadiness _ _ | replacingDatabase _ _ | writingManifest _ _ | checkingBoundary _ _
  | writingReadiness _ | reopening _ | reopeningDatabase _ _ | refreshing _ _ | downgrading _ => some .exclusive
  | expectedReadiness | expectedDatabase _ | leased _ => some .shared

def Phase.lease? : Phase → Option Lease
  | leased lease => some lease
  | _ => none

structure Process where
  roots : Roots
  expected : Option String
  phase : Phase

structure World where
  slot : Slot
  processes : List Process

inductive Move
  /-- The next file or lock operation. -/
  | next
  /-- A read that raises, or gives nothing the reader accepts. -/
  | unreadable
  | validate (current : TreeState) (read : String → StableRead)
  | build (uuid : Bytes) (seen : BuildObservation)
  | boundary (published : TreeState)
  | finish

inductive Action
  | start (roots : Roots) (expected : Option String)
  | move (process : Nat) (m : Move)

/-- Whether `flock` grants a lock beside the locks the others hold. -/
def grants (others : List Process) : LockMode → Bool
  | .shared => others.all fun p => p.phase.lock ≠ some .exclusive
  | .exclusive => others.all fun p => p.phase.lock = none

def notCurrent : LockMode → Phase
  | .shared => .upgrading
  | .exclusive => .building 0

def retried (attempt : Nat) : Phase := if attempt + 1 < BUILD_ATTEMPTS then .building (attempt + 1) else .ended

def counters (manifest : Manifest) (readiness : ReadyGeneration) : Bool :=
  readiness.snapshotId = manifest.snapshotId && readiness.filesIndexed = manifest.files.length &&
    readiness.sourceBytes = manifest.sourceBytes

variable (sha256 : Bytes → String)

/-- `_current_generation` found `database` open: a lease, or the way to refresh the manifest. -/
def current (mode : LockMode) (manifest : Manifest) (readiness : ReadyGeneration) (validation : Validation)
    (database : Database) : Phase :=
  let lease (m : Manifest) : Lease := ⟨database, readiness, some m, m.snapshotId⟩
  match mode with
  | .shared => if validation.metadataChanged then .upgrading else .leased (lease manifest)
  | .exclusive =>
    if validation.metadataChanged then
      let refreshed := refreshedManifest manifest validation.state
      .refreshing (lease refreshed) refreshed
    else .downgrading (lease manifest)

def advance (others : List Process) (slot : Slot) (p : Process) : Move → Option (Slot × Phase)
  | .finish => some (slot, .ended)
  | .next =>
    match p.phase with
    | .requested =>
      if grants others .shared then
        some (slot, match p.expected with | none => .readingManifest .shared | some _ => .expectedReadiness)
      else none
    | .readingManifest mode =>
      some (slot, match slot.manifest with | none => notCurrent mode | some m => .readingReadiness mode m)
    | .readingReadiness mode manifest =>
      some (slot, match readyGeneration p.roots slot.readiness with
        | none => notCurrent mode
        | some r => if counters manifest r then .validating mode manifest r else notCurrent mode)
    | .openingDatabase mode manifest readiness validation =>
      some (slot, match slot.database with
        | none => notCurrent mode
        | some d => if d.opens readiness then current mode manifest readiness validation d else notCurrent mode)
    | .upgrading => if grants others .exclusive then some (slot, .readingManifest .exclusive) else none
    | .removingReadiness attempt built => some ({ slot with readiness := none }, .replacingDatabase attempt built)
    | .replacingDatabase attempt built =>
      some ({ slot with database := some built.database }, .writingManifest attempt built)
    | .writingManifest attempt built =>
      some ({ slot with manifest := some built.manifest }, .checkingBoundary attempt built)
    | .writingReadiness built =>
      some ({ slot with
          readiness := some built.readiness
          completed := slot.completed ++ [built.generation p.roots] },
        .reopening built.manifest)
    | .reopening manifest =>
      some (slot, match readyGeneration p.roots slot.readiness with
        | none => .ended
        | some r => .reopeningDatabase manifest r)
    | .reopeningDatabase manifest readiness =>
      some (slot, match slot.database with
        | none => .ended
        | some d => if d.opens readiness then .downgrading ⟨d, readiness, some manifest, manifest.snapshotId⟩ else .ended)
    | .refreshing lease manifest => some ({ slot with manifest := some manifest }, .downgrading lease)
    | .downgrading lease => some (slot, .relocking lease)
    | .relocking lease => if grants others .shared then some (slot, .leased lease) else none
    | .expectedReadiness =>
      some (slot, match readyGeneration p.roots slot.readiness with
        | none => .ended
        | some r => if some r.snapshotId = p.expected then .expectedDatabase r else .ended)
    | .expectedDatabase readiness =>
      some (slot, match slot.database with
        | none => .ended
        | some d => if d.opens readiness then .leased ⟨d, readiness, none, readiness.snapshotId⟩ else .ended)
    | _ => none
  | .unreadable =>
    match p.phase with
    | .readingManifest mode | .readingReadiness mode _ | .validating mode _ _ | .openingDatabase mode _ _ _ =>
      some (slot, notCurrent mode)
    | _ => none
  | .validate state read =>
    match p.phase with
    | .validating mode manifest readiness =>
      some (slot, match validate sha256 manifest p.roots state read (mode = .exclusive) with
        | .error _ => notCurrent mode
        | .ok validation => if validation.stale then notCurrent mode else .openingDatabase mode manifest readiness validation)
    | _ => none
  | .build uuid seen =>
    match p.phase with
    | .building attempt =>
      some (slot, match buildOnce sha256 (sha256 uuid) p.roots seen with
        | .ok built => .removingReadiness attempt built
        | .error .sourceTreeChanged => retried attempt
        | .error .sourceIndex => .ended)
    | _ => none
  | .boundary published =>
    match p.phase with
    | .checkingBoundary attempt built =>
      some (slot, if identities built.state ≠ identities published then retried attempt else .writingReadiness built)
    | _ => none

def step (w : World) : Action → Option World
  | .start roots expected => some { w with processes := w.processes ++ [⟨roots, expected, .requested⟩] }
  | .move i m =>
    match w.processes[i]? with
    | none => none
    | some p =>
      (advance sha256 (w.processes.eraseIdx i) w.slot p m).map fun r =>
        ⟨r.1, w.processes.set i { p with phase := r.2 }⟩

def system : System World Action := ⟨⟨⟨none, none, none, []⟩, []⟩, step sha256⟩

end AgentsRemember.SourceIndex
