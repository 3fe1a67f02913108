import AxiomKernel.Lib.Hoare
import AxiomKernel.Qwen38.SessionStore.GcNames
import AxiomKernel.Qwen38.SessionStore.Manifest

/-!
The garbage collection of whole sessions, `prune_stale_sessions`. What a scan can read of the root
directory is part of the tree. Every system call that may change the tree is answered by an
environment: it is done, it fails, or the process ends in front of it.
-/
namespace AxiomKernel.Qwen38.SessionStore

open Image Text

/-- The fields of `struct stat` that are read of a file. -/
structure FileStat where
  regular : Bool
  links : Nat
  mtime : Int
  blocks : Int
  deriving DecidableEq

/-- A file of a namespace, with the reason for which it cannot be examined. -/
structure Artifact where
  name : Bytes
  stat : Except Bytes FileStat

inductive OpenFailure where
  | cannotOpen (reason : Bytes)
  | cannotScan (reason : Bytes)
  deriving DecidableEq

structure Directory where
  privateOwned : Bool
  mtime : Int
  blocks : Int
  openFailure : Option OpenFailure
  files : List Artifact
  /-- `readdir` fails behind the files. -/
  readFailure : Option Bytes

/-- An entry of the root: a directory or anything else, also what cannot be examined. -/
inductive Node where
  | directory (directory : Directory)
  | other

abbrev Entries := AList fun _ : Bytes => Node

inductive RootFailure where
  | cannotOpen (reason : Bytes)
  | cannotStat (reason : Bytes)
  | cannotDuplicate (reason : Bytes)
  | cannotScan (reason : Bytes)
  | noMemory
  deriving DecidableEq

structure Root where
  privateOwned : Bool
  failure : Option RootFailure
  entries : Entries
  readFailure : Option Bytes

/-- `strerror` of the errors that the collection sets itself or that follow from the tree. -/
def eacces : Bytes := ascii "Permission denied"
def einval : Bytes := ascii "Invalid argument"
def eoverflow : Bytes := ascii "Value too large for defined data type"
def enoent : Bytes := ascii "No such file or directory"
def eexist : Bytes := ascii "File exists"
def enotempty : Bytes := ascii "Directory not empty"

/-- `qwen38_session_gc_policy`; the sizes of the budgets are those of `size_t`. -/
structure GcPolicy where
  nowUnixSeconds : UInt64
  ttlSeconds : UInt64 := 0
  maxSessions : UInt32 := 0
  scanNamespaceBudget : UInt64 := 65536
  scanArtifactBudget : UInt64 := 262144
  protectedNamespaceIds : List Bytes := []

structure GcResult where
  scannedSessions : Nat := 0
  retainedSessions : Nat := 0
  protectedSessions : Nat := 0
  unsafeNamespaces : Nat := 0
  removedSessions : Nat := 0
  removedFiles : UInt64 := 0
  reclaimedBytes : UInt64 := 0
  deriving DecidableEq

structure GcEntry where
  namespaceId : Bytes
  directoryName : Bytes
  sessionStem : Bytes := []
  files : List Bytes := []
  lastUsedUnixSeconds : UInt64
  allocatedBytes : UInt64
  protectedNamespace : Bool := false
  remove : Bool := false
  deriving DecidableEq

def kMaxGcArtifactsPerNamespace : Nat := 16384

def mtimeSeconds (mtime : Int) : UInt64 := UInt64.ofNat mtime.toNat

def allocatedBytes (blocks : Int) : UInt64 :=
  if blocks ≤ 0 then 0
  else if 0xffffffffffffffff / 512 < UInt64.ofNat blocks.toNat then 0xffffffffffffffff
  else UInt64.ofNat blocks.toNat * 512

def addSaturating (left right : UInt64) : UInt64 :=
  if 0xffffffffffffffff - left < right then 0xffffffffffffffff else left + right

def GcEntry.addFile (entry : GcEntry) (name stem : Bytes) (stat : FileStat) : GcEntry :=
  { entry with
    sessionStem := stem
    files := entry.files ++ [name]
    lastUsedUnixSeconds := max entry.lastUsedUnixSeconds (mtimeSeconds stat.mtime)
    allocatedBytes := addSaturating entry.allocatedBytes (SessionStore.allocatedBytes stat.blocks) }

variable (directoryName : Bytes)

def unsafeText (reason : Bytes) : Bytes :=
  ascii "unsafe or unreadable persistent KV session namespace " ++ directoryName ++ ascii ": " ++
    reason

/-- The loop over the files of a namespace, with the number of files seen so far in all namespaces.
A failure with status OK only means that the namespace is left alone. -/
def scanFiles (directoryName : Bytes) (artifactBudget : Nat) (readFailure : Option Bytes) :
    List Artifact → GcEntry → Nat → Nat × Except Failure GcEntry
  | [], entry, total =>
    match readFailure with
    | none => (total, .ok entry)
    | some reason => (total, .error ⟨.ok, unsafeText directoryName reason⟩)
  | file :: files, entry, total =>
    match file.stat with
    | .error reason => (total, .error ⟨.ok, unsafeText directoryName reason⟩)
    | .ok stat =>
      match parseSessionArtifact file.name with
      | none => (total, .error ⟨.ok, unsafeText directoryName einval⟩)
      | some stem =>
        if !stat.regular ∨ stat.links ≠ 1 ∨ (entry.sessionStem ≠ [] ∧ entry.sessionStem ≠ stem) then
          (total, .error ⟨.ok, unsafeText directoryName einval⟩)
        else if kMaxGcArtifactsPerNamespace ≤ entry.files.length ∨ artifactBudget ≤ total then
          (total, .error ⟨.budget, unsafeText directoryName eoverflow⟩)
        else
          scanFiles directoryName artifactBudget readFailure files
            (entry.addFile file.name stem stat) (total + 1)

def scanGcNamespace (namespaceId : Bytes) (artifactBudget total : Nat) (node : Node) :
    Nat × Except Failure GcEntry :=
  match node with
  | .other =>
    (total, .error
      ⟨.ok, ascii "persistent KV session namespace is not a safe directory: " ++ directoryName⟩)
  | .directory directory =>
    if !directory.privateOwned then
      (total, .error
        ⟨.ok, ascii "persistent KV session namespace is not a safe directory: " ++
          directoryName⟩)
    else
      match directory.openFailure with
      | some (.cannotOpen reason) =>
        (total, .error ⟨.ok, ascii "cannot open persistent KV session namespace: " ++ reason⟩)
      | some (.cannotScan reason) =>
        (total, .error ⟨.ok, ascii "cannot scan persistent KV session namespace: " ++ reason⟩)
      | none =>
        scanFiles directoryName artifactBudget directory.readFailure directory.files
          { namespaceId := namespaceId, directoryName := directoryName
            lastUsedUnixSeconds := mtimeSeconds directory.mtime
            allocatedBytes := allocatedBytes directory.blocks } total

structure Scan where
  result : GcResult := {}
  error : Bytes := []
  sessions : List GcEntry := []
  tombstones : List GcEntry := []
  totalArtifacts : Nat := 0

def Scan.noteUnsafe (scan : Scan) (text : Bytes) : Scan := { scan with
    error := if scan.result.unsafeNamespaces = 0 then text else scan.error
    result := { scan.result with unsafeNamespaces := scan.result.unsafeNamespaces + 1 } }

def rootScanFailure (status : Status) (reason : Bytes) : Failure :=
  ⟨status, ascii "persistent KV session lifecycle GC root scan failed: " ++ reason⟩

variable (policy : GcPolicy) (protectedNamespaces : List Bytes)

def takeScanned (tombstone : Option Bytes)
    (name : Bytes) (scan : Scan) : Except Failure GcEntry → Scan × Option Failure
  | .error failure =>
    if failure.status ≠ .ok then (scan, some failure)
    else (scan.noteUnsafe failure.text, none)
  | .ok entry =>
    if policy.scanNamespaceBudget.toNat ≤ scan.sessions.length + scan.tombstones.length then
      (scan, some (rootScanFailure .budget eoverflow))
    else if tombstone ≠ none then ({ scan with tombstones := scan.tombstones ++ [entry] }, none)
    else
      let isProtected : Bool := name ∈ protectedNamespaces
      let result := { scan.result with
        protectedSessions :=
          if isProtected then scan.result.protectedSessions + 1
          else scan.result.protectedSessions }
      ({ scan with
          result := result
          sessions := scan.sessions ++ [{ entry with protectedNamespace := isProtected }] }, none)

def scanEntry (name : Bytes) (node : Node) (scan : Scan) : Scan × Option Failure :=
  let tombstone := parseGcTombstone name
  if tombstone = none ∧ !isLowerHex32 name then
    (scan.noteUnsafe (ascii "unknown persistent KV session root entry: " ++ name), none)
  else
    let namespaceId := tombstone.getD name
    let scan := if tombstone = none then
        { scan with
          result := { scan.result with scannedSessions := scan.result.scannedSessions + 1 } }
      else scan
    let scanned := scanGcNamespace name namespaceId policy.scanArtifactBudget.toNat
      scan.totalArtifacts node
    takeScanned policy protectedNamespaces tombstone namespaceId
      { scan with totalArtifacts := scanned.1 } scanned.2

def scanRoot (policy : GcPolicy) (protectedNamespaces : List Bytes) :
    List (Σ _ : Bytes, Node) → Scan → Scan × Option Failure
  | [], scan => (scan, none)
  | item :: listing, scan =>
    match scanEntry policy protectedNamespaces item.1 item.2 scan with
    | (scan, some failure) => (scan, some failure)
    | (scan, none) => scanRoot policy protectedNamespaces listing scan

variable (entry : GcEntry)

def expired : Bool :=
  !(entry.protectedNamespace || policy.nowUnixSeconds < entry.lastUsedUnixSeconds) &&
    policy.ttlSeconds ≤ policy.nowUnixSeconds - entry.lastUsedUnixSeconds

/-- The loop of the age rule: the sessions with their marks, and how many it marked. -/
def markExpired (policy : GcPolicy) : List GcEntry → List GcEntry × Nat
  | [] => ([], 0)
  | entry :: sessions =>
    let (marked, selected) := markExpired policy sessions
    if expired policy entry then ({ entry with remove := true } :: marked, selected + 1)
    else (entry :: marked, selected)

def GcEntry.rank : Nat ×ₗ List Nat :=
  toLex (entry.lastUsedUnixSeconds.toNat, entry.namespaceId.map UInt8.toNat)

def GcEntry.Earlier (left right : GcEntry) : Prop := left.rank ≤ right.rank

instance : DecidableRel GcEntry.Earlier := fun left right =>
  inferInstanceAs (Decidable (left.rank ≤ right.rank))

def evict (maxSessions : Nat) : List GcEntry → Nat → List GcEntry
  | [], _ => []
  | entry :: sessions, projected =>
    if projected ≤ maxSessions then entry :: sessions
    else if entry.protectedNamespace || entry.remove then
      entry :: evict maxSessions sessions projected
    else { entry with remove := true } :: evict maxSessions sessions (projected - 1)

/-- The sessions in the order in which they are visited, those to remove marked. -/
def selectSessions (sessions : List GcEntry) : List GcEntry :=
  let (sessions, selected) :=
    if policy.ttlSeconds ≠ 0 then markExpired policy sessions else (sessions, 0)
  let sessions := sessions.insertionSort GcEntry.Earlier
  let projected := if selected < sessions.length then sessions.length - selected else 0
  if policy.maxSessions ≠ 0 ∧ policy.maxSessions.toNat < projected then
    evict policy.maxSessions.toNat sessions projected
  else sessions

inductive Answer where
  | done
  | failed (reason : Bytes)
  | crashed

inductive Stop where
  | crashed
  | failed (failure : Failure)
  deriving DecidableEq

structure World where
  root : Root
  /-- `g_temp_sequence`. -/
  sequence : UInt64
  /-- The number of the next system call. -/
  calls : Nat
  result : GcResult

abbrev Gc := ExceptT Stop (StateM World)

variable (env : Nat → Answer) (effect : Root → Except Bytes Root)

def attempt : Gc (Option Bytes) := do
  let world ← get
  match env world.calls with
  | .crashed => throw .crashed
  | .failed reason =>
    set { world with calls := world.calls + 1 }
    return some reason
  | .done =>
    match effect world.root with
    | .error reason =>
      set { world with calls := world.calls + 1 }
      return some reason
    | .ok root =>
      set { world with root := root, calls := world.calls + 1 }
      return none

variable (failure : Option Bytes)

def andThen (call : Gc (Option Bytes)) : Gc (Option Bytes) :=
  match failure with
  | some reason => return some reason
  | none => call

def orThrow (describe : Bytes → Failure) : Gc Unit :=
  match failure with
  | some reason => throw (.failed (describe reason))
  | none => return ()

def require (describe : Bytes → Failure) : Gc Unit := do
  let failure ← attempt env effect
  orThrow failure describe

variable (root : Root)

def Root.openDirectory : Except Bytes Root :=
  match root.entries.lookup directoryName with
  | some (.directory _) => .ok root
  | _ => .error enoent

/-- `fstat` of an open directory, which has to be private. -/
def Root.statDirectory : Except Bytes Root :=
  match root.entries.lookup directoryName with
  | some (.directory directory) => if directory.privateOwned then .ok root else .error eacces
  | _ => .error enoent

def Root.directoryBlocks : Int :=
  match root.entries.lookup directoryName with
  | some (.directory directory) => directory.blocks
  | _ => 0

def Root.unlink (name : Bytes) (root : Root) : Except Bytes Root :=
  match root.entries.lookup directoryName with
  | some (.directory directory) =>
    let directory := { directory with files := directory.files.filter (·.name ≠ name) }
    .ok { root with entries := root.entries.insert directoryName (.directory directory) }
  | _ => .error enoent

def Root.removeDirectory : Except Bytes Root :=
  match root.entries.lookup directoryName with
  | some (.directory directory) =>
    if directory.files.isEmpty then
      .ok { root with entries := root.entries.erase directoryName }
    else .error enotempty
  | _ => .error enoent

def Root.rename (source destination : Bytes) (root : Root) : Except Bytes Root :=
  match root.entries.lookup source with
  | none => .error enoent
  | some node =>
    match root.entries.lookup destination with
    | some _ => .error eexist
    | none =>
      .ok { root with entries := (root.entries.erase source).insert destination node }

def Root.file? (directoryName name : Bytes) : Option Artifact :=
  match root.entries.lookup directoryName with
  | some (.directory directory) => directory.files.find? (·.name = name)
  | _ => none

/-- The loop over the files of a tombstone; the files unlinked, their bytes and the reason for which
it ended early. A file that is gone is passed over. -/
def unlinkFiles (env : Nat → Answer) (directoryName : Bytes) :
    List Bytes → UInt64 → UInt64 → Gc (UInt64 × UInt64 × Option Bytes)
  | [], files, bytes => return (files, bytes, none)
  | name :: names, files, bytes => do
      match ← attempt env .ok with
      | some reason => return (files, bytes, some reason)
      | none =>
        match (← get).root.file? directoryName name with
        | none => unlinkFiles env directoryName names files bytes
        | some file =>
          match file.stat with
          | .error reason => return (files, bytes, some reason)
          | .ok stat =>
            if !stat.regular ∨ stat.links ≠ 1 then return (files, bytes, some einval)
            else
              match ← attempt env (Root.unlink directoryName name) with
              | some reason => return (files, bytes, some reason)
              | none =>
                unlinkFiles env directoryName names (files + 1)
                  (addSaturating bytes (allocatedBytes stat.blocks))

def removeGcNamespace (entry : GcEntry) : Gc Unit := do
  require env (Root.openDirectory entry.directoryName) fun reason =>
    ⟨.io, ascii "cannot open persistent KV GC tombstone: " ++ reason⟩
  require env (Root.statDirectory entry.directoryName) fun reason =>
    ⟨.io, ascii "cannot stat persistent KV GC tombstone: " ++ reason⟩
  let blocks := (← get).root.directoryBlocks entry.directoryName
  let unlinked ← unlinkFiles env entry.directoryName entry.files 0 (allocatedBytes blocks)
  let failure ← andThen unlinked.2.2 (attempt env .ok)
  let failure ← andThen failure (attempt env (Root.removeDirectory entry.directoryName))
  let failure ← andThen failure (attempt env .ok)
  modify fun world => { world with
    result := { world.result with
      removedFiles := addSaturating world.result.removedFiles unlinked.1
      reclaimedBytes := addSaturating world.result.reclaimedBytes unlinked.2.1 } }
  orThrow failure fun reason =>
    ⟨.io, ascii "persistent KV session tombstone cleanup failed: " ++ reason⟩

def finishTombstones (env : Nat → Answer) : List GcEntry → Gc Unit
  | [] => return ()
  | entry :: tombstones => do
      removeGcNamespace env entry
      finishTombstones env tombstones

def allocationFailure : Failure :=
  ⟨.budget, ascii "persistent KV session lifecycle allocation failed"⟩

def retire (pid : Nat) (policy : GcPolicy) (entry : GcEntry) : Gc Unit := do
  let sequence := (← get).sequence + 1
  modify fun world => { world with sequence := sequence }
  let name := tombstoneName entry.namespaceId pid policy.nowUnixSeconds.toNat sequence.toNat
  -- the memory of the name
  require env .ok fun _ => allocationFailure
  require env (Root.rename entry.directoryName name) fun reason =>
    ⟨.io, ascii "cannot atomically tombstone stale persistent KV session: " ++ reason⟩
  require env .ok fun reason =>
    ⟨.io, ascii "cannot sync persistent KV session tombstone rename: " ++ reason⟩
  modify fun world => { world with
    result := { world.result with
      removedSessions := world.result.removedSessions + 1
      retainedSessions := world.result.retainedSessions - 1 } }
  removeGcNamespace env { entry with directoryName := name }

def retireSelected (env : Nat → Answer) (pid : Nat) (policy : GcPolicy) : List GcEntry → Gc Unit
  | [] => return ()
  | entry :: sessions =>
    if entry.remove then do
      retire env pid policy entry
      retireSelected env pid policy sessions
    else retireSelected env pid policy sessions

/-- The part of `prune_stale_sessions` behind the scan. -/
def collect (pid : Nat) (policy : GcPolicy) (scan : Scan) : Gc Unit := do
  let retainAll (world : World) : World := { world with result := { world.result with
        retainedSessions := world.result.scannedSessions } }
  -- a failing tombstone leaves the sessions retained; so does the start of the loop below
  tryCatch (finishTombstones env scan.tombstones) fun stop => do
    modify retainAll
    throw stop
  modify retainAll
  retireSelected env pid policy (selectSessions policy scan.sessions)

def openRoot : Option Failure :=
  match root.failure with
  | some (.cannotOpen reason) =>
    some ⟨.io, ascii "cannot open persistent KV session root for lifecycle GC: " ++ reason⟩
  | some (.cannotStat reason) =>
    some ⟨.io, ascii "persistent KV session root is not private and owned by the daemon: " ++
      reason⟩
  | other =>
    if !root.privateOwned then
      some ⟨.io, ascii "persistent KV session root is not private and owned by the daemon: " ++
        eacces⟩
    else
      match other with
      | some (.cannotDuplicate reason) =>
        some ⟨.io, ascii "cannot duplicate persistent KV session root for lifecycle GC: " ++
          reason⟩
      | some (.cannotScan reason) =>
        some ⟨.io, ascii "cannot scan persistent KV session root for lifecycle GC: " ++ reason⟩
      | some .noMemory =>
        some ⟨.budget,
          ascii "persistent KV session lifecycle protection set allocation failed"⟩
      | _ => none

def scanSessions : Scan × Option Failure :=
  let protectedNamespaces := policy.protectedNamespaceIds.filter isLowerHex32
  match scanRoot policy protectedNamespaces root.entries.entries {} with
  | (scan, some failure) => (scan, some failure)
  | (scan, none) => (scan, root.readFailure.map (rootScanFailure .io))

structure Pruned where
  result : GcResult
  outcome : Except Stop Unit
  error : Bytes

/-- A call of `prune_stale_sessions`: its process, its policy and what the system answers. -/
structure GcCall where
  store : Store
  pid : Nat
  policy : GcPolicy
  env : Nat → Answer
  sequence : UInt64

def invalidGcArguments : Failure :=
  ⟨.invalidArgument, ascii "invalid persistent KV session lifecycle GC arguments"⟩

def failedGc (result : GcResult) (failure : Failure) : Pruned :=
  { result := result, outcome := .error (.failed failure), error := failure.text }

/-- `prune_stale_sessions`; a root that does not exist is `none`. -/
def pruneStaleSessions (tree : Option Root) (call : GcCall) : Option Root × Pruned :=
  if !call.store.enabled ∨ call.policy.nowUnixSeconds = 0 ∨ call.policy.scanNamespaceBudget = 0 ∨
      call.policy.scanArtifactBudget = 0 then
    (tree, failedGc {} invalidGcArguments)
  else
    match tree with
    | none => (none, { result := {}, outcome := .ok (), error := [] })
    | some root =>
      match openRoot root with
      | some failure => (some root, failedGc {} failure)
      | none =>
        match scanSessions call.policy root with
        | (scan, some failure) => (some root, failedGc scan.result failure)
        | (scan, none) =>
          let world : World :=
            { root := root, sequence := call.sequence, calls := 0, result := scan.result }
          match (collect call.env call.pid call.policy scan).run.run world with
          | (.ok (), world) =>
            (some world.root, { result := world.result, outcome := .ok (), error := scan.error })
          | (.error (.failed failure), world) =>
            (some world.root, failedGc world.result failure)
          | (.error .crashed, world) =>
            (some world.root,
              { result := world.result, outcome := .error .crashed, error := scan.error })

end AxiomKernel.Qwen38.SessionStore
