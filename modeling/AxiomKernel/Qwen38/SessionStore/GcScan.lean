import AxiomKernel.Qwen38.SessionStore.Gc

/-!
What the scan finds: the namespaces and tombstones that are private directories with nothing but the
files of one session in them.
-/
namespace AxiomKernel.Qwen38.SessionStore

open Image Text List

def Artifact.stem? (file : Artifact) : Option Bytes :=
  match file.stat with
  | .ok stat => if stat.regular && stat.links = 1 then parseSessionArtifact file.name else none
  | .error _ => none

def Artifact.mtimeSeconds (file : Artifact) : UInt64 :=
  match file.stat with
  | .ok stat => SessionStore.mtimeSeconds stat.mtime
  | .error _ => 0

variable (directory : Directory)

/-- A private directory that can be read, with the files of one session. -/
def Directory.safe : Bool :=
  directory.privateOwned && directory.openFailure = none && directory.readFailure = none &&
    directory.files.all fun file =>
      file.stem?.isSome && file.stem? = directory.files.head?.bind Artifact.stem?

def Directory.lastUsed : UInt64 :=
  directory.files.foldl (fun used file => max used file.mtimeSeconds) (mtimeSeconds directory.mtime)

def Node.safe : Node → Bool
  | .directory found => found.safe
  | .other => false

variable {directory : Directory} {files : List Artifact} {readFailure : Option Bytes}
  {sessionStem name : Bytes} {file : Artifact} {seen : List (Σ _ : Bytes, Node)} {node : Node}
  {counted : Scan} {scanned : Except Failure GcEntry}

lemma Directory.safe_iff : directory.safe ↔ directory.privateOwned ∧ directory.openFailure = none ∧
    directory.readFailure = none ∧ ∃ stem, ∀ file ∈ directory.files, file.stem? = some stem := by
  simp only [Directory.safe, Bool.and_eq_true, decide_eq_true_eq, all_eq_true, and_assoc]
  refine and_congr_right fun _ => and_congr_right fun _ => and_congr_right fun _ => ?_
  cases directory.files with
  | nil => simp
  | cons first files =>
    constructor
    · intro h
      obtain ⟨stem, hs⟩ := Option.isSome_iff_exists.1 (h first mem_cons_self).1
      refine ⟨stem, fun file hm => (h file hm).2.trans ?_⟩
      exact hs
    · rintro ⟨stem, ha⟩ file hm
      have hfi := ha first mem_cons_self
      rw [ha file hm]
      exact ⟨rfl, hfi.symm⟩

lemma Directory.safe_sublist (h : directory.safe) (hf : files.Sublist directory.files) :
    ({ directory with files := files } : Directory).safe = true := by
  rw [Directory.safe_iff] at h ⊢
  obtain ⟨hp, ho, hr, st, ha⟩ := h
  exact ⟨hp, ho, hr, st, fun file hm => ha file (hf.subset hm)⟩

structure Describes (entry : GcEntry) (directoryName namespaceId : Bytes) (directory : Directory) :
    Prop where
  directoryName_eq : entry.directoryName = directoryName
  namespaceId_eq : entry.namespaceId = namespaceId
  files_eq : entry.files = directory.files.map (·.name)
  lastUsed_eq : entry.lastUsedUnixSeconds = directory.lastUsed
  unmarked : entry.remove = false

def Fits (readFailure : Option Bytes) (sessionStem : Bytes) (files : List Artifact) : Prop :=
  readFailure = none ∧ ∃ stem, (sessionStem = [] ∨ sessionStem = stem) ∧
    ∀ file ∈ files, file.stem? = some stem

lemma Fits.cons {st : Bytes} (hst : file.stem? = some st) (hn : st ≠ []) :
    Fits readFailure sessionStem (file :: files) ↔
    (sessionStem = [] ∨ sessionStem = st) ∧ Fits readFailure st files := by
  simp only [Fits, forall_mem_cons, hst]
  constructor
  · rintro ⟨hr, st', hs, he, ha⟩
    cases he
    exact ⟨hs, hr, st, .inr rfl, ha⟩
  · rintro ⟨hs, hr, st', hs', ha⟩
    obtain rfl := hs'.resolve_left hn
    exact ⟨hr, st, hs, rfl, ha⟩

lemma not_fits_of_stem (hs : file.stem? = none) :
    ¬ Fits readFailure sessionStem (file :: files) := by
  rintro ⟨-, st, -, ha⟩
  rw [ha file mem_cons_self] at hs
  cases hs

/-- What is known of a scan: of the entry it gives, or where it leaves the namespace alone. -/
def Verdict (read : GcEntry → Prop) (leftAlone : Prop) : Except Failure GcEntry → Prop
  | .ok entry => read entry
  | .error failure => failure.status = .ok → leftAlone

/-- The loop over the files takes them all, or it gives the namespace up because they do not fit, or
it is over a budget. -/
lemma scanFiles_spec (directoryName : Bytes) (budget : Nat) (readFailure : Option Bytes)
    (files : List Artifact) (entry : GcEntry) (total : Nat) : Verdict
      (fun read => Fits readFailure entry.sessionStem files ∧
        read.directoryName = entry.directoryName ∧ read.namespaceId = entry.namespaceId ∧
        read.files = entry.files ++ files.map (·.name) ∧ read.lastUsedUnixSeconds =
          files.foldl (fun used file => max used file.mtimeSeconds) entry.lastUsedUnixSeconds ∧
        read.remove = entry.remove) (¬ Fits readFailure entry.sessionStem files)
      (scanFiles directoryName budget readFailure files entry total).2 := by
  induction files generalizing entry total with
  | nil =>
    cases readFailure with
    | none =>
      rw [scanFiles]
      exact ⟨⟨rfl, entry.sessionStem, .inr rfl, nofun⟩, rfl, rfl, (append_nil _).symm, rfl, rfl⟩
    | some reason =>
      rw [scanFiles]
      intro _ hft
      cases hft.1
  | cons file files ih =>
    rw [scanFiles]
    cases hstat : file.stat with
    | error reason =>
      intro _
      exact not_fits_of_stem (by rw [Artifact.stem?, hstat])
    | ok stat =>
      cases hn : parseSessionArtifact file.name with
      | none =>
        intro _
        refine not_fits_of_stem ?_
        rw [Artifact.stem?, hstat]
        simp [hn]
      | some stem =>
        have hne := parseSessionArtifact_ne_nil hn
        dsimp only
        split
        · rename_i hbad
          intro _ hft
          by_cases hpl : stat.regular = true ∧ stat.links = 1
          · have hstem : file.stem? = some stem := by
              rw [Artifact.stem?, hstat]
              simp [hpl, hn]
            have hs := ((Fits.cons hstem hne).1 hft).1
            simp only [hpl, Bool.not_true, Bool.false_eq_true, ne_eq, not_true_eq_false,
              false_or] at hbad
            exact hs.elim hbad.1 hbad.2
          · refine not_fits_of_stem ?_ hft
            rw [Artifact.stem?, hstat]
            simp [hpl]
        · rename_i hgood
          split
          · nofun
          · simp only [not_or, Bool.not_eq_true', Bool.not_eq_false, ne_eq, not_not,
              not_and] at hgood
            have hstem : file.stem? = some stem := by
              rw [Artifact.stem?, hstat]
              simp [hgood.1, hgood.2.1, hn]
            have hs : entry.sessionStem = [] ∨ entry.sessionStem = stem := by
              by_cases hem : entry.sessionStem = []
              · exact .inl hem
              · exact .inr (hgood.2.2 hem)
            have hre := ih (entry.addFile file.name stem stat) (total + 1)
            have hmt : file.mtimeSeconds = mtimeSeconds stat.mtime := by
              rw [Artifact.mtimeSeconds, hstat]
            revert hre
            generalize (scanFiles directoryName budget readFailure files
              (entry.addFile file.name stem stat) (total + 1)).2 = scanned
            intro hre
            cases scanned with
            | error failure =>
              intro hst hft
              exact hre hst ((Fits.cons hstem hne).1 hft).2
            | ok read =>
              obtain ⟨hft, hdir, hid, hfil, hused, hrem⟩ := hre
              refine ⟨(Fits.cons hstem hne).2 ⟨hs, hft⟩, hdir, hid, ?_, ?_, hrem⟩
              · rw [hfil, GcEntry.addFile, map_cons, append_assoc, singleton_append]
              · rw [hused, foldl_cons, hmt]
                rfl

lemma scanGcNamespace_spec (directoryName namespaceId : Bytes) (budget total : Nat)
    (node : Node) : Verdict
      (fun entry => ∃ directory, node = .directory directory ∧ directory.safe ∧
        Describes entry directoryName namespaceId directory) (node.safe = false)
      (scanGcNamespace directoryName namespaceId budget total node).2 := by
  unfold scanGcNamespace
  cases node with
  | other => exact fun _ => rfl
  | directory directory =>
    dsimp only
    have huns : ¬ (directory.privateOwned = true ∧ directory.openFailure = none ∧
        Fits directory.readFailure [] directory.files) →
        (Node.directory directory).safe = false := by
      intro hnot
      refine Bool.eq_false_iff.2 fun hsa => hnot ?_
      obtain ⟨hpriv, hop, hrd, stem, ha⟩ := Directory.safe_iff.1 hsa
      exact ⟨hpriv, hop, hrd, stem, .inl rfl, ha⟩
    split
    · rename_i hpriv
      intro _
      exact huns fun h => by simp [h.1] at hpriv
    · rename_i hpriv
      cases hop : directory.openFailure with
      | some failure =>
        have hnot := huns fun h => by rw [hop] at h; cases h.2.1
        cases failure with
        | cannotOpen reason => exact fun _ => hnot
        | cannotScan reason => exact fun _ => hnot
      | none =>
        dsimp only
        have hfil := scanFiles_spec directoryName budget directory.readFailure directory.files
          { namespaceId := namespaceId, directoryName := directoryName
            lastUsedUnixSeconds := mtimeSeconds directory.mtime
            allocatedBytes := allocatedBytes directory.blocks } total
        revert hfil
        generalize (scanFiles directoryName budget directory.readFailure directory.files _
          total).2 = scanned
        intro hfil
        cases scanned with
        | error failure =>
          intro hst
          exact huns fun h => hfil hst h.2.2
        | ok entry =>
          obtain ⟨⟨hrd, stem, -, ha⟩, hn, hid, hnam, hused, hrem⟩ := hfil
          refine ⟨directory, rfl, Directory.safe_iff.2 ⟨?_, hop, hrd, stem, ha⟩,
            hn, hid, hnam, hused, hrem⟩
          simpa using hpriv

variable (item : Σ _ : Bytes, Node)

def isSession : Bool := isLowerHex32 item.1 && item.2.safe

def isTombstone : Bool := (parseGcTombstone item.1).isSome && item.2.safe

structure Sees (policy : GcPolicy) (listing : List (Σ _ : Bytes, Node)) (scan : Scan) : Prop where
  sessionIds : scan.sessions.map (·.namespaceId) = (listing.filter isSession).map (·.1)
  sessions : ∀ entry ∈ scan.sessions, isLowerHex32 entry.namespaceId = true ∧
    entry.protectedNamespace = decide (entry.namespaceId ∈ policy.protectedNamespaceIds) ∧
    ∃ directory, ⟨entry.namespaceId, .directory directory⟩ ∈ listing ∧ directory.safe = true ∧
      Describes entry entry.namespaceId entry.namespaceId directory
  tombstoneNames : scan.tombstones.map (·.directoryName) = (listing.filter isTombstone).map (·.1)
  scanned : scan.result.scannedSessions = (listing.filter (isLowerHex32 ·.1)).length
  removed : scan.result.removedSessions = 0
  removedFiles : scan.result.removedFiles = 0

section
variable {policy : GcPolicy} {listing : List (Σ _ : Bytes, Node)} {scan : Scan}

lemma Sees.weaken (h : Sees policy listing scan) (item : Σ _ : Bytes, Node) :
    ∀ entry ∈ scan.sessions, isLowerHex32 entry.namespaceId ∧
    entry.protectedNamespace = decide (entry.namespaceId ∈ policy.protectedNamespaceIds) ∧
    ∃ directory, ⟨entry.namespaceId, .directory directory⟩ ∈ listing ++ [item] ∧
    directory.safe ∧ Describes entry entry.namespaceId entry.namespaceId directory := by
  intro entry hm
  obtain ⟨hi, hp, directory, hl, hs, hd⟩ := h.sessions entry hm
  exact ⟨hi, hp, directory, mem_append_left _ hl, hs, hd⟩

variable {scan' : Scan} {name : Bytes} {directory : Directory} {entry : GcEntry}

section
variable (h : Sees policy listing scan)
include h

lemma Sees.skip {item : Σ _ : Bytes, Node} (hse : isSession item = false)
    (ht : isTombstone item = false) (hs : scan'.sessions = scan.sessions)
    (hto : scan'.tombstones = scan.tombstones)
    (hsc : scan'.result.scannedSessions =
    scan.result.scannedSessions + if isLowerHex32 item.1 then 1 else 0)
    (hr : scan'.result.removedSessions = scan.result.removedSessions)
    (hf : scan'.result.removedFiles = scan.result.removedFiles) :
    Sees policy (listing ++ [item]) scan' := by
  refine ⟨?_, ?_, ?_, ?_, hr.trans h.removed, hf.trans h.removedFiles⟩
  · rw [hs, h.sessionIds, filter_append, filter_singleton, hse]
    simp
  · rw [hs]
    exact h.weaken item
  · rw [hto, h.tombstoneNames, filter_append, filter_singleton, ht]
    simp
  · rw [hsc, h.scanned, filter_append, filter_singleton, length_append]
    split <;> simp [*]

lemma Sees.session (hv : isLowerHex32 name) (hsa : directory.safe)
    (hd : Describes entry name name directory)
    (hp : entry.protectedNamespace = decide (name ∈ policy.protectedNamespaceIds))
    (hs : scan'.sessions = scan.sessions ++ [entry])
    (hto : scan'.tombstones = scan.tombstones)
    (hsc : scan'.result.scannedSessions = scan.result.scannedSessions + 1)
    (hr : scan'.result.removedSessions = scan.result.removedSessions)
    (hf : scan'.result.removedFiles = scan.result.removedFiles) :
    Sees policy (listing ++ [⟨name, .directory directory⟩]) scan' := by
  have hse : isSession ⟨name, .directory directory⟩ := by
    rw [isSession, hv]
    exact hsa
  have ht : isTombstone ⟨name, .directory directory⟩ = false := by
    rw [isTombstone]
    cases hpa : parseGcTombstone name with
    | none => rfl
    | some id =>
      rw [(parseGcTombstone_spec hpa).2] at hv
      cases hv
  refine ⟨?_, ?_, ?_, ?_, hr.trans h.removed, hf.trans h.removedFiles⟩
  · rw [hs, map_append, h.sessionIds, filter_append, filter_singleton, hse]
    simp [hd.namespaceId_eq]
  · rw [hs]
    intro o hm
    obtain hm | hm := mem_append.1 hm
    · exact h.weaken _ o hm
    · rw [mem_singleton.1 hm, hd.namespaceId_eq]
      exact ⟨hv, hp, directory, mem_append_right _ mem_cons_self, hsa, hd⟩
  · rw [hto, h.tombstoneNames, filter_append, filter_singleton, ht]
    simp
  · rw [hsc, h.scanned, filter_append, filter_singleton, length_append]
    simp [hv]

lemma Sees.tombstone {id : Bytes} (hp : parseGcTombstone name = some id)
    (hsa : directory.safe) (hn : entry.directoryName = name)
    (hs : scan'.sessions = scan.sessions)
    (hto : scan'.tombstones = scan.tombstones ++ [entry])
    (hr : scan'.result = scan.result) :
    Sees policy (listing ++ [⟨name, .directory directory⟩]) scan' := by
  have hv := (parseGcTombstone_spec hp).2
  have hse : isSession ⟨name, .directory directory⟩ = false := by
    rw [isSession, hv]
    rfl
  have ht : isTombstone ⟨name, .directory directory⟩ := by
    rw [isTombstone, hp]
    exact hsa
  refine ⟨?_, ?_, ?_, ?_, ?_, ?_⟩
  · rw [hs, h.sessionIds, filter_append, filter_singleton, hse]
    simp
  · rw [hs]
    exact h.weaken _
  · rw [hto, map_append, h.tombstoneNames, filter_append, filter_singleton, ht]
    simp [hn]
  · rw [hr, h.scanned, filter_append, filter_singleton]
    simp [hv]
  · rw [hr]
    exact h.removed
  · rw [hr]
    exact h.removedFiles

end

end

variable {policy : GcPolicy} {scan next : Scan}

abbrev protectedIds (policy : GcPolicy) : List Bytes :=
  policy.protectedNamespaceIds.filter isLowerHex32

section
variable (h : Sees policy seen scan)
include h

lemma takeScanned_session (hv : isLowerHex32 name)
    (ho : takeScanned policy (protectedIds policy) none name counted scanned = (next, none))
    (hs : counted.sessions = scan.sessions)
    (ht : counted.tombstones = scan.tombstones)
    (hsc : counted.result.scannedSessions = scan.result.scannedSessions + 1)
    (hr : counted.result.removedSessions = scan.result.removedSessions)
    (hf : counted.result.removedFiles = scan.result.removedFiles)
    (hve : Verdict (fun entry => ∃ directory, node = .directory directory ∧
      directory.safe ∧ Describes entry name name directory) (node.safe = false) scanned) :
    Sees policy (seen ++ [⟨name, node⟩]) next := by
  cases scanned with
  | error f =>
    rw [takeScanned] at ho
    split at ho
    · cases ho
    · rename_i hst
      cases ho
      have hu : node.safe = false := hve (not_not.1 hst)
      refine h.skip ?_ ?_ hs ht ?_ hr hf
      · rw [isSession, hu, Bool.and_false]
      · rw [isTombstone, hu, Bool.and_false]
      · rw [hv]
        exact hsc
  | ok entry =>
    rw [takeScanned] at ho
    split at ho
    · cases ho
    · rw [if_neg (fun h => h rfl)] at ho
      cases ho
      obtain ⟨directory, rfl, hsa, hd⟩ := hve
      refine h.session hv hsa ?_ ?_ (by rw [← hs]) ht hsc hr hf
      · exact ⟨hd.directoryName_eq, hd.namespaceId_eq, hd.files_eq, hd.lastUsed_eq, hd.unmarked⟩
      · simp [mem_filter, hv]

lemma takeScanned_tombstone {id : Bytes} (hp : parseGcTombstone name = some id)
    (ho : takeScanned policy (protectedIds policy) (some id) id counted scanned = (next, none))
    (hs : counted.sessions = scan.sessions)
    (ht : counted.tombstones = scan.tombstones) (hr : counted.result = scan.result)
    (hve : Verdict (fun entry => ∃ directory, node = .directory directory ∧
      directory.safe ∧ Describes entry name id directory) (node.safe = false) scanned) :
    Sees policy (seen ++ [⟨name, node⟩]) next := by
  have hv := (parseGcTombstone_spec hp).2
  cases scanned with
  | error f =>
    rw [takeScanned] at ho
    split at ho
    · cases ho
    · rename_i hst
      cases ho
      have hu : node.safe = false := hve (not_not.1 hst)
      refine h.skip ?_ ?_ hs ht ?_ (congrArg (·.removedSessions) hr) (congrArg (·.removedFiles) hr)
      · rw [isSession, hu, Bool.and_false]
      · rw [isTombstone, hu, Bool.and_false]
      · rw [hv]
        exact congrArg (·.scannedSessions) hr
  | ok entry =>
    rw [takeScanned] at ho
    split at ho
    · cases ho
    · rw [if_pos nofun] at ho
      cases ho
      obtain ⟨directory, rfl, hsa, hd⟩ := hve
      exact h.tombstone hp hsa hd.directoryName_eq hs (by rw [← ht]) hr

lemma scanEntry_sees (name : Bytes) (node : Node)
    (hsc : scanEntry policy (protectedIds policy) name node scan = (next, none)) :
    Sees policy (seen ++ [⟨name, node⟩]) next := by
  unfold scanEntry at hsc
  dsimp only at hsc
  cases hpa : parseGcTombstone name with
  | some id =>
    have hkn : ¬ (some id = none ∧ (!isLowerHex32 name) = true) := nofun
    have htomb : ¬ some id = none := nofun
    rw [hpa, if_neg hkn, if_neg htomb] at hsc
    exact takeScanned_tombstone h hpa hsc rfl rfl rfl (scanGcNamespace_spec name id _ _ node)
  | none =>
    rw [hpa] at hsc
    by_cases hv : isLowerHex32 name = true
    · have hkn : ¬ (@none Bytes = none ∧ (!isLowerHex32 name) = true) := by simp [hv]
      rw [if_neg hkn, if_pos rfl] at hsc
      exact takeScanned_session h hv hsc rfl rfl rfl rfl rfl
        (scanGcNamespace_spec name name _ _ node)
    · have hv := Bool.not_eq_true _ ▸ hv
      rw [if_pos ⟨rfl, by rw [hv]; rfl⟩] at hsc
      cases hsc
      refine h.skip ?_ ?_ rfl rfl ?_ rfl rfl
      · rw [isSession, hv]
        rfl
      · rw [isTombstone, hpa]
        rfl
      · rw [hv]
        rfl

lemma scanRoot_sees {listing : List (Σ _ : Bytes, Node)}
    (hs : scanRoot policy (protectedIds policy) listing scan = (next, none)) :
    Sees policy (seen ++ listing) next := by
  induction listing generalizing seen scan with
  | nil =>
    cases hs
    rw [append_nil]
    exact h
  | cons item listing ih =>
    rw [scanRoot] at hs
    rw [append_cons]
    split at hs
    · cases hs
    · rename_i he
      exact ih (scanEntry_sees h item.1 item.2 he) hs

end

lemma scanSessions_sees {ro : Root} (h : (scanSessions policy ro).2 = none) :
    Sees policy ro.entries.entries (scanSessions policy ro).1 := by
  have hst : Sees policy [] {} := ⟨rfl, nofun, rfl, rfl, rfl, rfl⟩
  have hs (next : Scan) := @scanRoot_sees [] policy {} next hst ro.entries.entries
  unfold scanSessions at h ⊢
  dsimp only at h ⊢
  generalize scanRoot policy _ ro.entries.entries {} = scanned at h hs ⊢
  obtain ⟨scan, _ | f⟩ := scanned
  · exact hs scan rfl
  · cases h

end AxiomKernel.Qwen38.SessionStore
