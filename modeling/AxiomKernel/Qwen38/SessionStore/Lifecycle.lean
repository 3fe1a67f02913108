import AxiomKernel.Lib.Machine
import AxiomKernel.Qwen38.SessionStore.GcSelection
import AxiomKernel.Qwen38.SessionStore.GcTombstones

/-!
Calls of `prune_stale_sessions`: which namespaces a successful call removes, and what calls leave
that crash or fail anywhere.
-/
namespace AxiomKernel.Qwen38.SessionStore

open Image Text Hoare List Machine Bool

def entriesOf : Option Root → Entries
  | none => ∅
  | some root => root.entries

def validatedIds (entries : Entries) : List Bytes := (entries.entries.filter isSession).map (·.1)

variable {node : Node} {name : Bytes} {world : World} {entry : GcEntry} {describe : Bytes → Failure}
  {before : Entries}

lemma Node.safe_iff : node.safe ↔ ∃ f, node = .directory f ∧ f.safe = true := by
  cases node with
  | directory f => simp [Node.safe]
  | other => simp [Node.safe]

variable {entries : Entries}

lemma mem_filter_names {p : (Σ _ : Bytes, Node) → Bool} :
    name ∈ (entries.entries.filter p).map (·.1) ↔
    ∃ node, entries.lookup name = some node ∧ p ⟨name, node⟩ = true := by
  simp only [mem_map, mem_filter]
  constructor
  · rintro ⟨⟨f, node⟩, ⟨hm, hp⟩, rfl⟩
    exact ⟨node, AList.mem_lookup_iff.2 hm, hp⟩
  · rintro ⟨node, hlookup, hp⟩
    exact ⟨⟨name, node⟩, ⟨AList.mem_lookup_iff.1 hlookup, hp⟩, rfl⟩

lemma mem_validatedIds {id : Bytes} : id ∈ validatedIds entries ↔ isLowerHex32 id ∧
    ∃ f, entries.lookup id = some (.directory f) ∧ f.safe = true := by
  rw [validatedIds, mem_filter_names]
  simp only [isSession, and_eq_true, Node.safe_iff]
  constructor
  · rintro ⟨node, hlookup, hv, f, rfl, hs⟩
    exact ⟨hv, f, hlookup, hs⟩
  · rintro ⟨hv, f, hlookup, hs⟩
    exact ⟨_, hlookup, hv, f, rfl, hs⟩

lemma nodup_filter_names (entries : Entries) (p : (Σ _ : Bytes, Node) → Bool) :
    ((entries.entries.filter p).map (·.1)).Nodup :=
  entries.keys_nodup.sublist (filter_sublist.map _)

lemma liveNames_eq (entries : Entries) :
    liveNames entries = (entries.entries.filter (isLowerHex32 ·.1)).map (·.1) := by
  rw [liveNames, AList.keys, keys, filter_map]
  rfl

lemma length_validatedIds_le (entries : Entries) :
    (validatedIds entries).length ≤ (liveNames entries).length := by
  rw [liveNames_eq, validatedIds, length_map, length_map]
  refine (monotone_filter_right entries.entries fun i h => ?_).length_le
  rw [isSession, and_eq_true] at h
  exact h.1

variable {policy : GcPolicy} {scan : Scan}

lemma Sees.deletable (h : Sees policy world.root.entries.entries scan)
    (he : entry ∈ scan.tombstones) :
    (parseGcTombstone entry.directoryName).isSome ∧ Deletable entry.directoryName world := by
  have hm : entry.directoryName ∈ scan.tombstones.map (·.directoryName) := mem_map_of_mem he
  rw [h.tombstoneNames, mem_filter_names] at hm
  obtain ⟨node, hlookup, ht⟩ := hm
  rw [isTombstone, and_eq_true] at ht
  obtain ⟨f, rfl, hs⟩ := Node.safe_iff.1 ht.2
  exact ⟨ht.1, f, hlookup, hs⟩

lemma Sees.retirable (h : Sees policy world.root.entries.entries scan)
    (he : entry ∈ selectSessions policy scan.sessions) :
    Retirable entry world := by
  obtain ⟨o, hm, hs⟩ := mem_selectSessions he
  obtain ⟨hv, -, f, hl, hsa, hde⟩ := h.sessions o hm
  have hi : o.unmarked.namespaceId = entry.unmarked.namespaceId := by rw [hs]
  have hd : o.unmarked.directoryName = entry.unmarked.directoryName := by rw [hs]
  change o.namespaceId = entry.namespaceId at hi
  change o.directoryName = entry.directoryName at hd
  refine ⟨hi ▸ hv, ?_, f, ?_, hsa⟩
  · rw [← hi, ← hd, hde.directoryName_eq]
  · rw [← hi]
    exact AList.mem_lookup_iff.2 hl

lemma Sees.length_sessions (h : Sees policy entries.entries scan) :
    scan.sessions.length = (validatedIds entries).length := by
  rw [← length_map, h.sessionIds]
  rfl

def Scan.tombstoneNames (scan : Scan) : List Bytes := scan.tombstones.map (·.directoryName)

lemma collect_ends (n : Prop) (env : Nat → Answer) (pid : Nat) (world : World)
    (hnw : policy.nowUnixSeconds ≠ 0) (hse : Sees policy world.root.entries.entries scan)
    (hrs : world.result = scan.result)
    (hn : n → Numbers pid world.sequence (liveNames world.root.entries).length) :
    Ends (fun _ after =>
        Frees (scan.tombstoneNames ++ selectedIds policy scan.sessions) world after ∧
        Accounts n world after ∧
        after.result.removedSessions = (selectedIds policy scan.sessions).length ∧
        after.result.retainedSessions =
          scan.result.scannedSessions - (selectedIds policy scan.sessions).length)
      (fun _ after => Accounts n world after)
      ((collect env pid policy scan).run.run world) := by
  have hno : (scan.tombstones.map (·.directoryName)).Nodup := by
    rw [hse.tombstoneNames]
    exact nodup_filter_names _ _
  have hfin := finishTombstones_ends env n hno
    (fun entry he => (hse.deletable he).1) fun entry he => (hse.deletable he).2
  have hr : ∀ {after : World} (retained : Nat), Accounts n world after → Accounts n world
        { after with result := { after.result with retainedSessions := retained } } :=
    fun _ h => ⟨h.collects, h.scanned, h.counted⟩
  rw [collect]
  refine Ends.bind (Q := fun _ after => Frees scan.tombstoneNames world after ∧
    Accounts n world after ∧ after.sequence = world.sequence ∧
    after.result.removedSessions = world.result.removedSessions)
    (R := fun _ after => Accounts n world after) ?_ ?_ fun _ _ _ h => h
  · exact hfin.tryCatch fun _ _ h => hr _ h
  rintro - next - ⟨hf, ha, hsq, hrm⟩
  refine Ends.modify_bind ?_
  have hi := map_namespaceId_selectSessions policy scan.sessions
  have hs : ((selectSessions policy scan.sessions).map (·.namespaceId)).Nodup := by
    refine hi.nodup_iff.2 ?_
    rw [hse.sessionIds]
    exact nodup_filter_names _ _
  -- the names that are freed are no names of namespaces
  have hk : ∀ name, isLowerHex32 name = true →
      next.root.entries.lookup name = world.root.entries.lookup name := by
    intro name hv
    rw [hf.lookup_eq, if_neg]
    intro hm
    obtain ⟨entry, he, rfl⟩ := mem_map.1 hm
    obtain ⟨id, hpa⟩ := Option.isSome_iff_exists.1 (hse.deletable he).1
    exact ne_of_tombstone hpa hv rfl
  have hre : ∀ entry ∈ selectSessions policy scan.sessions,
      Retirable entry { next with result := { next.result with
        retainedSessions := next.result.scannedSessions } } := by
    intro entry he
    obtain ⟨hv, hd, f, hfo, hsa⟩ := hse.retirable he
    exact ⟨hv, hd, f, (hk _ hv).trans hfo, hsa⟩
  have hro : n → Numbers pid next.sequence (selectSessions policy scan.sessions).length := by
    intro hna
    obtain ⟨hpi, hp, hro⟩ := hn hna
    have hl : (selectSessions policy scan.sessions).length = scan.sessions.length := by
      have := hi.length_eq
      rwa [length_map, length_map] at this
    have hle := length_validatedIds_le world.root.entries
    refine ⟨hpi, hp, ?_⟩
    rw [hsq, hl, hse.length_sessions]
    omega
  refine (retireSelected_ends hnw hs hre hro).imp ?_ ?_
  · rintro - after ⟨hf', ha', hr', hre'⟩
    refine ⟨hf.trans ⟨hf'.lookup_eq, hf'.scanned⟩, (hr _ ha).trans ha', ?_, ?_⟩
    · rw [hr', selectedIds, length_map]
      change next.result.removedSessions + _ = _
      rw [hrm, hrs, hse.removed, zero_add]
    · rw [hre', selectedIds, length_map]
      change next.result.scannedSessions - _ = _
      rw [hf.scanned, hrs]
  · exact fun _ after ha' => (hr _ ha).trans ha'

def NoBudget (stop : Stop) : Prop :=
  ∀ failure, stop = .failed failure → failure.status = .budget → failure = allocationFailure

lemma noBudget_io (te : Bytes) : NoBudget (.failed ⟨.io, te⟩) := by
  rintro _ ⟨⟩ hs
  cases hs

lemma throws_attempt (env : Nat → Answer) (effect : Root → Except Bytes Root) :
    Throws NoBudget (attempt env effect) := fun _ =>
  attempt_ends nofun (fun _ _ => trivial) fun _ _ _ => trivial

lemma throws_orThrow (f : Option Bytes) (h : ∀ re, NoBudget (.failed (describe re))) :
    Throws NoBudget (orThrow f describe) := by
  cases f with
  | some re => exact fun _ => h re
  | none => exact fun _ => trivial

section
variable (env : Nat → Answer) (effect : Root → Except Bytes Root)

lemma throws_require (h : ∀ re, NoBudget (.failed (describe re))) :
    Throws NoBudget (require env effect describe) :=
  (throws_attempt env effect).bind fun f => throws_orThrow f h

lemma throws_andThen (f : Option Bytes) : Throws NoBudget (andThen f (attempt env effect)) := by
  cases f with
  | some re => exact throws_pure _
  | none => exact throws_attempt env effect

lemma throws_unlinkFiles (name : Bytes) (ns : List Bytes) (fs bs : UInt64) :
    Throws NoBudget (unlinkFiles env name ns fs bs) := by
  induction ns generalizing fs bs with
  | nil => exact throws_pure _
  | cons fi ns ih =>
    rw [unlinkFiles]
    refine (throws_attempt env _).bind fun f => ?_
    cases f with
    | some re => exact throws_pure _
    | none =>
      refine throws_get.bind fun world => ?_
      cases world.root.file? name fi with
      | none => exact ih fs bs
      | some fo =>
        dsimp only
        cases fo.stat with
        | error re => exact throws_pure _
        | ok st =>
          dsimp only
          split
          · exact throws_pure _
          · refine (throws_attempt env _).bind fun f => ?_
            cases f with
            | some re => exact throws_pure _
            | none => exact ih _ _

lemma throws_removeGcNamespace (entry : GcEntry) :
    Throws NoBudget (removeGcNamespace env entry) := by
  rw [removeGcNamespace]
  refine (throws_require env _ fun re => noBudget_io _).bind fun _ => ?_
  refine (throws_require env _ fun re => noBudget_io _).bind fun _ => ?_
  refine throws_get.bind fun world => ?_
  refine (throws_unlinkFiles env _ _ _ _).bind fun un => ?_
  refine (throws_andThen env _ _).bind fun sy => ?_
  refine (throws_andThen env _ _).bind fun rm => ?_
  refine (throws_andThen env _ _).bind fun e => ?_
  exact (throws_modify _).bind fun _ => throws_orThrow _ fun re => noBudget_io _

lemma throws_collect (pid : Nat) (policy : GcPolicy) (scan : Scan) :
    Throws NoBudget (collect env pid policy scan) := by
  have hf : ∀ ts, Throws NoBudget (finishTombstones env ts) := by
    intro ts
    induction ts with
    | nil => exact throws_pure _
    | cons entry ts ih =>
      rw [finishTombstones]
      exact (throws_removeGcNamespace env entry).bind fun _ => ih
  have hr : ∀ entry, Throws NoBudget (retire env pid policy entry) := by
    intro entry
    rw [retire]
    refine throws_get.bind fun world => (throws_modify _).bind fun _ => ?_
    refine (throws_require env _ fun re => ?_).bind fun _ => ?_
    · rintro _ ⟨⟩ -
      rfl
    refine (throws_require env _ fun re => noBudget_io _).bind fun _ => ?_
    refine (throws_require env _ fun re => noBudget_io _).bind fun _ => ?_
    exact (throws_modify _).bind fun _ => throws_removeGcNamespace env _
  have hs : ∀ sessions, Throws NoBudget (retireSelected env pid policy sessions) := by
    intro sessions
    induction sessions with
    | nil => exact throws_pure _
    | cons entry sessions ih =>
      rw [retireSelected]
      split
      · exact (hr entry).bind fun _ => ih
      · exact ih
  rw [collect]
  refine Throws.bind (fun world => ?_) fun _ => (throws_modify _).bind fun _ => hs _
  rw [run_tryCatch]
  have hen := hf scan.tombstones world
  revert hen
  generalize (finishTombstones env scan.tombstones).run.run world = finished
  intro hen
  obtain ⟨st | d, after⟩ := finished
  · exact hen
  · trivial

end

inductive PruneCase (tree : Option Root) (call : GcCall) : Option Root → Pruned → Prop where
  | missing (hmissing : tree = none) :
      PruneCase tree call tree { result := {}, outcome := .ok (), error := [] }
  | refused (result : GcResult) (failure : Failure) (hremoved : result.removedSessions = 0)
      (hfiles : result.removedFiles = 0) :
      PruneCase tree call tree (failedGc result failure)
  | collected (root : Root) (scan : Scan) (after : World) (pruned : Pruned)
      (hroot : tree = some root) (hnow : call.policy.nowUnixSeconds ≠ 0)
      (hsees : Sees call.policy root.entries.entries scan)
      (hrun : (collect call.env call.pid call.policy scan).run.run
        { root := root, sequence := call.sequence, calls := 0, result := scan.result } =
          (pruned.outcome, after))
      (hresult : pruned.result = after.result) :
      PruneCase tree call (some after.root) pruned

section
variable (policy : GcPolicy) (protectedNamespaces : List Bytes)

lemma scanEntry_removed (name : Bytes) (node : Node) (scan : Scan) :
    (scanEntry policy protectedNamespaces name node scan).1.result.removedSessions =
    scan.result.removedSessions ∧
    (scanEntry policy protectedNamespaces name node scan).1.result.removedFiles =
    scan.result.removedFiles := by
  unfold scanEntry
  dsimp only
  split
  · exact ⟨rfl, rfl⟩
  · generalize hfrom : (if parseGcTombstone name = none then _ else scan : Scan) = counted
    have hco : counted.result.removedSessions = scan.result.removedSessions ∧
        counted.result.removedFiles = scan.result.removedFiles := by
      rw [← hfrom]
      split <;> exact ⟨rfl, rfl⟩
    generalize scanGcNamespace name _ _ counted.totalArtifacts node = scanned
    obtain ⟨total, failure | entry⟩ := scanned
    · dsimp only [takeScanned]
      split <;> exact hco
    · dsimp only [takeScanned]
      split
      · exact hco
      · split <;> exact hco

lemma scanRoot_removed (l : List (Σ _ : Bytes, Node)) (scan : Scan) :
    (scanRoot policy protectedNamespaces l scan).1.result.removedSessions =
    scan.result.removedSessions ∧
    (scanRoot policy protectedNamespaces l scan).1.result.removedFiles =
    scan.result.removedFiles := by
  induction l generalizing scan with
  | nil => exact ⟨rfl, rfl⟩
  | cons i l ih =>
    have hen := scanEntry_removed policy protectedNamespaces i.1 i.2 scan
    unfold scanRoot
    generalize scanEntry policy protectedNamespaces i.1 i.2 scan = next at hen ⊢
    obtain ⟨next, _ | f⟩ := next
    · obtain ⟨hs, hf⟩ := ih next
      exact ⟨hs.trans hen.1, hf.trans hen.2⟩
    · exact hen

end

lemma pruneStaleSessions_cases (tree : Option Root) (call : GcCall) :
    PruneCase tree call (pruneStaleSessions tree call).1 (pruneStaleSessions tree call).2 := by
  unfold pruneStaleSessions
  split
  · exact .refused {} invalidGcArguments rfl rfl
  · rename_i hv
    have hn : call.policy.nowUnixSeconds ≠ 0 := fun h => hv (.inr (.inl h))
    cases tree with
    | none => exact .missing rfl
    | some ro =>
      dsimp only
      cases openRoot ro with
      | some f => exact .refused {} f rfl rfl
      | none =>
        dsimp only
        have hse := @scanSessions_sees call.policy ro
        have hre : (scanSessions call.policy ro).1.result.removedSessions = 0 ∧
            (scanSessions call.policy ro).1.result.removedFiles = 0 := by
          have h := scanRoot_removed call.policy
            (call.policy.protectedNamespaceIds.filter isLowerHex32) ro.entries.entries {}
          unfold scanSessions
          dsimp only
          generalize scanRoot call.policy _ ro.entries.entries {} = scanned at h ⊢
          obtain ⟨scan, _ | f⟩ := scanned <;> exact h
        generalize scanSessions call.policy ro = scanned at hse hre ⊢
        obtain ⟨scan, _ | f⟩ := scanned
        · dsimp only
          generalize hr : (collect call.env call.pid call.policy scan).run.run _ = ended
          obtain ⟨(_ | f) | d, after⟩ := ended
          · exact .collected ro scan after _ rfl hn (hse rfl) hr rfl
          · exact .collected ro scan after _ rfl hn (hse rfl) hr rfl
          · exact .collected ro scan after _ rfl hn (hse rfl) hr rfl
        · exact .refused scan.result f hre.1 hre.2

/-- The process has a number and has not given out all numbers for its temporary names. -/
def GcCall.Numbered (tree : Option Root) (call : GcCall) : Prop :=
  Numbers call.pid call.sequence (liveNames (entriesOf tree)).length

def removedSessions (calls : List Pruned) : Nat := (calls.map (·.result.removedSessions)).sum

/-- However a call ends, it has made steps of the deletion, and it has counted no session that is
still there. -/
lemma prune_accounts (tree : Option Root) (call : GcCall) : (call.Numbered tree →
    Collects (entriesOf tree) (entriesOf (pruneStaleSessions tree call).1)) ∧
    (pruneStaleSessions tree call).2.result.removedSessions +
    (liveNames (entriesOf (pruneStaleSessions tree call).1)).length ≤
    (liveNames (entriesOf tree)).length := by
  have hcs := pruneStaleSessions_cases tree call
  generalize (pruneStaleSessions tree call).1 = tree' at hcs ⊢
  generalize (pruneStaleSessions tree call).2 = p at hcs ⊢
  cases hcs with
  | missing hm => exact ⟨fun _ => .refl, (zero_add _).le⟩
  | refused result f hre hf =>
    refine ⟨fun _ => .refl, ?_⟩
    rw [failedGc, hre, zero_add]
  | collected root scan after p hrt hn hs hr hrs =>
    subst hrt
    have hen := collect_ends (call.Numbered (some root)) call.env call.pid
      { root := root, sequence := call.sequence, calls := 0, result := scan.result } hn hs
      rfl id
    rw [hr] at hen
    have ha : Accounts (call.Numbered (some root))
        { root := root, sequence := call.sequence, calls := 0, result := scan.result } after :=
      Ends.state (P := fun after => Accounts (call.Numbered (some root)) _ after) hen
        (fun _ _ h => h.2.1) fun _ _ h => h
    have hco := ha.counted
    rw [hs.removed, zero_add] at hco
    rw [hrs]
    exact ⟨ha.collects, hco⟩

variable {tree : Option Root} {call : GcCall}

lemma prune_ok (ho : (pruneStaleSessions tree call).2.outcome = .ok ()) :
    (tree = none ∧ pruneStaleSessions tree call =
    (none, { result := {}, outcome := .ok (), error := [] })) ∨
      ∃ root scan, tree = some root ∧ Sees call.policy root.entries.entries scan ∧
        (∀ name, (entriesOf (pruneStaleSessions tree call).1).lookup name =
          if name ∈ scan.tombstoneNames ++ selectedIds call.policy scan.sessions then none
          else root.entries.lookup name) ∧
        (pruneStaleSessions tree call).2.result.scannedSessions = scan.result.scannedSessions ∧
        (pruneStaleSessions tree call).2.result.removedSessions =
          (selectedIds call.policy scan.sessions).length ∧
        (pruneStaleSessions tree call).2.result.retainedSessions =
          scan.result.scannedSessions - (selectedIds call.policy scan.sessions).length := by
  have hcs := pruneStaleSessions_cases tree call
  generalize hp : pruneStaleSessions tree call = p at hcs ho ⊢
  obtain ⟨tr', p⟩ := p
  dsimp only at hcs ho ⊢
  cases hcs with
  | missing hm =>
    subst hm
    exact .inl ⟨rfl, rfl⟩
  | refused result f hrm hf => cases ho
  | collected root scan after _ hrt hn hs hr hre =>
    have hen := collect_ends False call.env call.pid
      { root := root, sequence := call.sequence, calls := 0, result := scan.result } hn hs
      rfl nofun
    rw [hr, ho] at hen
    obtain ⟨hfr, -, hrm, hret⟩ := hen
    refine .inr ⟨root, scan, hrt, hs, hfr.lookup_eq, ?_, ?_, ?_⟩
    · rw [hre]
      exact hfr.scanned
    · rw [hre]
      exact hrm
    · rw [hre]
      exact hret

lemma Kept.mem_tombstoneNames {ro : Root} (h : Kept before ro.entries)
    (hse : Sees policy ro.entries.entries scan) (hnd : ro.entries.lookup name = some node)
    (hn : before.lookup name ≠ some node) :
    name ∈ scan.tombstoneNames := by
  obtain hs | ⟨id, wh, hp, hsa, ⟨fs, hf, rfl⟩, -⟩ := h.tombstones name node hnd
  · exact absurd hs hn
  · rw [Scan.tombstoneNames, hse.tombstoneNames, mem_filter_names]
    refine ⟨_, hnd, ?_⟩
    rw [isTombstone, hp]
    exact wh.safe_sublist hsa hf

def ScanBudget (pruned : Pruned) : Prop :=
  ∃ failure, pruned.outcome = .error (.failed failure) ∧ failure.status = .budget ∧
    failure ≠ allocationFailure

lemma prune_scanBudget (h : ScanBudget (pruneStaleSessions tree call).2) :
    (pruneStaleSessions tree call).1 = tree := by
  have hcs := pruneStaleSessions_cases tree call
  generalize (pruneStaleSessions tree call).1 = tree' at hcs ⊢
  generalize (pruneStaleSessions tree call).2 = pruned at hcs h
  cases hcs with
  | missing hm => rfl
  | refused result f hre hf => rfl
  | collected root scan after _ hrt hn hse hr hrs =>
    obtain ⟨f, hou, hs, ho⟩ := h
    have hthr := throws_collect call.env call.pid call.policy scan
      { root := root, sequence := call.sequence, calls := 0, result := scan.result }
    rw [hr, hou] at hthr
    exact absurd (hthr f rfl hs) ho

/-- Over every run of calls that crash or fail anywhere: live namespaces are as they were or gone,
the rest is tombstones of those that are gone, and no session is counted twice. A later successful
call removes these tombstones, and a call over a scan budget changes nothing. -/
theorem lifecycle_crash_safe (tree : Option Root) (calls : List GcCall)
    (hnumbered : Meets pruneStaleSessions (fun tree call => call.Numbered tree) tree calls) :
    Kept (entriesOf tree) (entriesOf (run pruneStaleSessions tree calls)) ∧
      removedSessions (outputs pruneStaleSessions tree calls) +
          (liveNames (entriesOf (run pruneStaleSessions tree calls))).length ≤
        (liveNames (entriesOf tree)).length ∧ ∀ call,
        ((pruneStaleSessions (run pruneStaleSessions tree calls) call).2.outcome = .ok () →
          (∀ name node, (entriesOf (run pruneStaleSessions tree calls)).lookup name = some node →
            (entriesOf tree).lookup name ≠ some node →
            (entriesOf (pruneStaleSessions (run pruneStaleSessions tree calls)
              call).1).lookup name = none) ∧ (pruneStaleSessions (run pruneStaleSessions tree calls)
              call).2.result.scannedSessions =
            (liveNames (entriesOf (run pruneStaleSessions tree calls))).length) ∧
        (ScanBudget (pruneStaleSessions (run pruneStaleSessions tree calls) call).2 →
          (pruneStaleSessions (run pruneStaleSessions tree calls) call).1 =
            run pruneStaleSessions tree calls) := by
  have hr : Kept (entriesOf tree) (entriesOf (run pruneStaleSessions tree calls)) ∧
      removedSessions (outputs pruneStaleSessions tree calls) +
          (liveNames (entriesOf (run pruneStaleSessions tree calls))).length ≤
        (liveNames (entriesOf tree)).length := by
    refine run_trace_of_meets (P := fun re os =>
      Kept (entriesOf tree) (entriesOf re) ∧ removedSessions os +
        (liveNames (entriesOf re)).length ≤ (liveNames (entriesOf tree)).length)
      (fun re os call h hc => ?_) ⟨.refl _, (zero_add _).le⟩ hnumbered
    obtain ⟨hcl, hco⟩ := prune_accounts re call
    refine ⟨h.1.collects (hcl hc), ?_⟩
    rw [removedSessions, map_append, sum_append, map_singleton, sum_singleton]
    have hp := h.2
    rw [removedSessions] at hp
    omega
  refine ⟨hr.1, hr.2, fun call => ⟨fun ho => ?_, prune_scanBudget⟩⟩
  generalize run pruneStaleSessions tree calls = re at hr ho ⊢
  obtain ⟨hm, hpr⟩ | ⟨ro, scan, hrt, hs, hlookup, hsc, -⟩ := prune_ok ho
  · subst hm
    rw [hpr]
    exact ⟨fun name node hn => absurd hn nofun, rfl⟩
  · subst hrt
    constructor
    · intro name node hn hne
      rw [hlookup, if_pos]
      exact mem_append_left _ (hr.1.mem_tombstoneNames hs hn hne)
    · rw [hsc, hs.scanned]
      change _ = (liveNames ro.entries).length
      rw [liveNames_eq, length_map]

def Validated (entries : Entries) (id : Bytes) (found : Directory) : Prop :=
  isLowerHex32 id = true ∧ entries.lookup id = some (.directory found) ∧ found.safe = true

def sessionRank (id : Bytes) (found : Directory) : Nat ×ₗ List Nat :=
  toLex (found.lastUsed.toNat, id.map UInt8.toNat)

def Aged (policy : GcPolicy) (found : Directory) : Prop :=
  policy.ttlSeconds ≠ 0 ∧ found.lastUsed ≤ policy.nowUnixSeconds ∧
    policy.ttlSeconds ≤ policy.nowUnixSeconds - found.lastUsed

structure SelectionLaw (policy : GcPolicy) (before after : Entries) : Prop where
  nothingNew : ∀ name node, after.lookup name = some node → before.lookup name = some node
  untouched : ∀ name node, before.lookup name = some node →
    node.safe = false ∨ isLowerHex32 name = true ∧ name ∈ policy.protectedNamespaceIds →
    after.lookup name = some node
  aged : ∀ id found, Validated before id found → id ∉ policy.protectedNamespaceIds →
    Aged policy found → after.lookup id = none
  order : ∀ id found, Validated before id found → ¬ Aged policy found →
    after.lookup id = none → ∀ earlier found', Validated before earlier found' →
      earlier ∉ policy.protectedNamespaceIds →
      sessionRank earlier found' < sessionRank id found → after.lookup earlier = none
  needed : ∀ id found, Validated before id found → ¬ Aged policy found → after.lookup id = none →
    policy.maxSessions ≠ 0 ∧ policy.maxSessions.toNat ≤ (validatedIds after).length
  capacity : policy.maxSessions ≠ 0 → (validatedIds after).length ≤ policy.maxSessions.toNat ∨
      ∀ id ∈ validatedIds after, id ∈ policy.protectedNamespaceIds

section
variable {policy : GcPolicy} {entries : Entries} {scan : Scan}

lemma Sees.validated (h : Sees policy entries.entries scan) {entry : GcEntry}
    (he : entry ∈ scan.sessions) : ∃ f, Validated entries entry.namespaceId f ∧
    entry.rank = sessionRank entry.namespaceId f ∧ (stale policy entry ↔
    entry.namespaceId ∉ policy.protectedNamespaceIds ∧ Aged policy f) ∧
    (entry.protectedNamespace ↔ entry.namespaceId ∈ policy.protectedNamespaceIds) := by
  obtain ⟨hv, hp, f, hl, hs, hd⟩ := h.sessions entry he
  refine ⟨f, ⟨hv, AList.mem_lookup_iff.2 hl, hs⟩, ?_, ?_, ?_⟩
  · rw [GcEntry.rank, sessionRank, hd.lastUsed_eq]
  · rw [stale, expired, Aged, hp, hd.lastUsed_eq]
    simp only [and_eq_true, decide_eq_true_eq, not_eq_true', or_eq_false_iff,
      decide_eq_false_iff_not, UInt64.not_lt]
    constructor
    · rintro ⟨ht, ⟨hf, hu⟩, ha⟩
      exact ⟨hf, ht, hu, ha⟩
    · rintro ⟨hf, ht, hu, ha⟩
      exact ⟨ht, ⟨hf, hu⟩, ha⟩
  · rw [hp, decide_eq_true_eq]

variable {id : Bytes}

section
variable (h : Sees policy entries.entries scan)
include h

lemma Sees.exists_session {f : Directory} (hv : Validated entries id f) :
    ∃ entry ∈ scan.sessions, entry.namespaceId = id ∧ entry.rank = sessionRank id f ∧
    (stale policy entry ↔ id ∉ policy.protectedNamespaceIds ∧ Aged policy f) ∧
    (entry.protectedNamespace ↔ id ∈ policy.protectedNamespaceIds) := by
  have hm : id ∈ validatedIds entries := mem_validatedIds.2 ⟨hv.1, f, hv.2⟩
  rw [validatedIds, ← h.sessionIds] at hm
  obtain ⟨entry, he, rfl⟩ := mem_map.1 hm
  obtain ⟨_, hv', hfacts⟩ := h.validated he
  cases hv.2.1.symm.trans hv'.2.1
  exact ⟨entry, he, rfl, hfacts⟩

lemma Sees.nodup : (scan.sessions.map (·.namespaceId)).Nodup := by
  rw [h.sessionIds]
  exact nodup_filter_names _ _

lemma Sees.unmarked : ∀ entry ∈ scan.sessions, entry.remove = false := fun entry he => by
  obtain ⟨-, -, f, -, -, hd⟩ := h.sessions entry he
  exact hd.unmarked

lemma Sees.mem_selectedIds (hi : id ∈ selectedIds policy scan.sessions) :
    id ∈ validatedIds entries ∧ id ∉ policy.protectedNamespaceIds := by
  obtain ⟨entry, he, rfl, hf⟩ := (selects_selectedIds policy h.nodup h.unmarked).unprotected id hi
  obtain ⟨f, hv, -, -, hp⟩ := h.validated he
  refine ⟨mem_validatedIds.2 ⟨hv.1, f, hv.2⟩, fun hm => ?_⟩
  rw [hp.2 hm] at hf
  cases hf

end

variable {after : Entries}

lemma Sees.lookup_live (h : Sees policy entries.entries scan) (hlookup : ∀ name, after.lookup name =
    if name ∈ scan.tombstoneNames ++ selectedIds policy scan.sessions then none
    else entries.lookup name) {name : Bytes} (hv : isLowerHex32 name) :
    after.lookup name =
    if name ∈ selectedIds policy scan.sessions then none else entries.lookup name := by
  have hn : name ∉ scan.tombstoneNames := by
    rw [Scan.tombstoneNames, h.tombstoneNames, mem_filter_names]
    rintro ⟨node, -, ht⟩
    rw [isTombstone, and_eq_true] at ht
    obtain ⟨id, hp⟩ := Option.isSome_iff_exists.1 ht.1
    exact ne_of_tombstone hp hv rfl
  rw [hlookup]
  simp [hn]

section
variable (h : Sees policy entries.entries scan) (hlookup : ∀ name, after.lookup name =
    if name ∈ scan.tombstoneNames ++ selectedIds policy scan.sessions then none
    else entries.lookup name)
include h hlookup

lemma Sees.validatedIds_perm : (validatedIds entries).Perm
    (selectedIds policy scan.sessions ++ validatedIds after) := by
  have ha : ∀ id, id ∈ validatedIds after ↔
      id ∈ validatedIds entries ∧ id ∉ selectedIds policy scan.sessions := by
    intro id
    rw [mem_validatedIds, mem_validatedIds]
    constructor
    · rintro ⟨hv, f, hf, hsa⟩
      rw [h.lookup_live hlookup hv] at hf
      split at hf
      · cases hf
      · rename_i hk
        exact ⟨⟨hv, f, hf, hsa⟩, hk⟩
    · rintro ⟨⟨hv, f, hf, hsa⟩, hk⟩
      refine ⟨hv, f, ?_, hsa⟩
      rw [h.lookup_live hlookup hv, if_neg hk, hf]
  have hn : (selectedIds policy scan.sessions ++ validatedIds after).Nodup := by
    refine (selectedIds_nodup h.nodup).append (nodup_filter_names _ _) fun id hi hk => ?_
    exact ((ha id).1 hk).2 hi
  refine (perm_ext_iff_of_nodup (nodup_filter_names _ _) hn).2 fun id => ?_
  rw [mem_append, ha]
  constructor
  · intro hi
    by_cases hs : id ∈ selectedIds policy scan.sessions
    · exact .inl hs
    · exact .inr ⟨hi, hs⟩
  · rintro (hs | hk)
    · exact (h.mem_selectedIds hs).1
    · exact hk.1

lemma Sees.selectionLaw : SelectionLaw policy entries after := by
  have hlaw := selects_selectedIds policy h.nodup h.unmarked
  have hl := (h.validatedIds_perm hlookup).length_eq
  rw [length_append, ← h.length_sessions] at hl
  -- a validated namespace is gone exactly if it was selected
  have hg : ∀ {id f}, Validated entries id f →
      (after.lookup id = none ↔ id ∈ selectedIds policy scan.sessions) := by
    intro id f hvl
    rw [h.lookup_live hlookup hvl.1]
    split
    · simp [*]
    · simp [*, hvl.2.1]
  refine ⟨?_, ?_, ?_, ?_, ?_, ?_⟩
  · intro name node hn
    rw [hlookup] at hn
    split at hn
    · cases hn
    · exact hn
  · intro name node hn hk
    rw [hlookup, if_neg, hn]
    intro hm
    obtain hm | hm := mem_append.1 hm
    · rw [Scan.tombstoneNames, h.tombstoneNames, mem_filter_names] at hm
      obtain ⟨n', hn', ht⟩ := hm
      rw [hn] at hn'
      cases hn'
      rw [isTombstone, and_eq_true] at ht
      obtain huns | ⟨hlv, -⟩ := hk
      · rw [ht.2] at huns
        cases huns
      · obtain ⟨id, hpa⟩ := Option.isSome_iff_exists.1 ht.1
        exact ne_of_tombstone hpa hlv rfl
    · obtain ⟨hvl, hf⟩ := h.mem_selectedIds hm
      obtain ⟨-, f, hfo, hsa⟩ := mem_validatedIds.1 hvl
      rw [hn] at hfo
      cases hfo
      obtain huns | ⟨-, hp⟩ := hk
      · rw [Node.safe, hsa] at huns
        cases huns
      · exact hf hp
  · intro id f hvl hf hag
    obtain ⟨entry, hen, rfl, -, hs, -⟩ := h.exists_session hvl
    exact (hg hvl).2 (hlaw.stale entry hen (hs.2 ⟨hf, hag⟩))
  · intro id f hvl hfr hno e found' hvl' hf hr
    obtain ⟨entry, hen, rfl, he, hs, -⟩ := h.exists_session hvl
    obtain ⟨o, hot, rfl, ho, -, hp⟩ := h.exists_session hvl'
    refine (hg hvl').2 (hlaw.order entry hen o hot ?_ ((hg hvl).1 hno) ?_ ?_)
    · exact eq_false_iff.2 fun hol => hfr (hs.1 hol).2
    · exact eq_false_iff.2 fun hk => hf (hp.1 hk)
    · rw [he, ho]
      exact hr
  · intro id f hvl hfr hno
    obtain ⟨entry, hen, rfl, -, hs, -⟩ := h.exists_session hvl
    have hol : stale policy entry = false := eq_false_iff.2 fun hol => hfr (hs.1 hol).2
    obtain ⟨hma, hle⟩ := hlaw.needed entry hen hol ((hg hvl).1 hno)
    exact ⟨hma, by omega⟩
  · intro hma
    refine (hlaw.capacity hma).imp (fun hle => by omega) fun ha id hi => ?_
    obtain ⟨hlv, f, hfo, hsa⟩ := mem_validatedIds.1 hi
    rw [h.lookup_live hlookup hlv] at hfo
    split at hfo
    · cases hfo
    · rename_i hk
      obtain ⟨entry, hen, rfl, -, -, hp⟩ := h.exists_session ⟨hlv, hfo, hsa⟩
      exact hp.1 (ha entry hen hk)

end

end

lemma retireSelected_unmarked (env : Nat → Answer) (pid : Nat) (policy : GcPolicy)
    {sessions : List GcEntry} (h : sessions.filter GcEntry.remove = []) :
    retireSelected env pid policy sessions = pure () := by
  induction sessions with
  | nil => rfl
  | cons entry sessions ih =>
    have he : ¬ entry.remove := fun hr => by
      rw [filter_cons_of_pos hr] at h
      cases h
    rw [filter_cons_of_neg he] at h
    rw [retireSelected, if_neg he]
    exact ih h

lemma validatedIds_perm {es' : Entries} (h : entries.entries.Perm es'.entries) :
    (validatedIds entries).Perm (validatedIds es') :=
  (h.filter _).map _

lemma prune_idle {after : Entries} (hl : SelectionLaw call.policy before after)
    (hto : ∀ name node, after.lookup name = some node → isTombstone ⟨name, node⟩ = false)
    (hpe : (entriesOf tree).entries.Perm after.entries) :
    (pruneStaleSessions tree call).1 = tree ∧
    (pruneStaleSessions tree call).2.result.removedSessions = 0 ∧
    (pruneStaleSessions tree call).2.result.removedFiles = 0 := by
  have hcs := pruneStaleSessions_cases tree call
  generalize (pruneStaleSessions tree call).1 = tree' at hcs ⊢
  generalize (pruneStaleSessions tree call).2 = pruned at hcs ⊢
  cases hcs with
  | missing hmi => exact ⟨rfl, rfl, rfl⟩
  | refused re fa hre hf => exact ⟨rfl, hre, hf⟩
  | collected ro scan world _ hrt hnw hse hr hrs =>
    subst hrt
    change ro.entries.entries.Perm after.entries at hpe
    have hlookup : ∀ name, ro.entries.lookup name = after.lookup name :=
      fun name => AList.perm_lookup hpe
    have hn : scan.tombstones = [] := by
      refine map_eq_nil_iff.1 (?_ : scan.tombstones.map (·.directoryName) = [])
      refine eq_nil_iff_forall_not_mem.2 fun name hm => ?_
      rw [hse.tombstoneNames, mem_filter_names] at hm
      obtain ⟨node, hnd, ht⟩ := hm
      rw [hto name node ((hlookup name).symm.trans hnd)] at ht
      cases ht
    have hs : selectedIds call.policy scan.sessions = [] := by
      refine selectedIds_eq_nil hse.unmarked (fun entry he => ?_) fun hma => ?_
      · obtain ⟨f, ⟨hv, hfo, hsa⟩, -, hst, -⟩ := hse.validated he
        refine eq_false_iff.2 fun ho => ?_
        obtain ⟨hfr, hag⟩ := hst.1 ho
        rw [hlookup] at hfo
        have hp := hl.nothingNew _ _ hfo
        rw [hl.aged _ f ⟨hv, hp, hsa⟩ hfr hag] at hfo
        cases hfo
      · refine (hl.capacity hma).imp (fun hle => ?_) fun ha entry he => ?_
        · rw [hse.length_sessions, (validatedIds_perm hpe).length_eq]
          exact hle
        · obtain ⟨f, hvl, -, -, hpr⟩ := hse.validated he
          refine hpr.2 (ha _ ?_)
          refine (validatedIds_perm hpe).mem_iff.1 ?_
          exact mem_validatedIds.2 ⟨hvl.1, f, hvl.2⟩
    have hno := map_eq_nil_iff.1 hs
    rw [collect, hn, finishTombstones, retireSelected_unmarked _ _ _ hno] at hr
    have hw : world = ⟨ro, call.sequence, 0,
        { scan.result with retainedSessions := scan.result.scannedSessions }⟩ :=
      (congrArg Prod.snd hr).symm
    rw [hrs, hw]
    exact ⟨rfl, hse.removed, hse.removedFiles⟩

/-- The law of a successful call: what it removes and what it counts, and that the same policy then
has nothing left to remove. -/
theorem lifecycle_selection_law (tree : Option Root) (call : GcCall)
    (hok : (pruneStaleSessions tree call).2.outcome = .ok ()) :
    SelectionLaw call.policy (entriesOf tree) (entriesOf (pruneStaleSessions tree call).1) ∧
      (pruneStaleSessions tree call).2.result.retainedSessions +
          (pruneStaleSessions tree call).2.result.removedSessions =
        (pruneStaleSessions tree call).2.result.scannedSessions ∧
      ∀ (tree' : Option Root) (call' : GcCall), call'.policy = call.policy →
        (entriesOf tree').entries.Perm (entriesOf (pruneStaleSessions tree call).1).entries →
        (pruneStaleSessions tree' call').1 = tree' ∧
          (pruneStaleSessions tree' call').2.result.removedSessions = 0 ∧
          (pruneStaleSessions tree' call').2.result.removedFiles = 0 := by
  obtain ⟨hmi, hpr⟩ | ⟨ro, scan, hr, hs, hlookup, hsc, hre, hret⟩ :=
    prune_ok hok
  · subst hmi
    rw [hpr]
    have hlaw : SelectionLaw call.policy (entriesOf none) (entriesOf none) :=
      ⟨fun _ _ h => h, fun _ _ h _ => h, fun _ _ _ _ _ => rfl, fun _ _ _ _ _ _ _ _ _ _ => rfl,
        fun _ _ h => absurd h.2.1 nofun, fun _ => .inl (Nat.zero_le _)⟩
    refine ⟨hlaw, rfl, fun tree' call' hp hperm => ?_⟩
    refine prune_idle (hp ▸ hlaw) (fun name node hn => ?_) hperm
    exact absurd hn nofun
  · subst hr
    have hlaw := hs.selectionLaw hlookup
    refine ⟨hlaw, ?_, fun tree' call' hp hperm => ?_⟩
    · have hperm := (hs.validatedIds_perm hlookup).length_eq
      rw [length_append] at hperm
      have hle := length_validatedIds_le ro.entries
      rw [liveNames_eq, length_map, ← hs.scanned] at hle
      omega
    · refine prune_idle (hp ▸ hlaw) (fun name node hn => ?_) hperm
      by_contra htombstone
      have hm : name ∈ scan.tombstoneNames := by
        rw [Scan.tombstoneNames, hs.tombstoneNames, mem_filter_names]
        exact ⟨node, hlaw.nothingNew name node hn, (Bool.not_eq_false _).mp htombstone⟩
      rw [hlookup, if_pos (mem_append_left _ hm)] at hn
      cases hn

def gcStore : Store := ⟨ascii "s", 16, 0, 0, 1, .inl rfl⟩

def smallNamespace (mtime : Int) : Node := .directory
    { privateOwned := true, mtime := mtime, blocks := 8, openFailure := none
      files := [⟨ascii "0123456789abcdef0123456789abcdef.manifest", .ok ⟨true, 1, mtime, 8⟩⟩]
      readFailure := none }

/-- Two namespaces, last used at 100 and at 950, and an entry that is none. -/
def smallRoot : Root :=
  { privateOwned := true, failure := none, readFailure := none
    entries := ((AList.singleton (ascii "00000000000000000000000000000001")
      (smallNamespace 100)).insert (ascii "00000000000000000000000000000002")
        (smallNamespace 950)).insert (ascii "operator-note") .other }

def gcCall (env : Nat → Answer) : GcCall :=
  { store := gcStore, pid := 7, policy := { nowUnixSeconds := 1000, ttlSeconds := 600 }
    env := env, sequence := 0 }

theorem lifecycle_selection_law_small :
    (entriesOf (pruneStaleSessions (some smallRoot) (gcCall fun _ => .done)).1).lookup
        (ascii "00000000000000000000000000000001") = none ∧
      (pruneStaleSessions (some smallRoot) (gcCall fun _ => .done)).2.result.removedSessions =
        1 := by
  have ho : (pruneStaleSessions (some smallRoot) (gcCall fun _ => .done)).2.outcome =
      .ok () := by decide +kernel
  refine ⟨?_, by decide +kernel⟩
  refine (lifecycle_selection_law (some smallRoot) (gcCall fun _ => .done) ho).1.aged _
    ⟨true, 100, 8, none, [⟨ascii "0123456789abcdef0123456789abcdef.manifest",
      .ok ⟨true, 1, 100, 8⟩⟩], none⟩ ⟨by decide +kernel, rfl, by decide +kernel⟩ nofun ?_
  exact ⟨by decide, by decide +kernel, by decide +kernel⟩

/-- The process ends after the files of the tombstone are gone and before the tombstone is. -/
def crashingEnv (call : Nat) : Answer := if call = 7 then .crashed else .done

theorem lifecycle_crash_safe_small :
    Kept smallRoot.entries (entriesOf (run pruneStaleSessions (some smallRoot)
        [gcCall crashingEnv])) ∧ ((entriesOf (run pruneStaleSessions (some smallRoot)
        [gcCall crashingEnv])).lookup
          (ascii ".gc.00000000000000000000000000000001.7.1000.1")).isSome ∧
      (entriesOf (run pruneStaleSessions (some smallRoot)
        [gcCall crashingEnv, gcCall fun _ => .done])).lookup
          (ascii ".gc.00000000000000000000000000000001.7.1000.1") = none := by
  have hnu : Meets pruneStaleSessions (fun tree call => call.Numbered tree)
      (some smallRoot) [gcCall crashingEnv] :=
    ⟨⟨by decide, by decide, by decide +kernel⟩, trivial⟩
  have hsa := lifecycle_crash_safe (some smallRoot) [gcCall crashingEnv] hnu
  have ht : ((entriesOf (run pruneStaleSessions (some smallRoot)
      [gcCall crashingEnv])).lookup
        (ascii ".gc.00000000000000000000000000000001.7.1000.1")).isSome := by
    decide +kernel
  refine ⟨hsa.1, ht, ?_⟩
  obtain ⟨node, hnd⟩ := Option.isSome_iff_exists.1 ht
  have hn : (entriesOf (some smallRoot)).lookup
      (ascii ".gc.00000000000000000000000000000001.7.1000.1") = none :=
    Option.isNone_iff_eq_none.1 (by decide +kernel)
  refine ((hsa.2.2 (gcCall fun _ => .done)).1 (by decide +kernel)).1 _ node hnd ?_
  rw [hn]
  nofun

end AxiomKernel.Qwen38.SessionStore
