import AxiomKernel.Qwen38.SessionStore.GcScan

/-!
The deletion of namespaces, and that it may stop anywhere. A namespace is moved whole under the name
of a tombstone, then the tombstone loses its files, then it goes. These are the steps of `Collect`;
every call of `prune_stale_sessions`, however it ends, makes a number of them.
-/
namespace AxiomKernel.Qwen38.SessionStore

open AList Image Text Hoare List

inductive Collect : Entries → Entries → Prop where
  | move {entries : Entries} {id name : Bytes} {directory : Directory}
      (hlive : isLowerHex32 id = true) (hname : parseGcTombstone name = some id)
      (hfound : entries.lookup id = some (.directory directory)) (hsafe : directory.safe = true)
      (hfree : entries.lookup name = none) :
      Collect entries ((entries.erase id).insert name (.directory directory))
  | unlink {entries : Entries} {id name : Bytes} {directory : Directory} {files : List Artifact}
      (hname : parseGcTombstone name = some id)
      (hfound : entries.lookup name = some (.directory directory)) (hsafe : directory.safe = true)
      (hfiles : files.Sublist directory.files) :
      Collect entries (entries.insert name (.directory { directory with files := files }))
  | remove {entries : Entries} {id name : Bytes} {directory : Directory}
      (hname : parseGcTombstone name = some id)
      (hfound : entries.lookup name = some (.directory directory)) (hsafe : directory.safe = true)
      (hempty : directory.files = []) :
      Collect entries (entries.erase name)

abbrev Collects := Relation.ReflTransGen Collect

variable {name id : Bytes}

lemma ne_of_tombstone {l : Bytes} (hn : parseGcTombstone name = some id)
    (hv : isLowerHex32 l) : l ≠ name := by
  rintro rfl
  rw [(parseGcTombstone_spec hn).2] at hv
  cases hv

variable {entries : Entries}

lemma lookup_move {n : Node} (other : Bytes) (ho : other ≠ name) :
    ((entries.erase id).insert name n).lookup other =
    if other = id then none else entries.lookup other := by
  rw [lookup_insert_ne ho]
  split
  · rename_i he
    rw [he]
    exact lookup_erase id entries
  · rename_i hn
    exact lookup_erase_ne hn

def liveNames (entries : Entries) : List Bytes := entries.keys.filter isLowerHex32

lemma mem_liveNames :
    name ∈ liveNames entries ↔ isLowerHex32 name ∧ (entries.lookup name).isSome := by
  rw [liveNames, mem_filter, AList.lookup_isSome, AList.mem_keys, and_comm]

lemma nodup_liveNames (entries : Entries) : (liveNames entries).Nodup := entries.keys_nodup.filter _

variable {entries' : Entries} {Q : Option Bytes → World → Prop} {a b c : World} {entry : GcEntry}
  {named : Prop}

lemma liveNames_perm
    (h : ∀ name, isLowerHex32 name →
      ((entries'.lookup name).isSome ↔ (entries.lookup name).isSome)) :
    (liveNames entries').Perm (liveNames entries) := by
  refine (perm_ext_iff_of_nodup (nodup_liveNames _) (nodup_liveNames _)).2 fun name => ?_
  rw [mem_liveNames, mem_liveNames]
  exact and_congr_right (h name)

lemma length_liveNames_erase (hv : isLowerHex32 id) (hf : (entries.lookup id).isSome)
    (h : ∀ name, isLowerHex32 name →
    entries'.lookup name = if name = id then none else entries.lookup name) :
    (liveNames entries').length + 1 = (liveNames entries).length := by
  have hm : id ∈ liveNames entries := mem_liveNames.2 ⟨hv, hf⟩
  have hp : (liveNames entries').Perm ((liveNames entries).erase id) := by
    refine (perm_ext_iff_of_nodup (nodup_liveNames _) ((nodup_liveNames _).erase id)).2
      fun name => ?_
    rw [(nodup_liveNames entries).mem_erase_iff, mem_liveNames, mem_liveNames]
    constructor
    · rintro ⟨hn, hs⟩
      rw [h name hn] at hs
      split at hs
      · cases hs
      · rename_i hne
        exact ⟨hne, hn, hs⟩
    · rintro ⟨hne, hn, hs⟩
      rw [h name hn, if_neg hne]
      exact ⟨hn, hs⟩
  rw [hp.length_eq, length_erase_of_mem hm]
  have := length_pos_of_mem hm
  omega

def Remnant (whole : Directory) (node : Node) : Prop :=
  ∃ files, files.Sublist whole.files ∧ node = .directory { whole with files := files }

/-- A live namespace is as it was or it is gone. What is not as it was is a tombstone: of a
namespace that is gone, with files that the namespace had, or one that was there before and has lost
files. -/
structure Kept (before after : Entries) : Prop where
  live : ∀ name, isLowerHex32 name = true →
    after.lookup name = before.lookup name ∨ after.lookup name = none
  tombstones : ∀ name node, after.lookup name = some node → before.lookup name = some node ∨
    ∃ id whole, parseGcTombstone name = some id ∧ whole.safe = true ∧ Remnant whole node ∧
      (before.lookup name = some (.directory whole) ∨
        before.lookup id = some (.directory whole) ∧ after.lookup id = none)

lemma Kept.refl (entries : Entries) : Kept entries entries :=
  ⟨fun _ _ => .inl rfl, fun _ _ h => .inl h⟩

variable {before entries after : Entries} {name : Bytes}

variable (h : Kept before entries)
include h

lemma Kept.at_tombstone (hn : parseGcTombstone name = some id)
    (ho : ∀ o, o ≠ name → after.lookup o = entries.lookup o)
    (ha : ∀ n, after.lookup name = some n → ∃ wh, wh.safe ∧
    Remnant wh n ∧ (before.lookup name = some (.directory wh) ∨
    ∃ id, parseGcTombstone name = some id ∧ before.lookup id = some (.directory wh) ∧
    entries.lookup id = none)) : Kept before after := by
  refine ⟨fun l hv => ?_, fun o n hnd => ?_⟩
  · rw [ho l (ne_of_tombstone hn hv)]
    exact h.live l hv
  · have hg : ∀ id', isLowerHex32 id' = true → entries.lookup id' = none →
        after.lookup id' = none := by
      intro id' hi' hno
      rw [ho id' (ne_of_tombstone hn hi')]
      exact hno
    by_cases he : o = name
    · subst he
      obtain ⟨wh, hsa, hr, hf⟩ := ha n hnd
      obtain hs | ⟨id', hi', hp, hno⟩ := hf
      · exact .inr ⟨id, wh, hn, hsa, hr, .inl hs⟩
      · exact .inr ⟨id', wh, hi', hsa, hr, .inr ⟨hp, hg id' (parseGcTombstone_spec hi').1 hno⟩⟩
    · rw [ho o he] at hnd
      obtain hs | ⟨id', wh, hi', hsa, hr, hf⟩ := h.tombstones o n hnd
      · exact .inl hs
      · refine .inr ⟨id', wh, hi', hsa, hr, hf.imp_right fun hf => ?_⟩
        exact ⟨hf.1, hg id' (parseGcTombstone_spec hi').1 hf.2⟩

lemma Kept.collect (hst : Collect entries after) : Kept before after := by
  cases hst with
  | @move id name d hv hn hfo hsa hfr =>
    refine ⟨fun l hv' => ?_, fun o n hnd => ?_⟩
    · rw [lookup_move l (ne_of_tombstone hn hv')]
      split
      · exact .inr rfl
      · exact h.live l hv'
    · by_cases he : o = name
      · subst he
        rw [lookup_insert] at hnd
        cases hnd
        -- the namespace was whole until it was moved
        have hp : before.lookup id = some (.directory d) := by
          obtain hs | hno := h.live id hv
          · exact hs.symm.trans hfo
          · rw [hfo] at hno
            cases hno
        refine .inr ⟨id, d, hn, hsa, ⟨_, .refl _, rfl⟩, .inr ⟨hp, ?_⟩⟩
        rw [lookup_move id (ne_of_tombstone hn hv), if_pos rfl]
      · rw [lookup_move o he] at hnd
        split at hnd
        · cases hnd
        · obtain hs | ⟨id', wh, hi', hs', hr, hf⟩ := h.tombstones o n hnd
          · exact .inl hs
          · refine .inr ⟨id', wh, hi', hs', hr, hf.imp_right fun hf => ?_⟩
            refine ⟨hf.1, ?_⟩
            rw [lookup_move id' (ne_of_tombstone hn (parseGcTombstone_spec hi').1)]
            split
            · rfl
            · exact hf.2
  | @unlink id name d fs hn hfo hsa hfi =>
    refine h.at_tombstone hn (fun o hne => lookup_insert_ne hne) fun n hnd => ?_
    rw [lookup_insert] at hnd
    cases hnd
    obtain hs | ⟨id', wh, hi', hs', ⟨fs', hf', he⟩, hf⟩ := h.tombstones name _ hfo
    · exact ⟨d, hsa, ⟨fs, hfi, rfl⟩, .inl hs⟩
    · cases he
      exact ⟨wh, hs', ⟨fs, hfi.trans hf', rfl⟩, hf.imp_right fun hf => ⟨id', hi', hf⟩⟩
  | @remove id name d hn hfo hsa hem =>
    refine h.at_tombstone hn (fun o hne => lookup_erase_ne hne) fun n hnd => ?_
    rw [lookup_erase] at hnd
    cases hnd

lemma Kept.collects (hst : Collects entries after) : Kept before after := by
  induction hst with
  | refl => exact h
  | tail _ hs ih => exact ih.collect hs

omit h

variable {env : Nat → Answer} {effect : Root → Except Bytes Root} {world : World}
  {R : Stop → World → Prop}

lemma attempt_ends (hc : R .crashed world)
    (hf : ∀ re calls, Q (some re) { world with calls := calls })
    (hd : ∀ root calls, effect world.root = .ok root →
      Q none { world with root := root, calls := calls }) :
    Ends Q R ((attempt env effect).run.run world) := by
  rw [attempt]
  refine Ends.get_bind ?_
  cases env world.calls with
  | crashed => exact hc
  | failed re => exact hf re _
  | done =>
    dsimp only
    cases heff : effect world.root with
    | error re => exact hf re _
    | ok root => exact hd root _ heff

variable {α : Type}

variable (hc : R .crashed world)
include hc

lemma attempt_bind_ends {f : Option Bytes → Gc α} {Q : α → World → Prop} (hf : ∀ re calls,
    Ends Q R ((f (some re)).run.run { world with calls := calls }))
    (hd : ∀ root calls, effect world.root = .ok root →
      Ends Q R ((f none).run.run { world with root := root, calls := calls })) :
    Ends Q R ((attempt env effect >>= f).run.run world) := by
  refine (attempt_ends (Q := fun a w => Ends Q R ((f a).run.run w)) hc hf hd).bind
    (fun _ _ _ h => h) fun _ _ _ h => h

lemma require_ends {d : Bytes → Failure} {f : Unit → Gc α} {Q : α → World → Prop}
    (hf : ∀ re calls, R (.failed (d re)) { world with calls := calls })
    (hd : ∀ root calls, effect world.root = .ok root →
      Ends Q R ((f ()).run.run { world with root := root, calls := calls })) :
    Ends Q R ((require env effect d >>= f).run.run world) := by
  rw [require, bind_assoc]
  exact attempt_bind_ends hc hf hd

lemma andThen_ends {f : Option Bytes} (hf : ∀ re calls, Q (some re) { world with calls := calls })
    (hd : ∀ root calls, f = none → effect world.root = .ok root →
      Q none { world with root := root, calls := calls }) :
    Ends Q R ((andThen f (attempt env effect)).run.run world) := by
  cases f with
  | some re => exact hf re world.calls
  | none => exact attempt_ends hc hf fun root calls => hd root calls rfl

omit hc

structure Touches (name : Bytes) (before after : World) : Prop where
  collects : (parseGcTombstone name).isSome → Collects before.root.entries after.root.entries
  others : ∀ other, other ≠ name →
    after.root.entries.lookup other = before.root.entries.lookup other
  sequence : after.sequence = before.sequence
  scanned : after.result.scannedSessions = before.result.scannedSessions
  retained : after.result.retainedSessions = before.result.retainedSessions
  removed : after.result.removedSessions = before.result.removedSessions

lemma Touches.refl (name : Bytes) (world : World) : Touches name world world :=
  ⟨fun _ => .refl, fun _ _ => rfl, rfl, rfl, rfl, rfl⟩

lemma Touches.calls {before after : World} (h : Touches name before after) (calls : Nat) :
    Touches name before { after with calls := calls } :=
  ⟨h.collects, h.others, h.sequence, h.scanned, h.retained, h.removed⟩

lemma Touches.trans (h : Touches name a b) (h' : Touches name b c) : Touches name a c :=
  ⟨fun hn => (h.collects hn).trans (h'.collects hn),
    fun o hne => (h'.others o hne).trans (h.others o hne),
    h'.sequence.trans h.sequence, h'.scanned.trans h.scanned, h'.retained.trans h.retained,
    h'.removed.trans h.removed⟩

def Deletable (name : Bytes) (world : World) : Prop :=
  ∃ directory, world.root.entries.lookup name = some (.directory directory) ∧ directory.safe = true

variable {root : Root}

lemma unlink_touches {f : Bytes} (calls : Nat) (h : Deletable name world)
    (hu : world.root.unlink name f = .ok root) :
    Touches name world { world with root := root, calls := calls } ∧
      Deletable name { world with root := root, calls := calls } := by
  obtain ⟨d, hfo, hs⟩ := h
  rw [Root.unlink, hfo] at hu
  cases hu
  have hf : (d.files.filter (·.name ≠ f)).Sublist d.files := filter_sublist
  refine ⟨⟨fun hn => ?_, fun o hne => lookup_insert_ne hne, rfl, rfl, rfl, rfl⟩, _,
    lookup_insert _, d.safe_sublist hs hf⟩
  obtain ⟨id, hn⟩ := Option.isSome_iff_exists.1 hn
  exact .single (.unlink hn hfo hs hf)

lemma unlinkFiles_ends {before : World} (ht : Touches name before world)
    (h : Deletable name world) (ns : List Bytes) (fs bs : UInt64) :
    Ends (fun _ after => Touches name before after ∧ Deletable name after)
      (fun _ after => Touches name before after)
      ((unlinkFiles env name ns fs bs).run.run world) := by
  induction ns generalizing world fs bs with
  | nil => exact ⟨ht, h⟩
  | cons fi ns ih =>
    rw [unlinkFiles]
    refine attempt_bind_ends ht (fun _ cs => ⟨ht.calls cs, h⟩) ?_
    intro root cs he
    cases he
    refine Ends.get_bind ?_
    cases world.root.file? name fi with
    | none => exact ih (ht.calls cs) h fs bs
    | some f =>
      dsimp only
      cases f.stat with
      | error re => exact ⟨ht.calls cs, h⟩
      | ok st =>
        dsimp only
        split
        · exact ⟨ht.calls cs, h⟩
        · refine attempt_bind_ends (ht.calls cs) (fun _ cs => ⟨ht.calls cs, h⟩) ?_
          intro root cs he
          obtain ⟨hu, hd⟩ := unlink_touches cs h he
          exact ih (ht.trans hu) hd _ _

lemma removeDirectory_touches (calls : Nat) (h : Deletable name world)
    (hr : world.root.removeDirectory name = .ok root) :
    Touches name world { world with root := root, calls := calls } ∧
      root.entries.lookup name = none := by
  obtain ⟨d, hf, hs⟩ := h
  rw [Root.removeDirectory, hf] at hr
  dsimp only at hr
  split at hr
  · rename_i he
    cases hr
    refine ⟨⟨fun hn => ?_, fun o hne => lookup_erase_ne hne, rfl, rfl, rfl, rfl⟩, lookup_erase _ _⟩
    obtain ⟨id, hn⟩ := Option.isSome_iff_exists.1 hn
    exact .single (.remove hn hf hs (isEmpty_iff.1 he))
  · cases hr

/-- The deletion of a tombstone may stop anywhere; once it comes to its end the tombstone is
gone. -/
lemma removeGcNamespace_ends (h : Deletable entry.directoryName world) :
    Ends (fun _ after => Touches entry.directoryName world after ∧
        after.root.entries.lookup entry.directoryName = none)
      (fun _ after => Touches entry.directoryName world after)
      ((removeGcNamespace env entry).run.run world) := by
  rw [removeGcNamespace]
  generalize entry.directoryName = name at h ⊢
  have hst := Touches.refl name world
  refine require_ends hst (fun _ cs => hst.calls cs) fun root cs ho => ?_
  have hrt : root = world.root := by
    rw [Root.openDirectory] at ho
    split at ho <;> cases ho
    rfl
  subst hrt
  refine require_ends (hst.calls cs) (fun _ cs => hst.calls cs)
    fun root cs hs => ?_
  have hrt : root = world.root := by
    rw [Root.statDirectory] at hs
    split at hs
    · split at hs <;> cases hs
      rfl
    · cases hs
  subst hrt
  refine Ends.get_bind ?_
  refine (unlinkFiles_ends (hst.calls cs) h ..).bind ?_ fun _ _ _ h => h
  rintro ⟨fs, bs, f⟩ w₁ - ⟨h₁, hd⟩
  have hsy : Ends (fun _ after => Touches name world after ∧ Deletable name after)
      (fun _ after => Touches name world after)
      ((andThen f (attempt env .ok)).run.run w₁) := by
    refine andThen_ends h₁ (fun _ cs => ⟨h₁.calls cs, hd⟩) fun root cs _ hsyn => ?_
    cases hsyn
    exact ⟨h₁.calls cs, hd⟩
  refine hsy.bind ?_ fun _ _ _ h => h
  rintro f₂ w₂ - ⟨h₂, hd⟩
  have hre : Ends (fun f after => Touches name world after ∧
        (f = none → after.root.entries.lookup name = none))
      (fun _ after => Touches name world after)
      ((andThen f₂ (attempt env (Root.removeDirectory name))).run.run w₂) := by
    refine andThen_ends h₂ (fun _ cs => ⟨h₂.calls cs, nofun⟩) fun root cs _ hr => ?_
    obtain ⟨ht, hg⟩ := removeDirectory_touches cs hd hr
    exact ⟨h₂.trans ht, fun _ => hg⟩
  refine hre.bind ?_ fun _ _ _ h => h
  rintro f₃ w₃ - ⟨h₃, hg⟩
  have he : Ends (fun f after => Touches name world after ∧
        (f = none → after.root.entries.lookup name = none))
      (fun _ after => Touches name world after)
      ((andThen f₃ (attempt env .ok)).run.run w₃) := by
    refine andThen_ends h₃ (fun _ cs => ⟨h₃.calls cs, nofun⟩) fun root cs hn hsyn => ?_
    cases hsyn
    exact ⟨h₃.calls cs, fun _ => hg hn⟩
  refine he.bind ?_ fun _ _ _ h => h
  rintro f₄ w₄ - ⟨h₄, hg⟩
  refine Ends.modify_bind ?_
  have hc : ∀ removedFiles reclaimedBytes, Touches name world { w₄ with
      result := { w₄.result with
        removedFiles := removedFiles, reclaimedBytes := reclaimedBytes } } := fun _ _ =>
    ⟨h₄.collects, h₄.others, h₄.sequence, h₄.scanned, h₄.retained, h₄.removed⟩
  cases f₄ with
  | none => exact ⟨hc _ _, hg rfl⟩
  | some re => exact hc _ _

/-- What the deletion of several tombstones or namespaces leaves: the names are gone, the others are
as they were. -/
structure Frees (names : List Bytes) (before after : World) : Prop where
  lookup_eq : ∀ name, after.root.entries.lookup name =
    if name ∈ names then none else before.root.entries.lookup name
  scanned : after.result.scannedSessions = before.result.scannedSessions

/-- What holds wherever a call ends: no session is counted that is still there, and if tombstones
have the names of tombstones, all was done by steps of the deletion. -/
structure Accounts (named : Prop) (before after : World) : Prop where
  collects : named → Collects before.root.entries after.root.entries
  scanned : after.result.scannedSessions = before.result.scannedSessions
  counted : after.result.removedSessions + (liveNames after.root.entries).length ≤
    before.result.removedSessions + (liveNames before.root.entries).length

lemma Frees.trans {names more : List Bytes} (h : Frees names a b) (h' : Frees more b c) :
    Frees (names ++ more) a c := by
  refine ⟨fun name => ?_, h'.scanned.trans h.scanned⟩
  rw [h'.lookup_eq, h.lookup_eq]
  by_cases hm : name ∈ more <;> simp [hm]

lemma Accounts.trans (h : Accounts named a b) (h' : Accounts named b c) : Accounts named a c :=
  ⟨fun hn => (h.collects hn).trans (h'.collects hn), h'.scanned.trans h.scanned,
    h'.counted.trans h.counted⟩

lemma Touches.liveNames_perm {before after : World} (h : Touches name before after)
    (hn : isLowerHex32 name = false) :
    (liveNames after.root.entries).Perm (liveNames before.root.entries) := by
  refine SessionStore.liveNames_perm fun l hv => ?_
  have hne : l ≠ name := by
    rintro rfl
    rw [hn] at hv
    cases hv
  rw [h.others l hne]

lemma Touches.accounts {before after : World} (h : Touches name before after)
    (hn : parseGcTombstone name = some id) :
    Accounts named before after := by
  refine ⟨fun _ => h.collects (by rw [hn]; rfl), h.scanned, ?_⟩
  rw [h.removed, (h.liveNames_perm (parseGcTombstone_spec hn).2).length_eq]

lemma Touches.frees {before after : World} (h : Touches name before after)
    (hg : after.root.entries.lookup name = none) : Frees [name] before after := by
  refine ⟨fun other => ?_, h.scanned⟩
  by_cases he : other = name
  · rw [he, hg, if_pos (mem_singleton_self _)]
  · simp [he, h.others other he]

lemma finishTombstones_ends (env : Nat → Answer) (named : Prop) {ts : List GcEntry}
    (hno : (ts.map (·.directoryName)).Nodup)
    (hna : ∀ entry ∈ ts, (parseGcTombstone entry.directoryName).isSome)
    (h : ∀ entry ∈ ts, Deletable entry.directoryName world) :
    Ends (fun _ after => Frees (ts.map (·.directoryName)) world after ∧
        Accounts named world after ∧ after.sequence = world.sequence ∧
        after.result.removedSessions = world.result.removedSessions)
      (fun _ after => Accounts named world after)
      ((finishTombstones env ts).run.run world) := by
  induction ts generalizing world with
  | nil => exact ⟨⟨fun _ => rfl, rfl⟩, ⟨fun _ => .refl, rfl, le_refl _⟩, rfl, rfl⟩
  | cons entry ts ih =>
    rw [map_cons, nodup_cons] at hno
    obtain ⟨id, hn⟩ := Option.isSome_iff_exists.1 (hna entry mem_cons_self)
    rw [finishTombstones]
    refine (removeGcNamespace_ends (h entry mem_cons_self)).bind ?_ fun _ _ _ h => h.accounts hn
    rintro - next - ⟨ht, hg⟩
    have hre : ∀ o ∈ ts, Deletable o.directoryName next := by
      intro o hm
      obtain ⟨d, hfo, hsa⟩ := h o (mem_cons_of_mem entry hm)
      have hne : o.directoryName ≠ entry.directoryName := by
        intro he
        exact hno.1 (he ▸ mem_map_of_mem hm)
      exact ⟨d, (ht.others _ hne).trans hfo, hsa⟩
    have hen : Accounts named world next := ht.accounts hn
    refine (ih hno.2 (fun o hm => hna o (mem_cons_of_mem entry hm))
      hre).imp ?_ fun _ _ h => hen.trans h
    rintro - after ⟨hf, ha, hs, hr⟩
    exact ⟨(ht.frees hg).trans hf, hen.trans ha, hs.trans ht.sequence, hr.trans ht.removed⟩

def Retirable (entry : GcEntry) (world : World) : Prop :=
  isLowerHex32 entry.namespaceId = true ∧ entry.directoryName = entry.namespaceId ∧
    ∃ directory, world.root.entries.lookup entry.namespaceId = some (.directory directory) ∧
      directory.safe = true

lemma rename_moves (h : Retirable entry world) (hn : isLowerHex32 name = false)
    (hr : world.root.rename entry.directoryName name = .ok root) :
    (parseGcTombstone name = some entry.namespaceId →
    Collect world.root.entries root.entries) ∧
    world.root.entries.lookup name = none ∧
    (∀ o, o ≠ name → root.entries.lookup o =
    if o = entry.namespaceId then none else world.root.entries.lookup o) ∧
    (∀ (se : UInt64) (cs : Nat) (re : GcResult),
    Deletable name ⟨root, se, cs, re⟩) ∧
    (liveNames root.entries).length + 1 = (liveNames world.root.entries).length := by
  obtain ⟨hv, hd, d, hf, hs⟩ := h
  rw [Root.rename, hd, hf] at hr
  dsimp only at hr
  cases hfr : world.root.entries.lookup name with
  | some n =>
    rw [hfr] at hr
    cases hr
  | none =>
    rw [hfr] at hr
    cases hr
    refine ⟨fun hp => .move hv hp hf hs hfr, rfl,
      fun o hne => lookup_move o hne,
      fun _ _ _ => ⟨d, lookup_insert _, hs⟩, ?_⟩
    refine length_liveNames_erase hv (by rw [hf]; rfl) fun o ho => ?_
    refine lookup_move o ?_
    rintro rfl
    rw [hn] at ho
    cases ho

def Numbers (pid : Nat) (sequence : UInt64) (names : Nat) : Prop :=
  pid ≠ 0 ∧ pid ≤ kU64Max ∧ sequence.toNat + names < 2 ^ 64

section

variable {env : Nat → Answer} {pid : Nat} {policy : GcPolicy} (hnow : policy.nowUnixSeconds ≠ 0)
include hnow

lemma tombstoneName_parses {se : UInt64} (hv : isLowerHex32 id)
    (hn : Numbers pid se 1) : parseGcTombstone
    (tombstoneName id pid policy.nowUnixSeconds.toNat (se + 1).toNat) = some id := by
  obtain ⟨hpi, hp, hr⟩ := hn
  have hs : (se + 1).toNat = se.toNat + 1 := by
    rw [UInt64.toNat_add]
    exact Nat.mod_eq_of_lt hr
  have hpo : policy.nowUnixSeconds.toNat ≠ 0 := fun h => hnow (UInt64.toNat_inj.1 h)
  have hnowM := policy.nowUnixSeconds.toNat_lt
  refine parseGcTombstone_tombstoneName hv ⟨hpi, hp⟩ ⟨hpo, ?_⟩ ⟨?_, ?_⟩
  · rw [kU64Max]
    omega
  · omega
  · rw [hs, kU64Max]
    omega

variable {named : Prop}

/-- The deletion of a namespace may stop anywhere; when it comes to its end the namespace is gone
and nothing else has changed. -/
lemma retire_ends (h : Retirable entry world) (hnu : named → Numbers pid world.sequence 1) :
    Ends (fun _ after => Frees [entry.namespaceId] world after ∧ Accounts named world after ∧
        after.sequence = world.sequence + 1 ∧
        after.result.removedSessions = world.result.removedSessions + 1 ∧
        after.result.retainedSessions = world.result.retainedSessions - 1)
      (fun _ after => Accounts named world after)
      ((retire env pid policy entry).run.run world) := by
  have hnotL := isLowerHex32_tombstoneName entry.namespaceId pid policy.nowUnixSeconds.toNat
    (world.sequence + 1).toNat
  have hpa := fun hn => tombstoneName_parses hnow h.1 (hnu hn)
  have hs : ∀ calls, Accounts named world
      { world with sequence := world.sequence + 1, calls := calls } :=
    fun _ => ⟨fun _ => .refl, rfl, le_refl _⟩
  rw [retire]
  refine Ends.get_bind (Ends.modify_bind ?_)
  refine require_ends (hs _) (fun _ calls => hs calls) fun root calls hrt => ?_
  cases hrt
  refine require_ends (hs _) (fun _ calls => hs calls) fun root calls hre => ?_
  obtain ⟨hc, hf, ho, hd, hl⟩ := rename_moves h hnotL hre
  have hm : ∀ calls, Accounts named world
      { world with root := root, sequence := world.sequence + 1, calls := calls } := by
    refine fun _ => ⟨fun hn => .single (hc (hpa hn)), rfl, ?_⟩
    change world.result.removedSessions + (liveNames root.entries).length ≤ _
    omega
  refine require_ends (hm _) (fun _ calls => hm calls) fun sy calls hsy => ?_
  cases hsy
  refine Ends.modify_bind ?_
  -- the tombstone is counted, and then deleted
  have ha : ∀ {co after : World},
      Touches (tombstoneName entry.namespaceId pid policy.nowUnixSeconds.toNat
        (world.sequence + 1).toNat) co after → co.root = root →
      co.result.scannedSessions = world.result.scannedSessions →
      co.result.removedSessions = world.result.removedSessions + 1 →
      Accounts named world after := by
    intro co after ht hrt hsc hr
    refine ⟨fun hn => ?_, ht.scanned.trans hsc, ?_⟩
    · have hlat := ht.collects (by rw [hpa hn]; rfl)
      rw [hrt] at hlat
      exact .head (hc (hpa hn)) hlat
    · rw [ht.removed, (ht.liveNames_perm hnotL).length_eq, hrt, hr]
      omega
  refine (removeGcNamespace_ends (hd ..)).imp ?_ ?_
  · rintro - after ⟨ht, hg⟩
    refine ⟨⟨fun o => ?_, ht.scanned⟩, ha ht rfl rfl rfl, ht.sequence, ht.removed, ht.retained⟩
    by_cases hot : o = tombstoneName entry.namespaceId pid policy.nowUnixSeconds.toNat
        (world.sequence + 1).toNat
    · rw [hot, hg, hf, ite_self]
    · rw [ht.others o hot]
      simp [ho o hot]
  · intro _ after ht
    exact ha ht rfl rfl rfl

lemma retireSelected_ends {ss : List GcEntry} (hno : (ss.map (·.namespaceId)).Nodup)
    (h : ∀ entry ∈ ss, Retirable entry world)
    (hnu : named → Numbers pid world.sequence ss.length) : Ends (fun _ after =>
        Frees ((ss.filter GcEntry.remove).map (·.namespaceId)) world after ∧
        Accounts named world after ∧
        after.result.removedSessions =
          world.result.removedSessions + (ss.filter GcEntry.remove).length ∧
        after.result.retainedSessions =
          world.result.retainedSessions - (ss.filter GcEntry.remove).length)
      (fun _ after => Accounts named world after)
      ((retireSelected env pid policy ss).run.run world) := by
  induction ss generalizing world with
  | nil => exact ⟨⟨fun _ => rfl, rfl⟩, ⟨fun _ => .refl, rfl, le_refl _⟩, rfl, rfl⟩
  | cons entry ss ih =>
    rw [map_cons, nodup_cons] at hno
    rw [retireSelected]
    have ho : named → Numbers pid world.sequence 1 := fun hn => by
      obtain ⟨hpi, hp, hro⟩ := hnu hn
      rw [length_cons] at hro
      exact ⟨hpi, hp, by omega⟩
    by_cases hr : entry.remove = true
    · rw [if_pos hr]
      refine (retire_ends hnow (h entry mem_cons_self) ho).bind ?_ fun _ _ _ h => h
      rintro - next - ⟨hf, ha, hs, hre, hrt⟩
      have hl : ∀ other, other ≠ entry.namespaceId →
          next.root.entries.lookup other = world.root.entries.lookup other := by
        intro other hne
        rw [hf.lookup_eq, if_neg (fun h => hne (mem_singleton.1 h))]
      have hrs : ∀ other ∈ ss, Retirable other next := by
        intro other hm
        obtain ⟨hv, hd, d, hfo, hsa⟩ := h other (mem_cons_of_mem entry hm)
        have hne : other.namespaceId ≠ entry.namespaceId := by
          intro he
          exact hno.1 (he ▸ mem_map_of_mem hm)
        exact ⟨hv, hd, d, (hl _ hne).trans hfo, hsa⟩
      have hnx : named → Numbers pid next.sequence ss.length := fun hn => by
        obtain ⟨hpi, hp, hro⟩ := hnu hn
        rw [length_cons] at hro
        refine ⟨hpi, hp, ?_⟩
        rw [hs, UInt64.toNat_add]
        have : (1 : UInt64).toNat = 1 := rfl
        omega
      refine (ih hno.2 hrs hnx).imp ?_ fun _ _ h => ha.trans h
      rintro - after ⟨haf, ha', hr', hre'⟩
      rw [filter_cons_of_pos hr, map_cons, length_cons]
      exact ⟨hf.trans haf, ha.trans ha', by omega, by omega⟩
    · rw [if_neg hr, filter_cons_of_neg hr]
      refine ih hno.2 (fun other hm => h other (mem_cons_of_mem entry hm)) fun hn => ?_
      obtain ⟨hpi, hp, hro⟩ := hnu hn
      rw [length_cons] at hro
      exact ⟨hpi, hp, by omega⟩

end

end AxiomKernel.Qwen38.SessionStore
