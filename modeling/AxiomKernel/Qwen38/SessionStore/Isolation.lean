import AxiomKernel.Qwen38.SessionStore.RoundTrip

/-!
Namespaces keep apart: whatever was saved, under whatever keys, `load` returns only what was saved
under its own key. The hashes in the paths play no part, two keys may share a path.
-/
namespace AxiomKernel.Qwen38.SessionStore

open Image Text List Function

variable {sha256 : Bytes → Block 32}

structure SaveCall where
  store : Store
  env : SaveEnv
  key : Key
  paths : Paths
  manifest : Manifest

def SaveCall.run (sha256 : Bytes → Block 32) (call : SaveCall) (disk : Disk) : Disk :=
  (save sha256 call.store call.env call.key call.paths call.manifest disk).2

def saves (sha256 : Bytes → Block 32) (calls : List SaveCall) (disk : Disk) : Disk :=
  calls.foldl (fun disk call => call.run sha256 disk) disk

lemma temporaryPath_ne (env : SaveEnv) (path : Bytes) (st : Store) (key : Key) (g : UInt64) :
    (st.pathsFor key g).manifestPath ≠ temporaryPath env path := by
  intro h
  have hm : (st.pathsFor key g).manifestPath.getLast? = some 116 := by
    rw [Store.pathsFor, pathsFor, getLast?_append]
    rfl
  have hd : ∃ byte, (temporaryPath env path).getLast? = some byte ∧ isDigit byte := by
    have hne := decimal_ne_nil env.sequence.toNat
    refine ⟨(decimal env.sequence.toNat).getLast hne, ?_, isDigit_of_mem_decimal (getLast_mem hne)⟩
    rw [temporaryPath, getLast?_append, getLast?_eq_some_getLast hne]
    rfl
  obtain ⟨byte, hl, hb⟩ := hd
  rw [← h, hm] at hl
  rw [← Option.some.inj hl] at hb
  exact absurd hb (by decide)

lemma SaveCall.run_apply (ca : SaveCall) (d : Disk) (re : Store) (key : Key) :
    ca.run sha256 d (re.pathsFor key 1).manifestPath =
    d (re.pathsFor key 1).manifestPath ∨
    ∃ file, saveImage sha256 ca.store ca.env ca.key ca.paths ca.manifest = .ok file ∧
    ca.run sha256 d (re.pathsFor key 1).manifestPath = some file := by
  have htemp := temporaryPath_ne ca.env ca.paths.manifestPath re key 1
  unfold SaveCall.run save
  generalize saveImage sha256 ca.store ca.env ca.key ca.paths ca.manifest = image
  have hp : ∀ file, update d ca.paths.manifestPath (some file)
        (re.pathsFor key 1).manifestPath = d (re.pathsFor key 1).manifestPath ∨
      update d ca.paths.manifestPath (some file) (re.pathsFor key 1).manifestPath = some file := by
    intro file
    by_cases hpa : (re.pathsFor key 1).manifestPath = ca.paths.manifestPath
    · rw [hpa, update_self]
      exact .inr rfl
    · exact .inl (update_of_ne hpa _ _)
  cases image with
  | error f => exact .inl rfl
  | ok file =>
    dsimp only
    split
    · exact .inl rfl
    split
    · split
      · exact (hp file).imp_right fun h => ⟨file, rfl, h⟩
      · exact (hp file).imp_right fun h => ⟨file, rfl, h⟩
    · exact .inl (update_of_ne htemp _ _)

/-- What one call adds to what `load` returns under a key was saved under that key. -/
lemma SaveCall.load_run {call : SaveCall} {d : Disk} {re : Store} {env : LoadEnv}
    {key : Key} {l : Manifest} {ps : Paths}
    (h : load sha256 re env key (call.run sha256 d) = .ok (.found l ps)) :
    (call.key = key ∧
    l = { call.manifest with tokenHash := tokenHash call.manifest.tokenIds }) ∨
      load sha256 re env key d = .ok (.found l ps) := by
  obtain ⟨ha, he, f, hf, hi⟩ := load_eq_found.1 h
  obtain hs | ⟨f', hsa, hp⟩ := call.run_apply d re key
  · exact .inr (load_eq_found.2 ⟨ha, he, f, hs ▸ hf, hi⟩)
  · rw [hf] at hp
    rw [← Option.some.inj hp] at hsa
    obtain ⟨hk, hl, -⟩ := loadImage_saved hsa hi
    exact .inl ⟨hk.symm, hl⟩

/-- The namespace text tells any two keys apart; a file saved under one key is refused under every
other one, so also where two keys share a path; and after any sequence of saves `load` returns a
manifest saved under its own key, or one that it returned before. -/
theorem namespace_isolation :
    (∀ key key' : Key, namespaceText key = namespaceText key' → key = key') ∧
      (∀ (sha256 : Bytes → Block 32) (call : SaveCall) (file : Bytes) (reader : Store)
          (env : LoadEnv) (key' : Key),
        saveImage sha256 call.store call.env call.key call.paths call.manifest = .ok file →
        call.key ≠ key' → ∀ result, loadImage sha256 reader env key' file ≠ .ok result) ∧
      ∀ (sha256 : Bytes → Block 32) (calls : List SaveCall) (disk : Disk) (reader : Store)
          (env : LoadEnv) (key' : Key) (loaded : Manifest) (paths : Paths),
        load sha256 reader env key' (saves sha256 calls disk) = .ok (.found loaded paths) →
        (∃ call ∈ calls, call.key = key' ∧
            loaded = { call.manifest with tokenHash := tokenHash call.manifest.tokenIds }) ∨
          load sha256 reader env key' disk = .ok (.found loaded paths) := by
  refine ⟨?_, ?_, ?_⟩
  · intro key key' h
    have ha : namespaceText key ++ [] = namespaceText key' ++ [] := by rw [h]
    exact namespaceText_append_injective ha
  · intro sha256 call file reader env key' hs hn ⟨loaded, paths⟩ hld
    exact hn (loadImage_saved hs hld).1.symm
  · intro sha256 calls disk reader env key' loaded paths h
    induction calls generalizing disk with
    | nil => exact .inr h
    | cons call calls ih =>
      rw [saves, foldl_cons, ← saves] at h
      obtain ⟨l, hm, hl⟩ | hld := ih _ h
      · exact .inl ⟨l, mem_cons_of_mem call hm, hl⟩
      · obtain hown | hp := SaveCall.load_run hld
        · exact .inl ⟨call, mem_cons_self, hown⟩
        · exact .inr hp

def smallCall (profile : Bytes) : SaveCall :=
  ⟨smallStore, .faultless, smallKey profile, smallStore.pathsFor (smallKey profile) 1,
    manifestFor (smallKey profile) [3, 5]⟩

theorem namespace_isolation_small :
    ∃ file, saveImage (fun _ => Block.clear 32) smallStore .faultless (smallKey (ascii "p"))
        (smallStore.pathsFor (smallKey (ascii "p")) 1) (manifestFor (smallKey (ascii "p")) [3, 5]) =
          .ok file ∧
      ∀ result, loadImage (fun _ => Block.clear 32) smallStore .faultless (smallKey (ascii "q"))
        file ≠ .ok result := by
  have hn : smallKey (ascii "p") ≠ smallKey (ascii "q") := by decide +kernel
  obtain ⟨file, hf, -⟩ := save_eq_ok (smallSave_eq
    (show (smallSave (ascii "p")).1 = .ok () by decide +kernel))
  exact ⟨file, hf, namespace_isolation.2.1 _ (smallCall (ascii "p")) file smallStore .faultless
    (smallKey (ascii "q")) hf hn⟩

/-- The path holds the file that one of the calls publishes. -/
def Published (sha256 : Bytes → Block 32) (calls : List SaveCall) (path : Bytes) (disk : Disk) :
    Prop :=
  ∃ call ∈ calls, ∃ file, disk path = some file ∧
    saveImage sha256 call.store call.env call.key call.paths call.manifest = .ok file

lemma Published.saves {reader : Store} {key : Key} {done : List SaveCall} {disk : Disk}
    (h : Published sha256 done (reader.pathsFor key 1).manifestPath disk) (later : List SaveCall) :
    Published sha256 (done ++ later) (reader.pathsFor key 1).manifestPath
      (saves sha256 later disk) := by
  induction later generalizing done disk with
  | nil => rwa [append_nil]
  | cons next later ih =>
    rw [append_cons]
    obtain ⟨call, hm, file, hd, hi⟩ := h
    refine ih ?_
    rcases next.run_apply disk reader key with hs | ⟨file', hi', hs⟩
    · exact ⟨call, mem_append_left _ hm, file, hs.trans hd, hi⟩
    · exact ⟨next, mem_append_right _ mem_cons_self, file', hs, hi'⟩

/-- A saved session is never lost or rolled back: whatever saves follow, under
whatever keys and wherever they fail, `load` does not miss the session, and what it finds was saved
under its key by this call or a later one. -/
theorem saved_session_never_rolls_back (sha256 : Bytes → Block 32) (call : SaveCall) (disk : Disk) :
    (save sha256 call.store call.env call.key call.paths call.manifest disk).1 = .ok () →
    ∀ (later : List SaveCall) (reader : Store) (env : LoadEnv),
      reader.basePath = call.store.basePath →
      (∀ paths, load sha256 reader env call.key (saves sha256 (call :: later) disk) ≠
        .ok (.missing paths)) ∧
      ∀ loaded paths, load sha256 reader env call.key (saves sha256 (call :: later) disk) =
          .ok (.found loaded paths) →
        ∃ last ∈ call :: later, last.key = call.key ∧
          loaded = { last.manifest with tokenHash := tokenHash last.manifest.tokenIds } := by
  intro hsave later reader env hbase
  obtain ⟨file, hi, hd⟩ := save_eq_ok (Prod.ext hsave rfl)
  obtain ⟨_, _, hsaved, -⟩ := saved_of_saveImage hi
  have hp : call.run sha256 disk (reader.pathsFor call.key 1).manifestPath = some file := by
    refine (congrFun hd _).trans ?_
    rw [manifestPath_eq hbase call.key 1 call.manifest.generation, ← hsaved.manifestPath,
      update_self]
  obtain ⟨last, hm, _, hf, hi'⟩ : Published sha256 (call :: later) _ _ :=
    Published.saves ⟨call, mem_singleton_self call, file, hp, hi⟩ later
  refine ⟨fun _ hl => ?_, fun _ _ hl => ?_⟩
  · cases hf.symm.trans (load_eq_missing hl)
  · obtain ⟨-, -, _, hf', hload⟩ := load_eq_found.1 hl
    cases hf.symm.trans hf'
    obtain ⟨hk, heq, -⟩ := loadImage_saved hi' hload
    exact ⟨last, hm, hk.symm, heq⟩

theorem saved_session_never_rolls_back_small : (smallSave (ascii "p")).1 = .ok () ∧
    ∀ later env paths, load (fun _ => Block.clear 32) smallStore env (smallKey (ascii "p"))
      (saves (fun _ => Block.clear 32) (smallCall (ascii "p") :: later) fun _ => none) ≠
        .ok (.missing paths) := by
  have h : (smallSave (ascii "p")).1 = .ok () := by decide +kernel
  exact ⟨h, fun later env =>
    (saved_session_never_rolls_back _ (smallCall (ascii "p")) _ h later smallStore env rfl).1⟩

end AxiomKernel.Qwen38.SessionStore
