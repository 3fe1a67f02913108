import AxiomKernel.Qwen38.SessionStore.Gc

/-!
Which sessions a collection removes: those that the age rule marks, and then, from the least
recently used one on, as many as are too many.
-/
namespace AxiomKernel.Qwen38.SessionStore

open GcEntry Image List Bool

def stale (policy : GcPolicy) (entry : GcEntry) : Bool :=
  policy.ttlSeconds ≠ 0 && expired policy entry

def evictable (entry : GcEntry) : Bool := !(entry.protectedNamespace || entry.remove)

def GcEntry.aged (policy : GcPolicy) (entry : GcEntry) : GcEntry :=
  if stale policy entry then { entry with remove := true } else entry

lemma markExpired_eq (policy : GcPolicy) (sessions : List GcEntry)
    (ht : policy.ttlSeconds ≠ 0) : markExpired policy sessions =
    (sessions.map (aged policy), sessions.countP (stale policy)) := by
  induction sessions with
  | nil => rfl
  | cons entry sessions ih =>
    have hs : stale policy entry = expired policy entry := by
      simp [stale, ht]
    rw [markExpired, ih, map_cons, countP_cons, aged, hs]
    dsimp only
    split <;> rfl

lemma evict_perm (ms : Nat) (sessions : List GcEntry) (pr : Nat) :
    (((evict ms sessions pr).filter remove).map (·.namespaceId)).Perm
    ((sessions.filter remove).map (·.namespaceId) ++
    ((sessions.filter evictable).take (pr - ms)).map (·.namespaceId)) := by
  induction sessions generalizing pr with
  | nil => simp [evict]
  | cons entry sessions ih =>
    rw [evict]
    split
    · rename_i hl
      rw [Nat.sub_eq_zero_of_le hl, take_zero, map_nil, append_nil]
    · rename_i ho
      split
      · rename_i hk
        rw [filter_cons_of_neg (p := evictable) (by simp [evictable, hk])]
        cases hrem : entry.remove with
        | true =>
          rw [filter_cons_of_pos hrem, filter_cons_of_pos hrem, map_cons, map_cons, cons_append]
          exact (ih pr).cons _
        | false =>
          have hn : ¬ entry.remove := by simp [hrem]
          rw [filter_cons_of_neg hn, filter_cons_of_neg hn]
          exact ih pr
      · rename_i hf
        have hn : ¬ entry.remove := fun h => hf (by simp [h])
        have hm : pr - ms = (pr - 1 - ms) + 1 := by omega
        rw [filter_cons_of_pos (p := evictable) (by simpa [evictable] using hf),
          filter_cons_of_neg hn, filter_cons_of_pos rfl, hm, take_succ_cons,
          map_cons, map_cons]
        exact ((ih (pr - 1)).cons _).trans perm_middle.symm

def GcEntry.unmarked (entry : GcEntry) : GcEntry := { entry with remove := false }

lemma map_unmarked_evict (ms : Nat) (sessions : List GcEntry) (p : Nat) :
    (evict ms sessions p).map unmarked =
    sessions.map unmarked := by
  induction sessions generalizing p with
  | nil => rfl
  | cons entry sessions ih =>
    rw [evict]
    split
    · rfl
    · split
      · rw [map_cons, map_cons, ih]
      · rw [map_cons, map_cons, ih]
        rfl

instance : Std.Total GcEntry.Earlier := ⟨fun left right => le_total left.rank right.rank⟩

instance : IsTrans GcEntry GcEntry.Earlier := ⟨fun _ _ _ h h' => le_trans h h'⟩

/-- The sessions after the age rule, in the order in which they were used. -/
def agedSessions (policy : GcPolicy) (sessions : List GcEntry) : List GcEntry :=
  (sessions.map (aged policy)).insertionSort GcEntry.Earlier

def excess (policy : GcPolicy) (sessions : List GcEntry) : Nat :=
  if policy.maxSessions = 0 then 0
  else sessions.length - sessions.countP (stale policy) - policy.maxSessions.toNat

variable {policy : GcPolicy} {sessions : List GcEntry}

lemma map_aged_of_no_ttl (ht : policy.ttlSeconds = 0) (sessions : List GcEntry) :
    sessions.map (aged policy) = sessions ∧ sessions.countP (stale policy) = 0 := by
  have hs : ∀ entry, stale policy entry = false := fun entry => by simp [stale, ht]
  constructor
  · refine (map_congr_left fun entry _ => ?_).trans (map_id _)
    rw [aged, hs]
    rfl
  · exact countP_eq_zero.2 fun entry _ => by simp [hs]

lemma selectSessions_eq (policy : GcPolicy) (sessions : List GcEntry) :
    selectSessions policy sessions =
    if excess policy sessions = 0 then agedSessions policy sessions
    else evict policy.maxSessions.toNat (agedSessions policy sessions)
    (excess policy sessions + policy.maxSessions.toNat) := by
  have hmk : (if policy.ttlSeconds ≠ 0 then markExpired policy sessions else (sessions, 0)) =
      (sessions.map (aged policy), sessions.countP (stale policy)) := by
    split
    · rename_i ht
      exact markExpired_eq policy sessions ht
    · rename_i ht
      obtain ⟨hma, hc⟩ := map_aged_of_no_ttl (not_not.1 ht) sessions
      rw [hma, hc]
  have hl : ((sessions.map (aged policy)).insertionSort GcEntry.Earlier).length =
      sessions.length := by
    rw [length_insertionSort, length_map]
  rw [selectSessions, hmk]
  dsimp only
  rw [hl, agedSessions, excess]
  have hp : (if sessions.countP (stale policy) < sessions.length then
      sessions.length - sessions.countP (stale policy) else 0) =
      sessions.length - sessions.countP (stale policy) := by
    split <;> omega
  rw [hp]
  by_cases hm : policy.maxSessions = 0
  · simp [hm]
  · by_cases ho : policy.maxSessions.toNat < sessions.length - sessions.countP (stale policy)
    · have hpo : ¬ sessions.length - sessions.countP (stale policy) -
          policy.maxSessions.toNat = 0 := by omega
      rw [if_pos ⟨hm, ho⟩, if_neg hm, if_neg hpo]
      congr 1
      omega
    · have hz : sessions.length - sessions.countP (stale policy) -
          policy.maxSessions.toNat = 0 := by omega
      rw [if_neg (fun h => ho h.2), if_neg hm, if_pos hz]

def selectedIds (policy : GcPolicy) (sessions : List GcEntry) : List Bytes :=
  ((selectSessions policy sessions).filter remove).map (·.namespaceId)

def evicted (policy : GcPolicy) (sessions : List GcEntry) : List GcEntry :=
  ((agedSessions policy sessions).filter evictable).take (excess policy sessions)

lemma unmarked_aged (policy : GcPolicy) (entry : GcEntry) :
    (entry.aged policy).unmarked = entry.unmarked := by
  rw [aged]
  split <;> rfl

lemma namespaceId_aged (policy : GcPolicy) (entry : GcEntry) :
    (entry.aged policy).namespaceId = entry.namespaceId := by
  rw [aged]
  split <;> rfl

lemma map_unmarked_selectSessions (policy : GcPolicy) (sessions : List GcEntry) :
    ((selectSessions policy sessions).map unmarked).Perm
    (sessions.map unmarked) := by
  have ha : ((agedSessions policy sessions).map unmarked).Perm (sessions.map unmarked) := by
    refine ((perm_insertionSort _ _).map _).trans (.of_eq ?_)
    rw [map_map]
    exact map_congr_left fun entry _ => unmarked_aged policy entry
  rw [selectSessions_eq]
  split
  · exact ha
  · rw [map_unmarked_evict]
    exact ha

lemma mem_selectSessions {ma : GcEntry} (h : ma ∈ selectSessions policy sessions) :
    ∃ entry ∈ sessions, entry.unmarked = ma.unmarked := by
  have hm := (map_unmarked_selectSessions policy sessions).mem_iff.1 (mem_map_of_mem h)
  exact mem_map.1 hm

lemma map_namespaceId_selectSessions (policy : GcPolicy) (sessions : List GcEntry) :
    ((selectSessions policy sessions).map (·.namespaceId)).Perm (sessions.map (·.namespaceId)) := by
  have hi : ∀ es : List GcEntry, es.map (·.namespaceId) =
      (es.map unmarked).map (·.namespaceId) := by
    intro es
    rw [map_map]
    rfl
  rw [hi (selectSessions policy sessions), hi sessions]
  exact (map_unmarked_selectSessions policy sessions).map _

section
variable {policy : GcPolicy} {sessions : List GcEntry}

lemma selectedIds_nodup (hn : (sessions.map (·.namespaceId)).Nodup) :
    (selectedIds policy sessions).Nodup := by
  have ha := (map_namespaceId_selectSessions policy sessions).nodup_iff.2 hn
  exact ha.sublist (filter_sublist.map _)

lemma selectedIds_perm : (selectedIds policy sessions).Perm
    (((agedSessions policy sessions).filter remove).map (·.namespaceId) ++
    (evicted policy sessions).map (·.namespaceId)) := by
  rw [selectedIds, selectSessions_eq, evicted]
  split
  · rename_i hz
    rw [hz, take_zero, map_nil, append_nil]
  · have h := evict_perm policy.maxSessions.toNat (agedSessions policy sessions)
      (excess policy sessions + policy.maxSessions.toNat)
    rwa [Nat.add_sub_cancel] at h

variable (hunmarked : ∀ entry ∈ sessions, entry.remove = false)
include hunmarked

variable {entry : GcEntry}

lemma remove_aged (h : entry ∈ sessions) : (entry.aged policy).remove = stale policy entry := by
  rw [aged]
  split
  · rename_i hs
    rw [hs]
  · rename_i hs
    rw [hunmarked entry h, (not_eq_true _).mp hs]

lemma mem_filter_evictable : entry ∈ (agedSessions policy sessions).filter evictable ↔
    entry ∈ sessions ∧ stale policy entry = false ∧ entry.protectedNamespace = false := by
  rw [mem_filter, agedSessions, (perm_insertionSort _ _).mem_iff, mem_map, evictable]
  constructor
  · rintro ⟨⟨original, hm, rfl⟩, hf⟩
    rw [not_eq_true', or_eq_false_iff, remove_aged hunmarked hm] at hf
    have hs : original.aged policy = original := by
      rw [aged, hf.2]
      rfl
    rw [hs] at hf ⊢
    exact ⟨hm, hf.2, hf.1⟩
  · rintro ⟨hm, hst, hp⟩
    have hs : entry.aged policy = entry := by
      rw [aged, hst]
      rfl
    refine ⟨⟨entry, hm, hs⟩, ?_⟩
    rw [hp, hunmarked entry hm]
    rfl

lemma mem_selectedIds {id : Bytes} : id ∈ selectedIds policy sessions ↔
    (∃ entry ∈ sessions, stale policy entry ∧ entry.namespaceId = id) ∨
    ∃ entry ∈ evicted policy sessions, entry.namespaceId = id := by
  rw [selectedIds_perm.mem_iff, mem_append, mem_map, mem_map]
  refine or_congr_left ?_
  constructor
  · rintro ⟨ag, hm, rfl⟩
    rw [mem_filter, agedSessions, (perm_insertionSort _ _).mem_iff, mem_map] at hm
    obtain ⟨⟨entry, he, rfl⟩, hrem⟩ := hm
    rw [remove_aged hunmarked he] at hrem
    exact ⟨entry, he, hrem, (namespaceId_aged policy entry).symm⟩
  · rintro ⟨entry, he, hs, rfl⟩
    refine ⟨entry.aged policy, ?_, namespaceId_aged policy entry⟩
    rw [mem_filter, agedSessions, (perm_insertionSort _ _).mem_iff, mem_map]
    exact ⟨⟨entry, he, rfl⟩, (remove_aged hunmarked he).trans hs⟩

lemma length_selectedIds : (selectedIds policy sessions).length =
    sessions.countP (stale policy) + (evicted policy sessions).length := by
  have hc : ((agedSessions policy sessions).filter remove).length =
      sessions.countP (stale policy) := by
    rw [← countP_eq_length_filter, agedSessions, (perm_insertionSort _ _).countP_eq, countP_map]
    refine countP_congr fun entry hm => ?_
    rw [Function.comp_apply, remove_aged hunmarked hm]
  rw [selectedIds_perm.length_eq, length_append, length_map, length_map, hc]

end

structure Selects (policy : GcPolicy) (sessions : List GcEntry) (removed : List Bytes) : Prop where
  unprotected : ∀ id ∈ removed, ∃ entry ∈ sessions,
    entry.namespaceId = id ∧ entry.protectedNamespace = false
  stale : ∀ entry ∈ sessions, stale policy entry = true → entry.namespaceId ∈ removed
  /-- Beyond the age rule, a session is removed only after those that were used before it. -/
  order : ∀ entry ∈ sessions, ∀ earlier ∈ sessions, SessionStore.stale policy entry = false →
    entry.namespaceId ∈ removed → earlier.protectedNamespace = false → earlier.rank < entry.rank →
    earlier.namespaceId ∈ removed
  /-- Beyond the age rule, no more are removed than are too many. -/
  needed : ∀ entry ∈ sessions, SessionStore.stale policy entry = false →
    entry.namespaceId ∈ removed →
    policy.maxSessions ≠ 0 ∧ removed.length + policy.maxSessions.toNat ≤ sessions.length
  capacity : policy.maxSessions ≠ 0 → sessions.length ≤ removed.length + policy.maxSessions.toNat ∨
      ∀ entry ∈ sessions, entry.namespaceId ∉ removed → entry.protectedNamespace = true

lemma selects_selectedIds (policy : GcPolicy) (hn : (sessions.map (·.namespaceId)).Nodup)
    (hunmarked : ∀ entry ∈ sessions, entry.remove = false) :
    Selects policy sessions (selectedIds policy sessions) := by
  have hm := fun id => @mem_selectedIds policy sessions hunmarked id
  have hl := @length_selectedIds policy sessions hunmarked
  have hev : ∀ entry ∈ evicted policy sessions, entry ∈ sessions ∧
      stale policy entry = false ∧ entry.protectedNamespace = false := fun entry h =>
    (mem_filter_evictable hunmarked).1 (mem_of_mem_take h)
  -- a session that is removed and not stale was evicted
  have hf : ∀ entry ∈ sessions, stale policy entry = false →
      entry.namespaceId ∈ selectedIds policy sessions → entry ∈ evicted policy sessions := by
    intro entry hen hst hr
    obtain ⟨o, ho, hol, hi⟩ | ⟨o, ho, hi⟩ := (hm _).1 hr
    · rw [inj_on_of_nodup_map hn ho hen hi, hst] at hol
      cases hol
    · rwa [inj_on_of_nodup_map hn (hev o ho).1 hen hi] at ho
  refine ⟨?_, ?_, ?_, ?_, ?_⟩
  · intro id hi
    obtain ⟨entry, hen, hol, rfl⟩ | ⟨entry, hen, rfl⟩ := (hm id).1 hi
    · refine ⟨entry, hen, rfl, ?_⟩
      rw [stale, expired] at hol
      simp only [and_eq_true, not_eq_true', or_eq_false_iff] at hol
      exact hol.2.1.1
    · exact ⟨entry, (hev entry hen).1, rfl, (hev entry hen).2.2⟩
  · exact fun entry hen hol => (hm _).2 (.inl ⟨entry, hen, hol, rfl⟩)
  · intro entry hen e he hst hr hp hra
    refine (hm _).2 ?_
    cases hol : stale policy e with
    | true => exact .inl ⟨e, he, hol, rfl⟩
    | false =>
      refine .inr ⟨e, ?_, rfl⟩
      have htak := hf entry hen hst hr
      have hc : e ∈ (agedSessions policy sessions).filter evictable :=
        (mem_filter_evictable hunmarked).2 ⟨he, hol, hp⟩
      rw [← take_append_drop (excess policy sessions)
        ((agedSessions policy sessions).filter evictable), mem_append] at hc
      refine hc.resolve_right fun hd => ?_
      -- the candidates are sorted, and the evicted ones come first
      have hs : ((agedSessions policy sessions).filter evictable).Pairwise
          GcEntry.Earlier := (pairwise_insertionSort _ _).filter _
      rw [← take_append_drop (excess policy sessions)
        ((agedSessions policy sessions).filter evictable)] at hs
      exact absurd ((pairwise_append.1 hs).2.2 entry htak e hd) (not_le_of_gt hra)
  · intro entry hen hst hr
    have htak := hf entry hen hst hr
    have hle : (evicted policy sessions).length ≤ excess policy sessions := length_take_le _ _
    have hpos := length_pos_of_mem htak
    by_cases hma : policy.maxSessions = 0
    · rw [excess, if_pos hma] at hle
      omega
    · rw [excess, if_neg hma] at hle
      exact ⟨hma, by omega⟩
  · intro hma
    by_cases ha : ((agedSessions policy sessions).filter evictable).length ≤ excess policy sessions
    · refine .inr fun entry hen hk => ?_
      by_contra hunprotected
      refine hk ((hm _).2 ?_)
      cases hol : stale policy entry with
      | true => exact .inl ⟨entry, hen, hol, rfl⟩
      | false =>
        refine .inr ⟨entry, ?_, rfl⟩
        rw [evicted, take_of_length_le ha]
        exact (mem_filter_evictable hunmarked).2 ⟨hen, hol, (not_eq_true _).mp hunprotected⟩
    · refine .inl ?_
      have htak : (evicted policy sessions).length = excess policy sessions := by
        rw [evicted, length_take]
        omega
      rw [excess, if_neg hma] at htak
      omega

/-- Sessions of which none is stale, and which are not too many or all protected, stay. -/
lemma selectedIds_eq_nil (hunmarked : ∀ entry ∈ sessions, entry.remove = false)
    (hfr : ∀ entry ∈ sessions, stale policy entry = false)
    (hf : policy.maxSessions ≠ 0 → sessions.length ≤ policy.maxSessions.toNat ∨
    ∀ entry ∈ sessions, entry.protectedNamespace) : selectedIds policy sessions = [] := by
  refine eq_nil_iff_forall_not_mem.2 fun id hi => ?_
  obtain ⟨entry, he, ho, -⟩ | ⟨entry, he, -⟩ := (mem_selectedIds hunmarked).1 hi
  · rw [hfr entry he] at ho
    cases ho
  · obtain ⟨hm, -, hu⟩ := (mem_filter_evictable hunmarked).1 (mem_of_mem_take he)
    have hle : (evicted policy sessions).length ≤ excess policy sessions := length_take_le _ _
    have hpos := length_pos_of_mem he
    by_cases hma : policy.maxSessions = 0
    · rw [excess, if_pos hma] at hle
      omega
    · obtain hl | ha := hf hma
      · rw [excess, if_neg hma] at hle
        omega
      · rw [ha entry hm] at hu
        cases hu

end AxiomKernel.Qwen38.SessionStore
