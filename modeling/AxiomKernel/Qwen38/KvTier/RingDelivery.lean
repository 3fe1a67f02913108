import AxiomKernel.Qwen38.KvTier.Ring

/-!
Every accepted request is handed out once. What `submit` accepted is what was handed out and what is
still outstanding, as long as no `wait` gives up completions that it had already claimed.
-/
namespace AxiomKernel.Qwen38.KvTier

open List Machine Nat
open Option hiding mem_map

def activeCalls (slots : List Slot) : List Nat := (slots.filter (·.active)).map (·.call)

def Tier.pendingCalls (tier : Tier) : List Nat :=
  match tier.backend with
  | .ioUringDirect => activeCalls tier.slots
  | .syncDirect => tier.syncCompletions.map (·.call)

variable {slots : List Slot} {i : Nat} {slot : Slot}

lemma set_split (h : slots[i]? = some slot) (new : Slot) :
    slots = slots.take i ++ slot :: slots.drop (i + 1) ∧
    slots.set i new = slots.take i ++ new :: slots.drop (i + 1) := by
  obtain ⟨hl, he⟩ := List.getElem?_eq_some_iff.1 h
  constructor
  · rw [← he, ← drop_eq_getElem_cons hl, take_append_drop]
  · rw [set_eq_take_append_cons_drop, if_pos hl]

lemma activeCalls_clear (h : slots[i]? = some slot) (ha : slot.active) :
    (activeCalls slots).Perm (slot.call :: activeCalls (slots.set i {})) := by
  obtain ⟨ho, hn⟩ := set_split h {}
  rw [activeCalls, activeCalls, hn]
  conv => lhs; rw [ho]
  simp only [filter_append, map_append, filter_cons, ha, if_true,
    map_cons, Bool.false_eq_true, if_false]
  exact perm_middle

lemma activeCalls_set {f : Slot} (h : slots[i]? = some f) (hf : f.active = false) (new : Slot) :
    (activeCalls (slots.set i new)).Perm
    (if new.active then new.call :: activeCalls slots else activeCalls slots) := by
  obtain ⟨ho, hn⟩ := set_split h new
  rw [activeCalls, activeCalls, hn]
  conv => rhs; rw [ho]
  simp only [filter_append, map_append, filter_cons, hf, Bool.false_eq_true, if_false]
  split
  · rw [map_cons]
    exact perm_middle
  · exact .refl _

lemma drain_perm (tier : Tier) (ready : List Cqe) : (activeCalls tier.slots).Perm
    ((drain tier ready).2.1.map Report.owner ++ activeCalls (drain tier ready).1.slots) ∧
    (drain tier ready).1.outstanding = tier.outstanding - (drain tier ready).2.1.length := by
  induction ready generalizing tier with
  | nil => exact ⟨.refl _, rfl⟩
  | cons cqe ready ih =>
    rw [drain]
    split
    · exact ⟨.refl _, rfl⟩
    · rename_i cl re hc
      obtain ⟨slot, hn, hsl, hou, -, ho, -⟩ := claim_eq_some hc
      obtain ⟨-, hs, ha⟩ := namedSlot_eq_some.1 hn
      obtain ⟨hp, hco⟩ := ih cl
      have hfi := activeCalls_clear hs ha
      rw [← hsl, ← ho] at hfi
      refine ⟨hfi.trans (hp.cons _), ?_⟩
      change (drain cl ready).1.outstanding = tier.outstanding - ((drain cl ready).2.1.length + 1)
      rw [hco, hou]
      omega

lemma drain_length_le (tier : Tier) (ready : List Cqe) :
    (drain tier ready).2.1.length ≤ ready.length ∧
    ((drain tier ready).2.2 → (drain tier ready).2.1.length = ready.length) := by
  induction ready generalizing tier with
  | nil => exact ⟨le_refl 0, fun _ => rfl⟩
  | cons cqe ready ih =>
    rw [drain]
    split
    · exact ⟨zero_le _, fun h => by cases h⟩
    · rename_i cl re hc
      obtain ⟨hl, ha⟩ := ih cl
      exact ⟨succ_le_succ hl, fun h => congrArg succ (ha h)⟩

def OwnSlots (slots : List Slot) (ready : List Cqe) : Prop :=
  (∀ cqe ∈ ready, (namedSlot slots cqe).isSome) ∧ (ready.map (·.userData)).Nodup

variable {cqe : Cqe} {userData : UInt64} {taken : Option Nat} {status : Status}
  {minComplete capacity : Nat}

lemma namedSlot_clear {o : Cqe} (h : (namedSlot slots cqe).isSome) :
    (namedSlot (slots.set (cqe.userData.toNat - 1) {}) o).isSome ↔
    (namedSlot slots o).isSome ∧ o.userData ≠ cqe.userData := by
  obtain ⟨slot, hs⟩ := isSome_iff_exists.1 h
  obtain ⟨hp, hg, ha⟩ := namedSlot_eq_some.1 hs
  obtain ⟨hl, -⟩ := List.getElem?_eq_some_iff.1 hg
  have hd : o.userData = cqe.userData ↔
      o.userData.toNat = cqe.userData.toNat := UInt64.toNat_inj.symm
  rw [ne_eq, hd]
  simp only [isSome_iff_exists, namedSlot_eq_some]
  constructor
  · rintro ⟨f, hfn, hfo, hf⟩
    by_cases he : o.userData.toNat - 1 = cqe.userData.toNat - 1
    · rw [he, List.getElem?_set_self hl] at hfo
      rw [← some.inj hfo] at hf
      cases hf
    · rw [List.getElem?_set_ne (Ne.symm he)] at hfo
      exact ⟨⟨f, hfn, hfo, hf⟩, fun h => he (by rw [h])⟩
  · rintro ⟨⟨f, hfn, hfo, hf⟩, hn⟩
    refine ⟨f, hfn, ?_, hf⟩
    rw [List.getElem?_set_ne (by omega)]
    exact hfo

variable {tier : Tier} {ready : List Cqe}

lemma drain_whole_iff : (drain tier ready).2.2 ↔ OwnSlots tier.slots ready := by
  induction ready generalizing tier with
  | nil => simp [drain, OwnSlots]
  | cons cqe ready ih =>
    rw [drain]
    split
    · rename_i hcl
      rw [claim_eq_none] at hcl
      simp [OwnSlots, hcl]
    · rename_i cl re hcl
      obtain ⟨slot, hna, hsl, -⟩ := claim_eq_some hcl
      have hs : (namedSlot tier.slots cqe).isSome := by rw [hna]; rfl
      change (drain cl ready).2.2 = true ↔ _
      rw [ih, OwnSlots, OwnSlots, hsl]
      simp only [namedSlot_clear hs, mem_cons, forall_eq_or_imp, hs, true_and,
        map_cons, nodup_cons, mem_map, not_exists, not_and]
      constructor
      · rintro ⟨ha, hn⟩
        exact ⟨fun c hc => (ha c hc).1, fun c hc => (ha c hc).2, hn⟩
      · rintro ⟨ha, hne, hn⟩
        exact ⟨fun c hc => ⟨ha c hc, hne c hc⟩, hn⟩

lemma drain_active (h : (drain tier ready).1.slots[i]? = some slot) (ha : slot.active)
    : tier.slots[i]? = some slot := by
  induction ready generalizing tier with
  | nil => exact h
  | cons cqe ready ih =>
    rw [drain] at h
    split at h
    · exact h
    · rename_i cl re hc
      obtain ⟨-, -, hs, -⟩ := claim_eq_some hc
      have hclai := ih h
      rw [hs, getElem?_set] at hclai
      split at hclai
      · split at hclai
        · rw [← some.inj hclai] at ha
          cases ha
        · cases hclai
      · exact hclai

lemma drain_slots_ne (h : (namedSlot tier.slots cqe).isSome) :
    (drain tier (cqe :: ready)).1.slots ≠ tier.slots := by
  obtain ⟨slot, hs⟩ := isSome_iff_exists.1 h
  obtain ⟨-, hg, ha⟩ := namedSlot_eq_some.1 hs
  obtain ⟨hl, -⟩ := List.getElem?_eq_some_iff.1 hg
  intro he
  rw [← he, drain] at hg
  split at hg
  · rename_i hc
    rw [claim_eq_none, hs] at hc
    cases hc
  · rename_i cl re hc
    obtain ⟨-, -, hsl, -⟩ := claim_eq_some hc
    have hclai := drain_active hg ha
    rw [hsl, List.getElem?_set_self hl] at hclai
    rw [← some.inj hclai] at ha
    cases ha

def acceptedCalls (outcomes : List Outcome) : List Nat := outcomes.filterMap fun
    | .submitted call _ .ok _ => some call
    | _ => none

/-- What calls of `wait` that returned OK handed out. -/
def reportedCalls (outcomes : List Outcome) : List Nat := outcomes.flatMap fun
    | .waited .ok reports => reports.map (·.owner)
    | _ => []

structure Delivered (tier : Tier) (outcomes : List Outcome) : Prop where
  once : ∀ call ∈ acceptedCalls outcomes,
    (reportedCalls outcomes).count call + tier.pendingCalls.count call = 1
  accepted : ∀ call ∈ reportedCalls outcomes, call ∈ acceptedCalls outcomes
  outstanding : tier.outstanding = tier.pendingCalls.length

/-- A `wait` that returns an error has consumed nothing. -/
def WaitHarmless (tier : Tier) : Action → Prop
  | .wait minComplete capacity enter =>
    (∀ reports, (wait tier minComplete capacity enter).2 ≠ .waited .ok reports) →
      (wait tier minComplete capacity enter).1 = tier
  | _ => True

/-- Where a `wait` comes to read completions, it finds none that it can claim, or it can claim all
of those it reads and they are enough. -/
def CleanWait (tier : Tier) : Action → Prop
  | .wait minComplete capacity enter =>
    reachesDrain tier minComplete capacity enter = true →
      (∀ cqe ∈ (tier.cq.take capacity).head?, namedSlot tier.slots cqe = none) ∨
        OwnSlots tier.slots (tier.cq.take capacity) ∧ minComplete ≤ (tier.cq.take capacity).length
  | _ => True

/-- The ledger of a run: what was accepted is what was handed out and what is outstanding. -/
structure Ledger (tier : Tier) (outcomes : List Outcome) : Prop where
  balance : (acceptedCalls outcomes).Perm (reportedCalls outcomes ++ tier.pendingCalls)
  distinct : (acceptedCalls outcomes).Nodup
  numbered : ∀ call ∈ acceptedCalls outcomes, call < tier.calls
  outstanding : tier.outstanding = tier.pendingCalls.length

variable {outcomes : List Outcome}

lemma Ledger.delivered (h : Ledger tier outcomes) : Delivered tier outcomes := by
  refine ⟨fun ca hm => ?_, fun ca hm => ?_, h.outstanding⟩
  · rw [← count_append, ← h.balance.count_eq, count_eq_one_of_mem h.distinct hm]
  · exact h.balance.mem_iff.2 (mem_append_left _ hm)

lemma acceptedCalls_append (outcomes : List Outcome) (outcome : Outcome) :
    acceptedCalls (outcomes ++ [outcome]) = acceptedCalls outcomes ++ acceptedCalls [outcome] :=
  filterMap_append

lemma reportedCalls_append (outcomes : List Outcome) (outcome : Outcome) :
    reportedCalls (outcomes ++ [outcome]) = reportedCalls outcomes ++ reportedCalls [outcome] :=
  flatMap_append

variable {tier' : Tier} {outcome : Outcome}

variable (h : Ledger tier outcomes)
include h

lemma Ledger.same (hac : acceptedCalls [outcome] = []) (hre : reportedCalls [outcome] = [])
    (hp : tier'.pendingCalls.Perm tier.pendingCalls) (hc : tier.calls ≤ tier'.calls)
    (ho : tier'.outstanding = tier.outstanding) :
    Ledger tier' (outcomes ++ [outcome]) := by
  have ha : acceptedCalls (outcomes ++ [outcome]) = acceptedCalls outcomes := by
    rw [acceptedCalls_append, hac, append_nil]
  have hr : reportedCalls (outcomes ++ [outcome]) = reportedCalls outcomes := by
    rw [reportedCalls_append, hre, append_nil]
  refine ⟨?_, ?_, ?_, ?_⟩
  · rw [ha, hr]
    exact h.balance.trans (hp.symm.append_left _)
  · rw [ha]
    exact h.distinct
  · rw [ha]
    exact fun ca hm => (h.numbered ca hm).trans_le hc
  · rw [ho, h.outstanding, hp.length_eq]

lemma Ledger.accept (hp : tier'.pendingCalls.Perm (tier.calls :: tier.pendingCalls))
    (hc : tier'.calls = tier.calls + 1)
    (ho : tier'.outstanding = tier.outstanding + 1) :
    Ledger tier' (outcomes ++ [.submitted tier.calls userData .ok taken]) := by
  have ha : acceptedCalls (outcomes ++ [.submitted tier.calls userData .ok taken]) =
      acceptedCalls outcomes ++ [tier.calls] := acceptedCalls_append _ _
  have hr : reportedCalls (outcomes ++ [.submitted tier.calls userData .ok taken]) =
      reportedCalls outcomes := by
    rw [reportedCalls_append]
    exact append_nil _
  refine ⟨?_, ?_, ?_, ?_⟩
  · rw [ha, hr]
    have hnew := (h.balance.append_right [tier.calls]).trans (by rw [append_assoc])
    exact hnew.trans ((perm_append_singleton _ _).trans hp.symm |>.append_left _)
  · rw [ha, nodup_append]
    refine ⟨h.distinct, nodup_singleton _, fun a hm b hb => ?_⟩
    rw [mem_singleton.1 hb]
    exact (h.numbered a hm).ne
  · rw [ha, hc]
    intro ca hm
    obtain hm | hm := mem_append.1 hm
    · exact lt_succ_of_lt (h.numbered ca hm)
    · rw [mem_singleton.1 hm]
      exact lt_succ_self _
  · rw [ho, h.outstanding, hp.length_eq, length_cons]

lemma Ledger.handOut {rs : List Report}
    (hp : tier.pendingCalls.Perm (rs.map (·.owner) ++ tier'.pendingCalls))
    (hc : tier'.calls = tier.calls)
    (ho : tier'.outstanding = tier.outstanding - rs.length) :
    Ledger tier' (outcomes ++ [.waited .ok rs]) := by
  have ha : acceptedCalls (outcomes ++ [.waited .ok rs]) = acceptedCalls outcomes := by
    rw [acceptedCalls_append]
    exact append_nil _
  have hr : reportedCalls (outcomes ++ [.waited .ok rs]) =
      reportedCalls outcomes ++ rs.map (·.owner) := by
    rw [reportedCalls_append, reportedCalls, reportedCalls, flatMap_singleton]
  have hl := hp.length_eq
  rw [length_append, length_map] at hl
  refine ⟨?_, ?_, ?_, ?_⟩
  · rw [ha, hr, append_assoc]
    exact h.balance.trans (hp.append_left _)
  · rw [ha]
    exact h.distinct
  · rw [ha, hc]
    exact h.numbered
  · rw [ho, h.outstanding]
    omega

omit h

lemma pendingCalls_ring (h : tier.backend = .ioUringDirect) :
    tier.pendingCalls = activeCalls tier.slots := by
  rw [Tier.pendingCalls, h]

lemma pendingCalls_sync (h : tier.backend = .syncDirect) :
    tier.pendingCalls = tier.syncCompletions.map (·.call) := by
  rw [Tier.pendingCalls, h]

lemma acceptedCalls_refused {ca : Nat} (h : status ≠ .ok) :
    acceptedCalls [.submitted ca userData status taken] = [] := by
  cases status with
  | ok => exact absurd rfl h
  | _ => rfl

lemma reportedCalls_refused : reportedCalls [.waited status []] = [] := by
  cases status <;> rfl

lemma Ledger.submit {re : Request} {enter : Enter} (h : Ledger tier outcomes)
    (hcs : SubmitCase tier re enter tier' outcome) :
    Ledger tier' (outcomes ++ [outcome]) := by
  cases hcs with
  | refused rs ws status hst he =>
    exact h.same (acceptedCalls_refused hst) rfl (.refl _) (le_succ _) rfl
  | published rs ws o slot he hr hf hn =>
    obtain ⟨f, hs, hi⟩ := firstFree_some hf
    refine h.same rfl rfl ?_ (le_succ _) rfl
    rw [pendingCalls_ring hr, pendingCalls_ring (by exact hr)]
    exact activeCalls_set hs hi {}
  | taken rs ws o slot first rest he hr hf ht hsq =>
    obtain ⟨f, hs, hi⟩ := firstFree_some hf
    refine h.accept ?_ rfl rfl
    rw [pendingCalls_ring hr, pendingCalls_ring (by exact hr)]
    exact activeCalls_set hs hi (slotOf re tier.calls)
  | synchronous rs ws co he hsy hc hd =>
    refine h.accept ?_ rfl rfl
    rw [pendingCalls_sync hsy, pendingCalls_sync (by exact hsy), map_append]
    rw [map_singleton, hc]
    exact perm_append_singleton _ _

lemma Ledger.complete {tier : Tier} {outcomes : List Outcome} (h : Ledger tier outcomes)
    (ind : Nat) (res : Int) : Ledger (complete tier ind res) (outcomes ++ [.completed]) := by
  rw [KvTier.complete]
  split
  · exact h.same rfl rfl (.refl _) (le_refl _) rfl
  · exact h.same rfl rfl (.refl _) (le_refl _) rfl

lemma drain_of_head (h : ∀ cqe ∈ ready.head?, namedSlot tier.slots cqe = none) :
    (drain tier ready).1 = tier ∧ (drain tier ready).2.1 = [] ∧
    ((drain tier ready).2.2 → ready = []) := by
  cases ready with
  | nil => exact ⟨rfl, rfl, fun _ => rfl⟩
  | cons cqe ready =>
    have hc : claim tier cqe = none := claim_eq_none.2 (h cqe rfl)
    rw [drain, hc]
    exact ⟨rfl, rfl, fun h => absurd h Bool.false_ne_true⟩

/-- On the synchronous backend a `wait` finds what it asks for. -/
lemma Ledger.enough (h : Ledger tier outcomes) (hs : tier.backend = .syncDirect)
    (hc : minComplete ≤ capacity) (ho : minComplete ≤ tier.outstanding) :
    minComplete ≤ (drainSync tier (tier.syncCompletions.take capacity)).2.length := by
  have hpend := h.outstanding
  rw [pendingCalls_sync hs, length_map] at hpend
  obtain ⟨-, -, -, hl, -⟩ := drainSync_spec tier (tier.syncCompletions.take capacity)
  rw [hl, length_take]
  omega

lemma Ledger.wait {enter : WaitEnter} (h : Ledger tier outcomes)
    (hcl : CleanWait tier (.wait minComplete capacity enter))
    (hcs : WaitCase tier minComplete capacity enter tier' outcome) :
    Ledger tier' (outcomes ++ [outcome]) := by
  cases hcs with
  | refused status hsta hd =>
    exact h.same rfl reportedCalls_refused (.refl _) (le_refl _) rfl
  | stopped hd hr hst =>
    obtain hh | ⟨ho, -⟩ := hcl hd
    · rw [(drain_of_head hh).1]
      exact h.same rfl rfl (.refl _) (le_refl _) rfl
    · rw [drain_whole_iff.2 ho] at hst
      cases hst
  | short hd hr hw hsh =>
    obtain hh | ⟨ho, hm⟩ := hcl hd
    · rw [(drain_of_head hh).1]
      exact h.same rfl rfl (.refl _) (le_refl _) rfl
    · rw [(drain_length_le tier _).2 hw] at hsh
      exact absurd hm (not_le.2 hsh)
  | served hd hr hw he =>
    obtain ⟨hp, hco⟩ := drain_perm tier (tier.cq.take capacity)
    obtain ⟨-, hb, -, -, -, -, -, hca, -⟩ := drain_sameQueues tier (tier.cq.take capacity)
    refine h.handOut ?_ hca hco
    rw [pendingCalls_ring hr, pendingCalls_ring (by exact hb.trans hr)]
    exact hp
  | synchronous hd hsy hc hou status rs hs hsh =>
    obtain ⟨rfl, rfl⟩ := hs (h.enough hsy hc hou)
    obtain ⟨-, ⟨-, hb, -, -, -, -, -, hca, -⟩, hco, hl, howne, -⟩ :=
      drainSync_spec tier (tier.syncCompletions.take capacity)
    refine h.handOut ?_ hca (by rw [hl]; exact hco)
    rw [pendingCalls_sync hsy, pendingCalls_sync (by exact hb.trans hsy), howne,
      ← map_append, take_append_drop]

variable {action : Action}

lemma Ledger.keeps (h : Ledger tier outcomes) (hc : CleanWait tier action) :
    Ledger (step tier action).1 (outcomes ++ [(step tier action).2]) := by
  cases action with
  | submit re enter tr =>
    exact h.submit (submit_cases tier re enter tr)
  | complete ind res => exact h.complete ind res
  | wait minComplete capacity enter =>
    exact h.wait hc (wait_cases tier minComplete capacity enter)

lemma Ledger.waitHarmless (h : Ledger tier outcomes) (hcl : CleanWait tier action) :
    WaitHarmless tier action := by
  cases action with
  | submit re enter tr => trivial
  | complete ind res => trivial
  | wait minComplete capacity enter =>
    have hcs := wait_cases tier minComplete capacity enter
    rw [WaitHarmless]
    generalize (KvTier.wait tier minComplete capacity enter).1 = tier' at hcs ⊢
    generalize (KvTier.wait tier minComplete capacity enter).2 = outcome at hcs ⊢
    intro hf
    cases hcs with
    | refused status hsta hdr => rfl
    | stopped hdr hr hst =>
      obtain hh | ⟨ho, -⟩ := hcl hdr
      · exact (drain_of_head hh).1
      · rw [drain_whole_iff.2 ho] at hst
        cases hst
    | short hdr hr hw hsh =>
      obtain hh | ⟨ho, hm⟩ := hcl hdr
      · -- Nothing was read: there was nothing, or there was no room for it.
        obtain ⟨hs, -, hem⟩ := drain_of_head hh
        have hd : tier.cq.drop capacity = tier.cq := by
          have hspl := take_append_drop capacity tier.cq
          rwa [hem hw, nil_append] at hspl
        rw [hs, hd]
      · rw [(drain_length_le tier _).2 hw] at hsh
        exact absurd hm (not_le.2 hsh)
    | served hdr hr hw he => exact absurd rfl (hf _)
    | synchronous hdr hsy hc hou status rs hse hsh =>
      obtain ⟨rfl, rfl⟩ := hse (h.enough hsy hc hou)
      exact absurd rfl (hf _)

/-- A `wait` that changes nothing when it fails is clean. -/
lemma WaitHarmless.clean (h : WaitHarmless tier action) : CleanWait tier action := by
  cases action with
  | submit re enter tr => trivial
  | complete ind res => trivial
  | wait minComplete capacity enter =>
    intro hre
    have hcs := wait_cases tier minComplete capacity enter
    rw [WaitHarmless] at h
    generalize (wait tier minComplete capacity enter).1 = tier' at hcs h
    generalize (wait tier minComplete capacity enter).2 = outcome at hcs h
    have hu : (drain tier (tier.cq.take capacity)).1.slots = tier.slots →
        ∀ cqe ∈ (tier.cq.take capacity).head?, namedSlot tier.slots cqe = none := by
      intro hsl cqe hh
      by_contra hnamed
      obtain ⟨rest, hr⟩ := head?_eq_some_iff.1 hh
      rw [hr] at hsl
      exact drain_slots_ne (isSome_iff_ne_none.2 hnamed) hsl
    cases hcs with
    | refused status hst hd =>
      rw [hre] at hd
      cases hd
    | stopped hd hrg hsto =>
      have hs := h nofun
      exact .inl (hu (congrArg Tier.slots hs))
    | short hd hrg hw hsh =>
      have hsl := congrArg Tier.slots (h nofun)
      exact .inl (hu hsl)
    | served hd hrg hw he =>
      rw [(drain_length_le tier _).2 hw] at he
      exact .inr ⟨drain_whole_iff.1 hw, he⟩
    | synchronous hd hsy hc ho status rs hse hsh =>
      rw [hre] at hd
      cases hd

lemma ledger_create (p : Plan) (b : Backend) (qd se : Nat) : Ledger (Tier.create p b qd se) [] := by
  have hp : (Tier.create p b qd se).pendingCalls = [] := by
    cases b with
    | syncDirect => rfl
    | ioUringDirect =>
      change ((replicate qd ({} : Slot)).filter (·.active)).map (·.call) = []
      rw [filter_replicate_of_neg Bool.false_ne_true, map_nil]
  refine ⟨?_, nodup_nil, nofun, ?_⟩
  · rw [hp]
    exact .refl _
  · rw [hp]
    rfl

/-- Over every run of `submit`, `wait` and the kernel, on either backend: accepted requests are
handed out once and a failing `wait` has consumed nothing, exactly if every `wait` that comes to
read completions can claim none of them or all it reads and enough. -/
theorem exactly_once_delivery (plan : Plan) (backend : Backend) (queueDepth sqEntries : Nat)
    (actions : List Action) : ((∀ n, Delivered
          (run step (Tier.create plan backend queueDepth sqEntries) (actions.take n))
          (outputs step (Tier.create plan backend queueDepth sqEntries) (actions.take n))) ∧
        Meets step WaitHarmless (Tier.create plan backend queueDepth sqEntries) actions) ↔
      Meets step CleanWait (Tier.create plan backend queueDepth sqEntries) actions := by
  have hst := ledger_create plan backend queueDepth sqEntries
  have hs : ∀ tier outcomes action, Ledger tier outcomes → CleanWait tier action →
      Ledger (step tier action).1 (outcomes ++ [(step tier action).2]) :=
    fun _ _ _ h => h.keeps
  constructor
  · rintro ⟨-, hh⟩
    exact hh.mono fun _ _ => WaitHarmless.clean
  · intro hc
    refine ⟨fun n => ?_, hc.of_kept hs (fun _ _ _ h => h.waitHarmless) hst⟩
    exact (run_trace_of_meets hs hst (hc.take n)).delivered

/-- Two reads are under way and one is done when a signal ends the `wait` for both: the `wait`
fails, and the read that was done is never handed out. -/
theorem interrupted_wait_loses_completion : ¬ Delivered (run step (onePageTier .ioUringDirect)
          [.submit (pageRead 7) .submitted true, .submit (pageRead 8) .submitted true,
            .complete 0 524288, .wait 2 2 .interrupted]) (outputs step (onePageTier .ioUringDirect)
          [.submit (pageRead 7) .submitted true, .submit (pageRead 8) .submitted true,
            .complete 0 524288, .wait 2 2 .interrupted]) ∧
      ¬ Meets step WaitHarmless (onePageTier .ioUringDirect)
        [.submit (pageRead 7) .submitted true, .submit (pageRead 8) .submitted true,
          .complete 0 524288, .wait 2 2 .interrupted] := by
  have ho : outputs step (onePageTier .ioUringDirect)
      [.submit (pageRead 7) .submitted true, .submit (pageRead 8) .submitted true,
        .complete 0 524288, .wait 2 2 .interrupted] =
      [.submitted 0 7 .ok (some 0), .submitted 1 8 .ok (some 1), .completed, .waited .io []] := by
    decide +kernel
  have hpe : (run step (onePageTier .ioUringDirect)
      [.submit (pageRead 7) .submitted true, .submit (pageRead 8) .submitted true,
        .complete 0 524288, .wait 2 2 .interrupted]).pendingCalls = [1] := by
    decide +kernel
  have hp : (run step (onePageTier .ioUringDirect)
      [.submit (pageRead 7) .submitted true, .submit (pageRead 8) .submitted true,
        .complete 0 524288]).pendingCalls = [0, 1] := by
    decide +kernel
  constructor
  · intro h
    have honce := h.once 0 (by rw [ho]; decide)
    rw [ho, hpe] at honce
    exact absurd honce (by decide)
  · rintro ⟨-, -, -, hw, -⟩
    have hs := congrArg Tier.pendingCalls (hw fun rs he => by
      have hst : (outputs step (onePageTier .ioUringDirect)
        [.submit (pageRead 7) .submitted true, .submit (pageRead 8) .submitted true,
          .complete 0 524288, .wait 2 2 .interrupted])[3]? = some (.waited .ok rs) :=
        congrArg some he
      rw [ho] at hst
      cases hst)
    have haft := hpe.symm.trans (hs.trans hp)
    cases haft

end AxiomKernel.Qwen38.KvTier
