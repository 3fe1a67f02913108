import AxiomKernel.Qwen38.KvTier.Ring

/-!
Whose request a completion reports. As long as the kernel takes only entries of submits that it lets
return, an entry in the kernel and the slot it names belong to the same call.
-/
namespace AxiomKernel.Qwen38.KvTier

open List Machine

/-- The entry's user data names a slot in use, and the slot belongs to the entry's call. -/
def Named (slots : List Slot) (entry : Nat × Nat) : Prop :=
  ∃ slot, 0 < entry.1 ∧ slots[entry.1 - 1]? = some slot ∧ slot.active = true ∧ slot.call = entry.2

structure Linked (slots : List Slot) (entries : List (Nat × Nat)) : Prop where
  named : ∀ entry ∈ entries, Named slots entry
  distinct : (entries.map Prod.fst).Nodup

variable {slots : List Slot}

lemma Linked.perm {xs ys : List (Nat × Nat)} (h : Linked slots xs) (hp : xs.Perm ys) :
    Linked slots ys :=
  ⟨fun e hm => h.named e (hp.mem_iff.2 hm), (hp.map Prod.fst).nodup_iff.1 h.distinct⟩

section
variable {entries : List (Nat × Nat)} {slot : Slot} {i : Nat}

lemma Linked.set_of_ne (h : Linked slots entries) (hn : ∀ e ∈ entries, e.1 - 1 ≠ i) :
    Linked (slots.set i slot) entries := by
  refine ⟨fun e hm => ?_, h.distinct⟩
  obtain ⟨n, hp, hs, ha, hc⟩ := h.named e hm
  exact ⟨n, hp, by rwa [getElem?_set_ne (hn e hm).symm], ha, hc⟩

lemma Linked.ne_of_free (h : Linked slots entries) (hs : slots[i]? = some slot)
    (hf : slot.active = false) : ∀ e ∈ entries, e.1 - 1 ≠ i := by
  rintro e hm rfl
  obtain ⟨n, -, hn, ha, -⟩ := h.named e hm
  rw [hs] at hn
  rw [← Option.some.inj hn, hf] at ha
  cases ha

lemma Linked.cons {f : Slot} (h : Linked slots entries) (hs : slots[i]? = some f)
    (hf : f.active = false) (ha : slot.active) :
    Linked (slots.set i slot) ((i + 1, slot.call) :: entries) := by
  have hne := h.ne_of_free hs hf
  have hl : i < slots.length := (List.getElem?_eq_some_iff.1 hs).1
  have hr : Linked (slots.set i slot) entries := h.set_of_ne hne
  refine ⟨?_, ?_⟩
  · rintro e (_ | ⟨_, hm⟩)
    · exact ⟨slot, Nat.succ_pos i, List.getElem?_set_self hl, ha, rfl⟩
    · exact hr.named e hm
  · rw [map_cons, nodup_cons]
    refine ⟨fun hm => ?_, h.distinct⟩
    obtain ⟨e, he, heq⟩ := mem_map.1 hm
    exact hne e he (by rw [heq, Nat.add_sub_cancel])

lemma Linked.tail {en : Nat × Nat} (h : Linked slots (en :: entries)) :
    Linked (slots.set (en.1 - 1) slot) entries := by
  have hdist := h.distinct
  rw [map_cons, nodup_cons] at hdist
  have hr : Linked slots entries := ⟨fun e hm => h.named e (mem_cons_of_mem en hm), hdist.2⟩
  apply hr.set_of_ne
  intro o hm he
  obtain ⟨-, hp, -⟩ := h.named en mem_cons_self
  obtain ⟨-, hp', -⟩ := hr.named o hm
  exact hdist.1 (mem_map.2 ⟨o, hm, by omega⟩)

end

def Sqe.entry (sqe : Sqe) : Nat × Nat := (sqe.userData.toNat, sqe.call)
def Cqe.entry (cqe : Cqe) : Nat × Nat := (cqe.userData.toNat, cqe.call)

def Tier.entries (tier : Tier) : List (Nat × Nat) :=
  tier.inflight.map Sqe.entry ++ tier.cq.map Cqe.entry

variable {tier : Tier}

lemma drain_linked {re : List Cqe} {rs : List (Nat × Nat)}
    (h : Linked tier.slots (re.map Cqe.entry ++ rs)) :
    (drain tier re).2.2 ∧ Linked (drain tier re).1.slots rs ∧
    (∀ slot ∈ (drain tier re).1.slots, slot.active → slot ∈ tier.slots) ∧
    ∀ rp ∈ (drain tier re).2.1, rp.owner = rp.performed ∧
    ∃ slot ∈ tier.slots, slot.active ∧ slot.call = rp.owner ∧
    slot.userData = rp.completion.userData := by
  induction re generalizing tier with
  | nil => exact ⟨rfl, h, fun slot hm _ => hm, nofun⟩
  | cons cqe re ih =>
    obtain ⟨slot, hpo, hslo, ha, hc⟩ := h.named cqe.entry mem_cons_self
    have hn : namedSlot tier.slots cqe = some slot := namedSlot_eq_some.2 ⟨hpo, hslo, ha⟩
    rw [drain]
    split
    · rename_i hcl
      rw [claim_eq_none, hn] at hcl
      cases hcl
    · rename_i cl rp hcl
      obtain ⟨sl', hs', hsl, -, -, ho, hp, hd⟩ := claim_eq_some hcl
      rw [hn] at hs'
      cases hs'
      have ht : Linked cl.slots (re.map Cqe.entry ++ rs) := by
        rw [hsl]
        exact h.tail
      have hk : ∀ s ∈ cl.slots, s.active = true → s ∈ tier.slots := by
        intro s hm hs
        rw [hsl] at hm
        obtain hm | rfl := mem_or_eq_of_mem_set hm
        · exact hm
        · cases hs
      obtain ⟨hw, hl, hslotsK, hr⟩ := ih ht
      refine ⟨hw, hl, fun s hm hs => hk s (hslotsK s hm hs) hs, ?_⟩
      rintro r (_ | ⟨_, hm⟩)
      · refine ⟨by rw [ho, hp, hc]; rfl, slot, mem_of_getElem? hslo, ha, ho.symm, hd.symm⟩
      · obtain ⟨he, s, hs, hsa, hsc, hsd⟩ := hr r hm
        exact ⟨he, s, hk s hs hsa, hsa, hsc, hsd⟩

/-- Every completion handed out reports the execution of the request that was accepted with its user
data. -/
def Attributed (outcomes : List Outcome) : Prop :=
  ∀ status reports, .waited status reports ∈ outcomes → ∀ report ∈ reports,
    report.owner = report.performed ∧
      ∃ taken, .submitted report.owner report.completion.userData .ok taken ∈ outcomes

/-- The kernel does not take the entry of an earlier call that returned an error. -/
def NotTaken (before after : Outcome) : Prop :=
  ∀ call userData status taken, before = .submitted call userData status taken → status ≠ .ok →
    ∀ call' userData' status', after ≠ .submitted call' userData' status' (some call)

/-- A request for which `submit` returned an error is never executed afterwards. -/
def NeverExecuted (outcomes : List Outcome) : Prop := outcomes.Pairwise NotTaken

/-- When the kernel takes an entry, none was left over in the submission queue. -/
def TakesOwn (tier : Tier) : Action → Prop
  | .submit request .submitted _ => reachesEnter tier request = true → tier.sq = []
  | _ => True

structure Tracked (tier : Tier) (outcomes : List Outcome) : Prop where
  depth : tier.slots.length ≤ 1024
  linked : Linked tier.slots tier.entries
  owned : ∀ slot ∈ tier.slots, slot.active = true →
    ∃ taken, .submitted slot.call slot.userData .ok taken ∈ outcomes
  ready : ∀ completion ∈ tier.syncCompletions,
    ∃ taken, .submitted completion.call completion.userData .ok taken ∈ outcomes
  leftOver : ∀ sqe ∈ tier.sq, ∃ userData status taken,
    .submitted sqe.call userData status taken ∈ outcomes ∧ status ≠ .ok
  numbered : ∀ call userData status taken,
    .submitted call userData status taken ∈ outcomes → call < tier.calls

lemma sqeOf_entry (re : Request) (o : UInt64) {slot : Nat} (ca : Nat)
    (h : slot < 1024) : (sqeOf re o slot ca).entry = (slot + 1, ca) := by
  have ho : (1 : UInt64).toNat = 1 := by decide
  have hn : (UInt64.ofNat slot).toNat = slot := UInt64.toNat_ofNat_of_lt' (h.trans (by decide))
  rw [Sqe.entry, sqeOf, UInt64.toNat_add, hn, ho, Nat.mod_eq_of_lt (by omega)]

variable {outcomes : List Outcome}

lemma Tracked.numbered_append (h : Tracked tier outcomes) (ud : UInt64) (st : Status)
    (ta : Option Nat) :
    ∀ ca ud' st' ta', .submitted ca ud' st' ta' ∈
    outcomes ++ [.submitted tier.calls ud st ta] → ca < tier.calls + 1 := by
  intro ca ud' st' ta' hm
  obtain hm | hm := mem_append.1 hm
  · exact Nat.lt_succ_of_lt (h.numbered _ _ _ _ hm)
  · have heq := mem_singleton.1 hm
    injection heq with hc
    rw [hc]
    exact Nat.lt_succ_self _

section
variable (h : Tracked tier outcomes) (outcome : Outcome)
include h

lemma Tracked.owned_append : ∀ slot ∈ tier.slots, slot.active →
    ∃ ta, .submitted slot.call slot.userData .ok ta ∈ outcomes ++ [outcome] := by
  intro slot hm ha
  obtain ⟨ta, ht⟩ := h.owned slot hm ha
  exact ⟨ta, mem_append_left _ ht⟩

lemma Tracked.ready_append : ∀ co ∈ tier.syncCompletions,
    ∃ ta, .submitted co.call co.userData .ok ta ∈
    outcomes ++ [outcome] := by
  intro co hm
  obtain ⟨ta, ht⟩ := h.ready co hm
  exact ⟨ta, mem_append_left _ ht⟩

lemma Tracked.leftOver_append : ∀ sqe ∈ tier.sq, ∃ ud st ta,
    .submitted sqe.call ud st ta ∈ outcomes ++ [outcome] ∧ st ≠ .ok := by
  intro sqe hm
  obtain ⟨ud, st, ta, ht, hs⟩ := h.leftOver sqe hm
  exact ⟨ud, st, ta, mem_append_left _ ht, hs⟩

end

variable {outcome : Outcome}

lemma NeverExecuted.append (h : NeverExecuted outcomes) (hl : ∀ b ∈ outcomes, NotTaken b outcome) :
    NeverExecuted (outcomes ++ [outcome]) := by
  rw [NeverExecuted, pairwise_append]
  refine ⟨h, pairwise_singleton _ _, fun b hm af ha => ?_⟩
  rw [mem_singleton.1 ha]
  exact hl b hm

lemma Attributed.append (h : Attributed outcomes)
    (hl : ∀ st rs, outcome = .waited st rs → ∀ re ∈ rs,
    re.owner = re.performed ∧
    ∃ ta, .submitted re.owner re.completion.userData .ok ta ∈ outcomes) :
    Attributed (outcomes ++ [outcome]) := by
  intro st rs hm re hr
  have hi : re.owner = re.performed ∧
      ∃ ta, .submitted re.owner re.completion.userData .ok ta ∈ outcomes := by
    obtain hm | hm := mem_append.1 hm
    · exact h st rs hm re hr
    · exact hl st rs (mem_singleton.1 hm).symm re hr
  obtain ⟨ho, ta, ht⟩ := hi
  exact ⟨ho, ta, mem_append_left _ ht⟩

lemma Tracked.notTaken (h : Tracked tier outcomes) {ud : UInt64} {st : Status}
    {ta : Option Nat} (ht : ta = none ∨ ta = some tier.calls) :
    ∀ b ∈ outcomes, NotTaken b (.submitted tier.calls ud st ta) := by
  rintro b hm ca ud₁ s₁ t₁ rfl - c' ud' st' he
  have hlt := h.numbered _ _ _ _ hm
  injection he with _ _ _ hso
  obtain hno | hown := ht
  · rw [hno] at hso
    cases hso
  · rw [hown] at hso
    cases hso
    exact lt_irrefl _ hlt

variable {tier' : Tier} {action : Action}

/-- A `submit` for which the kernel takes nothing left over keeps the entries with their slots. -/
lemma Tracked.submit {re : Request} {enter : Enter} (h : Tracked tier outcomes)
    (hcs : SubmitCase tier re enter tier' outcome)
    (ho : ∀ tr, TakesOwn tier (.submit re enter tr)) :
    Tracked tier' (outcomes ++ [outcome]) ∧ ∀ b ∈ outcomes, NotTaken b outcome := by
  cases hcs with
  | refused rs ws st hst =>
    exact ⟨⟨h.depth, h.linked, h.owned_append _, h.ready_append _, h.leftOver_append _,
      h.numbered_append _ _ _⟩, h.notTaken (.inl rfl)⟩
  | published rs ws o slot he hr hf hno =>
    obtain ⟨f, hs, hi⟩ := firstFree_some hf
    refine ⟨⟨(length_set).le.trans h.depth,
      h.linked.set_of_ne (h.linked.ne_of_free hs hi), ?_, h.ready_append _, ?_,
      h.numbered_append _ _ _⟩, h.notTaken (.inl rfl)⟩
    · intro s hm ha
      obtain hm | rfl := mem_or_eq_of_mem_set hm
      · exact h.owned_append _ s hm ha
      · cases ha
    · intro sqe hm
      obtain hm | hm := mem_append.1 hm
      · exact h.leftOver_append _ sqe hm
      · rw [mem_singleton.1 hm]
        exact ⟨re.userData, .io, none, mem_append_right _ (mem_singleton.2 rfl),
          by decide⟩
  | taken rs ws o slot first rest he hr hf ht hsq =>
    subst ht
    have hem : tier.sq = [] := ho true he
    rw [hem, nil_append] at hsq
    obtain ⟨rfl, rfl⟩ := List.cons.inj hsq
    obtain ⟨f, hs, hi⟩ := firstFree_some hf
    have hl : slot < 1024 := (List.getElem?_eq_some_iff.1 hs).1.trans_le h.depth
    have hn : Linked (tier.slots.set slot (slotOf re tier.calls))
        ((slot + 1, tier.calls) :: tier.entries) := h.linked.cons hs hi rfl
    refine ⟨⟨(length_set).le.trans h.depth, hn.perm ?_, ?_, h.ready_append _, nofun,
      h.numbered_append _ _ _⟩, h.notTaken (.inr rfl)⟩
    · rw [Tier.entries, Tier.entries, map_append, map_singleton,
        sqeOf_entry re o tier.calls hl, append_assoc]
      exact perm_middle.symm
    · intro s hm ha
      obtain hm | rfl := mem_or_eq_of_mem_set hm
      · exact h.owned_append _ s hm ha
      · exact ⟨_, mem_append_right _ (mem_singleton.2 rfl)⟩
  | synchronous rs ws co he hsy hc hd =>
    refine ⟨⟨h.depth, h.linked, h.owned_append _, ?_, h.leftOver_append _,
      h.numbered_append _ _ _⟩, h.notTaken (.inr rfl)⟩
    intro c hm
    obtain hm | hm := mem_append.1 hm
    · exact h.ready_append _ c hm
    · rw [mem_singleton.1 hm, hc, hd]
      exact ⟨_, mem_append_right _ (mem_singleton.2 rfl)⟩

lemma Tracked.complete (h : Tracked tier outcomes) (ind : Nat) (res : Int) :
    Tracked (complete tier ind res) (outcomes ++ [.completed]) := by
  have hn : ∀ ca ud st ta, .submitted ca ud st ta ∈ outcomes ++ [.completed] → ca < tier.calls := by
    intro ca ud st ta hm
    obtain hm | hm := mem_append.1 hm
    · exact h.numbered _ _ _ _ hm
    · cases mem_singleton.1 hm
  unfold KvTier.complete
  split
  · exact ⟨h.depth, h.linked, h.owned_append _, h.ready_append _, h.leftOver_append _, hn⟩
  · rename_i sqe hs
    refine ⟨h.depth, h.linked.perm ?_, h.owned_append _, h.ready_append _, h.leftOver_append _, hn⟩
    obtain ⟨hl, he⟩ := List.getElem?_eq_some_iff.1 hs
    have hp : (sqe :: tier.inflight.eraseIdx ind).Perm tier.inflight := by
      rw [← he]
      exact getElem_cons_eraseIdx_perm hl
    have hmo : ((sqe :: tier.inflight.eraseIdx ind).map Sqe.entry ++
        tier.cq.map Cqe.entry).Perm ((tier.inflight.eraseIdx ind).map Sqe.entry ++
          (tier.cq.map Cqe.entry ++ [sqe.entry])) := by
      rw [map_cons, cons_append, ← append_assoc]
      exact (perm_append_singleton _ _).symm
    rw [Tier.entries, Tier.entries, map_append, map_singleton]
    exact ((hp.map Sqe.entry).symm.append_right _).trans hmo

/-- A `wait` hands out completions of linked entries only. -/
lemma Tracked.wait {mc capacity : Nat} {enter : WaitEnter} (h : Tracked tier outcomes)
    (hcs : WaitCase tier mc capacity enter tier' outcome) :
    Tracked tier' (outcomes ++ [outcome]) ∧ ∃ sta rs, outcome = .waited sta rs ∧
    ∀ re ∈ rs, re.owner = re.performed ∧
    ∃ ta, .submitted re.owner re.completion.userData .ok ta ∈ outcomes := by
  have hn : ∀ {sta rs} ca ud st ta, .submitted ca ud st ta ∈ outcomes ++ [.waited sta rs] →
        ca < tier.calls := by
    intro sta rs ca ud st ta hm
    obtain hm | hm := mem_append.1 hm
    · exact h.numbered _ _ _ _ hm
    · cases mem_singleton.1 hm
  -- what the loop over the completion queue leaves, with the entries it read taken off
  have hsp : tier.entries.Perm ((tier.cq.take capacity).map Cqe.entry ++
      (tier.inflight.map Sqe.entry ++ (tier.cq.drop capacity).map Cqe.entry)) := by
    rw [Tier.entries]
    conv => lhs; rw [← take_append_drop capacity tier.cq, map_append]
    rw [← append_assoc, ← append_assoc]
    exact perm_append_comm.append_right _
  obtain ⟨hw, hli, hk, hr⟩ := drain_linked (h.linked.perm hsp)
  have hqueu := drain_sameQueues tier (tier.cq.take capacity)
  set drained := (drain tier (tier.cq.take capacity)).1
  obtain ⟨-, -, -, hsq, hi, -, hs, hca, hl⟩ := hqueu
  have ht : ∀ outcome, (∀ ca ud st ta,
      .submitted ca ud st ta ∈ outcomes ++ [outcome] → ca < tier.calls) →
      Tracked { drained with cq := tier.cq.drop capacity } (outcomes ++ [outcome]) := by
    intro outcome hnu
    refine ⟨?_, ?_, ?_, ?_, ?_, ?_⟩
    · exact hl.le.trans h.depth
    · rw [Tier.entries]
      change Linked drained.slots (drained.inflight.map Sqe.entry ++ _)
      rw [hi]
      exact hli
    · exact fun slot hm ha => h.owned_append _ slot (hk slot hm ha) ha
    · intro co hm
      exact h.ready_append _ co (hs ▸ hm)
    · intro sqe hm
      exact h.leftOver_append _ sqe (hsq ▸ hm)
    · intro ca ud st ta hm
      exact (hnu ca ud st ta hm).trans_eq hca.symm
  cases hcs with
  | refused sta hsta hdr =>
    exact ⟨⟨h.depth, h.linked, h.owned_append _, h.ready_append _, h.leftOver_append _,
      hn⟩, sta, [], rfl, nofun⟩
  | stopped hdr hrg hst =>
    rw [hw] at hst
    cases hst
  | short hdr hrg hw hsh =>
    exact ⟨ht _ hn, .io, [], rfl, nofun⟩
  | served hdr hrg hw he =>
    refine ⟨ht _ hn, .ok, _, rfl, fun re hm => ?_⟩
    obtain ⟨ho, slot, hslo, ha, hcl, hd⟩ := hr re hm
    rw [← hcl, ← hd]
    exact ⟨ho ▸ hcl, h.owned slot hslo ha⟩
  | synchronous hdr hs' hcp hou sta rs hse hsh =>
    obtain ⟨hsl, hqueu, -, -, -, hsy⟩ := drainSync_spec tier (tier.syncCompletions.take capacity)
    obtain ⟨-, -, -, hsq, hi, hcq, hs, hca, hl⟩ := hqueu
    refine ⟨⟨?_, ?_, ?_, ?_, ?_, ?_⟩, sta, rs, rfl, fun re hm => ?_⟩
    · exact hl.le.trans h.depth
    · rw [Tier.entries]
      change Linked (drainSync tier _).1.slots ((drainSync tier _).1.inflight.map Sqe.entry ++
        (drainSync tier _).1.cq.map Cqe.entry)
      rw [hsl, hi, hcq]
      exact h.linked
    · exact fun slot hm => h.owned_append _ slot (hsl ▸ hm)
    · exact fun co hm => h.ready_append _ co (mem_of_mem_drop hm)
    · exact fun sqe hm => h.leftOver_append _ sqe (hsq ▸ hm)
    · intro ca ud st ta hm
      exact (hn ca ud st ta hm).trans_eq hca.symm
    · obtain hlt | hle := lt_or_ge (drainSync tier (tier.syncCompletions.take capacity)).2.length mc
      · rw [(hsh hlt).2] at hm
        cases hm
      · rw [(hse hle).2] at hm
        obtain ⟨ho, co, hc, hcl, hd⟩ := hsy re hm
        rw [← hcl, ← hd]
        exact ⟨ho ▸ hcl, h.ready co (mem_of_mem_take hc)⟩

structure Attributes (tier : Tier) (outcomes : List Outcome) : Prop where
  tracked : Tracked tier outcomes
  attributed : Attributed outcomes
  neverExecuted : NeverExecuted outcomes

section
variable (h : Attributes tier outcomes)
include h

lemma Attributes.keeps (how : TakesOwn tier action) :
    Attributes (step tier action).1 (outcomes ++ [(step tier action).2]) := by
  cases action with
  | submit re enter tr =>
    have hcs := submit_cases tier re enter tr
    have ha : ∀ tr, TakesOwn tier (.submit re enter tr) := by
      intro tr'
      cases enter with
      | submitted => exact how
      | none => trivial
    obtain ⟨ht, hn⟩ := h.tracked.submit hcs ha
    refine ⟨ht, h.attributed.append ?_, h.neverExecuted.append hn⟩
    intro sta rs he
    have hs : ∃ ca ud st taken, (submit tier re enter tr).2 =
        .submitted ca ud st taken := ⟨_, _, _, _, rfl⟩
    obtain ⟨ca, ud, st, taken, hsu⟩ := hs
    change (submit tier re enter tr).2 = _ at he
    rw [hsu] at he
    cases he
  | complete ind res =>
    refine ⟨h.tracked.complete ind res, h.attributed.append ?_, h.neverExecuted.append ?_⟩
    · intro sta rs he
      cases he
    · intro b hm ca ud sta taken hp hsta c' ud' sta' he
      cases he
  | wait mc cp enter =>
    obtain ⟨ht, sta, rs, ho, hr⟩ := h.tracked.wait (wait_cases tier mc cp enter)
    refine ⟨ht, h.attributed.append ?_, h.neverExecuted.append ?_⟩
    · intro sta' rs' he
      obtain ⟨rfl, rfl⟩ := Outcome.waited.inj (ho.symm.trans he)
      exact hr
    · intro b hm ca ud st taken hp hst c' ud' st' he
      cases ho.symm.trans he

lemma Attributes.not_neverExecuted {later : List Outcome} (hown : ¬ TakesOwn tier action) :
    ¬ NeverExecuted (outcomes ++ (step tier action).2 :: later) := by
  intro hnev
  cases action with
  | complete index res => exact hown trivial
  | wait minComplete capacity enter => exact hown trivial
  | submit request enter transferred =>
    cases enter with
    | none => exact hown trivial
    | submitted =>
      obtain ⟨hent, hsq⟩ := Classical.not_imp.1 hown
      have hcs := submit_cases tier request .submitted transferred
      change NeverExecuted (outcomes ++ (submit tier request .submitted transferred).2 :: later)
        at hnev
      generalize (submit tier request .submitted transferred).1 = tier' at hcs
      generalize (submit tier request .submitted transferred).2 = outcome at hcs hnev
      cases hcs with
      | refused reads writes status hst href =>
        rw [hent] at href
        cases href
      | published reads writes offset slot hent hrg hfr hno => cases hno
      | synchronous reads writes completion hsy =>
        rw [hent] at hsy
        cases hsy
      | taken reads writes offset slot first rest _ hrg hfr _ hqu =>
        have hfi : first ∈ tier.sq := by
          cases hq : tier.sq with
          | nil => exact absurd hq hsq
          | cons head tail =>
            rw [hq, cons_append] at hqu
            rw [(cons.inj hqu).1]
            exact mem_cons_self
        obtain ⟨userData, status, taken, hm, hst⟩ := h.tracked.leftOver first hfi
        have hnot := (pairwise_append.1 hnev).2.2 _ hm _ mem_cons_self
        exact hnot first.call userData status taken rfl hst _ _ _ rfl

lemma Attributes.run_iff (actions : List Action) :
    (Attributed (outcomes ++ outputs step tier actions) ∧
    NeverExecuted (outcomes ++ outputs step tier actions)) ↔
    Meets step TakesOwn tier actions := by
  induction actions generalizing tier outcomes with
  | nil =>
    rw [outputs_nil, append_nil]
    exact ⟨fun _ => trivial, fun _ => ⟨h.attributed, h.neverExecuted⟩⟩
  | cons action actions ih =>
    rw [outputs_cons, Meets]
    by_cases ho : TakesOwn tier action
    · have hne := ih (h.keeps ho)
      rw [append_assoc, singleton_append] at hne
      rw [hne]
      exact (and_iff_right ho).symm
    · exact ⟨fun hr => absurd hr.2 (h.not_neverExecuted ho), fun hm =>
        absurd hm.1 ho⟩

end

lemma tracked_create (p : Plan) (b : Backend) {qd : Nat} (hd : qd ≤ 1024) (se : Nat) :
    Tracked (Tier.create p b qd se) [] := by
  refine ⟨?_, ⟨nofun, nodup_nil⟩, ?_, nofun, nofun, nofun⟩
  · rw [Tier.create, length_replicate]
    exact hd
  · intro slot hm ha
    rw [eq_of_mem_replicate hm] at ha
    cases ha

/-- Over every run of `submit`, `wait` and the kernel: completions report their own requests and
refused requests are never executed, exactly if no entry was left over in the submission queue
whenever the kernel took one. -/
theorem completion_attribution (plan : Plan) (backend : Backend) {queueDepth : Nat}
    (hdepth : queueDepth ≤ 1024) (sqEntries : Nat) (actions : List Action) :
    (Attributed (outputs step (Tier.create plan backend queueDepth sqEntries) actions) ∧
        NeverExecuted (outputs step (Tier.create plan backend queueDepth sqEntries) actions)) ↔
      Meets step TakesOwn (Tier.create plan backend queueDepth sqEntries) actions := by
  have hs : Attributes (Tier.create plan backend queueDepth sqEntries) [] :=
    ⟨tracked_create plan backend hdepth sqEntries, nofun, List.Pairwise.nil⟩
  exact hs.run_iff actions

theorem completion_attribution_read : Attributed (outputs step (onePageTier .ioUringDirect)
      [.submit (pageRead 7) .submitted true, .complete 0 524288, .wait 1 1 .returned]) :=
  have hme : Meets step TakesOwn (onePageTier .ioUringDirect)
      [.submit (pageRead 7) .submitted true, .complete 0 524288, .wait 1 1 .returned] :=
    ⟨fun _ => rfl, trivial, trivial, trivial⟩
  ((completion_attribution onePagePlan .ioUringDirect (show 2 ≤ 1024 by decide) 2 _).2 hme).1

/-- The kernel submits nothing for a first read. For the second one it takes the entry of the first,
whose result is then reported for the second. -/
theorem completion_misattributed : ¬ Attributed (outputs step (onePageTier .ioUringDirect)
        [.submit (pageRead 7) .none true, .submit (pageRead 8) .submitted true,
          .complete 0 524288, .wait 1 1 .returned]) ∧
      ¬ NeverExecuted (outputs step (onePageTier .ioUringDirect)
        [.submit (pageRead 7) .none true, .submit (pageRead 8) .submitted true]) := by
  have hr : outputs step (onePageTier .ioUringDirect)
      [.submit (pageRead 7) .none true, .submit (pageRead 8) .submitted true, .complete 0 524288,
        .wait 1 1 .returned] =
      [.submitted 0 7 .io none, .submitted 1 8 .ok (some 0), .completed,
        .waited .ok [⟨⟨1, kRead, .ok, 524288, 8⟩, 1, 0⟩]] := by decide +kernel
  have hs : outputs step (onePageTier .ioUringDirect)
      [.submit (pageRead 7) .none true, .submit (pageRead 8) .submitted true] =
      [.submitted 0 7 .io none, .submitted 1 8 .ok (some 0)] := by decide +kernel
  constructor
  · rw [hr]
    intro h
    have hown := (h .ok [⟨⟨1, kRead, .ok, 524288, 8⟩, 1, 0⟩] (by simp) _ (mem_singleton.2 rfl)).1
    cases hown
  · rw [hs]
    intro h
    have hnot := (pairwise_cons.1 h).1 _ (mem_singleton.2 rfl)
    exact hnot 0 7 .io none rfl (by decide) 1 8 .ok rfl

end AxiomKernel.Qwen38.KvTier
