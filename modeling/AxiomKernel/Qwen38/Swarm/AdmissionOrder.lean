import AxiomKernel.Qwen38.Swarm.Cancellation

/-!
# The order of admission

`submit` and a scheduled retry hand out the places in the queue. None is handed out twice, and a
task keeps the one of its submission until its first attempt, so `admit_next` takes the tasks of one
priority in the order they were submitted.
-/
namespace AxiomKernel.Swarm

open List Registry Option Nat

variable {s s₀ s' : State} {now : TimePoint} {id : Nat} {t u : TaskRecord}

section
variable {e b x : Nat × TaskRecord} {best : Option (Nat × TaskRecord)}

lemma precedes_iff : precedes e b ↔
    b.2.spec.priority < e.2.spec.priority ∨ e.2.spec.priority = b.2.spec.priority ∧
    (e.2.queueSequence < b.2.queueSequence ∨
    e.2.queueSequence = b.2.queueSequence ∧ e.1 < b.1) := by
  simp [precedes]

/-- A turn keeps an entry that neither the old one nor an eligible new one precedes. -/
lemma betterTask_first (he : best = some e ∨ e = x ∧ eligible s now e.2) :
    ∃ b, betterTask s now best x = some b ∧ ¬ precedes e b := by
  simp only [precedes_iff]
  unfold betterTask
  split_ifs with hb
  · refine ⟨x, rfl, ?_⟩
    rcases he with rfl | ⟨rfl, -⟩
    · rw [Bool.and_eq_true, all_some, precedes_iff] at hb
      omega
    · omega
  · rcases he with rfl | ⟨rfl, hel⟩
    · exact ⟨e, rfl, by omega⟩
    · cases best with
      | none => simp [hel] at hb
      | some b =>
        rw [hel, Bool.true_and, all_some, precedes_iff] at hb
        exact ⟨b, rfl, hb⟩

lemma foldl_betterTask (es : List (Nat × TaskRecord))
    (he : best = some e ∨ e ∈ es ∧ eligible s now e.2) :
    ∃ b, es.foldl (betterTask s now) best = some b ∧ ¬ precedes e b := by
  induction es generalizing best e with
  | nil => exact ⟨e, he.resolve_right (by simp), by rw [precedes_iff]; omega⟩
  | cons x es ih =>
    by_cases ht : best = some e ∨ e = x ∧ eligible s now e.2
    · obtain ⟨b, hb, hl⟩ := betterTask_first ht
      obtain ⟨c, hc, hl'⟩ := ih (.inl hb)
      refine ⟨c, hc, ?_⟩
      rw [precedes_iff] at hl hl' ⊢
      omega
    · refine ih (.inr ?_)
      rw [mem_cons] at he
      tauto

end

lemma selectedTask_first (hf : s.tasks.find id = some t) (he : eligible s now t) :
    ∃ b, selectedTask s now = some b ∧ ¬ precedes (id, t) b :=
  foldl_betterTask _ (.inr ⟨mem_entries_iff.2 hf, he⟩)

/-- There is a global slot, an agent with room and a task that may be admitted. -/
def Ready (s : State) (now : TimePoint) : Prop := s.activeTasks < s.config.maxConcurrent ∧
  (∃ id agent, s.agents.find id = some agent ∧ agent.hasRoom = true) ∧
  ∃ id t, s.tasks.find id = some t ∧ eligible s now t = true

lemma isSome_admitNext : (admitNext s now).2.isSome ↔ Ready (expireRunning s now) now := by
  constructor
  · intro h
    rcases admitNext_cases s now with heq | ⟨ai, ag, id, t, hr, hag, ht, -⟩
    · simp [heq] at h
    · exact ⟨hr, ⟨ai, ag, selectedAgent_spec hag⟩, id, t, selectedTask_spec ht⟩
  · rintro ⟨hr, ⟨ai, ag, hag, hi⟩, id, t, hf, he⟩
    obtain ⟨b, hb, -⟩ := selectedTask_first hf he
    obtain ⟨a, ha⟩ : ∃ a, selectedAgent (expireRunning s now) = some a := by
      rw [← isSome_iff_exists, selectedAgent, find?_isSome]
      exact ⟨(ai, ag), mem_entries_iff.2 hag, hi⟩
    simp [admitNext, not_le.2 hr, ha, hb]

def TaskRecord.Fresh (t : TaskRecord) : Prop := t.attemptsStarted = 0 →
  isTerminal t.state = true ∨ t.state = .queued ∧ t.cancellationRequested = false

/-- No two tasks have the same place, one that was never admitted stands before every task submitted
after it, and a retry since `s₀` is behind all places that were taken then. -/
structure InPlace (s₀ s : State) : Prop where
  below : ∀ id t, s.tasks.find id = some t → t.queueSequence < s.nextQueueSequence
  order : ∀ id id' t t', s.tasks.find id = some t → s.tasks.find id' = some t' → id < id' →
    t.queueSequence ≠ t'.queueSequence ∧
      (t.attemptsStarted = 0 → t.queueSequence < t'.queueSequence)
  fresh : ∀ id t, s.tasks.find id = some t → t.Fresh
  since : s₀.nextQueueSequence ≤ s.nextQueueSequence
  retried : ∀ id t u, s₀.tasks.find id = some t → s.tasks.find id = some u →
    u.state = .retryWait → t.state = .retryWait ∨ s₀.nextQueueSequence ≤ u.queueSequence

lemma find_modify_some (hf : s.tasks.find id = some t) (a : Nat) :
    (s.tasks.modify id fun _ => u).find a = if a = id then some u else s.tasks.find a := by
  rw [find_modify]
  split_ifs with ha
  · rw [ha, hf]
    rfl
  · rfl

lemma recomputeWaveOf_nextQueueSequence (s : State) (ta : TaskRecord) :
    (recomputeWaveOf s ta).nextQueueSequence = s.nextQueueSequence := by
  unfold recomputeWaveOf
  split <;> rfl

namespace InPlace
variable (h : InPlace s₀ s)
include h

/-- One task is changed or added. It has the place it had, or the next one. -/
lemma put (id : Nat) (hg : ∀ a, s'.tasks.find a = if a = id then some u else s.tasks.find a)
    (hne : s.nextQueueSequence ≤ s'.nextQueueSequence) (hfr : u.Fresh)
    (hs : (∃ t, s.tasks.find id = some t ∧ u.queueSequence = t.queueSequence ∧
    t.attemptsStarted ≤ u.attemptsStarted ∧ (u.state = .retryWait → t.state = .retryWait)) ∨
    u.queueSequence = s.nextQueueSequence ∧ s.nextQueueSequence < s'.nextQueueSequence ∧
    (u.attemptsStarted = 0 → s.tasks.nextId = id)) : InPlace s₀ s' := by
  have hat {a : Nat} {v : TaskRecord} (hv : s'.tasks.find a = some v) :
      a = id ∧ v = u ∨ s.tasks.find a = some v := by
    rw [hg] at hv
    split_ifs at hv with he
    · exact .inl ⟨he, (some.inj hv).symm⟩
    · exact .inr hv
  refine ⟨fun a v hv => ?_, fun a b v w hv hw hl => ?_, fun a v hv => ?_, h.since.trans hne,
    fun a v w hv hw hst => ?_⟩
  · rcases hat hv with ⟨rfl, rfl⟩ | hv
    · rcases hs with ⟨t, ht, he, -⟩ | ⟨he, hl, -⟩
      · rw [he]
        exact (h.below a t ht).trans_le hne
      · rwa [he]
    · exact (h.below a v hv).trans_le hne
  · rcases hat hv with ⟨rfl, rfl⟩ | hv <;> rcases hat hw with ⟨rfl, rfl⟩ | hw
    · exact absurd hl (lt_irrefl _)
    · have := h.below b w hw
      have := lt_nextId (isSome_of_mem hw)
      rcases hs with ⟨t, ht, he, ha, -⟩ | ⟨he, -, hn⟩
      · have := h.order a b t w ht hw hl
        omega
      · omega
    · have := h.below a v hv
      rcases hs with ⟨t, ht, he, -⟩ | ⟨he, -⟩
      · rw [he]
        exact h.order a b v t hv ht hl
      · omega
    · exact h.order a b v w hv hw hl
  · rcases hat hv with ⟨rfl, rfl⟩ | hv
    · exact hfr
    · exact h.fresh a v hv
  · rcases hat hw with ⟨rfl, rfl⟩ | hw
    · rcases hs with ⟨t, ht, he, -, hwt⟩ | ⟨he, -⟩
      · rw [he]
        exact h.retried a v t hv ht (hwt hst)
      · exact .inr (he ▸ h.since)
    · exact h.retried a v w hv hw hst

section
variable (hf : s.tasks.find id = some t)
include hf

lemma keep (ht : s'.tasks = s.tasks.modify id fun _ => u)
    (hn : s'.nextQueueSequence = s.nextQueueSequence) (hfr : u.Fresh)
    (he : u.queueSequence = t.queueSequence) (ha : t.attemptsStarted ≤ u.attemptsStarted)
    (hw : u.state = .retryWait → t.state = .retryWait) : InPlace s₀ s' :=
  h.put id (fun a => ht ▸ find_modify_some hf a) hn.ge hfr (.inl ⟨t, hf, he, ha, hw⟩)

lemma finishAttempt (hr : t.isRunning) (tokensUsed : Nat) (o : TaskOutcome)
    (now : TimePoint) (re : String) :
    InPlace s₀ (finishAttempt s id { t with tokensUsed } o now re) := by
  have hp : t.attemptsStarted ≠ 0 := by
    intro hz
    have hfr := h.fresh id t hf hz
    rw [isTerminal_of_isRunning hr] at hfr
    simp_all [TaskRecord.isRunning]
  refine h.put (u := finishedTask { t with tokensUsed } o now re s.nextQueueSequence) id
    (fun a => ?_) ?_ (fun hz => absurd hz (by simpa using hp)) ?_
  · rw [finishAttempt_tasks]
    exact find_modify_some hf a
  · simp only [Swarm.finishAttempt, recomputeWaveOf_nextQueueSequence]
    split <;> omega
  · simp only [Swarm.finishAttempt, recomputeWaveOf_nextQueueSequence, finishedTask]
    split
    · exact .inr ⟨rfl, lt_succ_self _, fun hz => absurd hz hp⟩
    · exact .inl ⟨t, hf, rfl, le_rfl, by cases o <;> simp [taskStateForOutcome]⟩

end

lemma of_same (ht : s'.tasks = s.tasks) (hn : s'.nextQueueSequence = s.nextQueueSequence) :
    InPlace s₀ s' := by
  obtain ⟨hb, ho, hfr, hs, hr⟩ := h
  constructor
  all_goals simpa only [ht, hn]

end InPlace

lemma kept_inPlace : Kept (fun j => InPlace s₀ j.state) fun _ => True where
  registerAgent j spec hj := by
    unfold registerAgent
    split <;> exact hj.of_same rfl rfl
  setAgentState j id state hj := by
    unfold setAgentState
    split <;> exact hj.of_same rfl rfl
  createWave j spec hj hcr := by
    rw [hcr]
    exact hj.of_same rfl rfl
  submit j spec hj herr := by
    have hn : (submit j.state spec).1 = { j.state with
        tasks := j.state.tasks.emplace { spec, queueSequence := j.state.nextQueueSequence }
        nextQueueSequence := j.state.nextQueueSequence + 1 } := by rw [submit, herr]
    rw [j.state_submit, hn]
    exact hj.put _ (find_emplace _ _) (le_succ _) (fun _ => .inr ⟨rfl, rfl⟩)
      (.inr ⟨rfl, lt_succ_self _, fun _ => rfl⟩)
  count j id t tokensUsed hj hf _ := hj.keep hf rfl rfl (hj.fresh id t hf) rfl le_rfl fun h => h
  admitted j id t agentId agent now hj _ _ ht := hj.keep (selectedTask_spec ht).1 rfl rfl
    (fun hz => by simp [admittedTask] at hz) rfl (le_succ _) (by simp [admittedTask])
  finish j id t tokensUsed outcome now reason hj hf hr _ := by
    rw [j.state_finishAttempt]
    exact hj.finishAttempt hf hr tokensUsed outcome now reason
  cancel j id t reason hj hf := by
    rw [j.state_cancelTaskLocked, cancelTaskLocked]
    split_ifs with hte hw
    · exact hj
    · exact hj.keep hf (recomputeWaveOf_tasks ..) (recomputeWaveOf_nextQueueSequence ..)
        (fun _ => .inl rfl) rfl le_rfl (by simp [cancelledTask])
    · refine hj.keep hf rfl rfl (fun hz => ?_) rfl le_rfl fun h => h
      have hfr := hj.fresh id t hf hz
      simp_all [TaskRecord.isWaiting]
  recompute _ _ hj := hj.of_same rfl rfl
  request _ _ _ hj := hj.of_same rfl rfl

variable (config : SchedulerConfig) (calls : List Call)

lemma inPlace_self : InPlace (reached config calls) (reached config calls) := by
  have h : InPlace { config } (reached config calls) := by
    rw [← state_journal]
    refine kept_inPlace.run ?_ calls
    constructor <;> simp
  refine { h with since := le_rfl, retried := fun id t u ht hu hst => ?_ }
  cases ht.symm.trans hu
  exact .inl hst

lemma inPlace_reached (l : List Call) :
    InPlace (reached config calls) (reached config (calls ++ l)) := by
  have hr : reached config (calls ++ l) = (l.foldl Journal.step (journal config calls)).state := by
    rw [← state_journal, journal, foldl_append]
    rfl
  rw [hr]
  refine kept_inPlace.run ?_ l
  rw [state_journal]
  exact inPlace_self config calls

lemma spec_of_moves (h : Relation.ReflTransGen (TaskMove true) t u) : u.spec = t.spec := by
  induction h with
  | refl => rfl
  | tail _ hm ih =>
    rw [← ih]
    cases hm <;> first | rfl | exact finishedTask_spec ..

lemma not_leased_of_flagged {wa : WaveId} (hwa : t.spec.waveId = some wa)
    (hfl : Flagged wa s) (hf : s.tasks.find id = some t) (l : List Call) :
    ∀ lease ∈ leasesFrom s l, lease.taskId ≠ id := by
  refine (Machine.run_trace (P := fun (s : State) os => Flagged wa s ∧
    (∃ u, s.tasks.find id = some u ∧ u.spec = t.spec) ∧
    ∀ lease ∈ os.filterMap leaseOfReply, lease.taskId ≠ id) ?_ ⟨hfl, ⟨t, hf, rfl⟩, by simp⟩
    l).2.2
  rintro s os ca ⟨hfl, ⟨v, hv, hs⟩, hl⟩
  have hstep := kept_flagged.step (j := { state := s }) hfl
    fun _ (_ : _ ∈ requested s ca) => trivial
  rw [Journal.state_step] at hstep
  obtain ⟨w, hw, hm⟩ := find_step s ca hv
  refine ⟨hstep, ⟨w, hw, (spec_of_moves hm).trans hs⟩, fun lease hle hi => ?_⟩
  rw [filterMap_append, mem_append] at hle
  rcases hle with ho | hnew
  · exact hl lease ho hi
  have hre : leaseOfReply (step s ca).2 = some lease := by
    cases hr : leaseOfReply (step s ca).2 <;> simp_all
  cases ca with
  | admitNext now =>
    obtain ⟨-, ta, hf, he, -⟩ := admitNext_some hre
    rw [hi] at hf
    obtain ⟨v', hv', ht⟩ := (Evolves.expireRunning s now).find hv
    cases hf.symm.trans hv'
    have hexp := kept_flagged.expireRunning (j := { state := s }) hfl now
    rw [Journal.state_expireRunning] at hexp
    obtain ⟨re, hrc, hc⟩ := map_eq_some_iff.1 hexp
    obtain ⟨_, hr', hro⟩ := eligible_wave he (((spec_of_moves ht).trans hs) ▸ hwa)
    cases hrc.symm.trans hr'
    simp [WaveRecord.hasRoom, hc] at hro
  | _ => simp [step, leaseOfReply] at hre

def Unlimited (s : State) (t : TaskRecord) : Prop :=
  ∀ id wave, t.spec.waveId = some id → s.waves.find id = some wave →
    wave.spec.maxConcurrent.any (· ≤ wave.activeTasks) = false

/-- The task of the lease comes before every other eligible one, by priority and then by its place.
A task of the same priority that was submitted before it and is not limited by its wave has had its
first lease or never gets one. -/
def ComesFirst (s : State) (now : TimePoint) (lease : TaskLease) : Prop :=
  ∃ t, s.tasks.find lease.taskId = some t ∧ eligible s now t = true ∧
    ∀ id u, s.tasks.find id = some u →
      (eligible s now u = true → id ≠ lease.taskId → u.spec.priority < t.spec.priority ∨
        u.spec.priority = t.spec.priority ∧ t.queueSequence < u.queueSequence) ∧
      (id < lease.taskId → u.spec.priority = t.spec.priority → Unlimited s u →
        0 < u.attemptsStarted ∨ ∀ later, ∀ other ∈ leasesFrom s later, other.taskId ≠ id)

lemma comesFirst {lease : TaskLease} (h : InPlace s s) (hs : Settled s ∅)
    (ht : selectedTask s now = some (lease.taskId, t)) : ComesFirst s now lease := by
  obtain ⟨hf, he⟩ := selectedTask_spec ht
  refine ⟨t, hf, he, fun id u hu => ?_⟩
  have ha (he' : eligible s now u) : ¬ precedes (id, u) (lease.taskId, t) := by
    obtain ⟨b, hb, hle⟩ := selectedTask_first hu he'
    cases ht.symm.trans hb
    exact hle
  simp only [precedes_iff] at ha
  refine ⟨fun he' hn => ?_, fun hlt hp hli => ?_⟩
  · have := ha he'
    have hd : u.queueSequence ≠ t.queueSequence := by
      rcases lt_or_gt_of_ne hn with hlt | hlt
      · exact (h.order _ _ u t hu hf hlt).1
      · exact (h.order _ _ t u hf hu hlt).1.symm
    omega
  · by_contra hcon
    rw [not_or, not_lt, le_zero] at hcon
    obtain ⟨hz, hl⟩ := hcon
    rcases h.fresh id u hu hz with hte | ⟨hst, hc⟩
    · exact hl fun l => (not_leased (Q := fun t => isTerminal t.state = true)
        (fun _ _ h hm => (not_move_of_isTerminal h hm).elim)
        (fun _ h => isWaiting_of_isTerminal h) hu hte l).2
    have hfirst := (h.order id _ u t hu hf hlt).2 hz
    refine ha ?_ (.inr ⟨hp, .inl hfirst⟩)
    -- an unlimited task in the queue is eligible, unless its wave is being cancelled
    cases hwa : u.spec.waveId with
    | none => simp [eligible, TaskRecord.isWaiting, hst, hc, hwa]
    | some wa =>
      obtain ⟨re, hr⟩ := isSome_iff_exists.1 (hs.known id u wa hu hwa)
      cases hfl : re.cancellationRequested with
      | true =>
        exact (hl (not_leased_of_flagged hwa (map_eq_some_iff.2 ⟨re, hr, hfl⟩) hu)).elim
      | false =>
        simp [eligible, TaskRecord.isWaiting, hst, hc, hwa, hr, WaveRecord.hasRoom, hfl,
          hli wa re hwa hr]

/-- After every list of calls: `admit_next` returns a lease exactly where it can, the task of the
lease comes first, and a retry that is scheduled later is placed behind every task submitted so
far. -/
theorem admission_order (now : TimePoint) :
    ((admitNext (reached config calls) now).2.isSome = true ↔
      Ready (expireRunning (reached config calls) now) now) ∧
    (∀ lease, (admitNext (reached config calls) now).2 = some lease →
      ComesFirst (expireRunning (reached config calls) now) now lease) ∧
    ∀ later id t u, (reached config calls).tasks.find id = some t → t.state ≠ .retryWait →
      (reached config (calls ++ later)).tasks.find id = some u → u.state = .retryWait →
      ∀ other v, (reached config calls).tasks.find other = some v →
        v.queueSequence < u.queueSequence := by
  refine ⟨isSome_admitNext, fun lease hl => ?_, fun later id t u ht hn hu hs other v hv => ?_⟩
  · rcases admitNext_cases (reached config calls) now with he | ⟨_, _, _, t, -, -, ht, he⟩
    · simp [he] at hl
    · rw [he] at hl
      cases hl
      have hti : reached config (calls ++ [.tick now]) =
          expireRunning (reached config calls) now := reached_append config calls [] (.tick now)
      rw [← hti] at ht ⊢
      exact comesFirst (inPlace_self ..) (settled_reached ..) ht
  · have hre := ((inPlace_reached config calls later).retried id t u ht hu hs).resolve_left hn
    exact ((inPlace_self config calls).below other v hv).trans_le hre

end AxiomKernel.Swarm
