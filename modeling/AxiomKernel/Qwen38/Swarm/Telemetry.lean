import AxiomKernel.Qwen38.Swarm.TaskMoves

/-!
# The telemetry counters

The counters of tasks and attempts are raised in the branches of submission, admission, the end of
an attempt and cancellation. Each of these changes one task record, and the counters move by what
the change does to that record.
-/
namespace AxiomKernel.Swarm

open TaskRecord List Registry

variable (telemetry : Telemetry)

def Telemetry.final : TaskState → Nat
  | .succeeded => telemetry.finalSucceeded
  | .failed => telemetry.finalFailed
  | .cancelled => telemetry.finalCancelled
  | .timedOut => telemetry.finalTimedOut
  | .budgetExhausted => telemetry.finalBudgetExhausted
  | .queued | .running | .retryWait => 0

def Journal.endedRunning (j : Journal) : Nat := j.ended.countP (·.2 == .running)

structure TaskRecord.Within (t : TaskRecord) : Prop where
  attempts : t.attemptsStarted ≤ t.spec.retryPolicy.maxAttempts
  waiting : t.isWaiting = true → t.attemptsStarted < t.spec.retryPolicy.maxAttempts

structure Conserved (j : Journal) : Prop where
  submitted : j.telemetry.tasksSubmitted = j.state.tasks.rows.length
  final : ∀ state, isTerminal state = true →
    j.telemetry.final state = j.state.tasks.count (·.state == state)
  attempts : j.telemetry.attemptsStarted = j.state.tasks.sum (·.attemptsStarted)
  retries : j.telemetry.retriesScheduled + j.state.tasks.count isRunning +
    j.endedRunning = j.telemetry.attemptsStarted
  within : ∀ id t, j.state.tasks.find id = some t → t.Within
  nodup : (j.ended.map Prod.fst).Nodup
  mem_ended : ∀ id, id ∈ j.ended.map Prod.fst ↔
    ∃ t, j.state.tasks.find id = some t ∧ isTerminal t.state = true

lemma conserved_init (config : SchedulerConfig) : Conserved { state := { config } } where
  submitted := rfl
  final state h := by cases state <;> rfl
  attempts := rfl
  retries := rfl
  within id t h := by simp at h
  nodup := nodup_nil
  mem_ended id := by simp

variable {j j' : Journal} {id : TaskId} {t u : TaskRecord}

lemma Conserved.of_eq (h : Conserved j) (hta : j'.state.tasks = j.state.tasks)
    (ht : j'.telemetry = j.telemetry) (he : j'.ended = j.ended) : Conserved j' where
  submitted := by rw [ht, hta]; exact h.submitted
  final := by rw [ht, hta]; exact h.final
  attempts := by rw [ht, hta]; exact h.attempts
  retries := by rw [ht, hta, Journal.endedRunning, he]; exact h.retries
  within := by rw [hta]; exact h.within
  nodup := by rw [he]; exact h.nodup
  mem_ended := by rw [hta, he]; exact h.mem_ended

/-- One record changes, and the counters move by what the change does to it. -/
lemma Conserved.change (h : Conserved j) (hf : j.state.tasks.find id = some t)
    (ht : j'.state.tasks = j.state.tasks.modify id fun _ => u)
    (hs : j'.telemetry.tasksSubmitted = j.telemetry.tasksSubmitted)
    (hfi : ∀ state, isTerminal state → j'.telemetry.final state + (t.state == state).toNat =
        j.telemetry.final state + (u.state == state).toNat)
    (hat : j'.telemetry.attemptsStarted + t.attemptsStarted =
      j.telemetry.attemptsStarted + u.attemptsStarted)
    (hr : j'.telemetry.retriesScheduled + j'.endedRunning + u.isRunning.toNat + t.attemptsStarted =
      j.telemetry.retriesScheduled + j.endedRunning + t.isRunning.toNat + u.attemptsStarted)
    (hw : u.Within) (hl : isTerminal t.state = false)
    (he : j'.ended = j.ended ++ if isTerminal u.state then [(id, t.state)] else []) :
    Conserved j' where
  submitted := by
    rw [hs, ht, h.submitted]
    cases id <;> simp [Registry.modify]
  final state hstate := by
    have hco := count_modify hf (fun _ => u) (·.state == state)
    have := hfi state hstate
    have := h.final state hstate
    rw [ht]
    omega
  attempts := by
    have hsum := sum_modify hf (fun _ => u) (·.attemptsStarted)
    have := h.attempts
    rw [ht]
    omega
  retries := by
    have hco := count_modify hf (fun _ => u) isRunning
    have := h.retries
    rw [ht]
    omega
  within other v hv := by
    rw [ht, find_modify] at hv
    split at hv
    next heq =>
      subst heq
      obtain rfl : u = v := by simpa [hf] using hv
      exact hw
    · exact h.within other v hv
  nodup := by
    have hn : id ∉ j.ended.map Prod.fst := by
      rw [h.mem_ended]
      rintro ⟨v, hv, hte⟩
      obtain rfl : t = v := by simpa [hf] using hv
      rw [hl] at hte
      cases hte
    rw [he]
    split
    · rw [map_append, nodup_append]
      refine ⟨h.nodup, by simp, fun a ha b hb heq => hn ?_⟩
      obtain rfl : b = id := by simpa using hb
      rwa [← heq]
    · rw [append_nil]
      exact h.nodup
  mem_ended other := by
    have hold := h.mem_ended other
    rw [ht, find_modify, he, map_append, mem_append, hold]
    by_cases heq : other = id
    · subst heq
      cases hu : isTerminal u.state <;> simp [hf, hl, hu]
    · rw [if_neg heq]
      split <;> simp [heq]

lemma final_countFinal {state o : TaskState} (h : isTerminal o) :
    (telemetry.countFinal state).final o = telemetry.final o + (state == o).toNat := by
  cases state <;> cases o <;> first | rfl | cases h

section
variable (telemetry : Telemetry) (state : TaskState)

@[simp] lemma countFinal_submitted :
    (telemetry.countFinal state).tasksSubmitted = telemetry.tasksSubmitted := by
  cases state <;> rfl

@[simp] lemma countFinal_attempts :
    (telemetry.countFinal state).attemptsStarted = telemetry.attemptsStarted := by
  cases state <;> rfl

@[simp] lemma countFinal_retries :
    (telemetry.countFinal state).retriesScheduled = telemetry.retriesScheduled := by
  cases state <;> rfl

end

lemma state_beq_of_live {state : TaskState} (hv : isTerminal t.state = false)
    (h : isTerminal state) : (t.state == state) = false := by
  rw [beq_eq_false_iff_ne]
  rintro rfl
  rw [hv] at h
  cases h

section
variable (h : Conserved j)
include h

lemma Conserved.retask (hf : j.state.tasks.find id = some t) (hr : t.isRunning)
    (hs : u.state = t.state) (ha : u.attemptsStarted = t.attemptsStarted)
    (hsp : u.spec = t.spec) (hta : j'.state.tasks = j.state.tasks.modify id fun _ => u)
    (ht : j'.telemetry = j.telemetry) (he : j'.ended = j.ended) : Conserved j' := by
  have hv := isTerminal_of_isRunning hr
  have hr' : u.isRunning = t.isRunning := by rw [isRunning, hs]; rfl
  refine h.change hf hta (by rw [ht]) (fun state _ => by rw [ht, hs])
    (by rw [ht, ha]) ?_ ⟨?_, fun hw => ?_⟩ hv ?_
  · rw [ht, Journal.endedRunning, he, hr', ha]
    rfl
  · rw [ha, hsp]
    exact (h.within id t hf).attempts
  · rw [ha, hsp]
    exact (h.within id t hf).waiting (by rwa [isWaiting, hs] at hw)
  · rw [he, hs, hv]
    simp

lemma Conserved.admitTask {ag : AgentId} {now : TimePoint}
    (ht : selectedTask j.state now = some (id, t)) : Conserved (j.admitTask id t ag now) := by
  obtain ⟨hf, he⟩ := selectedTask_spec ht
  obtain ⟨hw, -⟩ := eligible_waiting he
  have hv := isTerminal_of_isWaiting hw
  have hid := isRunning_of_isWaiting hw
  have hle := (h.within id t hf).waiting hw
  have hr : (admittedTask t ag now).isRunning := rfl
  refine h.change (u := admittedTask t ag now) hf rfl rfl (fun state hs => ?_) ?_ ?_
    ⟨hle, fun h => ?_⟩ hv ?_
  · have hru : isTerminal (admittedTask t ag now).state = false := rfl
    rw [state_beq_of_live hv hs, state_beq_of_live hru hs]
    rfl
  · simp only [Journal.admitTask, admittedTask]
    omega
  · rw [hr, hid]
    simp only [Journal.admitTask, Journal.endedRunning, Journal.advance, admittedTask,
      Bool.toNat_true, Bool.toNat_false]
    omega
  · simp [admittedTask, isWaiting] at h
  · simp [Journal.admitTask, Journal.advance, admittedTask, isTerminal]

variable (hf : j.state.tasks.find id = some t)
include hf

lemma Conserved.finishAttempt (hr : t.isRunning)
    (tokensUsed : Nat) (o : TaskOutcome) (now : TimePoint) (re : String) :
    Conserved (j.finishAttempt id { t with tokensUsed } o now re) := by
  have hv := isTerminal_of_isRunning hr
  have hru : t.state = .running := by simpa [isRunning] using hr
  have hwith := h.within id t hf
  have hta := (congrArg State.tasks (j.state_finishAttempt id { t with tokensUsed } o now
    re)).trans (finishAttempt_tasks ..)
  have hst := finishedTask_state { t with tokensUsed } o now re j.state.nextQueueSequence
  cases hre : shouldRetry { t with tokensUsed } o with
  | true =>
    rw [hre, if_pos rfl] at hst
    have hl : t.attemptsStarted < t.spec.retryPolicy.maxAttempts := by
      by_contra hnot
      simp [shouldRetry, Nat.le_of_not_lt hnot] at hre
    refine h.change hf hta ?_ (fun state ht => ?_) ?_ ?_ ⟨?_, fun _ => ?_⟩ hv ?_
    · rw [Journal.finishAttempt, hre]; rfl
    · rw [Journal.finishAttempt, hre, hst, state_beq_of_live hv ht]
      cases state <;> first | rfl | cases ht
    · rw [Journal.finishAttempt, hre, finishedTask_attemptsStarted]; rfl
    · rw [Journal.finishAttempt, hre, finishedTask_attemptsStarted, finishedTask_isRunning, hr]
      simp only [if_true, Journal.endedRunning, Journal.advance, Bool.toNat_true, Bool.toNat_false]
      omega
    · rw [finishedTask_attemptsStarted, finishedTask_spec]; exact hwith.attempts
    · rw [finishedTask_attemptsStarted, finishedTask_spec]; exact hl
    · rw [Journal.finishAttempt, hre, hst]
      simp [Journal.advance, isTerminal]
  | false =>
    rw [hre, if_neg Bool.false_ne_true] at hst
    refine h.change hf hta ?_ (fun state ht => ?_) ?_ ?_ ⟨?_, fun hw => ?_⟩ hv ?_
    · rw [Journal.finishAttempt, hre]; exact countFinal_submitted ..
    · rw [Journal.finishAttempt, hre, hst, state_beq_of_live hv ht]
      exact final_countFinal _ ht
    · rw [Journal.finishAttempt, hre, finishedTask_attemptsStarted]
      simp
    · rw [Journal.finishAttempt, hre, finishedTask_attemptsStarted, finishedTask_isRunning, hr]
      simp [Journal.endedRunning, hru]
      omega
    · rw [finishedTask_attemptsStarted, finishedTask_spec]; exact hwith.attempts
    · rw [isWaiting, hst] at hw
      cases o <;> simp [taskStateForOutcome] at hw
    · rw [Journal.finishAttempt, hre, hst, isTerminal_taskStateForOutcome]
      rfl

lemma Conserved.cancelTaskLocked (re : String) : Conserved (j.cancelTaskLocked id t re) := by
  cases hte : isTerminal t.state with
  | true =>
    refine h.of_eq ?_ ?_ ?_
    · simp [Swarm.cancelTaskLocked, hte]
    all_goals rw [Journal.cancelTaskLocked, if_neg (by simp [isWaiting_of_isTerminal hte])]
    all_goals rfl
  | false =>
    cases hwt : t.isWaiting with
    | false =>
      have hr : t.isRunning := by
        by_contra hnot
        rw [isTerminal_of_not (by simpa using hnot) hwt] at hte
        cases hte
      refine h.retask (u := { t with cancellationRequested := true }) hf hr rfl rfl rfl ?_ ?_ ?_
      · simp [Swarm.cancelTaskLocked, hte, hwt]
      all_goals rw [Journal.cancelTaskLocked, hwt]; rfl
    | true =>
      have hid := isRunning_of_isWaiting hwt
      have hn : (t.state == .running) = false := hid
      refine h.change (u := cancelledTask t re) hf ?_ ?_ (fun state hs => ?_) ?_ ?_
        ⟨(h.within id t hf).attempts, fun h => ?_⟩ hte ?_
      · simp [Swarm.cancelTaskLocked, hte, hwt]
      · rw [Journal.cancelTaskLocked, hwt]; exact countFinal_submitted ..
      · rw [Journal.cancelTaskLocked, hwt, state_beq_of_live hte hs]
        exact final_countFinal _ hs
      · rw [Journal.cancelTaskLocked, hwt]
        simp [cancelledTask]
      · rw [Journal.cancelTaskLocked, hwt, hid]
        simp [Journal.endedRunning, cancelledTask, isRunning, hn]
      · simp [cancelledTask, isWaiting] at h
      · rw [Journal.cancelTaskLocked, hwt]
        rfl

omit hf

lemma Conserved.submit {spec : TaskSpec} (he : submitError j.state spec = none) :
    Conserved (j.submit spec) := by
  have ha : spec.retryPolicy.maxAttempts ≠ 0 := by
    simp only [submitError, checked_eq_none] at he
    exact he.2.1
  have hs : j.submit spec = { j with
      state := { j.state with
        tasks := j.state.tasks.emplace { spec, queueSequence := j.state.nextQueueSequence }
        nextQueueSequence := j.state.nextQueueSequence + 1 }
      telemetry := { j.telemetry with tasksSubmitted := j.telemetry.tasksSubmitted + 1 } } := by
    rw [Journal.submit, he, Swarm.submit, he]
  rw [hs]
  refine ⟨?_, fun state hst => ?_, ?_, ?_, fun o v hv => ?_, h.nodup, fun o => ?_⟩
  · simpa [emplace] using h.submitted
  · rw [count_emplace, state_beq_of_live rfl hst]
    exact h.final state hst
  · simpa [Registry.sum, emplace] using h.attempts
  · rw [count_emplace]
    exact h.retries
  · rw [find_emplace] at hv
    split at hv
    · cases hv
      exact ⟨Nat.zero_le _, fun _ => Nat.pos_of_ne_zero ha⟩
    · exact h.within o v hv
  · rw [h.mem_ended, find_emplace]
    split
    next heq =>
      subst heq
      simp [find_nextId, isTerminal]
    · rfl

end

lemma kept_conserved : Kept Conserved fun _ => True where
  registerAgent j spec hj := hj.of_eq (by unfold registerAgent; split <;> rfl) rfl rfl
  setAgentState j id state hj := hj.of_eq (by unfold setAgentState; split <;> rfl) rfl rfl
  createWave j spec hj hcreated := hj.of_eq (by rw [hcreated]) rfl rfl
  submit _ _ hj herror := hj.submit herror
  count j id t tokensUsed hj hf hr :=
    hj.retask (u := { t with tokensUsed }) hf hr rfl rfl rfl rfl rfl rfl
  admitted _ _ _ _ _ _ hj _ _ htask := hj.admitTask htask
  finish _ _ _ tokensUsed outcome now reason hj hf hr _ :=
    hj.finishAttempt hf hr tokensUsed outcome now reason
  cancel _ _ _ reason hj hf := hj.cancelTaskLocked hf reason
  recompute _ _ hj := hj.of_eq rfl rfl rfl
  request _ _ _ hj := hj.of_eq rfl rfl rfl

lemma find_of_isTerminal (co : SchedulerConfig) (cs l : List Call)
    (hf : (reached co cs).tasks.find id = some t) (ht : isTerminal t.state) :
    (reached co (cs ++ l)).tasks.find id = some t := by
  rw [reached, Machine.run_append]
  refine Machine.run_preserves (P := fun s : State => s.tasks.find id = some t)
    (fun s ca h => ?_) hf l
  obtain ⟨u, hu, hm⟩ := find_step s ca h
  cases hm using Relation.ReflTransGen.head_induction_on with
  | refl => exact hu
  | head hmv _ => exact (not_move_of_isTerminal ht hmv).elim

lemma length_eq_counts (r : Registry TaskRecord) :
    r.rows.length = r.count (·.state == .queued) + r.count (·.state == .retryWait) +
    r.count (·.state == .running) + r.count (·.state == .succeeded) +
    r.count (·.state == .failed) + r.count (·.state == .cancelled) +
    r.count (·.state == .timedOut) + r.count (·.state == .budgetExhausted) := by
  simp only [count_eq_sum, Registry.sum]
  induction r.rows with
  | nil => rfl
  | cons t rs ih =>
    have ho (state : TaskState) : (state == .queued).toNat + (state == .retryWait).toNat +
        (state == .running).toNat + (state == .succeeded).toNat + (state == .failed).toNat +
        (state == .cancelled).toNat + (state == .timedOut).toNat +
        (state == .budgetExhausted).toNat = 1 := by cases state <;> rfl
    have := ho t.state
    simp only [length_cons, map_cons, sum_cons]
    omega

/-- In every reachable state every task and every attempt is accounted for by the counters, no
task has more attempts than it may, and the record of a terminal task never changes. -/
theorem task_conservation (config : SchedulerConfig) (calls : List Call) :
    let s := reached config calls
    let j := journal config calls
    j.state = s ∧
    (j.telemetry.tasksSubmitted = s.tasks.rows.length ∧
      j.telemetry.tasksSubmitted = s.tasks.count (·.state == .queued) +
        s.tasks.count (·.state == .retryWait) + s.tasks.count (·.state == .running) +
        j.telemetry.finalSucceeded + j.telemetry.finalFailed + j.telemetry.finalCancelled +
        j.telemetry.finalTimedOut + j.telemetry.finalBudgetExhausted) ∧
    (∀ state, isTerminal state = true →
      j.telemetry.final state = s.tasks.count (·.state == state)) ∧
    (s.tasks.rows.map (·.attemptsStarted)).sum = j.telemetry.attemptsStarted ∧
    (j.telemetry.retriesScheduled = (s.tasks.rows.map (·.attemptsStarted)).sum -
        s.tasks.count (·.state == .running) - j.endedRunning ∧
      s.tasks.count (·.state == .running) + j.endedRunning ≤
        (s.tasks.rows.map (·.attemptsStarted)).sum ∧
      (j.ended.map Prod.fst).Nodup ∧ ∀ id, id ∈ j.ended.map Prod.fst ↔
        ∃ t, s.tasks.find id = some t ∧ isTerminal t.state = true) ∧
    (∀ id t, s.tasks.find id = some t →
      t.attemptsStarted ≤ t.spec.retryPolicy.maxAttempts) ∧
    ∀ id t, s.tasks.find id = some t → isTerminal t.state = true → ∀ later,
      (reached config (calls ++ later)).tasks.find id = some t := by
  intro s j
  have hs : j.state = s := state_journal config calls
  have h : Conserved j := kept_conserved.run (conserved_init config) calls
  have hl := length_eq_counts s.tasks
  have hretr := h.retries
  have hatt := h.attempts
  have hsubm := h.submitted
  have hfin := h.final
  rw [hs] at hretr hatt hsubm hfin
  change _ + s.tasks.count (·.state == .running) + _ = _ at hretr
  change _ = (s.tasks.rows.map (·.attemptsStarted)).sum at hatt
  refine ⟨hs, ⟨hsubm, ?_⟩, hfin, hatt.symm, ⟨by omega, by omega, h.nodup, ?_⟩, ?_, ?_⟩
  · have h1 := hfin .succeeded rfl
    have h2 := hfin .failed rfl
    have h3 := hfin .cancelled rfl
    have h4 := hfin .timedOut rfl
    have h5 := hfin .budgetExhausted rfl
    simp only [Telemetry.final] at h1 h2 h3 h4 h5
    rw [hsubm, hl, h1, h2, h3, h4, h5]
  · exact hs ▸ h.mem_ended
  · exact fun id t ht => (h.within id t (hs ▸ ht)).attempts
  · exact fun id t ht hte later => find_of_isTerminal config calls later ht hte

end AxiomKernel.Swarm
