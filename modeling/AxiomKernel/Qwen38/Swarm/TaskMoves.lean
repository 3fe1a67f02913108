import AxiomKernel.Qwen38.Swarm.Accounting

/-!
# What a call does to a task

Every call of the scheduler changes the record of a task by a few kinds of move: a flag, a token
count, a cancellation, an admission, the end of an attempt. Invariants about single tasks are
proved for a move and carried over whole calls by `Evolves`.
-/
namespace AxiomKernel.Swarm

/-- The changes the scheduler makes to the record of a task. Only `report_progress` counts tokens
of an attempt that goes on, so that move is there only where `reports` allows it. -/
inductive TaskMove (reports : Bool) : TaskRecord → TaskRecord → Prop where
  | flag {t} (hrun : t.isRunning = true) :
      TaskMove reports t { t with cancellationRequested := true }
  | count {t} (hreports : reports = true) (hrun : t.isRunning = true) (tokensUsed : Nat) :
      TaskMove reports t { t with tokensUsed }
  | cancel {t} (hwaiting : t.isWaiting = true) (reason : String) :
      TaskMove reports t (cancelledTask t reason)
  | admitTask {t} (hwaiting : t.isWaiting = true) (hflag : t.cancellationRequested = false)
      (agent : AgentId) (now : TimePoint) : TaskMove reports t (admittedTask t agent now)
  | finish {t} (hrun : t.isRunning = true) (tokensUsed : Nat) (outcome : TaskOutcome)
      (now : TimePoint) (reason : String) (sequence : Nat)
      (houtcome : t.cancellationRequested = true → outcome = .cancelled) :
      TaskMove reports t (finishedTask { t with tokensUsed } outcome now reason sequence)

/-- No task comes or goes, and each is moved by the scheduler's own changes. -/
def Evolves (reports : Bool) (s s' : State) : Prop :=
  ∀ id, Option.Rel (Relation.ReflTransGen (TaskMove reports)) (s.tasks.find id) (s'.tasks.find id)

variable {s s' : State} {id : TaskId} {reports : Bool} {t u : TaskRecord}

lemma Evolves.find (h : Evolves reports s s') (ht : s.tasks.find id = some t) :
    ∃ u, s'.tasks.find id = some u ∧ Relation.ReflTransGen (TaskMove reports) t u := by
  have hid := h id
  rw [ht] at hid
  cases hu : s'.tasks.find id with
  | none => rw [hu] at hid; cases hid
  | some u =>
    rw [hu] at hid
    cases hid with
    | some hm => exact ⟨u, rfl, hm⟩

lemma Evolves.find_back (h : Evolves reports s s') (hu : s'.tasks.find id = some u) :
    ∃ t, s.tasks.find id = some t ∧ Relation.ReflTransGen (TaskMove reports) t u := by
  have hid := h id
  rw [hu] at hid
  cases ht : s.tasks.find id with
  | none => rw [ht] at hid; cases hid
  | some t =>
    rw [ht] at hid
    cases hid with
    | some hm => exact ⟨t, rfl, hm⟩

section
variable {reports : Bool} {s s' : State} {id : TaskId}

lemma Evolves.of_tasks_eq (h : s'.tasks = s.tasks) : Evolves reports s s' := by
  intro id
  rw [h]
  cases s.tasks.find id with
  | none => exact .none
  | some t => exact .some .refl

lemma Evolves.refl (s : State) : Evolves reports s s := .of_tasks_eq rfl

lemma Evolves.trans {s'' : State} (h : Evolves reports s s') (h' : Evolves reports s' s'') :
    Evolves reports s s'' := by
  intro id
  cases ht : s.tasks.find id with
  | none =>
    cases hv : s''.tasks.find id with
    | none => exact .none
    | some v =>
      obtain ⟨u, hu, _⟩ := h'.find_back hv
      obtain ⟨t, ht', _⟩ := h.find_back hu
      simp [ht] at ht'
  | some t =>
    obtain ⟨u, hu, htu⟩ := h.find ht
    obtain ⟨v, hv, huv⟩ := h'.find hu
    rw [hv]
    exact .some (htu.trans huv)

variable {t : TaskRecord}

section
variable (hfind : s.tasks.find id = some t)
include hfind

lemma Evolves.modify {u : TaskRecord} (hm : TaskMove reports t u)
    (ht : s'.tasks = s.tasks.modify id fun _ => u) :
    Evolves reports s s' := by
  intro o
  rw [ht, Registry.find_modify]
  split
  next he =>
    subst he
    rw [hfind]
    exact .some (.single hm)
  · cases s.tasks.find o with
    | none => exact .none
    | some v => exact .some .refl

lemma Evolves.finishAttempt (hr : t.isRunning) (tokensUsed : Nat) {o : TaskOutcome}
    (ho : t.cancellationRequested → o = .cancelled) (now : TimePoint) (re : String) :
    Evolves reports s (finishAttempt s id { t with tokensUsed } o now re) :=
  .modify hfind (.finish hr tokensUsed o now re _ ho) (finishAttempt_tasks ..)

lemma Evolves.cancelTaskLocked (re : String) :
    Evolves reports s (cancelTaskLocked s id t re).1 := by
  unfold Swarm.cancelTaskLocked
  split
  · exact .refl s
  next hv =>
    split
    next hw =>
      exact .modify hfind (.cancel hw re) (recomputeWaveOf_tasks ..)
    next hw =>
      have hr : t.isRunning := by
        cases hs : t.state <;> simp_all [isTerminal, TaskRecord.isWaiting, TaskRecord.isRunning]
      exact .modify hfind (.flag hr) rfl

end

lemma Evolves.expireRunning (s : State) (now : TimePoint) :
    Evolves reports s (expireRunning s now) := by
  refine List.foldlRecOn (motive := fun u : State => Evolves reports s u) _ _ (.refl s)
    fun u hu id _ => ?_
  refine hu.trans ?_
  unfold expireTask
  split
  · exact .refl u
  next ta hfind =>
    split
    · exact .refl u
    next hr =>
      have hr : ta.isRunning := by simpa using hr
      split
      · exact .finishAttempt hfind hr ta.tokensUsed (fun _ => rfl) _ _
      next hf =>
        exact .finishAttempt hfind hr ta.tokensUsed (fun h => absurd h hf) _ _

lemma Evolves.admitNext (s : State) (now : TimePoint) : Evolves reports s (admitNext s now).1 := by
  refine (Evolves.expireRunning s now).trans ?_
  rcases admitNext_cases s now with heq | ⟨ai, ag, id, ta, _, _, ht, heq⟩
  · rw [heq]
    exact .refl _
  · obtain ⟨hfind, he⟩ := selectedTask_spec ht
    obtain ⟨hw, hf⟩ := eligible_waiting he
    rw [heq]
    exact .modify hfind (.admitTask hw hf ai now) rfl

section
variable (s : State) (id : TaskId) (completion : TaskCompletion) (now : TimePoint)

lemma Evolves.completionOf : Evolves reports s (completionOf s id completion now).1 := by
  unfold Swarm.completionOf
  split
  · exact .refl s
  next ta hfind =>
    split
    · exact .refl s
    next hr =>
      split
      · exact .refl s
      · refine .finishAttempt hfind (by simpa using hr) completion.tokensUsed (fun hf => ?_) _ _
        rw [settledOutcome, if_pos hf]

lemma Evolves.complete : Evolves reports s (complete s id completion now).1 :=
  (Evolves.expireRunning s now).trans (.completionOf _ id completion now)

end

lemma Evolves.cancelTask (s : State) (id : TaskId) (re : String) (now : TimePoint) :
    Evolves reports s (cancelTask s id re now).1 := by
  refine (Evolves.expireRunning s now).trans ?_
  unfold Swarm.cancelTask
  simp only
  split
  · exact .refl _
  next hfind => exact .cancelTaskLocked hfind re

lemma Evolves.cancelSelectedTask (id : WaveId) (re : String) (i : Bool)
    (ws : List WaveId) (acc : State × Nat) (ti : TaskId) :
    Evolves reports acc.1 (cancelSelectedTask id re i ws acc ti).1 := by
  unfold Swarm.cancelSelectedTask
  split
  · exact .refl _
  next ta hfind =>
    split
    · exact .cancelTaskLocked hfind re
    · exact .refl _

lemma Evolves.cancelWaveTree (s : State) (id : WaveId) (re : String) (i : Bool) :
    Evolves reports s (cancelWaveTree s id re i).1 := by
  unfold Swarm.cancelWaveTree
  split
  · exact .refl s
  · simp only
    refine List.foldlRecOn (motive := fun u : State => Evolves reports s u) _ _ ?_
      fun _ hu _ _ => hu.trans (.of_tasks_eq rfl)
    refine List.foldlRecOn (motive := fun acc : State × Nat => Evolves reports s acc.1) _ _ ?_ ?_
    · exact List.foldlRecOn (motive := fun u : State => Evolves reports s u) _ _ (.refl s)
        fun _ hu _ _ => hu.trans (.of_tasks_eq rfl)
    · exact fun acc ha ti _ => ha.trans (.cancelSelectedTask _ _ _ _ acc ti)

end

lemma Evolves.progressOf (s : State) (id : TaskId) (tokensUsed : Nat) (now : TimePoint) :
    Evolves true s (progressOf s id tokensUsed now).1 := by
  unfold Swarm.progressOf
  split
  · exact .refl s
  next ta hfind =>
    split
    · exact .refl s
    next hr =>
      have hr : ta.isRunning := by simpa using hr
      split
      · exact .refl s
      · have hc : Evolves true s
            { s with tasks := s.tasks.modify id fun _ => { ta with tokensUsed } } :=
          .modify hfind (.count rfl hr tokensUsed) rfl
        simp only
        split
        · exact hc
        next hf =>
          split
          · refine hc.trans (.finishAttempt (t := { ta with tokensUsed }) ?_ hr tokensUsed
              (fun h => absurd h hf) _ _)
            simp [hfind]
          · exact hc

lemma Evolves.step {ca : Call} (hc : ∀ sp, ca ≠ .submit sp) : Evolves true s (step s ca).1 := by
  cases ca with
  | registerAgent sp =>
    simp only [Swarm.step, Prod.map_fst, registerAgent]
    split_ifs <;> exact .of_tasks_eq rfl
  | createWave sp =>
    simp only [Swarm.step, Prod.map_fst, createWave]
    split_ifs <;> exact .of_tasks_eq rfl
  | submit sp => exact absurd rfl (hc sp)
  | admitNext now => exact .admitNext s now
  | reportProgress ta ts now =>
    exact (Evolves.expireRunning s now).trans (.progressOf _ ta ts now)
  | complete ta completion now => exact .complete s ta completion now
  | cancelTask ta re now => exact .cancelTask s ta re now
  | cancelWave wa re now ds =>
    exact (Evolves.expireRunning s now).trans (.cancelWaveTree _ wa re ds)
  | tick now => exact .expireRunning s now
  | setAgentState ag st =>
    simp only [Swarm.step, Prod.map_fst, setAgentState]
    split_ifs <;> exact .of_tasks_eq rfl

lemma find_submit (s : State) (spec : TaskSpec) :
    ((submit s spec).1 = s ∧ ∃ e, (submit s spec).2 = .error e) ∨
    ((submit s spec).2 = .ok s.tasks.nextId ∧
    ∀ id, (submit s spec).1.tasks.find id =
    if id = s.tasks.nextId then some { spec, queueSequence := s.nextQueueSequence }
        else s.tasks.find id) := by
  unfold submit
  split
  next e _ => exact .inl ⟨rfl, e, rfl⟩
  · exact .inr ⟨rfl, fun id => Registry.find_emplace _ _ id⟩

lemma find_step (s : State) (ca : Call) (ht : s.tasks.find id = some t) :
    ∃ u, (step s ca).1.tasks.find id = some u ∧
    Relation.ReflTransGen (TaskMove true) t u := by
  by_cases hc : ∃ sp, ca = .submit sp
  · obtain ⟨sp, rfl⟩ := hc
    refine ⟨t, ?_, .refl⟩
    simp only [step, Prod.map_fst, submit]
    split
    · exact ht
    · exact Registry.find_emplace_of_find _ ht
  · exact (Evolves.step fun sp he => hc ⟨sp, he⟩).find ht

lemma TaskMove.attemptsStarted_le (h : TaskMove reports t u) :
    t.attemptsStarted ≤ u.attemptsStarted := by
  cases h <;> simp [cancelledTask, admittedTask]

lemma attemptsStarted_le_of_moves (h : Relation.ReflTransGen (TaskMove reports) t u) :
    t.attemptsStarted ≤ u.attemptsStarted := by
  induction h with
  | refl => exact le_refl _
  | tail _ hm ih => exact le_trans ih hm.attemptsStarted_le

variable {t u : TaskRecord}

lemma isWaiting_of_isTerminal (h : isTerminal t.state) : t.isWaiting = false := by
  cases hs : t.state <;> simp_all [isTerminal, TaskRecord.isWaiting]

lemma isRunning_of_isTerminal (h : isTerminal t.state) : t.isRunning = false := by
  cases hs : t.state <;> simp_all [isTerminal, TaskRecord.isRunning]

lemma isTerminal_of_not (hr : t.isRunning = false) (hw : t.isWaiting = false) :
    isTerminal t.state = true := by
  cases hs : t.state <;> simp_all [isTerminal, TaskRecord.isRunning, TaskRecord.isWaiting]

lemma not_move_of_isTerminal (ht : isTerminal t.state) (hm : TaskMove reports t u) :
    False := by
  cases hm with
  | flag hr => simp [isRunning_of_isTerminal ht] at hr
  | count _ hr => simp [isRunning_of_isTerminal ht] at hr
  | cancel hw re => simp [isWaiting_of_isTerminal ht] at hw
  | admitTask hw hf ag now => simp [isWaiting_of_isTerminal ht] at hw
  | finish hr => simp [isRunning_of_isTerminal ht] at hr

end AxiomKernel.Swarm
