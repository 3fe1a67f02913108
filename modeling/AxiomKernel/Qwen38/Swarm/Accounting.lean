import AxiomKernel.Qwen38.Swarm.Journal

/-!
# Slots of the swarm scheduler

A running task holds one slot of the scheduler, one of its agent and one of its wave. The three
counters of the code are three kinds of pool of slots, so one invariant covers them: the counter
of a pool is the number of tasks that hold a slot of it, and is at most the pool's size. Each
internal function of the scheduler changes the record of at most one task, and moves exactly the
counters of the pools that task entered or left.
-/
namespace AxiomKernel.Swarm

open TaskRecord Registry Function Option Bool

inductive Pool where
  | scheduler
  | agent (id : AgentId)
  | wave (id : WaveId)

def used (s : State) : Pool → Option Nat
  | .scheduler => some s.activeTasks
  | .agent id => (s.agents.find id).map (·.activeTasks)
  | .wave id => (s.waves.find id).map (·.activeTasks)

def capacity (s : State) : Pool → Option Nat
  | .scheduler => some s.config.maxConcurrent
  | .agent id => (s.agents.find id).map (·.spec.maxConcurrent)
  | .wave id => (s.waves.find id).bind (·.spec.maxConcurrent)

variable (t : TaskRecord)

def TaskRecord.holds : Pool → Bool
  | .scheduler => t.isRunning
  | .agent id => t.isRunning && t.agentId == some id
  | .wave id => t.isRunning && t.inWave id

def TaskRecord.isLive : Bool := t.isWaiting || t.isRunning

def TaskRecord.Assigned : Prop := t.agentId.isSome = t.isRunning

structure Accounted (s : State) : Prop where
  exact : ∀ p n, used s p = some n → n = s.tasks.count (·.holds p)
  bounded : ∀ p n m, used s p = some n → capacity s p = some m → n ≤ m
  known : ∀ id t p, s.tasks.find id = some t → t.holds p = true → (used s p).isSome
  assigned : ∀ id t, s.tasks.find id = some t → t.Assigned
  live : ∀ m, s.config.maxQueuedTasks = some m → s.tasks.count isLive ≤ m + s.config.maxConcurrent

variable (config : SchedulerConfig)

lemma accounted_init : Accounted { config } where
  exact p n h := by
    cases p <;> simp [used] at h ⊢
    exact h.symm
  bounded p n m h := by
    cases p with
    | scheduler =>
      simp only [used, some.injEq] at h
      omega
    | agent id => simp [used] at h
    | wave id => simp [used] at h
  known id t p h := by simp at h
  assigned id t h := by simp at h
  live m _ := by simp [count, empty]

variable {s : State}
  {s' : State} {t u : TaskRecord} {f : WaveRecord → WaveRecord} {agent : AgentRecord}

lemma Accounted.frame (h : Accounted s) (hc : s'.config = s.config)
    (hu : ∀ p, used s' p = used s p) (hca : ∀ p, capacity s' p = capacity s p)
    (hta : s'.tasks = s.tasks) : Accounted s' where
  exact p n hn := by rw [hta]; exact h.exact p n (hu p ▸ hn)
  bounded p n m hn hm := h.bounded p n m (hu p ▸ hn) (hca p ▸ hm)
  known id t p ht hp := by rw [hu]; exact h.known id t p (hta ▸ ht) hp
  assigned id t ht := h.assigned id t (hta ▸ ht)
  live m hm := by
    rw [hta, hc]
    exact h.live m (hc ▸ hm)

variable {id : TaskId}

lemma Accounted.change (h : Accounted s) (hf : s.tasks.find id = some t)
    (hc : s'.config = s.config) (hca : ∀ p, capacity s' p = capacity s p)
    (ht : s'.tasks = s.tasks.modify id fun _ => u)
    (hu : ∀ p, used s' p = (used s p).map fun n => n + (u.holds p).toNat - (t.holds p).toNat)
    (hkn : ∀ p, u.holds p → (used s p).isSome)
    (hr : ∀ p n m, u.holds p → t.holds p = false →
      used s p = some n → capacity s p = some m → n < m) (ha : u.Assigned)
    (hl : u.isLive → t.isLive) : Accounted s' where
  exact p n hn := by
    rw [hu, map_eq_some_iff] at hn
    obtain ⟨k, hk, rfl⟩ := hn
    have hco := count_modify hf (fun _ => u) (·.holds p)
    rw [← h.exact p k hk] at hco
    rw [ht]
    omega
  bounded p n m hn hm := by
    rw [hu, map_eq_some_iff] at hn
    obtain ⟨k, hk, rfl⟩ := hn
    rw [hca] at hm
    have hle := h.bounded p k m hk hm
    cases hp' : u.holds p with
    | false => simp; omega
    | true =>
      cases hp : t.holds p with
      | true => simp; omega
      | false =>
        have := hr p k m hp' hp hk hm
        simp; omega
  known other v p hv hp := by
    rw [hu, isSome_map]
    rw [ht, find_modify] at hv
    split at hv
    · subst_vars
      rw [hf] at hv
      simp only [map_some, some.injEq] at hv
      exact hkn p (hv ▸ hp)
    · exact h.known other v p hv hp
  assigned other v hv := by
    rw [ht, find_modify] at hv
    split at hv
    · subst_vars
      rw [hf] at hv
      simp only [map_some, some.injEq] at hv
      exact hv ▸ ha
    · exact h.assigned other v hv
  live m hm := by
    rw [hc] at hm ⊢
    have hco := count_modify hf (fun _ => u) isLive
    have hle := h.live m hm
    rw [ht]
    cases hv' : u.isLive with
    | false =>
      rw [hv'] at hco
      rw [toNat_false] at hco
      omega
    | true =>
      rw [hv', hl hv'] at hco
      omega

lemma Accounted.retask (h : Accounted s) (hf : s.tasks.find id = some t)
    (hh : ∀ p, u.holds p = t.holds p) (ha : u.agentId = t.agentId)
    (hv : u.isLive → t.isLive) :
    Accounted { s with tasks := s.tasks.modify id fun _ => u } := by
  have hr : u.isRunning = t.isRunning := hh .scheduler
  refine h.change (u := u) hf rfl (fun p => by cases p <;> rfl) rfl ?_ ?_ ?_ ?_ hv
  · intro p
    rw [hh]
    have hs : used { s with tasks := s.tasks.modify id fun _ => u } p = used s p := by
      cases p <;> rfl
    rw [hs]
    cases used s p <;> simp
  · intro p hp
    exact h.known id t p hf (hh p ▸ hp)
  · intro p n m hp' hp
    rw [hh, hp] at hp'
    simp at hp'
  · rw [TaskRecord.Assigned, ha, hr]
    exact h.assigned id t hf

lemma pools_modify_wave (s : State) (id : WaveId) (hs : ∀ w, (f w).spec = w.spec)
    (ha : ∀ w, (f w).activeTasks = w.activeTasks) (p : Pool) :
    used { s with waves := s.waves.modify id f } p = used s p ∧
      capacity { s with waves := s.waves.modify id f } p = capacity s p := by
  cases p with
  | wave o =>
    simp only [used, capacity, find_modify]
    split
    · cases s.waves.find o <;> simp [hs, ha]
    · exact ⟨rfl, rfl⟩
  | _ => exact ⟨rfl, rfl⟩

lemma pools_recomputeWaveOf (s : State) (task : TaskRecord) (p : Pool) :
    used (recomputeWaveOf s task) p = used s p ∧
    capacity (recomputeWaveOf s task) p = capacity s p := by
  unfold recomputeWaveOf
  split
  · refine pools_modify_wave s _ ?_ ?_ p <;> exact fun _ => rfl
  · exact ⟨rfl, rfl⟩

variable (h : Accounted s)
include h

lemma Accounted.rewave (id : WaveId) (hs : ∀ w, (f w).spec = w.spec)
    (ha : ∀ w, (f w).activeTasks = w.activeTasks) :
    Accounted { s with waves := s.waves.modify id f } :=
  h.frame rfl (fun p => (pools_modify_wave s id hs ha p).1)
    (fun p => (pools_modify_wave s id hs ha p).2) rfl

lemma Accounted.recomputeWave (id : WaveId) : Accounted (recomputeWave s id) :=
  h.rewave id (fun _ => rfl) fun _ => rfl

lemma Accounted.recomputeWaveOf (task : TaskRecord) : Accounted (recomputeWaveOf s task) := by
  unfold Swarm.recomputeWaveOf
  split
  · exact h.recomputeWave _
  · exact h

lemma Accounted.requestWaveCancellation (id : WaveId) : Accounted (requestWaveCancellation s id) :=
  h.rewave id (fun _ => rfl) fun _ => rfl

omit h

variable (outcome : TaskOutcome)

lemma taskStateForOutcome_ne_running : taskStateForOutcome outcome ≠ .running := by
  cases outcome <;> simp [taskStateForOutcome]

lemma isTerminal_taskStateForOutcome : isTerminal (taskStateForOutcome outcome) = true := by
  cases outcome <;> rfl

section
variable (task : TaskRecord) (outcome : TaskOutcome) (now : TimePoint) (reason : String)
  (sequence : Nat)

@[simp] lemma finishedTask_agentId :
    (finishedTask task outcome now reason sequence).agentId = none := by
  unfold finishedTask
  split <;> rfl

@[simp] lemma finishedTask_spec :
    (finishedTask task outcome now reason sequence).spec = task.spec := by
  unfold finishedTask
  split <;> rfl

lemma finishedTask_state : (finishedTask task outcome now reason sequence).state =
    if shouldRetry task outcome then .retryWait else taskStateForOutcome outcome := by
  unfold finishedTask
  split <;> rfl

@[simp] lemma finishedTask_attemptsStarted :
    (finishedTask task outcome now reason sequence).attemptsStarted = task.attemptsStarted := by
  unfold finishedTask
  split <;> rfl

@[simp] lemma finishedTask_isRunning :
    (finishedTask task outcome now reason sequence).isRunning = false := by
  rw [isRunning, finishedTask_state]
  split
  · rfl
  · simpa using taskStateForOutcome_ne_running outcome

@[simp] lemma finishedTask_holds (p : Pool) :
    (finishedTask task outcome now reason sequence).holds p = false := by
  cases p <;> simp [holds]

end

@[simp] lemma recomputeWaveOf_config (s : State) (task : TaskRecord) :
    (recomputeWaveOf s task).config = s.config := by
  unfold recomputeWaveOf
  split <;> rfl

@[simp] lemma recomputeWaveOf_tasks (s : State) (task : TaskRecord) :
    (recomputeWaveOf s task).tasks = s.tasks := by
  unfold recomputeWaveOf
  split <;> rfl

/-- A counter of the records, after the record under one id was counted. -/
lemma map_find_counted {α : Type} (r : Registry α) {f : α → α} {g : α → Nat} {op : Nat → Nat → Nat}
    (id o : Nat) (hf : ∀ a, g (f a) = op (g a) 1) (hz : ∀ n, op n 0 = n) :
    ((r.modify id f).find o).map g =
      ((r.find o).map g).map fun n => op n (some id == some o).toNat := by
  rw [map_find_modify, map_map]
  congr 1
  funext a
  by_cases heq : o = id
  · simp [heq, hf]
  · simp [heq, hz, beq_eq_false_iff_ne.2 (Ne.symm heq)]

variable {task : TaskRecord}

lemma used_releaseResources (s : State) (hr : task.isRunning) (p : Pool) :
    used (releaseResources s task) p = (used s p).map fun n => n - (task.holds p).toNat := by
  cases p with
  | scheduler => simp [used, releaseResources, holds, hr]
  | agent id =>
    simp only [used, releaseResources, holds, hr, Bool.true_and]
    cases task.agentId with
    | none => simp [map_map, comp_def]
    | some agent => exact map_find_counted _ agent id (fun _ => rfl) Nat.sub_zero
  | wave id =>
    simp only [used, releaseResources, holds, hr, Bool.true_and, inWave]
    cases task.spec.waveId with
    | none => simp [map_map, comp_def]
    | some wave => exact map_find_counted _ wave id (fun _ => rfl) Nat.sub_zero

lemma capacity_releaseResources (s : State) (task : TaskRecord) (p : Pool) :
    capacity (releaseResources s task) p = capacity s p := by
  cases p with
  | scheduler => rfl
  | agent id =>
    simp only [capacity, releaseResources]
    cases task.agentId with
    | none => rfl
    | some agent =>
      rw [find_modify]
      split
      · simp [map_map, comp_def]
      · rfl
  | wave id =>
    simp only [capacity, releaseResources]
    cases task.spec.waveId with
    | none => rfl
    | some wave =>
      rw [find_modify]
      split
      · cases s.waves.find id <;> simp
      · rfl

section
variable (s : State) (id : TaskId) (task : TaskRecord) (outcome : TaskOutcome) (now : TimePoint)
  (reason : String)

@[simp] lemma finishAttempt_config :
    (finishAttempt s id task outcome now reason).config = s.config := by
  simp [finishAttempt, releaseResources]

@[simp] lemma finishAttempt_tasks : (finishAttempt s id task outcome now reason).tasks =
      s.tasks.modify id fun _ => finishedTask task outcome now reason s.nextQueueSequence := by
  simp [finishAttempt]

end

lemma Accounted.finishAttempt (h : Accounted s) (hf : s.tasks.find id = some t)
    (hr : t.isRunning) (hh : ∀ p, task.holds p = t.holds p) (outcome : TaskOutcome)
    (now : TimePoint) (reason : String) :
    Accounted (finishAttempt s id task outcome now reason) := by
  have hr' : task.isRunning = true := (hh .scheduler).trans hr
  refine h.change (u := finishedTask task outcome now reason s.nextQueueSequence) hf (by simp)
    ?_ (by simp) ?_ ?_ ?_ ?_ ?_
  · intro p
    rw [Swarm.finishAttempt, (pools_recomputeWaveOf _ task p).2,
      ← capacity_releaseResources s task p]
    cases p <;> rfl
  · intro p
    rw [Swarm.finishAttempt, (pools_recomputeWaveOf _ task p).1, finishedTask_holds, ← hh]
    have hrel := used_releaseResources s hr' p
    cases p <;> exact hrel
  · intro p hp
    simp at hp
  · intro p n m hp
    simp at hp
  · simp [TaskRecord.Assigned]
  · intro _
    simp [isLive, hr]

lemma isRunning_of_isWaiting (h : task.isWaiting) : task.isRunning = false := by
  cases hs : task.state <;> simp_all [isWaiting, isRunning]

lemma isTerminal_of_isRunning (h : task.isRunning) : isTerminal task.state = false := by
  cases hs : task.state <;> simp_all [isTerminal, isRunning]

lemma isTerminal_of_isWaiting (h : task.isWaiting) : isTerminal task.state = false := by
  cases hs : task.state <;> simp_all [isTerminal, isWaiting]

lemma Accounted.cancelTaskLocked (h : Accounted s) (hf : s.tasks.find id = some t)
    (reason : String) :
    Accounted (cancelTaskLocked s id t reason).1 := by
  unfold Swarm.cancelTaskLocked
  split
  · exact h
  · split
    next hw =>
      -- a waiting task holds no slot, and neither does a cancelled one
      have hn : t.isRunning = false := isRunning_of_isWaiting hw
      have hn' : (cancelledTask t reason).isRunning = false := rfl
      refine Accounted.recomputeWaveOf (h.retask (u := cancelledTask t reason) hf ?_ rfl ?_) t
      · intro p
        cases p <;> simp [holds, hn, hn']
      · intro _
        simp [isLive, hw]
    · exact h.retask hf (fun p => by cases p <;> rfl) rfl fun hv => hv

lemma selectedAgent_spec {id : AgentId} (h : selectedAgent s = some (id, agent)) :
    s.agents.find id = some agent ∧ agent.hasRoom = true := by
  unfold selectedAgent at h
  have hro := List.find?_some h
  exact ⟨mem_entries_iff.1 (List.mem_of_find?_eq_some h), hro⟩

variable {now : TimePoint}

lemma selectedTask_spec (h : selectedTask s now = some (id, task)) :
    s.tasks.find id = some task ∧ eligible s now task = true := by
  have hf : ∀ b ∈ selectedTask s now, s.tasks.find b.1 = some b.2 ∧ eligible s now b.2 := by
    unfold selectedTask
    refine List.foldlRecOn (motive := fun b : Option (TaskId × TaskRecord) => ∀ e ∈ b,
      s.tasks.find e.1 = some e.2 ∧ eligible s now e.2 = true) _ _ (by simp) ?_
    intro b hbe e he chosen hc
    unfold betterTask at hc
    split at hc
    next hb =>
      obtain rfl : e = chosen := by simpa using hc
      rw [and_eq_true] at hb
      exact ⟨mem_entries_iff.1 he, hb.1⟩
    · exact hbe chosen hc
  exact hf (id, task) h

lemma eligible_waiting (h : eligible s now task) :
    task.isWaiting ∧ task.cancellationRequested = false := by
  simp only [eligible, Bool.and_eq_true, Bool.not_eq_eq_eq_not, Bool.not_true] at h
  exact ⟨h.1.1.2, h.1.1.1⟩

lemma eligible_wave {id : WaveId} (h : eligible s now task) (hw : task.spec.waveId = some id) :
    ∃ wa, s.waves.find id = some wa ∧ wa.hasRoom = true := by
  simp only [eligible, and_eq_true, hw, all_some] at h
  simpa [any_eq_true] using h.2

section
variable (s : State) (id : TaskId) (task : TaskRecord) (agent : AgentId) (now : TimePoint)
  (p : Pool)

lemma used_admitTask : used (admitTask s id task agent now).1 p =
      (used s p).map fun n => n + ((admittedTask task agent now).holds p).toNat := by
  cases p with
  | scheduler => simp [used, admitTask, holds, admittedTask, isRunning]
  | agent other =>
    simp only [used, admitTask, holds, admittedTask, isRunning, beq_self_eq_true, Bool.true_and]
    exact map_find_counted _ agent other (fun _ => rfl) Nat.add_zero
  | wave other =>
    simp only [used, admitTask, holds, admittedTask, isRunning, beq_self_eq_true,
      Bool.true_and, inWave]
    cases task.spec.waveId with
    | none => simp [map_map, comp_def]
    | some wave => exact map_find_counted _ wave other (fun _ => rfl) Nat.add_zero

lemma capacity_admitTask : capacity (admitTask s id task agent now).1 p = capacity s p := by
  cases p with
  | scheduler => rfl
  | agent other =>
    simp only [capacity, admitTask, map_find_modify]
    congr 1
    funext a
    split <;> rfl
  | wave other =>
    simp only [capacity, admitTask]
    cases task.spec.waveId with
    | none => rfl
    | some wave =>
      rw [find_modify]
      split
      · cases s.waves.find other <;> simp
      · rfl

end

lemma Accounted.admitTask {agentId : AgentId} (h : Accounted s)
    (hro : s.activeTasks < s.config.maxConcurrent)
    (hag : selectedAgent s = some (agentId, agent))
    (htk : selectedTask s now = some (id, task)) :
    Accounted (admitTask s id task agentId now).1 := by
  obtain ⟨hfin, hagen⟩ := selectedAgent_spec hag
  obtain ⟨hf, helig⟩ := selectedTask_spec htk
  obtain ⟨hwt, _⟩ := eligible_waiting helig
  have hnot : ∀ p, task.holds p = false := by
    intro p
    cases p <;> simp [holds, isRunning_of_isWaiting hwt]
  simp only [AgentRecord.hasRoom, Bool.and_eq_true, decide_eq_true_eq] at hagen
  refine h.change (u := admittedTask task agentId now) hf rfl
    (fun p => capacity_admitTask s id task agentId now p) rfl ?_ ?_ ?_ rfl ?_
  · intro p
    rw [used_admitTask, hnot]
    rfl
  · intro p hp
    cases p with
    | scheduler => rfl
    | agent other =>
      simp only [holds, admittedTask, Bool.and_eq_true, beq_iff_eq, some.injEq] at hp
      simp [used, ← hp.2, hfin]
    | wave other =>
      simp only [holds, admittedTask, Bool.and_eq_true, inWave, beq_iff_eq] at hp
      obtain ⟨wave, hfi, _⟩ := eligible_wave helig hp.2
      simp [used, hfi]
  · intro p n m hp _ hn hm
    cases p with
    | scheduler =>
      simp only [used, capacity, some.injEq] at hn hm
      omega
    | agent other =>
      simp only [holds, admittedTask, Bool.and_eq_true, beq_iff_eq, some.injEq] at hp
      simp only [used, capacity, ← hp.2, hfin, map_some, some.injEq] at hn hm
      omega
    | wave other =>
      simp only [holds, admittedTask, Bool.and_eq_true, inWave, beq_iff_eq] at hp
      obtain ⟨wave, hfi, hwav⟩ := eligible_wave helig hp.2
      simp only [used, capacity, hfi, map_some, bind_some, some.injEq] at hn hm
      simp only [WaveRecord.hasRoom, hm, any_some, Bool.and_eq_true,
        Bool.not_eq_eq_eq_not, Bool.not_true, decide_eq_false_iff_not] at hwav
      omega
  · intro _
    simp [isLive, hwt]

/-- What `admit_next` does: nothing after the deadlines, or the admission of a free task. -/
lemma admitNext_cases (s : State) (now : TimePoint) :
    admitNext s now = (expireRunning s now, none) ∨ ∃ ai agent id task,
    (expireRunning s now).activeTasks < (expireRunning s now).config.maxConcurrent ∧
    selectedAgent (expireRunning s now) = some (ai, agent) ∧
    selectedTask (expireRunning s now) now = some (id, task) ∧
    admitNext s now = ((admitTask (expireRunning s now) id task ai now).1,
    some (admitTask (expireRunning s now) id task ai now).2) := by
  unfold admitNext
  simp only
  split
  · exact .inl rfl
  next hr =>
    split
    next ai agent id task ha ht =>
      exact .inr ⟨ai, agent, id, task, Nat.lt_of_not_le hr, ha, ht, rfl⟩
    · exact .inl rfl

variable (h : Accounted s)
include h

lemma Accounted.newPool (q : Pool) (hc : s'.config = s.config)
    (hta : s'.tasks = s.tasks) (hf : used s q = none) (hne : used s' q = some 0)
    (ho : ∀ p, p ≠ q → used s' p = used s p ∧ capacity s' p = capacity s p) : Accounted s' := by
  have he : s.tasks.count (·.holds q) = 0 := by
    -- a task that held a slot of the fresh pool would name a pool nobody knows
    refine count_eq_zero_iff.2 fun o t ht => ?_
    by_contra hh
    have hkn := h.known o t q ht (by simpa using hh)
    simp [hf] at hkn
  refine ⟨?_, ?_, ?_, fun id t ht => h.assigned id t (hta ▸ ht), ?_⟩
  · intro p n hn
    rw [hta]
    by_cases hp : p = q
    · subst hp
      rw [he]
      exact (some.inj (hne.symm.trans hn)).symm
    · exact h.exact p n ((ho p hp).1 ▸ hn)
  · intro p n m hn hm
    by_cases hp : p = q
    · subst hp
      rw [← some.inj (hne.symm.trans hn)]
      exact Nat.zero_le m
    · exact h.bounded p n m ((ho p hp).1 ▸ hn) ((ho p hp).2 ▸ hm)
  · intro id t p ht hh
    by_cases hp : p = q
    · rw [hp, hne]
      rfl
    · rw [(ho p hp).1]
      exact h.known id t p (hta ▸ ht) hh
  · intro m hm
    rw [hta, hc]
    exact h.live m (hc ▸ hm)

lemma Accounted.registerAgent (sp : AgentSpec) : Accounted (registerAgent s sp).1 := by
  unfold Swarm.registerAgent
  split
  · exact h
  refine h.newPool (.agent s.agents.nextId) rfl rfl (by simp [used, find_nextId])
    (by simp [used, find_emplace]) fun p hp => ?_
  cases p with
  | agent id =>
    have hi : id ≠ s.agents.nextId := fun he => hp (he ▸ rfl)
    simp [used, capacity, find_emplace, hi]
  | _ => exact ⟨rfl, rfl⟩

lemma Accounted.createWave (spec : WaveSpec) : Accounted (createWave s spec).1 := by
  have hc : Accounted { s with waves := s.waves.emplace { spec } } := by
    refine h.newPool (.wave s.waves.nextId) rfl rfl (by simp [used, find_nextId])
      (by simp [used, find_emplace]) fun p hp => ?_
    cases p with
    | wave id =>
      have hi : id ≠ s.waves.nextId := fun he => hp (he ▸ rfl)
      simp [used, capacity, find_emplace, hi]
    | _ => exact ⟨rfl, rfl⟩
  unfold Swarm.createWave
  split_ifs <;> first | exact h | exact hc

omit h

lemma checked_eq_none {p : Prop} [Decidable p] {e : String} {re : Option String} :
    (if p then some e else re) = none ↔ ¬ p ∧ re = none := by
  by_cases h : p <;> simp [h]

lemma submitError_none {sp : TaskSpec} (h : submitError s sp = none) :
    (∀ id, sp.waveId = some id → ∃ wa, s.waves.find id = some wa ∧
    isTerminalWave wa.state = false ∧ wa.cancellationRequested = false) ∧
    (∀ m, s.config.maxQueuedTasks = some m → queuedTaskCount s < m) := by
  simp only [submitError, checked_eq_none] at h
  obtain ⟨-, -, -, -, he, ht, -, -, hq, -⟩ := h
  constructor
  · intro id hi
    rw [hi, any_some, not_eq_true, isNone_eq_false_iff, isSome_iff_exists] at he
    obtain ⟨wa, hw⟩ := he
    rw [hi, any_some, hw, any_some, not_eq_true, or_eq_false_iff]
      at ht
    exact ⟨wa, hw, ht⟩
  · intro m hm
    simpa [hm] using hq

lemma queuedTaskCount_eq (s : State) : queuedTaskCount s =
      s.tasks.count (fun t => t.state == .queued) +
        s.tasks.count (fun t => t.state == .retryWait) := by
  unfold queuedTaskCount count
  induction s.tasks.rows with
  | nil => rfl
  | cons t rs ih =>
    simp only [List.countP_cons, ih, isWaiting]
    by_cases hq : t.state = .queued
    · simp [hq]
      omega
    · by_cases hr : t.state = .retryWait <;> simp [hq, hr]
      omega

lemma isLive_count (s : State) :
    s.tasks.count isLive = queuedTaskCount s + s.tasks.count isRunning := by
  unfold queuedTaskCount count
  induction s.tasks.rows with
  | nil => rfl
  | cons t rs ih =>
    simp only [List.countP_cons, ih]
    have hn : t.isWaiting = true → t.isRunning = false := isRunning_of_isWaiting
    cases hw : t.isWaiting <;> cases hr : t.isRunning <;> simp_all [isLive] <;> omega

/-- The queue limit is checked when a task comes in; the running tasks are bounded on their own. -/
lemma Accounted.submit (h : Accounted s) (spec : TaskSpec) : Accounted (submit s spec).1 := by
  unfold Swarm.submit
  split
  · exact h
  next hno =>
    obtain ⟨_, hq⟩ := submitError_none hno
    have hi : ∀ p,
        ({ spec, queueSequence := s.nextQueueSequence } : TaskRecord).holds p = false := by
      intro p
      cases p <;> rfl
    refine ⟨?_, ?_, ?_, ?_, ?_⟩
    · intro p n hn
      rw [count_emplace, hi]
      exact h.exact p n (by cases p <;> exact hn)
    · intro p n m hn hm
      exact h.bounded p n m (by cases p <;> exact hn) (by cases p <;> exact hm)
    · intro id t p ht hp
      have hu : used s p = used { s with
          tasks := s.tasks.emplace { spec, queueSequence := s.nextQueueSequence }
          nextQueueSequence := s.nextQueueSequence + 1 } p := by cases p <;> rfl
      rw [← hu]
      rw [find_emplace] at ht
      split at ht
      · obtain rfl : _ = t := by simpa using ht
        rw [hi] at hp
        simp at hp
      · exact h.known id t p ht hp
    · intro id t ht
      rw [find_emplace] at ht
      split at ht
      · obtain rfl : _ = t := by simpa using ht
        rfl
      · exact h.assigned id t ht
    · intro m hm
      have hrunn := h.exact .scheduler s.activeTasks rfl
      have hbo := h.bounded .scheduler s.activeTasks s.config.maxConcurrent rfl rfl
      have hqueu := hq m hm
      have hco := isLive_count s
      have ho : ({ spec, queueSequence := s.nextQueueSequence } : TaskRecord).isLive = true := rfl
      simp only [count_emplace, ho, toNat_true]
      change s.activeTasks = s.tasks.count isRunning at hrunn
      omega

lemma Accounted.setAgentState (h : Accounted s) (id : AgentId) (st : AgentState) :
    Accounted (setAgentState s id st).1 := by
  unfold Swarm.setAgentState
  split
  · exact h
  · refine h.frame rfl (fun p => ?_) (fun p => ?_) rfl
    all_goals cases p
    case agent => simp [used, map_find_modify]
    case agent => simp [capacity, map_find_modify]
    all_goals rfl

lemma kept_accounted : Kept (fun j => Accounted j.state) fun _ => True where
  registerAgent _ spec hj := hj.registerAgent spec
  setAgentState _ id state hj := hj.setAgentState id state
  createWave _ spec hj _ := hj.createWave spec
  submit j spec hj _ := by
    rw [j.state_submit]
    exact hj.submit spec
  count j id t tokensUsed hj hfind _ :=
    hj.retask hfind (fun p => by cases p <;> rfl) rfl fun hv => hv
  admitted _ _ _ _ _ _ hj hroom hagent htask := hj.admitTask hroom hagent htask
  finish j id t tokensUsed outcome now reason hj hfind hrun _ := by
    rw [j.state_finishAttempt]
    exact hj.finishAttempt hfind hrun (fun p => by cases p <;> rfl) outcome now reason
  cancel j id t reason hj hfind := by
    rw [j.state_cancelTaskLocked]
    exact hj.cancelTaskLocked hfind reason
  recompute _ id hj := hj.recomputeWave id
  request _ id _ hj := hj.requestWaveCancellation id

variable (cs : List Call)

lemma accounted_reached : Accounted (reached config cs) := by
  rw [← state_journal]
  exact kept_accounted.run (accounted_init config) cs

lemma kept_config : Kept (fun j => j.state.config = config) fun _ => True where
  registerAgent j spec hj := by
    unfold registerAgent
    split <;> exact hj
  setAgentState j id state hj := by
    unfold setAgentState
    split <;> exact hj
  createWave j spec hj hcreated := by
    rw [hcreated]
    exact hj
  submit j spec hj herror := by
    rw [j.state_submit, submit, herror]
    exact hj
  count _ _ _ _ hj _ _ := hj
  admitted _ _ _ _ _ _ hj _ _ _ := hj
  finish j id t tokensUsed outcome now reason hj _ _ _ := by
    rw [j.state_finishAttempt, finishAttempt_config]
    exact hj
  cancel j id t reason hj _ := by
    rw [j.state_cancelTaskLocked, cancelTaskLocked]
    split_ifs
    · exact hj
    · rw [recomputeWaveOf_config]
      exact hj
    · exact hj
  recompute _ _ hj := hj
  request _ _ _ hj := hj

lemma reached_config : (reached config cs).config = config := by
  rw [← state_journal]
  exact (kept_config config).run rfl cs

/-- Whatever the calls and their times: the three counters are the numbers of running tasks they
stand for and stay within their limits, exactly the running tasks have an agent, and the queue
limit bounds all tasks that are not terminal. -/
theorem capacity_accounting (calls : List Call) :
    let s := reached config calls
    (s.activeTasks = s.tasks.count (fun t => t.state == .running) ∧
      s.activeTasks ≤ config.maxConcurrent) ∧
    (∀ id agent, s.agents.find id = some agent →
      agent.activeTasks = s.tasks.count (fun t => t.state == .running && t.agentId == some id) ∧
      agent.activeTasks ≤ agent.spec.maxConcurrent) ∧
    (∀ id wave, s.waves.find id = some wave →
      wave.activeTasks = s.tasks.count (fun t => t.state == .running && t.spec.waveId == some id) ∧
      ∀ m, wave.spec.maxConcurrent = some m → wave.activeTasks ≤ m) ∧
    (∀ id task, s.tasks.find id = some task → (task.agentId.isSome ↔ task.state = .running)) ∧
    (∀ m, config.maxQueuedTasks = some m →
      s.tasks.count (fun t => t.state == .queued) + s.tasks.count (fun t => t.state == .retryWait) +
        s.tasks.count (fun t => t.state == .running) ≤ m + config.maxConcurrent) := by
  intro s
  have h : Accounted s := accounted_reached config calls
  have hc : s.config = config := reached_config config calls
  refine ⟨⟨h.exact .scheduler _ rfl, ?_⟩, ?_, ?_, ?_, ?_⟩
  · rw [← hc]
    exact h.bounded .scheduler _ _ rfl rfl
  · intro id agent hf
    exact ⟨h.exact (.agent id) _ (by simp [used, hf]),
      h.bounded (.agent id) _ _ (by simp [used, hf]) (by simp [capacity, hf])⟩
  · intro id wave hf
    refine ⟨h.exact (.wave id) _ (by simp [used, hf]), fun m hm => ?_⟩
    exact h.bounded (.wave id) _ _ (by simp [used, hf]) (by simp [capacity, hf, hm])
  · intro id task hf
    have hassigned := h.assigned id task hf
    rw [TaskRecord.Assigned, isRunning] at hassigned
    rw [hassigned, beq_iff_eq]
  · intro m hm
    have hv := h.live m (hc ▸ hm)
    rw [hc, isLive_count, queuedTaskCount_eq] at hv
    exact hv

end AxiomKernel.Swarm
