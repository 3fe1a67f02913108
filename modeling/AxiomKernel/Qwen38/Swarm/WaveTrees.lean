import AxiomKernel.Qwen38.Swarm.Accounting

/-!
# Wave trees

Waves and tasks name their parents when they are created, and no call changes what they name. A
parent is older than its children, so the climbs of `wave_is_descendant` and
`task_belongs_to_wave_tree` end by themselves, and their answers never change.
-/
namespace AxiomKernel.Swarm

open Registry Option Nat

def waveView {β : Type} (g : WaveRecord → β) (s : State) (id : WaveId) : Option β :=
  (s.waves.find id).map g

section
variable {β : Type} {g : WaveRecord → β}
  (hg : ∀ w state activeTasks hasStarted, g { w with state, activeTasks, hasStarted } = g w)
include hg

lemma waveView_recomputeWave (s : State) (id : WaveId) :
    waveView g (recomputeWave s id) = waveView g s := by
  funext other
  refine (map_find_modify ..).trans ?_
  simp only [hg _ _ (WaveRecord.activeTasks _) (WaveRecord.hasStarted _), ite_self]
  rfl

lemma waveView_recomputeWaveOf (s : State) (task : TaskRecord) :
    waveView g (recomputeWaveOf s task) = waveView g s := by
  unfold recomputeWaveOf
  split
  · exact waveView_recomputeWave hg s _
  · rfl

section
variable (s : State) (id : TaskId) (task : TaskRecord)

lemma waveView_finishAttempt (o : TaskOutcome) (now : TimePoint) (re : String) :
    waveView g (finishAttempt s id task o now re) = waveView g s := by
  unfold finishAttempt
  rw [waveView_recomputeWaveOf hg]
  funext other
  simp only [waveView, releaseResources]
  cases task.spec.waveId with
  | none => rfl
  | some wa =>
    refine (map_find_modify ..).trans ?_
    simp [hg _ (WaveRecord.state _) _ (WaveRecord.hasStarted _)]

lemma waveView_cancelTaskLocked (re : String) :
    waveView g (cancelTaskLocked s id task re).1 = waveView g s := by
  unfold cancelTaskLocked
  split_ifs
  · rfl
  · exact waveView_recomputeWaveOf hg _ task
  · rfl

lemma waveView_admitTask (ag : AgentId) (now : TimePoint) :
    waveView g (admitTask s id task ag now).1 = waveView g s := by
  funext other
  simp only [waveView, admitTask]
  cases task.spec.waveId with
  | none => rfl
  | some wa =>
    refine (map_find_modify ..).trans ?_
    simp [hg]

end

end

def waveSpecOf (s : State) (id : WaveId) : Option WaveSpec := waveView (·.spec) s id

def taskSpecOf (s : State) (id : TaskId) : Option TaskSpec := (s.tasks.find id).map (·.spec)

lemma waveSpecOf_cancelTaskLocked (s : State) (id : TaskId) (task : TaskRecord) (re : String) :
    waveSpecOf (cancelTaskLocked s id task re).1 = waveSpecOf s :=
  waveView_cancelTaskLocked (fun _ _ _ _ => rfl) s id task re

lemma waveSpecOf_requestWaveCancellation (s : State) (id : WaveId) :
    waveSpecOf (requestWaveCancellation s id) = waveSpecOf s := by
  funext other
  exact (map_find_modify ..).trans (by simp [waveSpecOf, waveView])

variable {id : TaskId} {t task task' : TaskRecord} {spec : TaskSpec} {turns turns' : Nat}

lemma taskSpecOf_modify {s s' : State} {u : TaskRecord} (hf : s.tasks.find id = some t)
    (hs : u.spec = t.spec) (ht : s'.tasks = s.tasks.modify id fun _ => u) :
    taskSpecOf s' = taskSpecOf s := by
  funext other
  rw [taskSpecOf, ht, find_modify]
  split
  next he =>
    subst he
    simp [taskSpecOf, hf, hs]
  · rfl

lemma taskSpecOf_cancelTaskLocked {s : State} (hf : s.tasks.find id = some t) (re : String) :
    taskSpecOf (cancelTaskLocked s id t re).1 = taskSpecOf s := by
  unfold cancelTaskLocked
  split_ifs
  · rfl
  · exact taskSpecOf_modify (u := cancelledTask t re) hf rfl (recomputeWaveOf_tasks ..)
  · exact taskSpecOf_modify (u := { t with cancellationRequested := true }) hf rfl rfl

/-- What depends on a view of the waves and the specifications of the tasks, and is kept when a wave
or a task is added and when the cancellation of a wave in `R` is requested. -/
lemma kept_of_views_where {R : WaveId → Prop} {β : Type} {g : WaveRecord → β}
    (hg : ∀ w state activeTasks hasStarted, g { w with state, activeTasks, hasStarted } = g w)
    {P : State → Prop}
    (hs : ∀ s s', waveView g s' = waveView g s → taskSpecOf s' = taskSpecOf s → P s → P s')
    (hw : ∀ s spec, P s → (createWave s spec).1 =
        { s with waves := s.waves.emplace { spec } } → P (createWave s spec).1)
    (htk : ∀ s spec, P s → submitError s spec = none → P (submit s spec).1)
    (hr : ∀ s id, R id → P s → P (requestWaveCancellation s id)) :
    Kept (fun j => P j.state) R where
  registerAgent j spec hj := by
    unfold registerAgent
    split
    · exact hj
    · exact hs j.state _ rfl rfl hj
  setAgentState j id state hj := by
    unfold setAgentState
    split
    · exact hj
    · exact hs j.state _ rfl rfl hj
  createWave j spec hj hcreated := hw j.state spec hj hcreated
  submit j spec hj herror := by
    rw [j.state_submit]
    exact htk j.state spec hj herror
  count j id t tokensUsed hj hf _ :=
    hs j.state _ rfl (taskSpecOf_modify (u := { t with tokensUsed }) hf rfl rfl) hj
  admitted j id t agent _ now hj _ _ htk := hs j.state _ (waveView_admitTask hg ..)
      (taskSpecOf_modify (u := admittedTask t agent now) (selectedTask_spec htk).1 rfl rfl) hj
  finish j id t tokensUsed outcome now reason hj hf _ _ := by
    rw [Journal.state_finishAttempt]
    refine hs j.state _ (waveView_finishAttempt hg ..) ?_ hj
    exact taskSpecOf_modify hf (by rw [finishedTask_spec]) (finishAttempt_tasks ..)
  cancel j id t reason hj hf := by
    rw [Journal.state_cancelTaskLocked]
    exact hs j.state _ (waveView_cancelTaskLocked hg ..) (taskSpecOf_cancelTaskLocked hf reason) hj
  recompute j id hj := hs j.state _ (waveView_recomputeWave hg ..) rfl hj
  request j id hR hj := hr j.state id hR hj

lemma kept_of_views {β : Type} {g : WaveRecord → β}
    (hg : ∀ w state activeTasks hasStarted, g { w with state, activeTasks, hasStarted } = g w)
    {P : State → Prop}
    (hs : ∀ s s', waveView g s' = waveView g s → taskSpecOf s' = taskSpecOf s → P s → P s')
    (hw : ∀ s spec, P s → (createWave s spec).1 =
        { s with waves := s.waves.emplace { spec } } → P (createWave s spec).1)
    (htk : ∀ s spec, P s → submitError s spec = none → P (submit s spec).1)
    (hr : ∀ s id, P s → P (requestWaveCancellation s id)) :
    Kept (fun j => P j.state) fun _ => True :=
  kept_of_views_where hg hs hw htk fun s id _ => hr s id

structure Rooted (s : State) : Prop where
  /-- The wave above a wave, and the task it was found through. -/
  wave : ∀ id spec, waveSpecOf s id = some spec →
    (∀ above, parentWave s spec.parent = some above → above < id ∧ (waveSpecOf s above).isSome) ∧
    ∀ parent, spec.parent.parentTaskId = some parent → (taskSpecOf s parent).isSome
  task : ∀ id spec, taskSpecOf s id = some spec →
    (∀ parent, spec.parent.parentTaskId = some parent →
      parent < id ∧ (taskSpecOf s parent).isSome) ∧
    (∀ above, spec.parent.parentWaveId = some above → (waveSpecOf s above).isSome) ∧
    ∀ wave, spec.waveId = some wave → (waveSpecOf s wave).isSome

lemma parentWave_eq (s : State) (p : ParentMetadata) : parentWave s p = match p.parentWaveId with
      | some ab => some ab
      | none => p.parentTaskId.bind fun task => (taskSpecOf s task).bind (·.waveId) := by
  unfold parentWave taskSpecOf
  cases p.parentWaveId with
  | some ab => rfl
  | none =>
    cases p.parentTaskId with
    | none => rfl
    | some task => cases hf : s.tasks.find task <;> simp [hf]

lemma parentWave_congr {s s' : State} (h : taskSpecOf s' = taskSpecOf s) (parent : ParentMetadata) :
    parentWave s' parent = parentWave s parent := by
  rw [parentWave_eq, parentWave_eq, h]

lemma Rooted.of_same {s s' : State} (hw : waveSpecOf s' = waveSpecOf s)
    (ht : taskSpecOf s' = taskSpecOf s) (h : Rooted s) : Rooted s' where
  wave := by
    rw [hw, ht]
    simp only [parentWave_congr ht]
    exact h.wave
  task := by
    rw [hw, ht]
    exact h.task

structure Extends (s s' : State) : Prop where
  waves : ∀ id spec, waveSpecOf s id = some spec → waveSpecOf s' id = some spec
  tasks : ∀ id spec, taskSpecOf s id = some spec → taskSpecOf s' id = some spec

variable {s s' : State}

lemma Extends.of_same (hw : waveSpecOf s' = waveSpecOf s) (ht : taskSpecOf s' = taskSpecOf s) :
    Extends s s' := ⟨fun _ _ h => hw ▸ h, fun _ _ h => ht ▸ h⟩

lemma Extends.trans {s'' : State} (h : Extends s s') (h' : Extends s' s'') : Extends s s'' :=
  ⟨fun id spec hi => h'.waves id spec (h.waves id spec hi),
    fun id spec hi => h'.tasks id spec (h.tasks id spec hi)⟩

lemma Extends.isSome_wave (h : Extends s s') {id : WaveId} (hi : (waveSpecOf s id).isSome) :
    (waveSpecOf s' id).isSome := by
  obtain ⟨spec, hs⟩ := isSome_iff_exists.1 hi
  rw [h.waves id spec hs]
  rfl

lemma Extends.isSome_task (h : Extends s s') (hi : (taskSpecOf s id).isSome) :
    (taskSpecOf s' id).isSome := by
  obtain ⟨spec, hs⟩ := isSome_iff_exists.1 hi
  rw [h.tasks id spec hs]
  rfl

lemma Extends.parentWave (h : Extends s s') {parent : ParentMetadata}
    (hp : ∀ task, parent.parentTaskId = some task → (taskSpecOf s task).isSome) :
    parentWave s' parent = parentWave s parent := by
  rw [parentWave_eq, parentWave_eq]
  cases parent.parentWaveId with
  | some ab => rfl
  | none =>
    cases htk : parent.parentTaskId with
    | none => rfl
    | some task =>
      obtain ⟨spec, hs⟩ := isSome_iff_exists.1 (hp task htk)
      simp [hs, h.tasks task spec hs]

lemma Rooted.wave_of_extends (h : Rooted s) (he : Extends s s') {id : WaveId}
    {spec : WaveSpec} (hi : waveSpecOf s id = some spec) :
    (∀ ab, Swarm.parentWave s' spec.parent = some ab →
    ab < id ∧ (waveSpecOf s' ab).isSome) ∧
    ∀ p, spec.parent.parentTaskId = some p → (taskSpecOf s' p).isSome := by
  obtain ⟨ha, hp⟩ := h.wave id spec hi
  refine ⟨fun ab hf => ?_, fun p h' => he.isSome_task (hp p h')⟩
  rw [he.parentWave hp] at hf
  obtain ⟨hl, hs⟩ := ha ab hf
  exact ⟨hl, he.isSome_wave hs⟩

lemma Rooted.task_of_extends (h : Rooted s) (he : Extends s s') (hi : taskSpecOf s id = some spec) :
    (∀ p, spec.parent.parentTaskId = some p →
    p < id ∧ (taskSpecOf s' p).isSome) ∧
    (∀ ab, spec.parent.parentWaveId = some ab → (waveSpecOf s' ab).isSome) ∧
    ∀ wa, spec.waveId = some wa → (waveSpecOf s' wa).isSome := by
  obtain ⟨hp, ha, hw⟩ := h.task id spec hi
  exact ⟨fun p h' => ⟨(hp p h').1, he.isSome_task (hp p h').2⟩,
    fun ab h' => he.isSome_wave (ha ab h'),
    fun wa h' => he.isSome_wave (hw wa h')⟩

lemma isSome_waveSpecOf (s : State) (id : WaveId) :
    (waveSpecOf s id).isSome = (s.waves.find id).isSome := isSome_map

lemma isSome_taskSpecOf (s : State) (id : TaskId) :
    (taskSpecOf s id).isSome = (s.tasks.find id).isSome := isSome_map

lemma isSome_of_checked {α : Type} {id : Option Nat} {f : Nat → Option α} {n : Nat}
    (hi : id = some n) (h : ¬ (id.any fun id => (f id).isNone)) : (f n).isSome := by
  rw [hi, any_some] at h
  simpa [isSome_iff_ne_none] using h

lemma waveSpecOf_emplace (s : State) (spec : WaveSpec) (id : WaveId) :
    waveSpecOf { s with waves := s.waves.emplace { spec } } id =
      if id = s.waves.nextId then some spec else waveSpecOf s id := by
  rw [waveSpecOf, waveView, find_emplace]
  split <;> rfl

lemma taskSpecOf_submit (h : submitError s spec = none) (id : TaskId) :
    taskSpecOf (submit s spec).1 id =
      if id = s.tasks.nextId then some spec else taskSpecOf s id := by
  rw [submit, h, taskSpecOf, find_emplace]
  split <;> rfl

lemma extends_createWave (s : State) (spec : WaveSpec) :
    Extends s { s with waves := s.waves.emplace { spec } } where
  waves id old hold := by
    rw [waveSpecOf_emplace, if_neg, hold]
    rintro rfl
    rw [waveSpecOf, waveView, find_nextId] at hold
    cases hold
  tasks _ _ hold := hold

lemma extends_submit (h : submitError s spec = none) : Extends s (submit s spec).1 where
  waves id old hold := by
    rw [submit, h]
    exact hold
  tasks id old hold := by
    rw [taskSpecOf_submit h, if_neg, hold]
    rintro rfl
    rw [taskSpecOf, find_nextId] at hold
    cases hold

lemma Rooted.createWave {spec : WaveSpec} (h : Rooted s) (hc : (createWave s spec).1 =
    { s with waves := s.waves.emplace { spec } }) : Rooted (createWave s spec).1 := by
  have hext := extends_createWave s spec
  rw [hc]
  refine ⟨fun id f hf => ?_, fun id f hf => h.task_of_extends hext hf⟩
  rw [waveSpecOf_emplace] at hf
  split at hf
  next he =>
    subst he
    cases hf
    have hk : (∀ ab, spec.parent.parentWaveId = some ab → (waveSpecOf s ab).isSome) ∧
        ∀ p, spec.parent.parentTaskId = some p → (taskSpecOf s p).isSome := by
      have hl := congrArg (fun s => s.waves.rows.length) hc
      unfold Swarm.createWave at hl
      split_ifs at hl with _ _ hw ht
      all_goals simp [emplace] at hl
      refine ⟨fun ab ha => ?_, fun p hp => ?_⟩
      · rw [isSome_waveSpecOf]
        exact isSome_of_checked ha hw
      · rw [isSome_taskSpecOf]
        exact isSome_of_checked hp ht
    have hol {ab : WaveId} (ha : (waveSpecOf s ab).isSome) :
        ab < s.waves.nextId ∧ (waveSpecOf { s with waves := s.waves.emplace { spec } } ab).isSome :=
      ⟨lt_nextId (by rwa [← isSome_waveSpecOf]), hext.isSome_wave ha⟩
    refine ⟨fun ab ha => hol ?_, fun p hp =>
      hext.isSome_task (hk.2 p hp)⟩
    rw [hext.parentWave hk.2, parentWave_eq] at ha
    split at ha
    next a' ha' =>
      cases ha
      exact hk.1 ab ha'
    · obtain ⟨p, hp, hw⟩ := bind_eq_some_iff.1 ha
      obtain ⟨ps, hpa, hw⟩ := bind_eq_some_iff.1 hw
      exact (h.task p ps hpa).2.2 ab hw
  · exact h.wave_of_extends hext hf

lemma Rooted.submit (h : Rooted s) (he : submitError s spec = none) : Rooted (submit s spec).1 := by
  have hext := extends_submit he
  refine ⟨fun id f hf => h.wave_of_extends hext ?_, fun id f hf => ?_⟩
  · rw [Swarm.submit, he] at hf
    exact hf
  · rw [taskSpecOf_submit he] at hf
    split at hf
    next heq =>
      subst heq
      cases hf
      simp only [submitError, checked_eq_none] at he
      obtain ⟨-, -, -, -, hw, -, ha, hp, -⟩ := he
      refine ⟨fun p hf => ?_, fun ab hf => ?_, fun wa hf => ?_⟩
      · have hso := isSome_of_checked hf hp
        exact ⟨lt_nextId hso, hext.isSome_task (by rwa [isSome_taskSpecOf])⟩
      · refine hext.isSome_wave ?_
        rw [isSome_waveSpecOf]
        exact isSome_of_checked hf ha
      · refine hext.isSome_wave ?_
        rw [isSome_waveSpecOf]
        exact isSome_of_checked hf hw
    · exact h.task_of_extends hext hf

variable (config : SchedulerConfig)

lemma rooted_reached (cs : List Call) : Rooted (reached config cs) := by
  rw [← state_journal]
  refine (kept_of_views (P := Rooted) (fun _ _ _ _ => rfl) (fun _ _ => Rooted.of_same)
    (fun _ _ h => h.createWave) (fun _ _ h => h.submit) fun s id h =>
      h.of_same (waveSpecOf_requestWaveCancellation s id) rfl).run ?_ cs
  constructor <;> intro id spec hs <;>
    simp [waveSpecOf, waveView, taskSpecOf] at hs

lemma extends_run (cs l : List Call) : Extends (reached config cs) (reached config (cs ++ l)) := by
  have hs : journal config (cs ++ l) =
      l.foldl Journal.step (journal config cs) := List.foldl_append ..
  rw [← state_journal, ← state_journal, hs]
  generalize journal config cs = j
  refine (kept_of_views (P := fun s => Extends j.state s) (fun _ _ _ _ => rfl)
    (fun s s' hw ht h => h.trans (.of_same hw ht)) (fun s spec h hc => ?_)
    (fun s spec h he => h.trans (extends_submit he)) fun s id h =>
      h.trans (.of_same (waveSpecOf_requestWaveCancellation s id) rfl)).run
        ⟨fun _ _ h => h, fun _ _ h => h⟩ l
  rw [hc]
  exact h.trans (extends_createWave s spec)

section
variable (h : Rooted s)
include h

lemma climbWaves_extends (he : Extends s s') (an : WaveId) (turns : Nat)
    (vi : List WaveId) (id : WaveId) (hi : (waveSpecOf s id).isSome) :
    climbWaves s' an turns vi id = climbWaves s an turns vi id := by
  induction turns generalizing vi id with
  | zero => rfl
  | succ turns ih =>
    obtain ⟨spec, hsp⟩ := isSome_iff_exists.1 hi
    obtain ⟨wa, hw, rfl⟩ := map_eq_some_iff.1 hsp
    obtain ⟨w', hw', hs⟩ := map_eq_some_iff.1 (he.waves id _ hsp)
    obtain ⟨ha, hp⟩ := h.wave id _ hsp
    rw [climbWaves, climbWaves, hw, hw']
    dsimp only
    rw [hs, he.parentWave hp]
    cases hfo : parentWave s wa.spec.parent with
    | none => rfl
    | some ab =>
      dsimp only
      rw [ih _ ab (ha ab hfo).2]

/-- Once there are more turns than ids below, their number does not matter. -/
lemma climbWaves_turns (an : WaveId) (vi : List WaveId) (id : WaveId)
    (ht : id < turns) (ht' : id < turns') :
    climbWaves s an turns vi id = climbWaves s an turns' vi id := by
  induction turns generalizing turns' vi id with
  | zero => exact absurd ht (not_lt_zero id)
  | succ turns ih =>
    obtain ⟨turns', rfl⟩ := exists_eq_succ_of_ne_zero (ne_zero_of_lt ht')
    rw [climbWaves, climbWaves]
    cases hwa : s.waves.find id with
    | none => rfl
    | some wa =>
      dsimp only
      cases hfo : parentWave s wa.spec.parent with
      | none => rfl
      | some ab =>
        have hl : ab < id :=
          ((h.wave id wa.spec (by rw [waveSpecOf, waveView, hwa]; rfl)).1 ab hfo).1
        dsimp only
        rw [ih (id :: vi) ab (lt_of_lt_of_le hl (le_of_lt_succ ht))
          (lt_of_lt_of_le hl (le_of_lt_succ ht'))]

lemma waveIsDescendant_extends (he : Extends s s') {id : WaveId}
    (hi : (waveSpecOf s id).isSome) (an : WaveId) (includeCandidate : Bool) :
    waveIsDescendant s' id an includeCandidate =
    waveIsDescendant s id an includeCandidate := by
  have hl : id < s.waves.nextId := lt_nextId (by rwa [← isSome_waveSpecOf])
  have hl' : id < s'.waves.nextId :=
    lt_nextId (by rw [← isSome_waveSpecOf]; exact he.isSome_wave hi)
  rw [waveIsDescendant, waveIsDescendant, climbWaves_extends h he _ _ _ _ hi,
    climbWaves_turns h an [] id (lt_succ_of_lt hl') (lt_succ_of_lt hl)]

lemma any_waveIsDescendant_extends (he : Extends s s') {id : Option WaveId}
    (hi : ∀ wa, id = some wa → (waveSpecOf s wa).isSome) (an : WaveId)
    (ic : Bool) : id.any (waveIsDescendant s' · an ic) =
    id.any (waveIsDescendant s · an ic) := by
  cases hwa : id with
  | none => rfl
  | some wa => exact waveIsDescendant_extends h he (hi wa hwa) an ic

lemma climbTasks_extends (he : Extends s s') (an : WaveId) (turns : Nat)
    (vi : List TaskId) (id : TaskId) (hi : taskSpecOf s id = some task.spec)
    (hsp : task'.spec = task.spec) :
    climbTasks s' an turns vi id task' = climbTasks s an turns vi id task := by
  induction turns generalizing vi id task task' with
  | zero => rfl
  | succ turns ih =>
    obtain ⟨hp, ha, -⟩ := h.task id _ hi
    rw [climbTasks, climbTasks, hsp, any_waveIsDescendant_extends h he ha]
    cases hfo : task.spec.parent.parentTaskId with
    | none => rfl
    | some p =>
      obtain ⟨spec, hs'⟩ := isSome_iff_exists.1 (hp p hfo).2
      obtain ⟨ab, hf, rfl⟩ := map_eq_some_iff.1 hs'
      obtain ⟨a', hf', hs⟩ := map_eq_some_iff.1 (he.tasks p _ hs')
      dsimp only
      rw [hf, hf']
      dsimp only
      rw [hs, any_waveIsDescendant_extends h he (h.task p _ hs').2.2, ih _ p hs' hs]

lemma climbTasks_turns (an : WaveId) (vi : List TaskId) (id : TaskId)
    (hi : taskSpecOf s id = some task.spec) (ht : id < turns) (ht' : id < turns') :
    climbTasks s an turns vi id task = climbTasks s an turns' vi id task := by
  induction turns generalizing turns' vi id task with
  | zero => exact absurd ht (not_lt_zero id)
  | succ turns ih =>
    obtain ⟨turns', rfl⟩ := exists_eq_succ_of_ne_zero (ne_zero_of_lt ht')
    rw [climbTasks, climbTasks]
    cases hfo : task.spec.parent.parentTaskId with
    | none => rfl
    | some p =>
      have hl : p < id := ((h.task id _ hi).1 p hfo).1
      dsimp only
      cases hf : s.tasks.find p with
      | none => rfl
      | some ab =>
        dsimp only
        rw [ih (id :: vi) p (by rw [taskSpecOf, hf]; rfl) (lt_of_lt_of_le hl (le_of_lt_succ ht))
          (lt_of_lt_of_le hl (le_of_lt_succ ht'))]

/-- Whether a task belongs to the tree of a wave is settled when the task is submitted. -/
lemma taskBelongsToWaveTree_extends (he : Extends s s')
    (hi : taskSpecOf s id = some task.spec) (hs : task'.spec = task.spec) (an : WaveId)
    (includeDescendants : Bool) :
    taskBelongsToWaveTree s' id task' an includeDescendants =
    taskBelongsToWaveTree s id task an includeDescendants := by
  have hl : id < s.tasks.nextId := lt_nextId (by rw [← isSome_taskSpecOf, hi]; rfl)
  have hl' : id < s'.tasks.nextId := lt_nextId (by rw [← isSome_taskSpecOf, he.tasks id _ hi]; rfl)
  rw [taskBelongsToWaveTree, taskBelongsToWaveTree, hs,
    any_waveIsDescendant_extends h he (h.task id _ hi).2.2,
    climbTasks_extends h he _ _ _ _ hi hs,
    climbTasks_turns h an [] id hi (lt_succ_of_lt hl') (lt_succ_of_lt hl)]

end

end AxiomKernel.Swarm
