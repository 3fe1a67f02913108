import AxiomKernel.Qwen38.Swarm.Scheduler

/-!
# The scheduler with its counters and events

The scheduler counts tasks and attempts and keeps a history of events; no call reads either. This
file runs the calls with the counters of tasks and attempts and with the `wave_state_changed`
events, as the source writes them. `Kept` lists the changes a call is made of, so that whatever
each of them keeps is kept by every call.
-/
namespace AxiomKernel.Swarm

structure Telemetry where
  tasksSubmitted : Nat := 0
  attemptsStarted : Nat := 0
  retriesScheduled : Nat := 0
  finalSucceeded : Nat := 0
  finalFailed : Nat := 0
  finalCancelled : Nat := 0
  finalTimedOut : Nat := 0
  finalBudgetExhausted : Nat := 0
  deriving Repr, DecidableEq

def Telemetry.countFinal (telemetry : Telemetry) : TaskState → Telemetry
  | .succeeded => { telemetry with finalSucceeded := telemetry.finalSucceeded + 1 }
  | .failed => { telemetry with finalFailed := telemetry.finalFailed + 1 }
  | .cancelled => { telemetry with finalCancelled := telemetry.finalCancelled + 1 }
  | .timedOut => { telemetry with finalTimedOut := telemetry.finalTimedOut + 1 }
  | .budgetExhausted =>
    { telemetry with finalBudgetExhausted := telemetry.finalBudgetExhausted + 1 }
  | .queued | .running | .retryWait => telemetry

/-- `ended` is not kept by the source: the tasks that became terminal, each with the state it was
in before. -/
structure Journal where
  state : State
  telemetry : Telemetry := {}
  waveEvents : List (WaveId × WaveState) := []
  ended : List (TaskId × TaskState) := []
  deriving DecidableEq

/-- `set_wave_state` emits an event when it changes the state, and only then. -/
def waveChange (s s' : State) (id : WaveId) : List (WaveId × WaveState) :=
  match s.waves.find id, s'.waves.find id with
  | some wave, some wave' => if wave.state = wave'.state then [] else [(id, wave'.state)]
  | _, _ => []

namespace Journal
variable (j : Journal)

def advance (s' : State) (wave : Option WaveId) : Journal :=
  { j with state := s', waveEvents := j.waveEvents ++ wave.toList.flatMap (waveChange j.state s') }

def recomputeWave (id : WaveId) : Journal := j.advance (Swarm.recomputeWave j.state id) (some id)

def requestWaveCancellation (id : WaveId) : Journal :=
  j.advance (Swarm.requestWaveCancellation j.state id) (some id)

def finishAttempt (id : TaskId) (task : TaskRecord) (outcome : TaskOutcome) (now : TimePoint)
    (reason : String) : Journal :=
  let next := j.advance (Swarm.finishAttempt j.state id task outcome now reason) task.spec.waveId
  if shouldRetry task outcome then
    { next with
      telemetry := { j.telemetry with retriesScheduled := j.telemetry.retriesScheduled + 1 } }
  else
    { next with
      telemetry := j.telemetry.countFinal (taskStateForOutcome outcome)
      ended := j.ended ++ [(id, task.state)] }

def cancelTaskLocked (id : TaskId) (task : TaskRecord) (reason : String) : Journal :=
  let next := j.advance (Swarm.cancelTaskLocked j.state id task reason).1 task.spec.waveId
  if task.isWaiting then
    { next with
      telemetry := j.telemetry.countFinal .cancelled
      ended := j.ended ++ [(id, task.state)] }
  else next

variable (now : TimePoint)

def expireTask (id : TaskId) : Journal :=
  match j.state.tasks.find id with
  | none => j
  | some task =>
    if !task.isRunning then j
    else if task.cancellationRequested then
      j.finishAttempt id task .cancelled now "cancelled at deadline"
    else j.finishAttempt id task .timedOut now "task deadline exceeded"

def expireRunning : Journal := (expiredIds j.state now).foldl (fun j id => j.expireTask now id) j

def submit (spec : TaskSpec) : Journal :=
  match submitError j.state spec with
  | some _ => j
  | none =>
    { j with
      state := (Swarm.submit j.state spec).1
      telemetry := { j.telemetry with tasksSubmitted := j.telemetry.tasksSubmitted + 1 } }

def admitTask (id : TaskId) (task : TaskRecord) (agent : AgentId) (now : TimePoint) : Journal :=
  { j.advance (Swarm.admitTask j.state id task agent now).1 task.spec.waveId with
    telemetry := { j.telemetry with attemptsStarted := j.telemetry.attemptsStarted + 1 } }

def admitNext : Journal :=
  let j := j.expireRunning now
  if j.state.config.maxConcurrent ≤ j.state.activeTasks then j
  else
    match selectedAgent j.state, selectedTask j.state now with
    | some (agent, _), some (id, task) => j.admitTask id task agent now
    | _, _ => j

variable (id : TaskId)

def countTokens (task : TaskRecord) (tokensUsed : Nat) : Journal := { j with
    state := { j.state with tasks := j.state.tasks.modify id fun _ => { task with tokensUsed } } }

def progressOf (tokensUsed : Nat) (now : TimePoint) : Journal :=
  match j.state.tasks.find id with
  | none => j
  | some task =>
    if !task.isRunning then j
    else if tokensUsed < task.tokensUsed then j
    else if task.cancellationRequested then j.countTokens id task tokensUsed
    else if task.spec.budget.maxTokens.any (· ≤ tokensUsed) then
      (j.countTokens id task tokensUsed).finishAttempt id { task with tokensUsed }
        .budgetExhausted now "token budget exhausted"
    else j.countTokens id task tokensUsed

def completionOf (completion : TaskCompletion) (now : TimePoint) : Journal :=
  match j.state.tasks.find id with
  | none => j
  | some task =>
    if !task.isRunning then j
    else if completion.tokensUsed < task.tokensUsed then j
    else
      let outcome := settledOutcome task completion
      let reason := if completion.message.isEmpty then outcomeName outcome else completion.message
      j.finishAttempt id { task with tokensUsed := completion.tokensUsed } outcome now reason

def cancelTask (reason : String) (now : TimePoint) : Journal :=
  let j := j.expireRunning now
  match j.state.tasks.find id with
  | none => j
  | some task => j.cancelTaskLocked id task reason

def cancelSelectedTask (id : WaveId) (reason : String) (includeDescendants : Bool)
    (waves : List WaveId) (taskId : TaskId) : Journal :=
  match j.state.tasks.find taskId with
  | none => j
  | some task =>
    if task.spec.waveId.any waves.contains
        || (includeDescendants && taskBelongsToWaveTree j.state taskId task id true) then
      j.cancelTaskLocked taskId task reason
    else j

def cancelWaveTree (id : WaveId) (reason : String) (includeDescendants : Bool) : Journal :=
  match j.state.waves.find id with
  | none => j
  | some _ =>
    let waves := selectedWaves j.state id includeDescendants
    let requested := waves.foldl requestWaveCancellation j
    let cancelled := (requested.state.tasks.entries.map Prod.fst).foldl
      (fun j taskId => j.cancelSelectedTask id reason includeDescendants waves taskId) requested
    waves.foldl recomputeWave cancelled

def step : Call → Journal
  | .registerAgent spec => { j with state := (registerAgent j.state spec).1 }
  | .createWave spec => { j with state := (createWave j.state spec).1 }
  | .submit spec => j.submit spec
  | .admitNext now => j.admitNext now
  | .reportProgress task tokens now => (j.expireRunning now).progressOf task tokens now
  | .complete task completion now => (j.expireRunning now).completionOf task completion now
  | .cancelTask task reason now => j.cancelTask task reason now
  | .cancelWave wave reason now descendants =>
    (j.expireRunning now).cancelWaveTree wave reason descendants
  | .tick now => j.expireRunning now
  | .setAgentState agent state => { j with state := (setAgentState j.state agent state).1 }

end Journal

def journal (config : SchedulerConfig) (calls : List Call) : Journal :=
  calls.foldl Journal.step { state := { config } }

namespace Journal

variable (j : Journal) (id : TaskId)

variable (ta : TaskRecord)

@[simp] lemma state_finishAttempt (o : TaskOutcome)
    (now : TimePoint) (reason : String) : (j.finishAttempt id ta o now reason).state =
    Swarm.finishAttempt j.state id ta o now reason := by
  unfold finishAttempt
  split <;> rfl

@[simp] lemma state_cancelTaskLocked (re : String) : (j.cancelTaskLocked id ta re).state =
    (Swarm.cancelTaskLocked j.state id ta re).1 := by
  unfold cancelTaskLocked
  split <;> rfl

/-- A loop over journals whose turns follow the turns of a loop over states. -/
lemma state_foldl {α β : Type} {f : Journal → α → Journal} {g : β → α → β} (st : β → State)
    (h : ∀ j b a, j.state = st b → (f j a).state = st (g b a)) (l : List α) (j : Journal)
    (b : β) (hb : j.state = st b) : (l.foldl f j).state = st (l.foldl g b) := by
  induction l generalizing j b with
  | nil => exact hb
  | cons a l ih => exact ih _ _ (h j b a hb)

variable (now : TimePoint)

lemma state_expireRunning : (j.expireRunning now).state = Swarm.expireRunning j.state now := by
  refine state_foldl (fun s => s) (fun j s id hs => ?_) _ j j.state rfl
  subst hs
  unfold expireTask Swarm.expireTask
  cases j.state.tasks.find id with
  | none => rfl
  | some ta =>
    dsimp only
    split_ifs
    · rfl
    · exact j.state_finishAttempt ..
    · exact j.state_finishAttempt ..

lemma state_submit (sp : TaskSpec) : (j.submit sp).state = (Swarm.submit j.state sp).1 := by
  unfold submit
  split
  next e he => rw [Swarm.submit, he]
  · rfl

lemma state_admitNext : (j.admitNext now).state = (Swarm.admitNext j.state now).1 := by
  unfold admitNext Swarm.admitNext
  simp only [← state_expireRunning]
  split
  · rfl
  · cases selectedAgent (j.expireRunning now).state with
    | none => rfl
    | some ag => cases selectedTask (j.expireRunning now).state now <;> rfl

lemma state_progressOf (tu : Nat) (now : TimePoint) :
    (j.progressOf id tu now).state = (Swarm.progressOf j.state id tu now).1 := by
  unfold progressOf Swarm.progressOf
  cases j.state.tasks.find id with
  | none => rfl
  | some ta =>
    dsimp only
    split_ifs
    · rfl
    · rfl
    · rfl
    · exact state_finishAttempt ..
    · rfl

lemma state_completionOf (co : TaskCompletion) (now : TimePoint) :
    (j.completionOf id co now).state =
    (Swarm.completionOf j.state id co now).1 := by
  unfold completionOf Swarm.completionOf
  cases j.state.tasks.find id with
  | none => rfl
  | some ta =>
    dsimp only
    split
    · rfl
    · split
      · rfl
      · exact state_finishAttempt ..

lemma state_cancelTask (re : String) (now : TimePoint) :
    (j.cancelTask id re now).state = (Swarm.cancelTask j.state id re now).1 := by
  unfold cancelTask Swarm.cancelTask
  simp only [← state_expireRunning]
  cases (j.expireRunning now).state.tasks.find id with
  | none => rfl
  | some ta => exact state_cancelTaskLocked ..

lemma state_cancelWaveTree (id : WaveId) (re : String) (i : Bool) :
    (j.cancelWaveTree id re i).state =
    (Swarm.cancelWaveTree j.state id re i).1 := by
  unfold cancelWaveTree Swarm.cancelWaveTree
  cases j.state.waves.find id with
  | none => rfl
  | some wa =>
    dsimp only
    generalize selectedWaves j.state id i = waves
    have hr : (waves.foldl requestWaveCancellation j).state =
        waves.foldl Swarm.requestWaveCancellation j.state :=
      state_foldl (fun s => s) (fun _ _ _ hs => by rw [← hs]; rfl) waves j j.state rfl
    refine state_foldl (fun s => s) (fun _ _ _ hs => by rw [← hs]; rfl) waves _ _ ?_
    rw [hr]
    refine state_foldl Prod.fst (fun j acc ti hs => ?_) _ _ _ hr
    unfold cancelSelectedTask Swarm.cancelSelectedTask
    rw [hs]
    cases acc.1.tasks.find ti with
    | none => exact hs
    | some ta =>
      dsimp only
      split
      · rw [state_cancelTaskLocked, hs]
      · exact hs

lemma state_step (ca : Call) : (j.step ca).state = (Swarm.step j.state ca).1 := by
  cases ca with
  | registerAgent sp => rfl
  | createWave sp => rfl
  | submit sp => exact j.state_submit sp
  | admitNext now => exact j.state_admitNext now
  | reportProgress ta ts now =>
    exact (state_progressOf ..).trans (by rw [state_expireRunning]; rfl)
  | complete ta co now =>
    exact (state_completionOf ..).trans (by rw [state_expireRunning]; rfl)
  | cancelTask ta re now => exact j.state_cancelTask ta re now
  | cancelWave wa re now ds =>
    exact (state_cancelWaveTree ..).trans (by rw [state_expireRunning]; rfl)
  | tick now => exact j.state_expireRunning now
  | setAgentState ag st => rfl

end Journal

lemma state_journal (config : SchedulerConfig) (calls : List Call) :
    (journal config calls).state = reached config calls := by
  unfold journal reached
  generalize ({ config } : State) = s
  generalize hj : ({ state := s } : Journal) = j
  have hs : j.state = s := by rw [← hj]
  clear hj
  induction calls generalizing j s with
  | nil => exact hs
  | cons ca calls ih => exact ih _ (j.step ca) ((j.state_step ca).trans (by rw [hs]))

/-- Each of the changes a call is made of keeps `P`. Cancellation is requested of waves in `R`. -/
structure Kept (P : Journal → Prop) (R : WaveId → Prop) : Prop where
  registerAgent : ∀ j spec, P j → P { j with state := (registerAgent j.state spec).1 }
  setAgentState : ∀ j id state, P j → P { j with state := (setAgentState j.state id state).1 }
  createWave : ∀ j spec, P j → (createWave j.state spec).1 =
      { j.state with waves := j.state.waves.emplace { spec } } →
    P { j with state := (createWave j.state spec).1 }
  submit : ∀ j spec, P j → submitError j.state spec = none → P (j.submit spec)
  count : ∀ j id t tokensUsed, P j → j.state.tasks.find id = some t → t.isRunning = true →
    P (j.countTokens id t tokensUsed)
  admitted : ∀ j id t agentId agent now, P j → j.state.activeTasks < j.state.config.maxConcurrent →
    selectedAgent j.state = some (agentId, agent) → selectedTask j.state now = some (id, t) →
    P (j.admitTask id t agentId now)
  finish : ∀ j id t tokensUsed outcome now reason, P j → j.state.tasks.find id = some t →
    t.isRunning = true → (t.cancellationRequested = true → outcome = .cancelled) →
    P (j.finishAttempt id { t with tokensUsed } outcome now reason)
  cancel : ∀ j id t reason, P j → j.state.tasks.find id = some t →
    P (j.cancelTaskLocked id t reason)
  recompute : ∀ j id, P j → P (j.recomputeWave id)
  request : ∀ j id, R id → P j → P (j.requestWaveCancellation id)

def requested (s : State) : Call → List WaveId
  | .cancelWave wave _ now descendants =>
    if ((expireRunning s now).waves.find wave).isSome then
      selectedWaves (expireRunning s now) wave descendants
    else []
  | _ => []

namespace Kept
variable {P : Journal → Prop} {R : WaveId → Prop} {j : Journal}

section
variable (h : Kept P R) (hj : P j)
include h hj

lemma expireRunning (now : TimePoint) : P (j.expireRunning now) := by
  refine List.foldlRecOn (motive := P) _ _ hj fun j hj id _ => ?_
  unfold Journal.expireTask
  split
  · exact hj
  next ta hf =>
    split_ifs with hr hfg
    · exact hj
    · exact h.finish j id ta ta.tokensUsed _ _ _ hj hf (by simpa using hr) fun _ => rfl
    · exact h.finish j id ta ta.tokensUsed _ _ _ hj hf (by simpa using hr)
        fun h => absurd h hfg

lemma progressOf (id : TaskId) (tokensUsed : Nat) (now : TimePoint) :
    P (j.progressOf id tokensUsed now) := by
  unfold Journal.progressOf
  split
  · exact hj
  next ta hf =>
    split_ifs with hr _ hfg
    · exact hj
    · exact hj
    all_goals
      have hr : ta.isRunning := by simpa using hr
      have hco := h.count j id ta tokensUsed hj hf hr
    · exact hco
    · refine h.finish _ id { ta with tokensUsed } tokensUsed _ _ _ hco ?_ hr
        fun h => absurd h hfg
      simp [Journal.countTokens, hf]
    · exact hco

lemma completionOf (id : TaskId) (co : TaskCompletion) (now : TimePoint) :
    P (j.completionOf id co now) := by
  unfold Journal.completionOf
  split
  · exact hj
  next ta hf =>
    split
    · exact hj
    next hr =>
      split
      · exact hj
      · refine h.finish j id ta _ _ _ _ hj hf (by simpa using hr) fun hfg => ?_
        rw [settledOutcome, if_pos hfg]

lemma cancelRequested (id : WaveId) (re : String) (i : Bool)
    (ws : List WaveId) (ids : List TaskId) :
    P (ws.foldl Journal.recomputeWave (ids.foldl (fun j ti =>
      j.cancelSelectedTask id re i ws ti) j)) := by
  refine List.foldlRecOn (motive := P) _ _ ?_ fun j hj id _ => h.recompute j id hj
  refine List.foldlRecOn (motive := P) _ _ hj fun j hj ti _ => ?_
  unfold Journal.cancelSelectedTask
  split
  · exact hj
  next ta hf =>
    split_ifs
    · exact h.cancel j ti ta re hj hf
    · exact hj

lemma cancelWaveTree {id : WaveId} {i : Bool} (hR : (j.state.waves.find id).isSome →
    ∀ o ∈ selectedWaves j.state id i, R o) (re : String) :
    P (j.cancelWaveTree id re i) := by
  unfold Journal.cancelWaveTree
  split
  · exact hj
  next wa hf =>
    have hR := hR (by rw [hf]; rfl)
    refine h.cancelRequested ?_ id re i _ _
    exact List.foldlRecOn (motive := P) _ _ hj fun j hj id hi => h.request j id (hR id hi) hj

lemma step {ca : Call} (hR : ∀ id ∈ requested j.state ca, R id) : P (j.step ca) := by
  cases ca with
  | registerAgent spec => exact h.registerAgent j spec hj
  | createWave spec =>
    by_cases hc : (Swarm.createWave j.state spec).1 =
        { j.state with waves := j.state.waves.emplace { spec } }
    · exact h.createWave j spec hj hc
    · have hs : (Swarm.createWave j.state spec).1 = j.state := by
        revert hc
        unfold Swarm.createWave
        split_ifs
        all_goals first | exact fun _ => rfl | exact fun hn => absurd rfl hn
      change P { j with state := (Swarm.createWave j.state spec).1 }
      rwa [hs]
  | submit spec =>
    cases herr : submitError j.state spec with
    | none => exact h.submit j spec hj herr
    | some e =>
      have hs : j.submit spec = j := by rw [Journal.submit, herr]
      change P (j.submit spec)
      rwa [hs]
  | admitNext now =>
    have hexp := h.expireRunning hj now
    simp only [Journal.step, Journal.admitNext]
    split
    · exact hexp
    next hr =>
      split
      next ai ag id ta ha ht =>
        exact h.admitted _ id ta ai ag now hexp (Nat.lt_of_not_le hr) ha ht
      · exact hexp
  | reportProgress ta ts now => exact h.progressOf (h.expireRunning hj now) ta ts now
  | complete ta co now =>
    exact h.completionOf (h.expireRunning hj now) ta co now
  | cancelTask ta re now =>
    have hexp := h.expireRunning hj now
    simp only [Journal.step, Journal.cancelTask]
    split
    · exact hexp
    next hf => exact h.cancel _ ta _ re hexp hf
  | cancelWave wa re now ds =>
    refine h.cancelWaveTree (h.expireRunning hj now) (fun hso o ho => hR o ?_) re
    rw [Journal.state_expireRunning] at hso ho
    rw [requested, if_pos hso]
    exact ho
  | tick now => exact h.expireRunning hj now
  | setAgentState ag state => exact h.setAgentState j ag state hj

end

lemma run (h : Kept P fun _ => True) (hj : P j) (cs : List Call) : P (cs.foldl Journal.step j) := by
  induction cs generalizing j with
  | nil => exact hj
  | cons ca cs ih => exact ih (h.step hj fun _ _ => trivial)

end Kept

end AxiomKernel.Swarm
