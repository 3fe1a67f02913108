import AxiomKernel.Lib.Machine
import AxiomKernel.Lib.Registry

/-!
# The swarm scheduler

`qwen38_swarm_scheduler` admits tasks to agents and hands a lease to the worker that will run
them. Every public call holds the scheduler's mutex from its first to its last line, so a call is
one step. The maps of agents, waves and tasks hand out consecutive ids and never drop a record.

Time points are nanoseconds and durations milliseconds, as `steady_clock` and the specs have them.
The event history, the telemetry counters and the names are written and never read by a call, so
they are left out here.
-/
namespace AxiomKernel.Swarm

abbrev TaskId := Nat
abbrev WaveId := Nat
abbrev AgentId := Nat
abbrev TimePoint := Int
abbrev Milliseconds := Int

variable (now : TimePoint)

/-- `time_point + milliseconds`, in a signed word of 64 bits. -/
def after (delay : Milliseconds) : TimePoint := (now + delay * 1000000).bmod (2 ^ 64)

inductive AgentState where
  | idle | busy | draining | offline | failed
  deriving Repr, DecidableEq

inductive WaveState where
  | pending | running | cancelling | succeeded | failed | cancelled | timedOut | budgetExhausted
  deriving Repr, DecidableEq

inductive TaskState where
  | queued | running | retryWait | succeeded | failed | cancelled | timedOut | budgetExhausted
  deriving Repr, DecidableEq

inductive TaskOutcome where
  | succeeded | failed | cancelled | timedOut | budgetExhausted
  deriving Repr, DecidableEq

inductive RetryBackoffStrategy where
  | fixed | exponential
  deriving Repr, DecidableEq

inductive CancelDisposition where
  | notFound | alreadyTerminal | cancelledBeforeRun | cancellationRequested
  deriving Repr, DecidableEq

inductive CompletionDisposition where
  | rejectedUnknownTask | rejectedNotRunning | rejectedNonMonotonicTokens
  | accepted | retryScheduled | cancelled | timedOut | budgetExhausted
  deriving Repr, DecidableEq

inductive ProgressDisposition where
  | rejectedUnknownTask | rejectedNotRunning | rejectedNonMonotonicTokens
  | accepted | cancellationRequested | timedOut | budgetExhausted
  deriving Repr, DecidableEq

structure Budget where
  maxTokens : Option Nat := none
  maxDuration : Option Milliseconds := none
  deriving Repr, DecidableEq

structure RetryPolicy where
  maxAttempts : Nat := 1
  retryOnFailure : Bool := true
  retryOnTimeout : Bool := false
  retryOnBudgetExhausted : Bool := false
  backoffStrategy : RetryBackoffStrategy := .fixed
  backoff : Milliseconds := 0
  /-- Zero means that exponential backoff is uncapped. -/
  maxBackoff : Milliseconds := 0
  deriving Repr, DecidableEq

structure ParentMetadata where
  parentTaskId : Option TaskId := none
  parentWaveId : Option WaveId := none
  deriving Repr, DecidableEq

structure SchedulerConfig where
  maxConcurrent : Nat := 1
  maxQueuedTasks : Option Nat := none
  positive : 0 < maxConcurrent := by decide
  deriving Repr, DecidableEq

structure AgentSpec where
  maxConcurrent : Nat := 1
  deriving Repr, DecidableEq

structure WaveSpec where
  maxConcurrent : Option Nat := none
  parent : ParentMetadata := {}
  deriving Repr, DecidableEq

structure TaskSpec where
  priority : Int := 0
  waveId : Option WaveId := none
  parent : ParentMetadata := {}
  budget : Budget := {}
  retryPolicy : RetryPolicy := {}
  deriving Repr, DecidableEq

structure TaskLease where
  taskId : TaskId
  waveId : WaveId
  agentId : AgentId
  attempt : Nat
  priority : Int
  admittedAt : TimePoint
  deadline : Option TimePoint
  budget : Budget
  parent : ParentMetadata
  deriving Repr, DecidableEq

structure TaskCompletion where
  outcome : TaskOutcome := .failed
  tokensUsed : Nat := 0
  message : String := ""
  deriving Repr, DecidableEq

structure CancelResult where
  disposition : CancelDisposition := .notFound
  changed : Bool := false
  deriving Repr, DecidableEq

structure ProgressResult where
  disposition : ProgressDisposition := .rejectedUnknownTask
  state : TaskState := .queued
  tokensUsed : Nat := 0
  accepted : Bool := false
  deriving Repr, DecidableEq

structure CompletionResult where
  disposition : CompletionDisposition := .rejectedUnknownTask
  state : TaskState := .queued
  attempt : Nat := 0
  accepted : Bool := false
  retryScheduled : Bool := false
  message : String := ""
  deriving Repr, DecidableEq

structure AgentRecord where
  spec : AgentSpec
  administrativeState : AgentState := .idle
  activeTasks : Nat := 0
  deriving Repr, DecidableEq

structure WaveRecord where
  spec : WaveSpec
  state : WaveState := .pending
  cancellationRequested : Bool := false
  hasStarted : Bool := false
  activeTasks : Nat := 0
  deriving Repr, DecidableEq

structure TaskRecord where
  spec : TaskSpec
  state : TaskState := .queued
  queueSequence : Nat := 0
  attemptsStarted : Nat := 0
  tokensUsed : Nat := 0
  tokensUsedTotal : Nat := 0
  agentId : Option AgentId := none
  cancellationRequested : Bool := false
  admittedAt : Option TimePoint := none
  deadline : Option TimePoint := none
  retryNotBefore : Option TimePoint := none
  terminalReason : String := ""
  deriving Repr, DecidableEq

structure State where
  config : SchedulerConfig
  agents : Registry AgentRecord := .empty
  waves : Registry WaveRecord := .empty
  tasks : Registry TaskRecord := .empty
  activeTasks : Nat := 0
  nextQueueSequence : Nat := 1
  deriving Repr, DecidableEq

def outcomeName : TaskOutcome → String
  | .succeeded => "succeeded"
  | .failed => "failed"
  | .cancelled => "cancelled"
  | .timedOut => "timed out"
  | .budgetExhausted => "budget exhausted"

def taskStateForOutcome : TaskOutcome → TaskState
  | .succeeded => .succeeded
  | .failed => .failed
  | .cancelled => .cancelled
  | .timedOut => .timedOut
  | .budgetExhausted => .budgetExhausted

def isTerminal : TaskState → Bool
  | .succeeded | .failed | .cancelled | .timedOut | .budgetExhausted => true
  | .queued | .running | .retryWait => false

def isTerminalWave : WaveState → Bool
  | .succeeded | .failed | .cancelled | .timedOut | .budgetExhausted => true
  | .pending | .running | .cancelling => false

def validOptionalId (id : Option Nat) : Bool := id != some 0

def TaskRecord.isRunning (t : TaskRecord) : Bool := t.state == .running

def TaskRecord.isWaiting (t : TaskRecord) : Bool := t.state == .queued || t.state == .retryWait

def TaskRecord.inWave (id : WaveId) (t : TaskRecord) : Bool := t.spec.waveId == some id

variable (s : State)

def queuedTaskCount : Nat := s.tasks.count TaskRecord.isWaiting

/-- The wave above a wave: the parent wave it names, else the wave of the parent task. -/
def parentWave (parent : ParentMetadata) : Option WaveId :=
  match parent.parentWaveId with
  | some above => some above
  | none => parent.parentTaskId.bind fun task => (s.tasks.find task).bind (·.spec.waveId)

/-- The climbing loop of `wave_is_descendant`; every turn visits a wave not seen before. -/
def climbWaves (s : State) (ancestor : WaveId) : Nat → List WaveId → WaveId → Bool
  | 0, _, _ => false
  | turns + 1, visited, current =>
    if visited.contains current then false
    else
      match s.waves.find current with
      | none => false
      | some wave =>
        match parentWave s wave.spec.parent with
        | none => false
        | some above =>
          if above = ancestor then true
          else climbWaves s ancestor turns (current :: visited) above

def waveIsDescendant (candidate ancestor : WaveId) (includeCandidate : Bool) : Bool :=
  if includeCandidate && candidate == ancestor then true
  else climbWaves s ancestor (s.waves.nextId + 1) [] candidate

/-- The climbing loop of `task_belongs_to_wave_tree`. -/
def climbTasks (s : State) (ancestor : WaveId) : Nat → List TaskId → TaskId → TaskRecord → Bool
  | 0, _, _, _ => false
  | turns + 1, visited, id, current =>
    if visited.contains id then false
    else if current.spec.parent.parentWaveId.any (waveIsDescendant s · ancestor true) then true
    else
      match current.spec.parent.parentTaskId with
      | none => false
      | some above =>
        match s.tasks.find above with
        | none => false
        | some task =>
          if task.spec.waveId.any (waveIsDescendant s · ancestor true) then true
          else climbTasks s ancestor turns (id :: visited) above task

def taskBelongsToWaveTree (id : TaskId) (task : TaskRecord) (ancestor : WaveId)
    (includeDescendants : Bool) : Bool :=
  if task.spec.waveId.any (waveIsDescendant s · ancestor includeDescendants) then true
  else if !includeDescendants then task.spec.parent.parentWaveId == some ancestor
  else climbTasks s ancestor (s.tasks.nextId + 1) [] id task

/-- The last part of `recompute_wave`, for a wave all of whose tasks are terminal. -/
def finalWaveState (tasks : List TaskRecord) : WaveState :=
  if tasks.any (·.state == .failed) then .failed
  else if tasks.any (·.state == .timedOut) then .timedOut
  else if tasks.any (·.state == .budgetExhausted) then .budgetExhausted
  else if tasks.any (·.state == .cancelled) then .cancelled
  else .succeeded

/-- The state `recompute_wave` leaves a wave in, from the tasks of the wave. -/
def recomputedState (tasks : List TaskRecord) (wave : WaveRecord) : WaveState :=
  if tasks.isEmpty then
    if wave.cancellationRequested then .cancelled else wave.state
  else if wave.cancellationRequested then
    if tasks.any (!isTerminal ·.state) then .cancelling else .cancelled
  else if tasks.any (!isTerminal ·.state) then
    if wave.hasStarted then .running else wave.state
  else finalWaveState tasks

def tasksOfWave (id : WaveId) : List TaskRecord := s.tasks.rows.filter (·.inWave id)

def recomputeWave (id : WaveId) : State := { s with
    waves := s.waves.modify id fun wave =>
      { wave with state := recomputedState (tasksOfWave s id) wave } }

/-- `recompute_wave` for the wave of a task, if it is in one. -/
def recomputeWaveOf (task : TaskRecord) : State :=
  match task.spec.waveId with
  | some wave => recomputeWave s wave
  | none => s

/-- The counters `release_resources` takes one off; the subtraction stops at zero as there. -/
def releaseResources (task : TaskRecord) : State := { s with
    agents := match task.agentId with
      | some agent => s.agents.modify agent fun a => { a with activeTasks := a.activeTasks - 1 }
      | none => s.agents
    activeTasks := s.activeTasks - 1
    waves := match task.spec.waveId with
      | some wave => s.waves.modify wave fun w => { w with activeTasks := w.activeTasks - 1 }
      | none => s.waves }

def retryDelay (policy : RetryPolicy) (completedAttempt : Nat) : Milliseconds :=
  if policy.backoff ≤ 0 then 0
  else
    let value : Int :=
      if policy.backoffStrategy = .exponential ∧ 1 < completedAttempt then
        let shift := completedAttempt - 1
        if 63 ≤ shift ∨ policy.backoff > (2 ^ 63 - 1) / 2 ^ shift then 2 ^ 63 - 1
        else policy.backoff * 2 ^ shift
      else policy.backoff
    if 0 < policy.maxBackoff ∧ policy.maxBackoff < value then policy.maxBackoff else value

variable (task : TaskRecord)

def shouldRetry (outcome : TaskOutcome) : Bool :=
  if task.spec.retryPolicy.maxAttempts ≤ task.attemptsStarted then false
  else
    match outcome with
    | .succeeded | .cancelled => false
    | .failed => task.spec.retryPolicy.retryOnFailure
    | .timedOut => task.spec.retryPolicy.retryOnTimeout
    | .budgetExhausted => task.spec.retryPolicy.retryOnBudgetExhausted

def finishedTask (outcome : TaskOutcome) (now : TimePoint) (reason : String)
    (sequence : Nat) : TaskRecord :=
  let ended := { task with
      tokensUsedTotal := (task.tokensUsedTotal + task.tokensUsed) % 2 ^ 64
      agentId := none
      admittedAt := none
      deadline := none
      terminalReason := reason }
  if shouldRetry task outcome then
    { ended with
      state := .retryWait
      retryNotBefore := some (after now (retryDelay task.spec.retryPolicy task.attemptsStarted))
      queueSequence := sequence
      tokensUsed := 0
      cancellationRequested := false }
  else
    { ended with
      state := taskStateForOutcome outcome
      retryNotBefore := none }

/-- `finish_attempt` for the task `id` whose record is now `task`. -/
def finishAttempt (id : TaskId) (task : TaskRecord) (outcome : TaskOutcome)
    (now : TimePoint) (reason : String) : State :=
  let released := releaseResources s task
  let finished := { released with
      tasks := s.tasks.modify id fun _ => finishedTask task outcome now reason s.nextQueueSequence
      nextQueueSequence :=
        if shouldRetry task outcome then s.nextQueueSequence + 1 else s.nextQueueSequence }
  recomputeWaveOf finished task

def cancelledTask (reason : String) : TaskRecord := { task with
    cancellationRequested := true
    state := .cancelled
    retryNotBefore := none
    terminalReason := reason }

/-- `cancel_task_locked` for the task `id` whose record is `task`. -/
def cancelTaskLocked (id : TaskId) (task : TaskRecord) (reason : String) :
    State × CancelDisposition :=
  if isTerminal task.state then (s, .alreadyTerminal)
  else if task.isWaiting then
    (recomputeWaveOf { s with tasks := s.tasks.modify id fun _ => cancelledTask task reason } task,
      .cancelledBeforeRun)
  else
    ({ s with tasks := s.tasks.modify id fun _ => { task with cancellationRequested := true } },
      .cancellationRequested)

def deadlinePassed (task : TaskRecord) : Bool := task.isRunning && task.deadline.any (· ≤ now)

/-- One turn of the second loop of `expire_running`. -/
def expireTask (s : State) (id : TaskId) : State :=
  match s.tasks.find id with
  | none => s
  | some task =>
    if !task.isRunning then s
    else if task.cancellationRequested then
      finishAttempt s id task .cancelled now "cancelled at deadline"
    else finishAttempt s id task .timedOut now "task deadline exceeded"

def expiredIds (now : TimePoint) : List TaskId :=
  (s.tasks.entries.filter fun entry => deadlinePassed now entry.2).map Prod.fst

def expireRunning (now : TimePoint) : State := (expiredIds s now).foldl (expireTask now) s

def registerAgent (spec : AgentSpec) : State × Except String AgentId :=
  if spec.maxConcurrent = 0 then (s, .error "agent max_concurrent must be positive")
  else ({ s with agents := s.agents.emplace { spec } }, .ok s.agents.nextId)

def createWave (spec : WaveSpec) : State × Except String WaveId :=
  if spec.maxConcurrent = some 0 then (s, .error "wave max_concurrent must be positive")
  else if !validOptionalId spec.parent.parentWaveId ||
      !validOptionalId spec.parent.parentTaskId then
    (s, .error "parent IDs must be nonzero")
  else if spec.parent.parentWaveId.any fun id => (s.waves.find id).isNone then
    (s, .error "parent wave does not exist")
  else if spec.parent.parentTaskId.any fun id => (s.tasks.find id).isNone then
    (s, .error "parent task does not exist")
  else ({ s with waves := s.waves.emplace { spec } }, .ok s.waves.nextId)

def submitError (spec : TaskSpec) : Option String :=
  if !validOptionalId spec.waveId || !validOptionalId spec.parent.parentWaveId
      || !validOptionalId spec.parent.parentTaskId then
    some "task IDs must be nonzero"
  else if spec.retryPolicy.maxAttempts = 0 then
    some "retry policy max_attempts must be positive"
  else if spec.retryPolicy.backoff < 0
      ∨ (spec.retryPolicy.maxBackoff < 0 ∧ spec.retryPolicy.maxBackoff ≠ 0) then
    some "retry backoff must not be negative"
  else if spec.budget.maxDuration.any (· < 0) then
    some "task max_duration must not be negative"
  else if spec.waveId.any fun id => (s.waves.find id).isNone then
    some "task wave does not exist"
  else if spec.waveId.any fun id => (s.waves.find id).any fun wave =>
      isTerminalWave wave.state || wave.cancellationRequested then
    some "task wave is terminal or cancelling"
  else if spec.parent.parentWaveId.any fun id => (s.waves.find id).isNone then
    some "parent wave does not exist"
  else if spec.parent.parentTaskId.any fun id => (s.tasks.find id).isNone then
    some "parent task does not exist"
  else if s.config.maxQueuedTasks.any (· ≤ queuedTaskCount s) then
    some "scheduler queue admission limit reached"
  else none

def submit (spec : TaskSpec) : State × Except String TaskId :=
  match submitError s spec with
  | some error => (s, .error error)
  | none =>
    ({ s with
        tasks := s.tasks.emplace { spec, queueSequence := s.nextQueueSequence }
        nextQueueSequence := s.nextQueueSequence + 1 },
      .ok s.tasks.nextId)

def AgentRecord.hasRoom (agent : AgentRecord) : Bool :=
  agent.administrativeState == .idle && agent.activeTasks < agent.spec.maxConcurrent

def WaveRecord.hasRoom (wave : WaveRecord) : Bool :=
  !wave.cancellationRequested && !wave.spec.maxConcurrent.any (· ≤ wave.activeTasks)

def eligible (now : TimePoint) (task : TaskRecord) : Bool :=
  !task.cancellationRequested && task.isWaiting
    && !(task.state == .retryWait && task.retryNotBefore.any (now < ·))
    && task.spec.waveId.all fun id => (s.waves.find id).any WaveRecord.hasRoom

/-- Higher priority first, then the earlier place in the queue, then the lower id. -/
def precedes (entry best : TaskId × TaskRecord) : Bool :=
  best.2.spec.priority < entry.2.spec.priority
    || (entry.2.spec.priority == best.2.spec.priority
      && (entry.2.queueSequence < best.2.queueSequence
        || (entry.2.queueSequence == best.2.queueSequence && entry.1 < best.1)))

def selectedAgent : Option (AgentId × AgentRecord) :=
  s.agents.entries.find? fun entry => entry.2.hasRoom

def betterTask (now : TimePoint) (best : Option (TaskId × TaskRecord))
    (entry : TaskId × TaskRecord) : Option (TaskId × TaskRecord) :=
  if eligible s now entry.2 && best.all (precedes entry ·) then some entry else best

def selectedTask (now : TimePoint) : Option (TaskId × TaskRecord) :=
  s.tasks.entries.foldl (betterTask s now) none

def admittedTask (agent : AgentId) (now : TimePoint) : TaskRecord := { task with
    state := .running
    attemptsStarted := task.attemptsStarted + 1
    tokensUsed := 0
    agentId := some agent
    admittedAt := some now
    retryNotBefore := none
    deadline := task.spec.budget.maxDuration.map (after now) }

def leaseOf (id : TaskId) (task : TaskRecord) (agent : AgentId) (now : TimePoint) : TaskLease where
  taskId := id
  waveId := task.spec.waveId.getD 0
  agentId := agent
  attempt := task.attemptsStarted
  priority := task.spec.priority
  admittedAt := now
  deadline := task.deadline
  budget := task.spec.budget
  parent := task.spec.parent

/-- The part of `admit_next` that hands the task to the agent. -/
def admitTask (id : TaskId) (task : TaskRecord) (agent : AgentId) (now : TimePoint) :
    State × TaskLease :=
  let admitted := admittedTask task agent now
  ({ s with
      agents := s.agents.modify agent fun a => { a with activeTasks := a.activeTasks + 1 }
      activeTasks := s.activeTasks + 1
      tasks := s.tasks.modify id fun _ => admitted
      waves := match task.spec.waveId with
        | some wave => s.waves.modify wave fun w =>
          { w with activeTasks := w.activeTasks + 1, hasStarted := true, state := .running }
        | none => s.waves },
    leaseOf id admitted agent now)

def admitNext (now : TimePoint) : State × Option TaskLease :=
  let s := expireRunning s now
  if s.config.maxConcurrent ≤ s.activeTasks then (s, none)
  else
    match selectedAgent s, selectedTask s now with
    | some (agent, _), some (id, task) =>
      let (s, lease) := admitTask s id task agent now
      (s, some lease)
    | _, _ => (s, none)

/-- The part of `report_progress` after the deadlines. -/
def progressOf (id : TaskId) (tokensUsed : Nat) (now : TimePoint) : State × ProgressResult :=
  match s.tasks.find id with
  | none => (s, {})
  | some task =>
    if !task.isRunning then
      (s, { disposition := .rejectedNotRunning, state := task.state,
            tokensUsed := task.tokensUsed })
    else if tokensUsed < task.tokensUsed then
      (s, { disposition := .rejectedNonMonotonicTokens, state := task.state,
            tokensUsed := task.tokensUsed })
    else
      let counted := { task with tokensUsed }
      let accepted := { s with tasks := s.tasks.modify id fun _ => counted }
      if task.cancellationRequested then
        (accepted, { disposition := .cancellationRequested, state := task.state, tokensUsed,
                     accepted := true })
      else if task.spec.budget.maxTokens.any (· ≤ tokensUsed) then
        let finished :=
          finishAttempt accepted id counted .budgetExhausted now "token budget exhausted"
        (finished, { disposition := .budgetExhausted,
                     state := ((finished.tasks.find id).map (·.state)).getD task.state,
                     tokensUsed, accepted := true })
      else
        (accepted, { disposition := .accepted, state := task.state, tokensUsed,
                     accepted := true })

def reportProgress (id : TaskId) (tokensUsed : Nat) (now : TimePoint) : State × ProgressResult :=
  progressOf (expireRunning s now) id tokensUsed now

/-- The outcome `complete` records: a cancellation request or an overrun budget wins. -/
def settledOutcome (completion : TaskCompletion) : TaskOutcome :=
  if task.cancellationRequested then .cancelled
  else if task.spec.budget.maxTokens.any (· < completion.tokensUsed) then .budgetExhausted
  else completion.outcome

def completionDisposition (retry : Bool) : TaskOutcome → CompletionDisposition
  | .cancelled => if retry then .retryScheduled else .cancelled
  | .timedOut => if retry then .retryScheduled else .timedOut
  | .budgetExhausted => if retry then .retryScheduled else .budgetExhausted
  | .succeeded | .failed => if retry then .retryScheduled else .accepted

def completionOf (id : TaskId) (completion : TaskCompletion) (now : TimePoint) :
    State × CompletionResult :=
  match s.tasks.find id with
  | none => (s, { message := "task does not exist" })
  | some task =>
    if !task.isRunning then
      (s, { disposition := .rejectedNotRunning, state := task.state,
            attempt := task.attemptsStarted, message := "task is not running" })
    else if completion.tokensUsed < task.tokensUsed then
      (s, { disposition := .rejectedNonMonotonicTokens, state := task.state,
            attempt := task.attemptsStarted,
            message := "completion token count moved backwards" })
    else
      let counted := { task with tokensUsed := completion.tokensUsed }
      let outcome := settledOutcome task completion
      let reason := if completion.message.isEmpty then outcomeName outcome else completion.message
      let finished := finishAttempt s id counted outcome now reason
      let retry := shouldRetry counted outcome
      (finished, { disposition := completionDisposition retry outcome,
                   state := ((finished.tasks.find id).map (·.state)).getD task.state,
                   attempt := task.attemptsStarted, accepted := true, retryScheduled := retry,
                   message := reason })

def complete (id : TaskId) (completion : TaskCompletion) (now : TimePoint) :
    State × CompletionResult :=
  completionOf (expireRunning s now) id completion now

def cancelResult (disposition : CancelDisposition) : CancelResult where
  disposition := disposition
  changed := disposition == .cancelledBeforeRun || disposition == .cancellationRequested

def cancelTask (id : TaskId) (reason : String) (now : TimePoint) : State × CancelResult :=
  let s := expireRunning s now
  match s.tasks.find id with
  | none => (s, {})
  | some task =>
    let (s, disposition) := cancelTaskLocked s id task reason
    (s, cancelResult disposition)

def selectedWaves (id : WaveId) (includeDescendants : Bool) : List WaveId :=
  (s.waves.entries.filter fun entry =>
    entry.1 == id || (includeDescendants && waveIsDescendant s entry.1 id false)).map Prod.fst

def requestWaveCancellation (id : WaveId) : State := { s with
    waves := s.waves.modify id fun wave =>
      { wave with
        cancellationRequested := true
        state := if wave.state = .pending ∨ wave.state = .running then .cancelling
          else wave.state } }

/-- One turn of the task loop of `cancel_wave`, with the number of tasks changed so far. -/
def cancelSelectedTask (id : WaveId) (reason : String) (includeDescendants : Bool)
    (waves : List WaveId) (acc : State × Nat) (taskId : TaskId) : State × Nat :=
  match acc.1.tasks.find taskId with
  | none => acc
  | some task =>
    if task.spec.waveId.any waves.contains
        || (includeDescendants && taskBelongsToWaveTree acc.1 taskId task id true) then
      let (s, disposition) := cancelTaskLocked acc.1 taskId task reason
      (s, if (cancelResult disposition).changed then acc.2 + 1 else acc.2)
    else acc

def cancelWaveTree (id : WaveId) (reason : String) (includeDescendants : Bool) : State × Nat :=
  match s.waves.find id with
  | none => (s, 0)
  | some _ =>
    let waves := selectedWaves s id includeDescendants
    let requested := waves.foldl requestWaveCancellation s
    let (cancelled, changed) := (requested.tasks.entries.map Prod.fst).foldl
        (cancelSelectedTask id reason includeDescendants waves) (requested, 0)
    (waves.foldl recomputeWave cancelled, changed)

def cancelWave (id : WaveId) (reason : String) (now : TimePoint)
    (includeDescendants : Bool) : State × Nat :=
  cancelWaveTree (expireRunning s now) id reason includeDescendants

def tick (now : TimePoint) : State × List TaskId := (expireRunning s now, expiredIds s now)

def setAgentState (id : AgentId) (state : AgentState) : State × Bool :=
  if (s.agents.find id).isNone || state == .busy then (s, false)
  else
    ({ s with agents := s.agents.modify id fun a => { a with administrativeState := state } }, true)

def isCancellationRequested (id : TaskId) : Bool := (s.tasks.find id).any (·.cancellationRequested)

inductive Call where
  | registerAgent (spec : AgentSpec)
  | createWave (spec : WaveSpec)
  | submit (spec : TaskSpec)
  | admitNext (now : TimePoint)
  | reportProgress (task : TaskId) (tokensUsed : Nat) (now : TimePoint)
  | complete (task : TaskId) (completion : TaskCompletion) (now : TimePoint)
  | cancelTask (task : TaskId) (reason : String) (now : TimePoint)
  | cancelWave (wave : WaveId) (reason : String) (now : TimePoint) (includeDescendants : Bool)
  | tick (now : TimePoint)
  | setAgentState (agent : AgentId) (state : AgentState)
  deriving Repr, DecidableEq

inductive Reply where
  | agent (result : Except String AgentId)
  | wave (result : Except String WaveId)
  | task (result : Except String TaskId)
  | lease (result : Option TaskLease)
  | progress (result : ProgressResult)
  | completion (result : CompletionResult)
  | cancel (result : CancelResult)
  | cancelled (count : Nat)
  | expired (ids : List TaskId)
  | changed (result : Bool)
  deriving DecidableEq

def step : Call → State × Reply
  | .registerAgent spec => (registerAgent s spec).map id .agent
  | .createWave spec => (createWave s spec).map id .wave
  | .submit spec => (submit s spec).map id .task
  | .admitNext now => (admitNext s now).map id .lease
  | .reportProgress task tokens now => (reportProgress s task tokens now).map id .progress
  | .complete task completion now => (complete s task completion now).map id .completion
  | .cancelTask task reason now => (cancelTask s task reason now).map id .cancel
  | .cancelWave wave reason now descendants =>
    (cancelWave s wave reason now descendants).map id .cancelled
  | .tick now => (tick s now).map id .expired
  | .setAgentState agent state => (setAgentState s agent state).map id .changed

def reached (config : SchedulerConfig) (calls : List Call) : State :=
  Machine.run step { config } calls

end AxiomKernel.Swarm
