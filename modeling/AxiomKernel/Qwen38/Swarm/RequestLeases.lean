import AxiomKernel.Qwen38.Swarm.Leases

/-!
# Leases of HTTP requests

Every HTTP worker submits one task and then polls the scheduler in `admit_swarm_request`. Any of
them may receive the lease of another request from `admit_next`; it parks that lease for its owner
in a map under `swarm_lease_mutex`. A step below is one region that holds that mutex or one call
of the scheduler, together with the worker's own code up to the next one. Clock readings, the
state of the socket and what the generation reports are inputs of the steps.
-/
namespace AxiomKernel.Swarm

open TaskRecord List Machine Registry
open Option hiding mem_map

structure RequestMetadata where
  priority : Int := 50
  queueTimeout : Option Milliseconds := none
  deadline : Option Milliseconds := none
  tokenBudget : Option Nat := none
  deriving Repr, DecidableEq

/-- Where a worker is in `admit_swarm_request` and behind it. -/
inductive Phase where
  /-- before its submission -/
  | fresh
  /-- returned, for its submission was refused -/
  | rejected
  /-- at the top of the loop -/
  | polling
  | ticking (current : TimePoint)
  | taking (current : TimePoint)
  | admitting (current : TimePoint)
  /-- holds the lease of another request -/
  | parking (lease : TaskLease)
  | abandoning (reason : String)
  /-- holds its own lease; the guard lives -/
  | admitted
  /-- gave up in the loop, or destroyed its guard -/
  | returned
  deriving Repr, DecidableEq

/-- `swarm_request_context`, with the place of its worker in the code. The task id is zero until
the scheduler accepted the submission. -/
structure Worker where
  metadata : RequestMetadata
  phase : Phase := .fresh
  taskId : TaskId := 0
  submittedAt : TimePoint := 0

structure Server where
  scheduler : State
  leases : TaskId → Option TaskLease
  workers : Nat → Worker

structure Inputs where
  now : TimePoint := 0
  later : TimePoint := 0
  disconnected : Bool := false
  completion : TaskCompletion := {}

def taskSpec (metadata : RequestMetadata) : TaskSpec where
  priority := metadata.priority
  budget := { maxTokens := metadata.tokenBudget, maxDuration := metadata.deadline }

def setWorker (s : Server) (i : Nat) (w : Worker) : Server :=
  { s with workers := fun j => if j = i then w else s.workers j }

def eraseLease (s : Server) (id : TaskId) : Server :=
  { s with leases := fun other => if other = id then none else s.leases other }

/-- The snapshot both lease functions look at: the task runs and nobody asked to cancel it. -/
def leaseUsable (s : State) (id : TaskId) : Bool :=
  (s.tasks.find id).any fun task => task.isRunning && !task.cancellationRequested

def swarmTakeParkedLease (s : Server) (id : TaskId) : Server × Option TaskLease :=
  match s.leases id with
  | none => (s, none)
  | some lease =>
    (eraseLease s id, if leaseUsable s.scheduler id then some lease else none)

def swarmParkLease (s : Server) (lease : TaskLease) : Server :=
  if leaseUsable s.scheduler lease.taskId then
    -- `emplace` keeps a lease that is parked already
    { s with leases := fun id =>
        if id = lease.taskId then (s.leases id).or (some lease) else s.leases id }
  else s

def swarmCancelQueuedRequest (s : Server) (id : TaskId) (reason : String) (now later : TimePoint) :
    Server :=
  let (scheduler, cancelled) := cancelTask s.scheduler id reason now
  let erased := eraseLease { s with scheduler } id
  if cancelled.disposition = .cancellationRequested then
    { erased with
      scheduler := (complete scheduler id { outcome := .cancelled, message := reason } later).1 }
  else erased

def elapsed (w : Worker) (current : TimePoint) (limit : Option Milliseconds) : Bool :=
  limit.any fun limit => limit * 1000000 ≤ current - w.submittedAt

def polled (s : State) (w : Worker) (inputs : Inputs) : Phase :=
  if inputs.disconnected then .abandoning "client_disconnect"
  else if isCancellationRequested s w.taskId then .abandoning "cancelled_before_admission"
  else if elapsed w inputs.now w.metadata.queueTimeout then .abandoning "queue_timeout"
  else if elapsed w inputs.now w.metadata.deadline then .abandoning "deadline"
  else .ticking inputs.now

/-- One step of the worker `i`, with the lease handed to its request, if one is. -/
def workerStep (s : Server) (i : Nat) (inputs : Inputs) : Server × Option TaskLease :=
  let w := s.workers i
  match w.phase with
  | .fresh =>
    match submit s.scheduler (taskSpec w.metadata) with
    | (scheduler, .ok id) =>
      (setWorker { s with scheduler } i
        { w with phase := .polling, taskId := id, submittedAt := inputs.now }, none)
    | (scheduler, .error _) =>
      (setWorker { s with scheduler } i { w with phase := .rejected }, none)
  | .polling => (setWorker s i { w with phase := polled s.scheduler w inputs }, none)
  | .ticking current =>
    (setWorker { s with scheduler := (tick s.scheduler current).1 } i
      { w with phase := .taking current }, none)
  | .taking current =>
    match swarmTakeParkedLease s w.taskId with
    | (taken, some lease) => (setWorker taken i { w with phase := .admitted }, some lease)
    | (taken, none) => (setWorker taken i { w with phase := .admitting current }, none)
  | .admitting current =>
    match admitNext s.scheduler current with
    | (scheduler, none) => (setWorker { s with scheduler } i { w with phase := .polling }, none)
    | (scheduler, some lease) =>
      if lease.taskId = w.taskId then
        (setWorker { s with scheduler } i { w with phase := .admitted }, some lease)
      else (setWorker { s with scheduler } i { w with phase := .parking lease }, none)
  | .parking lease => (setWorker (swarmParkLease s lease) i { w with phase := .polling }, none)
  | .abandoning reason =>
    (setWorker (swarmCancelQueuedRequest s w.taskId reason inputs.now inputs.later) i
      { w with phase := .returned }, none)
  | .admitted =>
    (setWorker
      { s with scheduler := (complete s.scheduler w.taskId inputs.completion inputs.now).1 } i
      { w with phase := .returned }, none)
  | .rejected => (s, none)
  | .returned => (s, none)

inductive Action where
  | worker (i : Nat) (inputs : Inputs)
  | cancelTask (id : TaskId) (reason : String) (now : TimePoint)
  | tick (now : TimePoint)

/-- One step of the server, with the worker whose request got a lease in it. -/
def serverStep (s : Server) : Action → Server × Option (Nat × TaskLease)
  | .worker i inputs => (workerStep s i inputs).map id (Option.map fun lease => (i, lease))
  | .cancelTask id reason now =>
    ({ s with scheduler := (cancelTask s.scheduler id reason now).1 }, none)
  | .tick now => ({ s with scheduler := (tick s.scheduler now).1 }, none)

variable (metadata : Nat → RequestMetadata)

/-- The server as its constructor leaves it, with any number of requests to come. -/
def serverInit : Server where
  scheduler := (registerAgent { config := { maxConcurrent := 1, maxQueuedTasks := some 64 } }
    { maxConcurrent := 1 }).1
  leases := fun _ => none
  workers := fun i => { metadata := metadata i }

def served (actions : List Action) : Server := run serverStep (serverInit metadata) actions

/-- The leases handed to requests in a run, with the worker each was handed to. -/
def handed (s : Server) (actions : List Action) : List (Nat × TaskLease) :=
  (outputs serverStep s actions).filterMap id

/-- The task has a single attempt, and no tokens are counted while it runs. -/
structure TaskRecord.Single (t : TaskRecord) : Prop where
  attempts : t.spec.retryPolicy.maxAttempts = 1
  running : t.isRunning = true → 1 ≤ t.attemptsStarted ∧ t.tokensUsed = 0

def TaskRecord.IsOver (t : TaskRecord) : Prop :=
  t.cancellationRequested = true ∨ isTerminal t.state = true

lemma TaskRecord.Single.shouldRetry {t : TaskRecord} (h : t.Single) (hr : t.isRunning)
    (tokensUsed : Nat) (o : TaskOutcome) :
    shouldRetry { t with tokensUsed } o = false := by
  have hone := (h.running hr).1
  simp [Swarm.shouldRetry, h.attempts, hone]

variable {t : TaskRecord}

lemma TaskRecord.Single.finished_terminal (h : t.Single) (hr : t.isRunning)
    (tokensUsed : Nat) (o : TaskOutcome) (now : TimePoint) (re : String) (se : Nat) :
    isTerminal (finishedTask { t with tokensUsed } o now re se).state = true := by
  rw [finishedTask_state, h.shouldRetry hr]
  exact isTerminal_taskStateForOutcome o

variable {u : TaskRecord} {s s' scheduler : State} {w : Worker} {lease : TaskLease}

lemma TaskRecord.Single.move (h : t.Single) (hm : TaskMove false t u) : u.Single := by
  cases hm with
  | flag hr => exact ⟨h.attempts, h.running⟩
  | count hre => simp at hre
  | cancel hw re =>
    exact ⟨h.attempts, fun hr => by simp [cancelledTask, isRunning] at hr⟩
  | admitTask hw hf ag now => exact ⟨h.attempts, fun _ => ⟨by simp [admittedTask], rfl⟩⟩
  | finish hr tu o now re se =>
    exact ⟨by rw [finishedTask_spec]; exact h.attempts, fun hr' => by simp at hr'⟩

lemma TaskRecord.IsOver.move (ho : t.IsOver) (h : t.Single) (hm : TaskMove false t u) :
    u.IsOver := by
  cases hm with
  | flag hr => exact .inl rfl
  | count hre => simp at hre
  | cancel hw re => exact .inl rfl
  | admitTask hw hf ag now =>
    rcases ho with hc | hte
    · rw [hf] at hc
      simp at hc
    · rw [isWaiting_of_isTerminal hte] at hw
      simp at hw
  | finish hr tu o now re se =>
    exact .inr (h.finished_terminal hr tu o now re se)

variable {u : TaskRecord}

lemma isWaiting_move (hl : t.isWaiting = false) (h : t.Single) (hm : TaskMove false t u) :
    u.isWaiting = false := by
  cases hm with
  | flag hr => exact hl
  | count hre => simp at hre
  | cancel hw re => rfl
  | admitTask hw hf ag now => rfl
  | finish hr tu o now re se =>
    exact isWaiting_of_isTerminal (h.finished_terminal hr tu o now re se)

lemma TaskRecord.Single.moves (h : t.Single) (hm : Relation.ReflTransGen (TaskMove false) t u) :
    u.Single ∧ (t.IsOver → u.IsOver) ∧ (t.isWaiting = false → u.isWaiting = false) ∧
    (isTerminal t.state → u = t) := by
  induction hm with
  | refl => exact ⟨h, fun ho => ho, fun hl => hl, fun _ => rfl⟩
  | tail _ hmv ih =>
    obtain ⟨hsi, ho, hl, hs⟩ := ih
    refine ⟨hsi.move hmv, fun h' => (ho h').move hsi hmv,
      fun h' => isWaiting_move (hl h') hsi hmv, fun ht => ?_⟩
    have heq := hs ht
    rw [heq] at hmv
    exact (not_move_of_isTerminal ht hmv).elim

variable {id : TaskId}

lemma complete_terminal (hf : s.tasks.find id = some t) (h : t.Single)
    (hl : t.isWaiting = false) (co : TaskCompletion) (now : TimePoint) :
    ∃ u, (complete s id co now).1.tasks.find id = some u ∧ isTerminal u.state = true := by
  obtain ⟨v, hv, hm⟩ := (Evolves.expireRunning s now).find hf
  obtain ⟨hs, _, hl', _⟩ := h.moves hm
  cases hr : v.isRunning with
  | false =>
    refine ⟨v, ?_, isTerminal_of_not hr (hl' hl)⟩
    rw [complete, completionOf_of_not_running co now hv hr, hv]
  | true =>
    have hz := (hs.running hr).2
    simp only [complete, completionOf, hv, hr, hz, Bool.not_true, Bool.false_eq_true,
      Nat.not_lt_zero, if_false, finishAttempt_tasks, find_modify_self, map_some]
    exact ⟨_, rfl, hs.finished_terminal hr co.tokensUsed _ now _ _⟩

lemma cancelTask_cases (hf : s.tasks.find id = some t) (re : String) (now : TimePoint) :
    ∃ u, (cancelTask s id re now).1.tasks.find id = some u ∧
    (((cancelTask s id re now).2.disposition = .cancellationRequested ∧ u.isRunning) ∨
    ((cancelTask s id re now).2.disposition ≠ .cancellationRequested ∧
    isTerminal u.state)) := by
  have he : Evolves false s (expireRunning s now) := .expireRunning s now
  obtain ⟨v, hv, _⟩ := he.find hf
  simp only [cancelTask, hv, cancelTaskLocked]
  split
  next ht => exact ⟨v, hv, .inr ⟨by simp [cancelResult], ht⟩⟩
  next hl =>
    split
    next hw =>
      refine ⟨cancelledTask v re, ?_, .inr ⟨by simp [cancelResult], rfl⟩⟩
      simp [hv]
    next hw =>
      have hr : v.isRunning := by
        cases hr : v.isRunning with
        | true => rfl
        | false => exact absurd (isTerminal_of_not hr (by simpa using hw)) hl
      refine ⟨{ v with cancellationRequested := true }, ?_, .inl ⟨rfl, hr⟩⟩
      simp [hv]

lemma evolves_swarmCancelQueuedRequest (s : Server) (id : TaskId) (re : String)
    (now l : TimePoint) :
    Evolves false s.scheduler (swarmCancelQueuedRequest s id re now l).scheduler := by
  have hc : Evolves false s.scheduler (cancelTask s.scheduler id re now).1 :=
    .cancelTask _ id re now
  unfold swarmCancelQueuedRequest
  simp only
  split
  · exact hc.trans (.complete _ id _ l)
  · exact hc

variable {s : Server}

lemma swarmCancelQueuedRequest_terminal (hf : s.scheduler.tasks.find id = some t)
    (h : t.Single) (re : String) (now l : TimePoint) :
    ∃ u, (swarmCancelQueuedRequest s id re now l).scheduler.tasks.find id = some u ∧
    isTerminal u.state = true := by
  obtain ⟨u, hu, hc⟩ := cancelTask_cases hf re now
  have hsi : u.Single := by
    have he : Evolves false s.scheduler (cancelTask s.scheduler id re now).1 :=
      .cancelTask _ id re now
    obtain ⟨v, hv, hm⟩ := he.find hf
    cases hu.symm.trans hv
    exact (h.moves hm).1
  unfold swarmCancelQueuedRequest
  simp only
  rcases hc with ⟨hd, hr⟩ | ⟨hd, ht⟩
  · rw [if_pos hd]
    refine complete_terminal hu hsi ?_ _ l
    cases hs : u.state <;> simp_all [isRunning, isWaiting]
  · rw [if_neg hd]
    exact ⟨u, hu, ht⟩

def Placed (s : State) (w : Worker) : Prop :=
  match w.phase with
  | .fresh | .rejected => w.taskId = 0
  | .admitted => ∃ t, s.tasks.find w.taskId = some t ∧ t.isWaiting = false
  | .returned => ∃ t, s.tasks.find w.taskId = some t ∧ isTerminal t.state = true
  | _ => ∃ t, s.tasks.find w.taskId = some t

structure Served (s : Server) : Prop where
  single : ∀ id t, s.scheduler.tasks.find id = some t → t.Single
  owned : ∀ id t, s.scheduler.tasks.find id = some t → ∃ i, (s.workers i).taskId = id
  unique : ∀ i j, (s.workers i).taskId ≠ 0 → (s.workers i).taskId = (s.workers j).taskId → i = j
  keyed : ∀ id lease, s.leases id = some lease → lease.taskId = id
  placed : ∀ i, Placed s.scheduler (s.workers i)

variable (metadata : Nat → RequestMetadata)

lemma served_init : Served (serverInit metadata) := by
  have hn : ∀ id, (serverInit metadata).scheduler.tasks.find id = none := by
    intro id
    cases id <;> rfl
  refine ⟨?_, ?_, ?_, ?_, ?_⟩
  · intro id t ht
    simp [hn] at ht
  · intro id t ht
    simp [hn] at ht
  · intro i j hi
    exact absurd rfl hi
  · intro id lease hl
    simp [serverInit] at hl
  · intro i
    rfl

lemma Placed.evolve {s : State} (h : Placed s w)
    (hs : ∀ id t, s.tasks.find id = some t → t.Single) (he : Evolves false s s') :
    Placed s' w := by
  unfold Placed at h ⊢
  cases hph : w.phase <;> simp only [hph] at h ⊢
  case fresh => exact h
  case rejected => exact h
  case admitted =>
    obtain ⟨t, ht, hl⟩ := h
    obtain ⟨u, hu, hm⟩ := he.find ht
    exact ⟨u, hu, ((hs _ t ht).moves hm).2.2.1 hl⟩
  case returned =>
    obtain ⟨t, ht, hte⟩ := h
    obtain ⟨u, hu, hm⟩ := he.find ht
    have heq := ((hs _ t ht).moves hm).2.2.2 hte
    exact ⟨u, hu, heq ▸ hte⟩
  all_goals
    obtain ⟨t, ht⟩ := h
    obtain ⟨u, hu, _⟩ := he.find ht
    exact ⟨u, hu⟩

lemma Placed.known {s : State} (h : Placed s w) (hf : w.phase ≠ .fresh := by simp [*])
    (hr : w.phase ≠ .rejected := by simp [*]) :
    ∃ t, s.tasks.find w.taskId = some t := by
  unfold Placed at h
  cases hph : w.phase <;> simp only [hph] at h hf hr
  case fresh => exact absurd rfl hf
  case rejected => exact absurd rfl hr
  case admitted => exact ⟨h.choose, h.choose_spec.1⟩
  case returned => exact ⟨h.choose, h.choose_spec.1⟩
  all_goals exact h

lemma taskId_ne_zero {s : State} (h : s.tasks.find id = some t) : id ≠ 0 := by
  rintro rfl
  simp [find] at h

variable (h : Served s)
include h

lemma Served.evolve {leases : TaskId → Option TaskLease} (hev : Evolves false s.scheduler scheduler)
    (hk : ∀ id lease, leases id = some lease → lease.taskId = id) :
    Served { scheduler, leases, workers := s.workers } where
  single id u hu := by
    obtain ⟨t, ht, hmov⟩ := hev.find_back hu
    exact ((h.single id t ht).moves hmov).1
  owned id u hu := by
    obtain ⟨t, ht, _⟩ := hev.find_back hu
    exact h.owned id t ht
  unique := h.unique
  keyed := hk
  placed i := (h.placed i).evolve h.single hev

lemma Served.rephase (i : Nat) (phase : Phase)
    (hp : Placed s.scheduler { s.workers i with phase }) :
    Served (setWorker s i { s.workers i with phase }) := by
  have htk : ∀ j, ((setWorker s i { s.workers i with phase }).workers j).taskId =
      (s.workers j).taskId := by
    intro j
    simp only [setWorker]
    split
    next he => rw [he]
    · rfl
  refine ⟨h.single, ?_, ?_, h.keyed, ?_⟩
  · intro id t ht
    obtain ⟨j, hj⟩ := h.owned id t ht
    exact ⟨j, (htk j).trans hj⟩
  · intro j k hj hjk
    rw [htk] at hj
    rw [htk, htk] at hjk
    exact h.unique j k hj hjk
  · intro j
    simp only [setWorker]
    split
    · exact hp
    · exact h.placed j

lemma Served.keyed_erase (id : TaskId) :
    ∀ other lease, (eraseLease s id).leases other = some lease → lease.taskId = other := by
  intro other lease hl
  simp only [eraseLease] at hl
  split at hl
  · simp at hl
  · exact h.keyed other lease hl

lemma Served.keyed_park (lease : TaskLease) : ∀ id parked,
    (swarmParkLease s lease).leases id = some parked → parked.taskId = id := by
  intro id parked hpark
  unfold swarmParkLease at hpark
  split at hpark
  · simp only at hpark
    split at hpark
    next heq =>
      cases hold : s.leases id with
      | some old =>
        rw [hold, or_some, some.injEq] at hpark
        rw [← hpark]
        exact h.keyed id old hold
      | none =>
        rw [hold, none_or, some.injEq] at hpark
        rw [← hpark, heq]
    · exact h.keyed id parked hpark
  · exact h.keyed id parked hpark

omit h

variable {i : Nat}

lemma Served.submitted (h : Served s) (hfr : (s.workers i).taskId = 0) {spec : TaskSpec}
    {se : Nat} (hs : spec.retryPolicy.maxAttempts = 1)
    (hf : ∀ id, scheduler.tasks.find id = if id = s.scheduler.tasks.nextId then
    some { spec, queueSequence := se } else s.scheduler.tasks.find id) (now : TimePoint) :
    Served (setWorker { s with scheduler } i
      { s.workers i with
        phase := .polling, taskId := s.scheduler.tasks.nextId, submittedAt := now }) := by
  have hn : s.scheduler.tasks.find s.scheduler.tasks.nextId = none := find_nextId _
  have hk : ∀ id t, s.scheduler.tasks.find id = some t → scheduler.tasks.find id = some t := by
    intro id t ht
    rw [hf, if_neg, ht]
    rintro rfl
    simp [hn] at ht
  -- nobody else names the new task, for every named task was known before
  have ho : ∀ j, (s.workers j).taskId ≠ s.scheduler.tasks.nextId := by
    intro j hj
    have hplac := h.placed j
    have hkn : (s.workers j).taskId = 0 ∨
        ∃ t, s.scheduler.tasks.find (s.workers j).taskId = some t := by
      by_cases h1 : (s.workers j).phase = .fresh
      · rw [Placed, h1] at hplac
        exact .inl hplac
      · by_cases h2 : (s.workers j).phase = .rejected
        · rw [Placed, h2] at hplac
          exact .inl hplac
        · exact .inr (hplac.known h1 h2)
    rcases hkn with hz | ⟨t, ht⟩
    · rw [hj] at hz
      simp [nextId] at hz
    · rw [hj, hn] at ht
      simp at ht
  refine ⟨?_, ?_, ?_, h.keyed, ?_⟩
  · intro id t ht
    change scheduler.tasks.find id = some t at ht
    rw [hf] at ht
    split at ht
    · obtain rfl : _ = t := by simpa using ht
      exact ⟨hs, fun hr => by simp [isRunning] at hr⟩
    · exact h.single id t ht
  · intro id t ht
    change scheduler.tasks.find id = some t at ht
    rw [hf] at ht
    split at ht
    next he => exact ⟨i, by simp [setWorker, he]⟩
    · obtain ⟨j, hj⟩ := h.owned id t ht
      refine ⟨j, ?_⟩
      have hne : j ≠ i := by
        rintro rfl
        exact taskId_ne_zero ht (hj ▸ hfr)
      simp [setWorker, hne, hj]
  · intro j k hj hjk
    simp only [setWorker] at hj hjk
    by_cases hji : j = i <;> by_cases hki : k = i <;>
      simp only [hji, hki, if_true, if_false] at hj hjk
    · rw [hji, hki]
    · exact absurd hjk.symm (ho k)
    · exact absurd hjk (ho j)
    · exact h.unique j k hj hjk
  · intro j
    simp only [setWorker]
    split
    · exact ⟨_, (hf _).trans (if_pos rfl)⟩
    · have hplac := h.placed j
      unfold Placed at hplac ⊢
      cases hph : (s.workers j).phase <;> simp only [hph] at hplac ⊢
      case fresh => exact hplac
      case rejected => exact hplac
      case admitted => exact hplac.imp fun t ht => ⟨hk _ t ht.1, ht.2⟩
      case returned => exact hplac.imp fun t ht => ⟨hk _ t ht.1, ht.2⟩
      all_goals exact hplac.imp fun t ht => hk _ t ht

lemma admitNext_lease {s : State} {now : TimePoint} (h : admitNext s now = (s', some lease)) :
    ∃ t, s'.tasks.find lease.taskId = some t ∧ t.isRunning ∧
    t.cancellationRequested = false := by
  obtain ⟨ag, t, -, he, -, hf⟩ := admitNext_some (congrArg Prod.snd h)
  rw [h] at hf
  exact ⟨admittedTask t ag now, hf, rfl, (eligible_waiting he).2⟩

lemma leaseUsable_spec {s : State} (h : leaseUsable s id) :
    ∃ t, s.tasks.find id = some t ∧ t.isRunning ∧ t.cancellationRequested = false := by
  cases hf : s.tasks.find id with
  | none => simp [leaseUsable, hf] at h
  | some t =>
    simp only [leaseUsable, hf, any_some, Bool.and_eq_true, Bool.not_eq_eq_eq_not,
      Bool.not_true] at h
    exact ⟨t, rfl, h⟩

def Phase.PastAdmission (phase : Phase) : Prop := phase = .admitted ∨ phase = .returned

/-- What a step of a worker that does not submit can do: the scheduler moves tasks, parked leases
stay under their ids, the worker goes on to a place that fits its task, and a lease is handed out
only for the worker's own task, while that runs and nobody asked to cancel it. -/
structure Proceeds (s : Server) (i : Nat) (base : Server) (phase : Phase)
    (lease : Option TaskLease) : Prop where
  workers : base.workers = s.workers
  evolves : Evolves false s.scheduler base.scheduler
  keyed : ∀ id lease, base.leases id = some lease → lease.taskId = id
  placed : Placed base.scheduler { s.workers i with phase }
  past : (s.workers i).phase.PastAdmission → phase.PastAdmission ∧ lease = none
  hands : ∀ l, lease = some l → phase = .admitted ∧ l.taskId = (s.workers i).taskId ∧
    ∃ t, base.scheduler.tasks.find l.taskId = some t ∧ t.isRunning = true ∧
      t.cancellationRequested = false

lemma isWaiting_of_isRunning (h : t.isRunning) : t.isWaiting = false := by
  cases hs : t.state <;> simp_all [isRunning, isWaiting]

lemma proceeds_quietly {b : Server} {phase : Phase} (hw : b.workers = s.workers)
    (he : Evolves false s.scheduler b.scheduler)
    (hk : ∀ id lease, b.leases id = some lease → lease.taskId = id)
    (hpl : Placed b.scheduler { s.workers i with phase })
    (hp : ¬ (s.workers i).phase.PastAdmission := by simp [Phase.PastAdmission, *]) :
    Proceeds s i b phase none :=
  ⟨hw, he, hk, hpl, fun h' => absurd h' hp, fun _ hl => by simp at hl⟩

section
variable (h : Served s)
include h

lemma workerStep_cases (i : Nat) (inputs : Inputs) : (∃ base phase lease, workerStep s i inputs =
    (setWorker base i { s.workers i with phase }, lease) ∧ Proceeds s i base phase lease) ∨
    (workerStep s i inputs = (s, none)) ∨
    (∃ scheduler, (s.workers i).phase = .fresh ∧ (s.workers i).taskId = 0 ∧
    workerStep s i inputs = (setWorker { s with scheduler } i
    { s.workers i with phase := .polling, taskId := s.scheduler.tasks.nextId,
                           submittedAt := inputs.now }, none) ∧
      ∀ id, scheduler.tasks.find id = if id = s.scheduler.tasks.nextId then
        some { spec := taskSpec (s.workers i).metadata,
               queueSequence := s.scheduler.nextQueueSequence }
        else s.scheduler.tasks.find id) := by
  have hplac := h.placed i
  unfold workerStep
  simp only
  cases hph : (s.workers i).phase with
  | fresh =>
    have hz : (s.workers i).taskId = 0 := by simpa [Placed, hph] using hplac
    rcases find_submit s.scheduler (taskSpec (s.workers i).metadata) with
      ⟨hs, error, herr⟩ | ⟨hok, hf⟩
    · have heq : submit s.scheduler (taskSpec (s.workers i).metadata) =
          (s.scheduler, .error error) := Prod.ext hs herr
      refine .inl ⟨s, .rejected, none, by simp only [heq], ?_⟩
      exact proceeds_quietly rfl (.refl _) h.keyed hz
    · have heq : submit s.scheduler (taskSpec (s.workers i).metadata) =
          ((submit s.scheduler (taskSpec (s.workers i).metadata)).1,
            .ok s.scheduler.tasks.nextId) := Prod.ext rfl hok
      refine .inr (.inr ⟨_, rfl, hz, ?_, hf⟩)
      rw [heq]
  | rejected => exact .inr (.inl rfl)
  | returned => exact .inr (.inl rfl)
  | polling =>
    have hkn := hplac.known
    refine .inl ⟨s, _, none, rfl, proceeds_quietly rfl (.refl _) h.keyed ?_⟩
    unfold Placed polled
    split_ifs <;> exact hkn
  | ticking current =>
    have hev : Evolves false s.scheduler (tick s.scheduler current).1 := .expireRunning _ current
    have hkn := (hplac.evolve h.single hev).known
    exact .inl ⟨{ s with scheduler := (tick s.scheduler current).1 }, .taking current, none, rfl,
      proceeds_quietly rfl hev h.keyed hkn⟩
  | taking current =>
    have hkn := hplac.known
    rw [swarmTakeParkedLease]
    cases hle : s.leases (s.workers i).taskId with
    | none =>
      exact .inl ⟨s, .admitting current, none, rfl, proceeds_quietly rfl (.refl _) h.keyed hkn⟩
    | some lease =>
      cases husab : leaseUsable s.scheduler (s.workers i).taskId with
      | false =>
        exact .inl ⟨eraseLease s (s.workers i).taskId, .admitting current, none, rfl,
          proceeds_quietly rfl (.refl _) (h.keyed_erase _) hkn⟩
      | true =>
        obtain ⟨t, ht, hr, hfg⟩ := leaseUsable_spec husab
        refine .inl ⟨eraseLease s (s.workers i).taskId, .admitted, some lease, rfl, ?_⟩
        refine ⟨rfl, .refl _, h.keyed_erase _, ⟨t, ht, isWaiting_of_isRunning hr⟩,
          fun h' => by simp [Phase.PastAdmission, hph] at h', ?_⟩
        intro l hl
        cases hl
        have hk := h.keyed _ lease hle
        exact ⟨rfl, hk, t, hk ▸ ht, hr, hfg⟩
  | admitting current =>
    have hev : Evolves false s.scheduler (admitNext s.scheduler current).1 := .admitNext _ current
    have hkn := (hplac.evolve h.single hev).known
    obtain ⟨scheduler, next, hne⟩ : ∃ scheduler next,
        admitNext s.scheduler current = (scheduler, next) := ⟨_, _, rfl⟩
    simp only [hne] at hev hkn ⊢
    cases next with
    | none =>
      exact .inl ⟨{ s with scheduler }, .polling, none, rfl, proceeds_quietly rfl hev h.keyed hkn⟩
    | some lease =>
      simp only
      split
      next hown =>
        obtain ⟨t, ht, hr, hfg⟩ := admitNext_lease hne
        refine .inl ⟨{ s with scheduler }, .admitted, some lease, rfl, ?_⟩
        refine ⟨rfl, hev, h.keyed, ⟨t, hown ▸ ht, isWaiting_of_isRunning hr⟩,
          fun h' => by simp [Phase.PastAdmission, hph] at h', ?_⟩
        intro l hl
        cases hl
        exact ⟨rfl, hown, t, ht, hr, hfg⟩
      · exact .inl ⟨{ s with scheduler }, .parking lease, none, rfl,
          proceeds_quietly rfl hev h.keyed hkn⟩
  | parking lease =>
    have hkn := hplac.known
    refine .inl ⟨swarmParkLease s lease, .polling, none, rfl, ?_⟩
    have hke := h.keyed_park lease
    unfold swarmParkLease at hke ⊢
    split_ifs at hke ⊢ <;> exact proceeds_quietly rfl (.refl _) hke hkn
  | abandoning reason =>
    obtain ⟨t, ht⟩ := hplac.known
    have hke : ∀ id lease, (swarmCancelQueuedRequest s (s.workers i).taskId reason inputs.now
        inputs.later).leases id = some lease → lease.taskId = id := by
      unfold swarmCancelQueuedRequest
      simp only
      split <;> exact h.keyed_erase _
    have hwork : (swarmCancelQueuedRequest s (s.workers i).taskId reason inputs.now
        inputs.later).workers = s.workers := by
      unfold swarmCancelQueuedRequest
      simp only
      split <;> rfl
    exact .inl ⟨_, .returned, none, rfl, proceeds_quietly hwork
      (evolves_swarmCancelQueuedRequest s _ reason _ _) hke
      (swarmCancelQueuedRequest_terminal ht (h.single _ t ht) reason inputs.now inputs.later)⟩
  | admitted =>
    obtain ⟨t, ht, hleft⟩ : ∃ t, s.scheduler.tasks.find (s.workers i).taskId = some t ∧
        t.isWaiting = false := by simpa [Placed, hph] using hplac
    refine .inl ⟨_, .returned, none, rfl, rfl, .complete _ _ _ _, h.keyed,
      complete_terminal ht (h.single _ t ht) hleft inputs.completion inputs.now,
      fun _ => ⟨.inr rfl, rfl⟩, fun _ hl => by simp at hl⟩

lemma Served.workerStep (i : Nat) (inputs : Inputs) : Served (workerStep s i inputs).1 := by
  rcases workerStep_cases h i inputs with
    ⟨base, phase, lease, heq, hp⟩ | heq | ⟨scheduler, hph, hz, heq, hf⟩
  · rw [heq]
    have hb : Served base := by
      have := h.evolve hp.evolves hp.keyed
      rw [← hp.workers] at this
      exact this
    have hdn := hb.rephase i phase (by rw [hp.workers]; exact hp.placed)
    rw [hp.workers] at hdn
    exact hdn
  · rw [heq]
    exact h
  · rw [heq]
    exact h.submitted hz rfl hf inputs.now

variable (action : Action)

lemma Served.step : Served (serverStep s action).1 := by
  cases action with
  | worker i inp => exact h.workerStep i inp
  | cancelTask id re now => exact h.evolve (.cancelTask _ id re now) h.keyed
  | tick now => exact h.evolve (.expireRunning _ now) h.keyed

lemma find_serverStep (ht : s.scheduler.tasks.find id = some t) :
    ∃ u, (serverStep s action).1.scheduler.tasks.find id = some u ∧ (t.IsOver → u.IsOver) := by
  have hevol : ∀ scheduler, Evolves false s.scheduler scheduler →
      ∃ u, scheduler.tasks.find id = some u ∧ (t.IsOver → u.IsOver) := by
    intro scheduler hev
    obtain ⟨u, hu, hmov⟩ := hev.find ht
    exact ⟨u, hu, ((h.single id t ht).moves hmov).2.1⟩
  cases action with
  | worker i inputs =>
    simp only [serverStep, Prod.map_fst]
    rcases workerStep_cases h i inputs with
      ⟨base, phase, lease, heq, hp⟩ | heq | ⟨scheduler, _, _, heq, hf⟩
    · rw [heq]
      exact hevol _ hp.evolves
    · rw [heq]
      exact ⟨t, ht, fun hov => hov⟩
    · rw [heq]
      refine ⟨t, ?_, fun hov => hov⟩
      change scheduler.tasks.find id = some t
      rw [hf, if_neg, ht]
      rintro rfl
      rw [find_nextId] at ht
      simp at ht
  | cancelTask other reason now => exact hevol _ (.cancelTask _ other reason now)
  | tick now => exact hevol _ (.expireRunning _ now)

/-- A lease goes to the worker whose task it names, which then stays past its admission; the task
runs and nobody asked to cancel it. -/
lemma handed_of_step {action : Action} (ho : (serverStep s action).2 = some (i, lease)) :
    ¬ (s.workers i).phase.PastAdmission ∧ lease.taskId = (s.workers i).taskId ∧ lease.taskId ≠ 0 ∧
    ((serverStep s action).1.workers i).phase = .admitted ∧
    ∃ t, (serverStep s action).1.scheduler.tasks.find lease.taskId = some t ∧
    t.isRunning ∧ t.cancellationRequested = false := by
  cases action with
  | cancelTask id reason now => simp [serverStep] at ho
  | tick now => simp [serverStep] at ho
  | worker j inputs =>
    simp only [serverStep, Prod.map_fst, Prod.map_snd] at ho ⊢
    rcases workerStep_cases h j inputs with
      ⟨base, phase, out, heq, hp⟩ | heq | ⟨scheduler, _, _, heq, _⟩
    · rw [heq] at ho ⊢
      obtain ⟨l, hl, hpair⟩ := map_eq_some_iff.1 ho
      rw [Prod.mk.injEq] at hpair
      obtain ⟨rfl, rfl⟩ := hpair
      have hl : out = some l := hl
      obtain ⟨hph, hown, t, ht, hr, hfg⟩ := hp.hands l hl
      refine ⟨?_, hown, taskId_ne_zero ht, by simp [setWorker, hph], t, ht, hr, hfg⟩
      intro hpast
      have hno := (hp.past hpast).2
      rw [hl] at hno
      simp at hno
    · simp [heq] at ho
    · simp [heq] at ho

lemma worker_step (j : Nat) : ((s.workers j).taskId ≠ 0 →
    ((serverStep s action).1.workers j).taskId = (s.workers j).taskId) ∧
    ((s.workers j).phase.PastAdmission →
    ((serverStep s action).1.workers j).phase.PastAdmission) := by
  cases action with
  | cancelTask id reason now => exact ⟨fun _ => rfl, fun hpast => hpast⟩
  | tick now => exact ⟨fun _ => rfl, fun hpast => hpast⟩
  | worker i inputs =>
    simp only [serverStep, Prod.map_fst]
    rcases workerStep_cases h i inputs with
      ⟨base, phase, out, heq, hp⟩ | heq | ⟨scheduler, hph, hz, heq, _⟩
    · rw [heq]
      simp only [id, setWorker]
      split
      next hji =>
        subst hji
        exact ⟨fun _ => rfl, fun hpast => (hp.past hpast).1⟩
      · rw [hp.workers]
        exact ⟨fun _ => rfl, fun hpast => hpast⟩
    · rw [heq]
      exact ⟨fun _ => rfl, fun hpast => hpast⟩
    · rw [heq]
      simp only [id, setWorker]
      split
      next hji =>
        subst hji
        exact ⟨fun hne => absurd hz hne,
          fun hpast => by simp [Phase.PastAdmission, hph] at hpast⟩
      · exact ⟨fun _ => rfl, fun hpast => hpast⟩

end

variable (ac : List Action)

lemma served_reached : Served (served metadata ac) :=
  run_preserves (fun _ action h => h.step action) (served_init metadata) ac

/-- Every lease handed out went to the worker that owns its task, and no task's lease went out
twice. -/
lemma handed_owned : (∀ e ∈ handed (serverInit metadata) ac,
      ((served metadata ac).workers e.1).taskId = e.2.taskId ∧ e.2.taskId ≠ 0 ∧
      ((served metadata ac).workers e.1).phase.PastAdmission) ∧
    ((handed (serverInit metadata) ac).map fun e => e.2.taskId).Nodup := by
  have hr := @run_trace _ _ _ serverStep _ (fun (s : Server) os => Served s ∧
      (∀ e ∈ os.filterMap id, (s.workers e.1).taskId = e.2.taskId ∧
        e.2.taskId ≠ 0 ∧ (s.workers e.1).phase.PastAdmission) ∧
      ((os.filterMap id).map fun e => e.2.taskId).Nodup) ?_
    ⟨served_init metadata, by simp, by simp⟩ ac
  · exact hr.2
  intro s os action hs
  obtain ⟨h, hl, hn⟩ := hs
  have hk : ∀ e ∈ os.filterMap id,
      ((serverStep s action).1.workers e.1).taskId = e.2.taskId ∧ e.2.taskId ≠ 0 ∧
      ((serverStep s action).1.workers e.1).phase.PastAdmission := by
    intro e hen
    obtain ⟨how, hne, hpa⟩ := hl e hen
    obtain ⟨ht, hph⟩ := worker_step h action e.1
    exact ⟨(ht (how ▸ hne)).trans how, hne, hph hpa⟩
  refine ⟨h.step action, ?_⟩
  rw [filterMap_append]
  cases hout : (serverStep s action).2 with
  | none =>
    simp only [filterMap_cons, filterMap_nil, id, append_nil]
    exact ⟨hk, hn⟩
  | some e =>
    obtain ⟨i, lease⟩ := e
    obtain ⟨hp, hown, hne, hph, _⟩ := handed_of_step h hout
    have ht : ((serverStep s action).1.workers i).taskId = lease.taskId := by
      rw [(worker_step h action i).1 (hown ▸ hne), hown]
    refine ⟨?_, ?_⟩
    · intro e hen
      rcases mem_append.1 hen with hen | hen
      · exact hk e hen
      · obtain rfl : e = (i, lease) := by simpa using hen
        exact ⟨ht, hne, .inl hph⟩
    · simp only [map_append, filterMap_cons, filterMap_nil, id, map_cons, map_nil]
      rw [nodup_append]
      refine ⟨hn, by simp, ?_⟩
      intro id hi o ho
      obtain rfl : o = lease.taskId := by simpa using ho
      rintro rfl
      -- an earlier lease of the task went to the same worker, which is past its admission
      obtain ⟨ea, he, hsm⟩ := mem_map.1 hi
      obtain ⟨how, hn', hpa⟩ := hl ea he
      have hw : ea.1 = i := by
        refine h.unique ea.1 i (how ▸ hn') ?_
        rw [how, hsm, hown]
      exact hp (hw ▸ hpa)

lemma not_handed_of_isOver (h : Served s) (ht : s.scheduler.tasks.find id = some t)
    (hov : t.IsOver) (ac : List Action) :
    ∀ e ∈ handed s ac, e.2.taskId ≠ id := by
  have hrun := @run_trace _ _ _ serverStep _ (fun (s : Server) os => Served s ∧
      (∃ t, s.scheduler.tasks.find id = some t ∧ t.IsOver) ∧
      ∀ e ∈ os.filterMap (fun e => e), e.2.taskId ≠ id) ?_
    ⟨h, ⟨t, ht, hov⟩, by simp⟩ ac
  · exact hrun.2.2
  intro s os action hs
  obtain ⟨h, ⟨t, ht, hov⟩, hold⟩ := hs
  obtain ⟨u, hu, ho'⟩ := find_serverStep h action ht
  refine ⟨h.step action, ⟨u, hu, ho' hov⟩, ?_⟩
  intro e he
  rw [filterMap_append] at he
  rcases mem_append.1 he with he | he
  · exact hold e he
  · intro heq
    have ho : (serverStep s action).2 = some (e.1, e.2) := by
      cases hr : (serverStep s action).2 <;> simp_all
    obtain ⟨_, _, _, _, v, hv, hrun, hf⟩ := handed_of_step h ho
    rw [heq, hu] at hv
    cases hv
    rcases ho' hov with hc | hte
    · rw [hf] at hc
      simp at hc
    · rw [isRunning_of_isTerminal hte] at hrun
      simp at hrun

/-- Over every interleaving of the workers, of cancellations from outside and of deadlines: a
lease handed out went to the only worker that owns its task, and once; a task that is cancelled or
terminal has its lease handed out never again; and when every worker that submitted a task is
done, no task runs and no parked lease belongs to one that does. -/
theorem parked_leases_never_leak (actions : List Action) :
    (∀ entry ∈ handed (serverInit metadata) actions,
      ∀ j, ((served metadata actions).workers j).taskId = entry.2.taskId ↔ j = entry.1) ∧
    ((handed (serverInit metadata) actions).map fun entry => entry.2.taskId).Nodup ∧
    (∀ id t, (served metadata actions).scheduler.tasks.find id = some t →
      (t.cancellationRequested = true ∨ isTerminal t.state = true) →
      ∀ later, ∀ entry ∈ handed (served metadata actions) later, entry.2.taskId ≠ id) ∧
    ((∀ i, ((served metadata actions).workers i).phase = .fresh ∨
        ((served metadata actions).workers i).phase = .rejected ∨
        ((served metadata actions).workers i).phase = .returned) →
      (∀ id t, (served metadata actions).scheduler.tasks.find id = some t → t.state ≠ .running) ∧
      (∀ id lease t, (served metadata actions).leases id = some lease →
        (served metadata actions).scheduler.tasks.find lease.taskId = some t →
        t.state ≠ .running)) := by
  have h := served_reached metadata actions
  obtain ⟨how, hn⟩ := handed_owned metadata actions
  refine ⟨?_, hn, ?_, ?_⟩
  · intro entry he j
    obtain ⟨ho, hne, _⟩ := how entry he
    constructor
    · intro hj
      exact (h.unique entry.1 j (ho ▸ hne) (ho.trans hj.symm)).symm
    · rintro rfl
      exact ho
  · intro id t ht hov later
    exact not_handed_of_isOver h ht hov later
  · intro hd
    have hi : ∀ id t, (served metadata actions).scheduler.tasks.find id = some t →
        t.state ≠ .running := by
      intro id t ht
      -- the owner of the task submitted it, so it has returned and left the task terminal
      obtain ⟨i, rfl⟩ := h.owned id t ht
      have hplac := h.placed i
      rcases hd i with hp | hp | hp
      · rw [Placed, hp] at hplac
        exact absurd hplac (taskId_ne_zero ht)
      · rw [Placed, hp] at hplac
        exact absurd hplac (taskId_ne_zero ht)
      · rw [Placed, hp] at hplac
        obtain ⟨u, hu, hte⟩ := hplac
        cases hu.symm.trans ht
        intro hr
        rw [hr] at hte
        simp [isTerminal] at hte
    exact ⟨hi, fun _ lease t _ ht => hi lease.taskId t ht⟩

end AxiomKernel.Swarm
