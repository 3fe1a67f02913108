import AxiomKernel.Qwen38.Swarm.TaskMoves

/-!
# Leases and later attempts

A lease names a task and one of its attempts, but `report_progress` and `complete` take the task
alone. This file has what the deadlines do to a single task, and from it when a call of a worker
whose attempt is over leaves the attempt that runs now alone.
-/
namespace AxiomKernel.Swarm

open List Registry
open Option hiding mem_map min_eq_left min_eq_right

def expiryOutcome (task : TaskRecord) : TaskOutcome :=
  if task.cancellationRequested then .cancelled else .timedOut

def expiryReason (task : TaskRecord) : String :=
  if task.cancellationRequested then "cancelled at deadline" else "task deadline exceeded"

variable {s : State} {id : TaskId} {task : TaskRecord}

section
variable {now : TimePoint}

lemma expireTask_eq (hf : s.tasks.find id = some task) : expireTask now s id =
    if task.isRunning then finishAttempt s id task (expiryOutcome task) now (expiryReason task)
    else s := by
  unfold expireTask expiryOutcome expiryReason
  simp only [hf]
  cases task.isRunning <;> cases task.cancellationRequested <;> simp

lemma find_expireTask_of_ne {other : TaskId} (hn : other ≠ id) :
    (expireTask now s id).tasks.find other = s.tasks.find other := by
  unfold expireTask
  split
  · rfl
  · split_ifs
    · rfl
    · rw [finishAttempt_tasks, find_modify_of_ne _ _ hn]
    · rw [finishAttempt_tasks, find_modify_of_ne _ _ hn]

lemma find_expireTask_of_not_running {o : TaskId} (hf : s.tasks.find o = some task)
    (hr : task.isRunning = false) : (expireTask now s id).tasks.find o = some task := by
  by_cases he : o = id
  · subst he
    rw [expireTask_eq hf, hr]
    exact hf
  · rw [find_expireTask_of_ne he, hf]

lemma find_foldl_expireTask_of_not_running (hr : task.isRunning = false) (ids : List TaskId)
    (s : State) (hf : s.tasks.find id = some task) :
    (ids.foldl (expireTask now) s).tasks.find id = some task := by
  induction ids generalizing s with
  | nil => exact hf
  | cons o ids ih => exact ih _ (find_expireTask_of_not_running hf hr)

lemma find_foldl_expireTask_of_notMem (ids : List TaskId) (hi : id ∉ ids) (s : State) :
    (ids.foldl (expireTask now) s).tasks.find id = s.tasks.find id := by
  induction ids generalizing s with
  | nil => rfl
  | cons o ids ih =>
    simp only [mem_cons, not_or] at hi
    exact (ih hi.2 _).trans (find_expireTask_of_ne hi.1)

lemma mem_expiredIds :
    id ∈ expiredIds s now ↔ ∃ t, s.tasks.find id = some t ∧ deadlinePassed now t = true := by
  simp [expiredIds, mem_entries_iff]

variable (hf : s.tasks.find id = some task)
include hf

/-- A task whose deadline has not passed comes out of `expire_running` as it was. -/
lemma find_expireRunning_of_not_passed (hp : deadlinePassed now task = false) :
    (expireRunning s now).tasks.find id = some task := by
  rw [expireRunning, find_foldl_expireTask_of_notMem, hf]
  rw [mem_expiredIds]
  rintro ⟨t, ht, hd⟩
  obtain rfl : task = t := by simpa [hf] using ht
  rw [hp] at hd
  simp at hd

lemma find_expireRunning_of_passed
    (hp : deadlinePassed now task) : ∃ se, (expireRunning s now).tasks.find id =
    some (finishedTask task (expiryOutcome task) now (expiryReason task) se) := by
  have hr : task.isRunning := by
    simp only [deadlinePassed, Bool.and_eq_true] at hp
    exact hp.1
  have hm : id ∈ expiredIds s now := mem_expiredIds.2 ⟨task, hf, hp⟩
  rw [expireRunning]
  generalize expiredIds s now = ids at hm
  -- up to its own turn the task is untouched, and afterwards it does not run any more
  induction ids generalizing s with
  | nil => simp at hm
  | cons o ids ih =>
    by_cases he : id = o
    · subst he
      refine ⟨s.nextQueueSequence, ?_⟩
      refine find_foldl_expireTask_of_not_running (finishedTask_isRunning ..) ids _ ?_
      rw [expireTask_eq hf, if_pos hr, finishAttempt_tasks, find_modify_self, hf]
      rfl
    · refine ih ?_ (mem_of_ne_of_mem he hm)
      rw [find_expireTask_of_ne he, hf]

end

inductive WorkerCall where
  | reportProgress (tokensUsed : Nat) (now : TimePoint)
  | complete (completion : TaskCompletion) (now : TimePoint)
  deriving Repr, DecidableEq

def WorkerCall.now : WorkerCall → TimePoint
  | .reportProgress _ now => now
  | .complete _ now => now

/-- The worker names its task; the scheduler has no argument for the attempt. -/
def WorkerCall.call (lease : TaskLease) : WorkerCall → Call
  | .reportProgress tokensUsed now => .reportProgress lease.taskId tokensUsed now
  | .complete completion now => .complete lease.taskId completion now

def AttemptEnded (s : State) (lease : TaskLease) : Prop :=
  ∀ task, s.tasks.find lease.taskId = some task →
    ¬ (task.state = .running ∧ task.attemptsStarted = lease.attempt)

def taskAfter (s : State) (id : TaskId) (call : Call) : Option TaskRecord :=
  (step s call).1.tasks.find id

/-- What keeps a call for a task away from the attempt that runs: none runs once the deadlines
are settled, or the call counts fewer tokens than the attempt has, or it reports just the tokens
counted already and they exhaust no budget. -/
def Harmless (task : TaskRecord) : WorkerCall → Prop
  | .reportProgress tokensUsed now =>
    task.state ≠ .running ∨ deadlinePassed now task = true ∨ tokensUsed < task.tokensUsed ∨
      (tokensUsed = task.tokensUsed ∧
        (task.cancellationRequested = true ∨
          ∀ m, task.spec.budget.maxTokens = some m → tokensUsed < m))
  | .complete completion now =>
    task.state ≠ .running ∨ deadlinePassed now task = true ∨ completion.tokensUsed < task.tokensUsed

lemma find_progressOf (tokensUsed : Nat) (now : TimePoint) (hf : s.tasks.find id = some task)
    (hr : task.isRunning) : (progressOf s id tokensUsed now).1.tasks.find id = some task ↔
    tokensUsed < task.tokensUsed ∨ (tokensUsed = task.tokensUsed ∧
    (task.cancellationRequested ∨
    ∀ m, task.spec.budget.maxTokens = some m → tokensUsed < m)) := by
  have hs : ({ task with tokensUsed } : TaskRecord) = task ↔ tokensUsed = task.tokensUsed := by
    constructor
    · intro h
      exact congrArg TaskRecord.tokensUsed h
    · rintro rfl
      rfl
  simp only [progressOf, hf, hr, Bool.not_true, Bool.false_eq_true, if_false]
  by_cases hbk : tokensUsed < task.tokensUsed
  · simp [hbk, hf]
  simp only [hbk, if_false, false_or]
  by_cases hc : task.cancellationRequested = true
  · rw [if_pos hc, find_modify_self, hf, map_some, some.injEq, hs]
    exact ⟨fun he => ⟨he, .inl hc⟩, fun h => h.1⟩
  rw [if_neg hc]
  by_cases hb : task.spec.budget.maxTokens.any (· ≤ tokensUsed) = true
  · -- the budget is reached: the attempt ends, so the record changes
    rw [if_pos hb, finishAttempt_tasks, find_modify_self, find_modify_self,
      hf, map_some, map_some, some.injEq]
    constructor
    · intro he
      have := congrArg TaskRecord.isRunning he
      rw [finishedTask_isRunning, hr] at this
      simp at this
    · rintro ⟨_, hfg | hu⟩
      · exact absurd hfg hc
      · cases hm : task.spec.budget.maxTokens with
        | none => simp [hm] at hb
        | some m =>
          simp only [hm, any_some, decide_eq_true_eq] at hb
          have := hu m hm
          omega
  · rw [if_neg hb, find_modify_self, hf, map_some, some.injEq, hs]
    refine ⟨fun he => ⟨he, .inr fun m hm => ?_⟩, fun h => h.1⟩
    simp only [hm, any_some, decide_eq_true_eq] at hb
    omega

variable (completion : TaskCompletion)

variable (now : TimePoint)

lemma find_completionOf (hf : s.tasks.find id = some task) (hr : task.isRunning) :
    (completionOf s id completion now).1.tasks.find id = some task ↔
    completion.tokensUsed < task.tokensUsed := by
  simp only [completionOf, hf, hr, Bool.not_true, Bool.false_eq_true, if_false]
  by_cases hb : completion.tokensUsed < task.tokensUsed
  · simp [hb, hf]
  · simp only [hb, if_false, finishAttempt_tasks, find_modify_self, hf,
      map_some, some.injEq, iff_false]
    intro he
    have := congrArg TaskRecord.isRunning he
    rw [finishedTask_isRunning, hr] at this
    simp at this

lemma progressOf_of_not_running (tu : Nat) (now : TimePoint)
    (hf : s.tasks.find id = some task) (hr : task.isRunning = false) :
    (progressOf s id tu now).1 = s := by
  simp [progressOf, hf, hr]

lemma completionOf_of_not_running (hf : s.tasks.find id = some task) (hr : task.isRunning = false) :
    (completionOf s id completion now).1 = s := by
  simp [completionOf, hf, hr]

variable {lease : TaskLease}

/-- A call for a task that the deadlines leave idle does no more than they do. -/
lemma taskAfter_of_idle {u : TaskRecord} (w : WorkerCall)
    (he : (expireRunning s w.now).tasks.find lease.taskId = some u)
    (hi : u.isRunning = false) :
    taskAfter s lease.taskId (w.call lease) = taskAfter s lease.taskId (.tick w.now) := by
  cases w with
  | reportProgress tu now =>
    exact congrArg (fun u : State => u.tasks.find lease.taskId)
      (progressOf_of_not_running tu now he hi)
  | complete completion now =>
    exact congrArg (fun u : State => u.tasks.find lease.taskId)
      (completionOf_of_not_running completion now he hi)

lemma taskAfter_eq_tick_iff (hf : s.tasks.find lease.taskId = some task) (w : WorkerCall) :
    taskAfter s lease.taskId (w.call lease) = taskAfter s lease.taskId (.tick w.now) ↔
    Harmless task w := by
  by_cases hr : task.isRunning = true
  case neg =>
    -- neither the deadlines nor the call touch a task that does not run
    have hr : task.isRunning = false := by simpa using hr
    have hs : task.state ≠ .running := by simpa [TaskRecord.isRunning] using hr
    have hexp : (expireRunning s w.now).tasks.find lease.taskId = some task :=
      find_foldl_expireTask_of_not_running hr (expiredIds s w.now) s hf
    refine iff_of_true (taskAfter_of_idle w hexp hr) ?_
    cases w <;> exact .inl hs
  have hs : task.state = .running := by simpa [TaskRecord.isRunning] using hr
  cases hpass : deadlinePassed w.now task with
  | true =>
    obtain ⟨se, hexp⟩ := find_expireRunning_of_passed hf hpass
    refine iff_of_true (taskAfter_of_idle w hexp (finishedTask_isRunning ..)) ?_
    cases w <;> exact .inr (.inl hpass)
  | false =>
    have hexp := find_expireRunning_of_not_passed hf hpass
    have ht : taskAfter s lease.taskId (.tick w.now) = some task := hexp
    rw [ht]
    cases w with
    | reportProgress tu now =>
      have hn : deadlinePassed now task = false := hpass
      have hk := find_progressOf tu now hexp hr
      simp only [Harmless, hs, hn, ne_eq, not_true_eq_false, Bool.false_eq_true, false_or]
      exact hk
    | complete completion now =>
      have hn : deadlinePassed now task = false := hpass
      have hk := find_completionOf completion now hexp hr
      simp only [Harmless, hs, hn, ne_eq, not_true_eq_false, Bool.false_eq_true, false_or]
      exact hk

def leaseOfReply : Reply → Option TaskLease
  | .lease result => result
  | _ => none

/-- The leases `admit_next` returned during the calls. -/
def leases (config : SchedulerConfig) (calls : List Call) : List TaskLease :=
  (Machine.outputs step { config } calls).filterMap leaseOfReply

lemma admitNext_some {now : TimePoint} (h : (admitNext s now).2 = some lease) : ∃ ag t,
    (expireRunning s now).tasks.find lease.taskId = some t ∧ eligible (expireRunning s now) now t ∧
    t.attemptsStarted + 1 = lease.attempt ∧
    (admitNext s now).1.tasks.find lease.taskId = some (admittedTask t ag now) := by
  rcases admitNext_cases s now with heq | ⟨ag, _, id, t, _, _, ht, heq⟩
  · simp [heq] at h
  · obtain ⟨hf, he⟩ := selectedTask_spec ht
    rw [heq] at h ⊢
    cases h
    exact ⟨ag, t, hf, he, rfl, by simp [admitTask, leaseOf, hf]⟩

lemma leaseOfReply_step {ca : Call} (h : leaseOfReply (step s ca).2 = some lease) :
    ∃ t, (step s ca).1.tasks.find lease.taskId = some t ∧ t.isRunning ∧
    t.attemptsStarted = lease.attempt := by
  cases ca with
  | admitNext now =>
    obtain ⟨ag, t, -, -, ha, hf⟩ := admitNext_some h
    exact ⟨admittedTask t ag now, hf, rfl, ha⟩
  | _ => simp [step, leaseOfReply] at h

/-- The leases handed out so far, as the records of their tasks count them. -/
structure Fenced (s : State) (ls : List TaskLease) : Prop where
  ascending : ls.Pairwise fun a b => a.taskId = b.taskId → a.attempt < b.attempt
  counted : ∀ lease ∈ ls, 1 ≤ lease.attempt ∧
    ∃ t, s.tasks.find lease.taskId = some t ∧ lease.attempt ≤ t.attemptsStarted

/-- The attempt of a new lease is behind every attempt its task was leased for before. -/
lemma Fenced.next {ls : List TaskLease} (h : Fenced s ls) (ca : Call) :
    Fenced (step s ca).1 (ls ++ (leaseOfReply (step s ca).2).toList) := by
  have hkept : ∀ l ∈ ls, 1 ≤ l.attempt ∧
      ∃ t, (step s ca).1.tasks.find l.taskId = some t ∧ l.attempt ≤ t.attemptsStarted := by
    intro l hl
    obtain ⟨hpos, t, ht, ha⟩ := h.counted l hl
    obtain ⟨u, hu, hm⟩ := find_step s ca ht
    exact ⟨hpos, u, hu, ha.trans (attemptsStarted_le_of_moves hm)⟩
  cases hr : leaseOfReply (step s ca).2 with
  | none => simpa using ⟨h.ascending, hkept⟩
  | some lease =>
    obtain ⟨u, hu, -, hat⟩ := leaseOfReply_step hr
    cases ca with
    | admitNext now =>
      obtain ⟨-, v, hv, -, hnew, -⟩ := admitNext_some hr
      refine ⟨pairwise_append.2 ⟨h.ascending, pairwise_singleton _ _, ?_⟩,
        forall_mem_append.2 ⟨hkept, ?_⟩⟩
      · -- the deadlines start no attempt
        intro l hl b hb he
        obtain rfl := mem_singleton.1 hb
        obtain ⟨-, t, ht, ha⟩ := h.counted l hl
        obtain ⟨v', hv', hm⟩ := (@Evolves.expireRunning true s now).find (he ▸ ht)
        cases hv.symm.trans hv'
        have := attemptsStarted_le_of_moves hm
        omega
      · simpa using ⟨by omega, u, hu, hat.ge⟩
    | _ => simp [step, leaseOfReply] at hr

lemma fenced_leases (config : SchedulerConfig) (cs : List Call) :
    Fenced (reached config cs) (leases config cs) := by
  refine Machine.run_trace (P := fun (s : State) os => Fenced s (os.filterMap leaseOfReply))
    (fun s os ca h => ?_) ⟨.nil, by simp⟩ cs
  have hs := h.next ca
  rw [filterMap_append]
  cases hr : leaseOfReply (step s ca).2 <;> simpa [hr] using hs

/-- Task and attempt are a fencing token: over any run the leases of a task have ascending attempts,
so no two leases agree in both, and no attempt is beyond those its record counts. -/
theorem leases_fence_attempts (config : SchedulerConfig) (calls : List Call) :
    (leases config calls).Pairwise (fun a b => a.taskId = b.taskId → a.attempt < b.attempt) ∧
      ∀ lease ∈ leases config calls, 1 ≤ lease.attempt ∧
        ∃ t, (reached config calls).tasks.find lease.taskId = some t ∧
          lease.attempt ≤ t.attemptsStarted :=
  ⟨(fenced_leases config calls).ascending, (fenced_leases config calls).counted⟩

lemma find_of_mem_leases {config : SchedulerConfig} {cs : List Call}
    (hlea : lease ∈ leases config cs) :
    ∃ t, (reached config cs).tasks.find lease.taskId = some t ∧
    lease.attempt ≤ t.attemptsStarted :=
  ((fenced_leases config cs).counted lease hlea).2

/-- A call for a lease whose attempt is over reaches the task of the lease, and if that runs, a
later attempt of it. It leaves the record of the task as the deadlines alone would leave it
exactly when it is harmless. -/
theorem stale_call_fenced_iff (config : SchedulerConfig) (calls : List Call) (lease : TaskLease)
    (hlease : lease ∈ leases config calls) (hended : AttemptEnded (reached config calls) lease)
    (w : WorkerCall) : ∃ task, (reached config calls).tasks.find lease.taskId = some task ∧
      (task.state = .running → lease.attempt < task.attemptsStarted) ∧
      (taskAfter (reached config calls) lease.taskId (w.call lease) =
          taskAfter (reached config calls) lease.taskId (.tick w.now) ↔ Harmless task w) := by
  obtain ⟨task, hf, hl⟩ := find_of_mem_leases hlease
  refine ⟨task, hf, ?_, taskAfter_eq_tick_iff hf w⟩
  intro hr
  have hn : task.attemptsStarted ≠ lease.attempt := fun he => hended task hf ⟨hr, he⟩
  omega

/-- A task that may be tried again after its deadline of one millisecond. -/
def retriedSpec : TaskSpec where
  budget := { maxDuration := some 1 }
  retryPolicy := { maxAttempts := 2, retryOnTimeout := true }

/-- Its first attempt times out and the second is admitted in the same call. -/
def retriedCalls : List Call :=
  [.registerAgent {}, .submit retriedSpec, .admitNext 0, .admitNext 2000000]

def firstLease : TaskLease where
  taskId := 1
  waveId := 0
  agentId := 1
  attempt := 1
  priority := 0
  admittedAt := 0
  deadline := some 1000000
  budget := { maxDuration := some 1 }
  parent := {}

/-- The worker of the first attempt reports success late and ends the second attempt with it. -/
theorem stale_completion_ends_retry :
    firstLease ∈ leases {} retriedCalls ∧ AttemptEnded (reached {} retriedCalls) firstLease ∧
    (taskAfter (reached {} retriedCalls) 1 (.tick 2000000)).map
      (fun t => (t.state, t.attemptsStarted)) = some (.running, 2) ∧
    (taskAfter (reached {} retriedCalls) 1
      ((WorkerCall.complete { outcome := .succeeded, tokensUsed := 5 } 2000000).call
        firstLease)).map
      (fun t => (t.state, t.tokensUsed)) = some (.succeeded, 5) := by
  refine ⟨by decide, ?_, by decide, by decide⟩
  intro task hf
  have hn : (reached {} retriedCalls).tasks.find 1 = some
      { spec := retriedSpec, state := .running, queueSequence := 2, attemptsStarted := 2,
        agentId := some 1, admittedAt := some 2000000, deadline := some 3000000,
        terminalReason := "task deadline exceeded" } := by decide
  cases hn.symm.trans hf
  decide

def countedCalls : List Call := retriedCalls ++ [.reportProgress 1 7 2000000]

def lateFailure : WorkerCall := .complete { outcome := .failed } 2000000

theorem stale_call_fenced_iff_behind : firstLease ∈ leases {} countedCalls ∧
    ∃ task, (reached {} countedCalls).tasks.find firstLease.taskId = some task ∧
      (task.state = .running → firstLease.attempt < task.attemptsStarted) ∧
      (taskAfter (reached {} countedCalls) firstLease.taskId (lateFailure.call firstLease) =
          taskAfter (reached {} countedCalls) firstLease.taskId (.tick lateFailure.now) ↔
        Harmless task lateFailure) := by
  have he : AttemptEnded (reached {} countedCalls) firstLease := by
    intro task hf
    have hn : (reached {} countedCalls).tasks.find 1 = some
        { spec := retriedSpec, state := .running, queueSequence := 2, attemptsStarted := 2,
          tokensUsed := 7, agentId := some 1, admittedAt := some 2000000, deadline := some 3000000,
          terminalReason := "task deadline exceeded" } := by decide
    cases hn.symm.trans hf
    decide
  have hl : firstLease ∈ leases {} countedCalls := by decide
  exact ⟨hl, stale_call_fenced_iff {} countedCalls firstLease hl he lateFailure⟩

/-- The sum is as late as it should be exactly where it does not leave the word. -/
lemma le_after_iff {now d : Int} (hn : -2 ^ 63 ≤ now) (hd : 0 ≤ d) :
    now + d * 1000000 ≤ after now d ↔ now + d * 1000000 < 2 ^ 63 := by
  unfold after
  constructor
  · intro hl
    have hlt := Int.bmod_lt (x := now + d * 1000000) (m := 2 ^ 64) (by decide)
    omega
  · intro hlt
    rw [Int.bmod_eq_of_le (by omega) (by omega)]

variable (policy : RetryPolicy)

/-- What the delay should be: doubled with every attempt after the first and held in the word, for
exponential backoff. -/
def grownBackoff (attempt : Nat) : Milliseconds :=
  match policy.backoffStrategy with
  | .fixed => policy.backoff
  | .exponential => min (policy.backoff * 2 ^ (attempt - 1)) (2 ^ 63 - 1)

def cappedBackoff (attempt : Nat) : Milliseconds :=
  if 0 < policy.maxBackoff then min (grownBackoff policy attempt) policy.maxBackoff
  else grownBackoff policy attempt

lemma shifted_eq_min {b : Int} (hb : 0 < b) (shift : Nat) :
    (if 63 ≤ shift ∨ b > (2 ^ 63 - 1) / 2 ^ shift then 2 ^ 63 - 1 else b * 2 ^ shift) =
    min (b * 2 ^ shift) (2 ^ 63 - 1) := by
  have hp : (0 : Int) < 2 ^ shift := by positivity
  split_ifs with h
  · refine (min_eq_right ?_).symm
    rcases h with hs | hlt
    · have hpo : (2 : Int) ^ 63 ≤ 2 ^ shift := pow_le_pow_right₀ (by decide) hs
      nlinarith
    · exact (Int.ediv_lt_iff_lt_mul hp |>.1 hlt).le
  · rw [not_or, not_lt] at h
    exact (min_eq_left ((Int.le_ediv_iff_mul_le hp).1 h.2)).symm

lemma retryDelay_eq {p : RetryPolicy} (hb : 0 ≤ p.backoff)
    (hw : p.backoff < 2 ^ 63) {attempt : Nat} (ha : 0 < attempt) :
    retryDelay p attempt = cappedBackoff p attempt := by
  have hg : (if p.backoffStrategy = .exponential ∧ 1 < attempt then
      min (p.backoff * 2 ^ (attempt - 1)) (2 ^ 63 - 1) else p.backoff) =
        grownBackoff p attempt := by
    unfold grownBackoff
    cases p.backoffStrategy with
    | fixed => rfl
    | exponential =>
      rcases Nat.lt_or_eq_of_le (Nat.succ_le_of_lt ha) with hl | rfl
      · exact if_pos ⟨rfl, hl⟩
      · rw [if_neg (by simp), pow_zero, mul_one, min_eq_left (Int.le_sub_one_of_lt hw)]
  unfold retryDelay cappedBackoff
  rcases hb.eq_or_lt with hz | hpos
  · rw [← hg, ← hz, if_pos le_rfl]
    grind
  · rw [if_neg (not_le.2 hpos)]
    dsimp only
    rw [shifted_eq_min hpos, hg]
    grind

lemma cappedBackoff_nonneg {p : RetryPolicy} (hb : 0 ≤ p.backoff)
    (attempt : Nat) : 0 ≤ cappedBackoff p attempt := by
  have hg : 0 ≤ grownBackoff p attempt := by
    unfold grownBackoff
    cases p.backoffStrategy with
    | fixed => exact hb
    | exponential => exact le_min (mul_nonneg hb (by positivity)) (by decide)
  unfold cappedBackoff
  split_ifs with hc
  · exact le_min hg hc.le
  · exact hg

lemma retryNotBefore_le {s : State} {id : TaskId} {task : TaskRecord} {at_ now : TimePoint}
    {lease : TaskLease} (hf : s.tasks.find id = some task) (hs : task.state = .retryWait)
    (ht : task.retryNotBefore = some at_) (hl : (admitNext s now).2 = some lease)
    (hid : lease.taskId = id) : at_ ≤ now := by
  obtain ⟨-, f, hfo, he, -⟩ := admitNext_some hl
  have hi : task.isRunning = false := by simp [TaskRecord.isRunning, hs]
  cases hid
  cases (find_foldl_expireTask_of_not_running hi (expiredIds s now) s hf).symm.trans hfo
  by_contra hearly
  simp [eligible, hs, ht, not_le.1 hearly] at he

/-- For every accepted spec and every attempt: the delay is the one specified; the time a retry is
held back to, and held to by `admit_next`, is late enough exactly where the end of the attempt plus
the delay is a time point, and the deadline where the admission plus the duration is one. -/
theorem backoff_and_deadline_honoured_iff {s : State} {task : TaskRecord}
    (haccepted : submitError s task.spec = none) (hword : task.spec.retryPolicy.backoff < 2 ^ 63)
    (hattempt : 0 < task.attemptsStarted) {now : TimePoint} (hnow : -2 ^ 63 ≤ now) :
    retryDelay task.spec.retryPolicy task.attemptsStarted =
      cappedBackoff task.spec.retryPolicy task.attemptsStarted ∧
    (∀ outcome reason sequence, shouldRetry task outcome = true →
      ∃ time, (finishedTask task outcome now reason sequence).retryNotBefore = some time ∧
        (now + cappedBackoff task.spec.retryPolicy task.attemptsStarted * 1000000 ≤ time ↔
          now + cappedBackoff task.spec.retryPolicy task.attemptsStarted * 1000000 < 2 ^ 63) ∧
        ∀ s id later lease, s.tasks.find id = some (finishedTask task outcome now reason sequence) →
          (admitNext s later).2 = some lease → lease.taskId = id → time ≤ later) ∧
    ∀ agent duration, task.spec.budget.maxDuration = some duration →
      ∃ deadline, (admittedTask task agent now).deadline = some deadline ∧
        (now + duration * 1000000 ≤ deadline ↔ now + duration * 1000000 < 2 ^ 63) := by
  simp only [submitError, checked_eq_none] at haccepted
  obtain ⟨-, -, hp, hd, -⟩ := haccepted
  rw [not_or, not_lt] at hp
  have hdel := retryDelay_eq hp.1 hword hattempt
  refine ⟨hdel, fun outcome reason sequence hr => ?_, fun agent duration hs => ?_⟩
  · refine ⟨after now (retryDelay task.spec.retryPolicy task.attemptsStarted), ?_, ?_, ?_⟩
    · simp [finishedTask, hr]
    · rw [hdel]
      exact le_after_iff hnow (cappedBackoff_nonneg hp.1 _)
    · intro s id later lease hf hl hi
      exact retryNotBefore_le hf (by simp [finishedTask, hr])
        (by simp [finishedTask, hr]) hl hi
  · refine ⟨after now duration, ?_, le_after_iff hnow ?_⟩
    · simp [admittedTask, hs]
    · simpa [hs] using hd

/-- A task whose delays double up to a limit. -/
def cappedSpec : TaskSpec where
  budget := { maxDuration := some 5 }
  retryPolicy := {
    maxAttempts := 4, backoffStrategy := .exponential, backoff := 100, maxBackoff := 150 }

def cappedTask : TaskRecord := { spec := cappedSpec, attemptsStarted := 2 }

/-- Behind its second attempt the task waits for the limit, and the third has its deadline. -/
theorem third_attempt_delay_capped :
    submitError { config := {} } cappedSpec = none ∧ retryDelay cappedSpec.retryPolicy 2 = 150 ∧
      (∃ time, (finishedTask cappedTask .failed 7 "" 0).retryNotBefore = some time ∧
        7 + 150 * 1000000 ≤ time) ∧
      ∃ deadline, (admittedTask cappedTask 1 7).deadline = some deadline ∧
        7 + 5 * 1000000 ≤ deadline := by
  have ha : submitError { config := {} } cappedSpec = none := by decide
  obtain ⟨hdelay, hretry, hdeadline⟩ := @backoff_and_deadline_honoured_iff _ cappedTask ha
    (by decide) (by decide) 7 (by decide)
  have hcap : cappedBackoff cappedTask.spec.retryPolicy cappedTask.attemptsStarted = 150 := by
    decide
  rw [hcap] at hdelay hretry
  obtain ⟨time, htime, hle, -⟩ := hretry .failed "" 0 (by decide)
  obtain ⟨deadline, hdl, hle'⟩ := hdeadline 1 5 rfl
  exact ⟨ha, hdelay, ⟨time, htime, hle.2 (by decide)⟩, deadline, hdl, hle'.2 (by decide)⟩

/-- A task whose first attempt fails, with a delay that is accepted and longer than the clock. -/
def longBackoff : List Call := [.registerAgent {},
  .submit { retryPolicy := { maxAttempts := 2, backoff := 2 ^ 63 - 1 } }, .admitNext 0,
  .complete 1 {} 0]

/-- Its retry is held back to a time before the attempt ended, and is admitted at once. -/
theorem long_backoff_admitted_at_once :
    ((reached {} longBackoff).tasks.find 1).map (fun t => (t.state, t.retryNotBefore)) =
      some (.retryWait, some (-1000000)) ∧
    (admitNext (reached {} longBackoff) 0).2.map (fun lease => (lease.attempt, lease.admittedAt)) =
      some (2, 0) := by
  decide

end AxiomKernel.Swarm
