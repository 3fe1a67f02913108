import AxiomKernel.Qwen38.Swarm.FinalWaves
import AxiomKernel.Qwen38.Swarm.Leases

/-!
# Cancelled tasks

A task that `cancel_task` or `cancel_wave` selects ends at once when it waits; when it runs it is
flagged, and every way its attempt can end then ends it as cancelled.
-/
namespace AxiomKernel.Swarm

open List Machine Registry
open Option hiding mem_map

/-- The call selects the task, whose record it finds after the deadlines. -/
inductive Selects (s : State) (id : TaskId) (task : TaskRecord) : Call → Prop where
  | cancelTask (reason : String) (now : TimePoint)
      (hfind : (expireRunning s now).tasks.find id = some task) :
      Selects s id task (.cancelTask id reason now)
  | cancelWave {wave : WaveId} {record : WaveRecord} (reason : String) (now : TimePoint)
      (descendants : Bool) (hfind : (expireRunning s now).tasks.find id = some task)
      (hwave : (expireRunning s now).waves.find wave = some record)
      (hselected : (task.spec.waveId.any
          (selectedWaves (expireRunning s now) wave descendants).contains ||
        (descendants && taskBelongsToWaveTree (expireRunning s now) id task wave true)) = true) :
      Selects s id task (.cancelWave wave reason now descendants)

variable {s : State} {id : TaskId} {task t u : TaskRecord}

/-- The leases `admit_next` returns during the calls from a state on. -/
def leasesFrom (s : State) (calls : List Call) : List TaskLease :=
  (outputs step s calls).filterMap leaseOfReply

variable {call : Call} {wave : WaveId} {descendants : Bool}

lemma waiting_of_lease {l : TaskLease} (h : leaseOfReply (step s call).2 = some l) :
    ∃ now t, (expireRunning s now).tasks.find l.taskId = some t ∧ t.isWaiting = true := by
  cases call with
  | admitNext now =>
    obtain ⟨-, t, hf, he, -⟩ := admitNext_some h
    exact ⟨now, t, hf, (eligible_waiting he).1⟩
  | _ => simp [step, leaseOfReply] at h

/-- What every move of a task keeps, and no waiting task has, keeps the task from being admitted. -/
lemma not_leased {Q : TaskRecord → Prop} (hmv : ∀ t u, Q t → TaskMove true t u → Q u)
    (hwt : ∀ t, Q t → t.isWaiting = false) (hf : s.tasks.find id = some t) (hQ : Q t)
    (l : List Call) : (∃ u, (run step s l).tasks.find id = some u ∧ Q u) ∧
    ∀ lease ∈ leasesFrom s l, lease.taskId ≠ id := by
  have hm {t u : TaskRecord} (hQ : Q t) (hm : Relation.ReflTransGen (TaskMove true) t u) : Q u := by
    induction hm with
    | refl => exact hQ
    | tail _ h ih => exact hmv _ _ ih h
  refine run_trace (P := fun (s : State) os => (∃ u, s.tasks.find id = some u ∧ Q u) ∧
    ∀ lease ∈ os.filterMap leaseOfReply, lease.taskId ≠ id) ?_ ⟨⟨t, hf, hQ⟩, by simp⟩ l
  rintro s os call ⟨⟨t, hf, hQ⟩, hl⟩
  obtain ⟨u, hu, ht⟩ := find_step s call hf
  refine ⟨⟨u, hu, hm hQ ht⟩, fun lease hle hi => ?_⟩
  rw [filterMap_append, mem_append] at hle
  rcases hle with ho | hnew
  · exact hl lease ho hi
  · have hre : leaseOfReply (step s call).2 = some lease := by
      cases hr : leaseOfReply (step s call).2 <;> simp_all
    obtain ⟨now, v, hv, hw⟩ := waiting_of_lease hre
    rw [hi] at hv
    obtain ⟨v', hv', htv⟩ := (@Evolves.expireRunning true s now).find hf
    cases hv.symm.trans hv'
    rw [hwt v (hm hQ htv)] at hw
    cases hw

/-- Cancelled, or running with the request set, in the attempt it was in. -/
def TaskRecord.Doomed (task t : TaskRecord) : Prop :=
  t.attemptsStarted = task.attemptsStarted ∧ (t.state = .cancelled ∨
    task.state = .running ∧ t.state = .running ∧ t.cancellationRequested = true)

lemma TaskRecord.Doomed.not_waiting (h : task.Doomed t) : t.isWaiting = false := by
  rcases h.2 with hs | ⟨-, hs, -⟩ <;> rw [isWaiting, hs] <;> rfl

lemma TaskRecord.Doomed.move (h : task.Doomed t) (hm : TaskMove true t u) : task.Doomed u := by
  have hru (hr : t.isRunning = true) : t.state = .running := by
    simpa [isRunning] using hr
  cases hm with
  | flag hr => exact ⟨h.1, h.2.imp_right fun h => ⟨h.1, h.2.1, rfl⟩⟩
  | count _ hr tu => exact ⟨h.1, h.2⟩
  | cancel hw re => simp [h.not_waiting] at hw
  | admitTask hw hf ag now => simp [h.not_waiting] at hw
  | finish hr tu o now re se ho =>
    refine ⟨by rw [finishedTask_attemptsStarted]; exact h.1, .inl ?_⟩
    have hf : t.cancellationRequested := by
      rcases h.2 with hs | ⟨-, -, hf⟩
      · rw [hru hr] at hs
        cases hs
      · exact hf
    rw [ho hf, finishedTask_state]
    simp [shouldRetry, taskStateForOutcome]

lemma doomed_cancelTaskLocked (hf : s.tasks.find id = some task)
    (hv : isTerminal task.state = false) (re : String) :
    ∃ t, (cancelTaskLocked s id task re).1.tasks.find id = some t ∧ task.Doomed t := by
  unfold cancelTaskLocked
  rw [if_neg (by simp [hv])]
  split
  · refine ⟨cancelledTask task re, ?_, rfl, .inl rfl⟩
    rw [recomputeWaveOf_tasks, find_modify_self, hf, map_some]
  next hw =>
    refine ⟨{ task with cancellationRequested := true }, ?_, rfl, .inr ⟨?_, ?_, rfl⟩⟩
    · rw [find_modify_self, hf, map_some]
    all_goals cases hs : task.state <;> simp_all [isTerminal, TaskRecord.isWaiting]

lemma find_cancelSelectedTask_of_ne {o : TaskId} (hn : id ≠ o) (wave : WaveId)
    (re : String) (descendants : Bool) (ws : List WaveId) (acc : State × Nat) :
    (cancelSelectedTask wave re descendants ws acc o).1.tasks.find id =
    acc.1.tasks.find id := by
  unfold cancelSelectedTask
  split
  · rfl
  · split
    · unfold cancelTaskLocked
      split_ifs
      · rfl
      · rw [recomputeWaveOf_tasks, find_modify_of_ne _ _ hn]
      · exact find_modify_of_ne _ _ hn
    · rfl

lemma extends_cancelSelectedTask (wave : WaveId) (re : String) (descendants : Bool)
    (ws : List WaveId) (acc : State × Nat) (o : TaskId) :
    Extends acc.1 (cancelSelectedTask wave re descendants ws acc o).1 := by
  unfold cancelSelectedTask
  split
  · exact .of_same rfl rfl
  next hf =>
    split
    · exact .of_same (waveSpecOf_cancelTaskLocked ..) (taskSpecOf_cancelTaskLocked hf re)
    · exact .of_same rfl rfl

/-- The turn of the task comes while its record is untouched, and the later turns keep it doomed. -/
lemma doomed_cancelTasks {ws : List WaveId} (hroot : Rooted s)
    (hi : taskSpecOf s id = some task.spec) (hv : isTerminal task.state = false)
    (hs : (task.spec.waveId.any ws.contains ||
    (descendants && taskBelongsToWaveTree s id task wave true))) (re : String)
    (ids : List TaskId) (hm : id ∈ ids) (acc : State × Nat) (he : Extends s acc.1)
    (hf : acc.1.tasks.find id = some task) :
    ∃ t, (ids.foldl (cancelSelectedTask wave re descendants ws) acc).1.tasks.find id =
    some t ∧ task.Doomed t := by
  induction ids generalizing acc with
  | nil => cases hm
  | cons o ids ih =>
    by_cases heq : id = o
    · subst heq
      have htu : ∃ t, (cancelSelectedTask wave re descendants ws acc id).1.tasks.find id =
          some t ∧ task.Doomed t := by
        unfold cancelSelectedTask
        rw [hf]
        dsimp only
        rw [taskBelongsToWaveTree_extends hroot he hi rfl, if_pos hs]
        exact doomed_cancelTaskLocked hf hv re
      rw [foldl_cons]
      refine foldlRecOn (motive := fun acc : State × Nat =>
        ∃ t, acc.1.tasks.find id = some t ∧ task.Doomed t) _ _ htu ?_
      rintro acc ⟨t, ht, hd⟩ o' _
      obtain ⟨u, hu, hmo⟩ :=
        (@Evolves.cancelSelectedTask true wave re descendants ws acc o').find ht
      refine ⟨u, hu, ?_⟩
      clear hu
      induction hmo with
      | refl => exact hd
      | tail _ hmv ih => exact ih.move hmv
    · refine ih (mem_of_ne_of_mem heq hm) _ (he.trans ?_) ?_
      · exact extends_cancelSelectedTask ..
      · rw [find_cancelSelectedTask_of_ne heq, hf]

lemma foldl_tasks {f : State → WaveId → State} (hf : ∀ s id, (f s id).tasks = s.tasks)
    (ws : List WaveId) (s : State) : (ws.foldl f s).tasks = s.tasks :=
  foldlRecOn (motive := fun u : State => u.tasks = s.tasks) _ _ rfl
    fun u hu id _ => (hf u id).trans hu

lemma doomed_cancelWaveTree {rec : WaveRecord} (hroot : Rooted s)
    (hf : s.tasks.find id = some task) (hwa : s.waves.find wave = some rec)
    (hv : isTerminal task.state = false)
    (hs : (task.spec.waveId.any (selectedWaves s wave descendants).contains ||
    (descendants && taskBelongsToWaveTree s id task wave true))) (re : String) :
    ∃ t, (cancelWaveTree s wave re descendants).1.tasks.find id = some t ∧ task.Doomed t := by
  unfold cancelWaveTree
  rw [hwa]
  dsimp only
  generalize hw : selectedWaves s wave descendants = waves at hs
  rw [foldl_tasks (f := recomputeWave) fun _ _ => rfl]
  have ht : (waves.foldl requestWaveCancellation s).tasks = s.tasks :=
    foldl_tasks (f := requestWaveCancellation) (fun _ _ => rfl) waves s
  have hsp : waveSpecOf (waves.foldl requestWaveCancellation s) = waveSpecOf s :=
    foldlRecOn (motive := fun u : State => waveSpecOf u = waveSpecOf s) _ _ rfl
      fun u hu id _ => (waveSpecOf_requestWaveCancellation u id).trans hu
  refine doomed_cancelTasks hroot (by rw [taskSpecOf, hf]; rfl) hv hs re _ ?_ _ (.of_same hsp ?_) ?_
  · rw [ht]
    exact mem_map.2 ⟨(id, task), mem_entries_iff.2 hf, rfl⟩
  · funext other
    rw [taskSpecOf, ht]
    rfl
  · rw [ht, hf]

lemma Selects.doomed {config : SchedulerConfig} {calls : List Call}
    (h : Selects (reached config calls) id task call) (hv : isTerminal task.state = false) :
    ∃ t, (step (reached config calls) call).1.tasks.find id = some t ∧ task.Doomed t := by
  cases h with
  | cancelTask re now hf =>
    simp only [step, Prod.map_fst, Swarm.cancelTask, hf]
    exact doomed_cancelTaskLocked hf hv re
  | cancelWave re now descendants hf hw hs =>
    have hroot : Rooted (expireRunning (reached config calls) now) := by
      have := rooted_reached config (calls ++ [.tick now])
      rwa [reached, run_append] at this
    exact doomed_cancelWaveTree hroot hf hw hv hs re

lemma reached_append (config : SchedulerConfig) (calls later : List Call) (call : Call) :
    reached config (calls ++ call :: later) = run step (step (reached config calls) call).1 later :=
  run_append ..

/-- A live task that a cancellation selects stays in its attempt until it is cancelled, whatever
calls follow, and is not admitted again. -/
theorem cancellation_sticky {config : SchedulerConfig} {calls : List Call} {id : TaskId}
    {task : TaskRecord} {call : Call} (hselects : Selects (reached config calls) id task call)
    (hlive : isTerminal task.state = false) (later : List Call) :
    (∃ t, (reached config (calls ++ call :: later)).tasks.find id = some t ∧
      t.attemptsStarted = task.attemptsStarted ∧
      (t.state = .cancelled ∨ task.state = .running ∧ t.state = .running)) ∧
    ∀ lease ∈ leasesFrom (step (reached config calls) call).1 later, lease.taskId ≠ id := by
  obtain ⟨t, hf, hd⟩ := hselects.doomed hlive
  obtain ⟨⟨u, hu, ha, hs⟩, hleas⟩ := not_leased (Q := task.Doomed)
    (fun _ _ h => h.move) (fun _ h => h.not_waiting) hf hd later
  rw [reached_append]
  exact ⟨⟨u, hu, ha, hs.imp_right fun h => ⟨h.1, h.2.1⟩⟩, hleas⟩

/-- A task with two attempts that is cancelled while it runs, and then reported as failed. -/
theorem cancellation_sticky_running : ∃ t, (reached { maxConcurrent := 1 } ([.registerAgent {},
        .submit { retryPolicy := { maxAttempts := 2 } }, .admitNext 0] ++
          .cancelTask 1 "stop" 0 :: [.complete 1 { outcome := .failed } 1])).tasks.find 1 = some t ∧
      t.attemptsStarted = 1 ∧ (t.state = .cancelled ∨
        TaskState.running = .running ∧ t.state = .running) := by
  have h : Selects (reached { maxConcurrent := 1 } [.registerAgent {},
      .submit { retryPolicy := { maxAttempts := 2 } }, .admitNext 0]) 1
      { spec := { retryPolicy := { maxAttempts := 2 } }, state := .running, queueSequence := 1,
        attemptsStarted := 1, agentId := some 1, admittedAt := some 0 }
      (.cancelTask 1 "stop" 0) := .cancelTask "stop" 0 (by decide)
  exact (cancellation_sticky h rfl [.complete 1 { outcome := .failed } 1]).1

def TaskRecord.Ended (t : TaskRecord) : Prop :=
  isTerminal t.state = true ∨ ∃ task : TaskRecord, task.Doomed t

lemma TaskRecord.Ended.move (h : t.Ended) (hm : TaskMove true t u) : u.Ended := by
  rcases h with ht | ⟨task, hd⟩
  · exact (not_move_of_isTerminal ht hm).elim
  · exact .inr ⟨task, hd.move hm⟩

lemma TaskRecord.Ended.not_waiting (h : t.Ended) : t.isWaiting = false := by
  rcases h with ht | ⟨task, hd⟩
  · exact isWaiting_of_isTerminal ht
  · exact hd.not_waiting

lemma extends_expireRunning (config : SchedulerConfig) (calls : List Call) (now : TimePoint) :
    Extends (reached config calls) (expireRunning (reached config calls) now) := by
  have htick := extends_run config calls [.tick now]
  rwa [reached_append] at htick

section
variable {config : SchedulerConfig} {calls : List Call}

lemma find_expired_wave (hw : ((reached config calls).waves.find wave).isSome)
    (now : TimePoint) : ∃ record,
    (expireRunning (reached config calls) now).waves.find wave = some record := by
  rw [← isSome_waveSpecOf] at hw
  rw [← isSome_iff_exists, ← isSome_waveSpecOf]
  exact (extends_expireRunning config calls now).isSome_wave hw

lemma ended_cancelWave (hw : ((reached config calls).waves.find wave).isSome) (re : String)
    (now : TimePoint) (hf : (reached config calls).tasks.find id = some task)
    (hb : taskBelongsToWaveTree (reached config calls) id task wave true) :
    ∃ u, (step (reached config calls) (.cancelWave wave re now true)).1.tasks.find id = some u ∧
    u.Ended := by
  -- the task as the cancellation finds it
  obtain ⟨t, ht, -⟩ := (@Evolves.expireRunning true _ now).find hf
  have hext := extends_expireRunning config calls now
  have hi : taskSpecOf (reached config calls) id = some task.spec := by
    rw [taskSpecOf, hf]
    rfl
  have hsp : t.spec = task.spec := by
    simpa [taskSpecOf, ht] using hext.tasks _ _ hi
  rw [← taskBelongsToWaveTree_extends (rooted_reached config calls) hext hi hsp] at hb
  cases hte : isTerminal t.state with
  | true =>
    obtain ⟨u, hu, hm⟩ := (@Evolves.cancelWaveTree true _ wave re true).find ht
    refine ⟨u, hu, ?_⟩
    clear hu
    induction hm with
    | refl => exact .inl hte
    | tail _ hmv ih => exact ih.move hmv
  | false =>
    obtain ⟨rec, hr⟩ := find_expired_wave hw now
    have hs : Selects (reached config calls) id t (.cancelWave wave re now true) :=
      .cancelWave re now true ht hr (by simp [hb])
    obtain ⟨u, hu, hd⟩ := hs.doomed hte
    exact ⟨u, hu, .inr ⟨t, hd⟩⟩

end

/-- Behind the cancellation of a tree no task of it is admitted, unless it was submitted later. -/
theorem cancelled_tree_stays_dead {config : SchedulerConfig} {calls later : List Call}
    {wave : WaveId} (hwave : ((reached config calls).waves.find wave).isSome) (reason : String)
    (now : TimePoint)
    (hold : ∀ id t, (reached config (calls ++ .cancelWave wave reason now true :: later)).tasks.find
        id = some t →
      taskBelongsToWaveTree (reached config (calls ++ .cancelWave wave reason now true :: later))
        id t wave true = true → ((reached config calls).tasks.find id).isSome) :
    ∀ lease ∈ leasesFrom (step (reached config calls) (.cancelWave wave reason now true)).1 later,
      ∀ t, (reached config (calls ++ .cancelWave wave reason now true :: later)).tasks.find
          lease.taskId = some t →
        taskBelongsToWaveTree (reached config (calls ++ .cancelWave wave reason now true :: later))
          lease.taskId t wave true = false := by
  intro lease hl t hf
  by_contra hbel
  rw [Bool.not_eq_false] at hbel
  obtain ⟨old, hold⟩ := isSome_iff_exists.1 (hold lease.taskId t hf hbel)
  have hi : taskSpecOf (reached config calls) lease.taskId = some old.spec := by
    rw [taskSpecOf, hold]
    rfl
  have hext := extends_run config calls (.cancelWave wave reason now true :: later)
  have hs : t.spec = old.spec := by
    simpa [taskSpecOf, hf] using hext.tasks _ _ hi
  rw [taskBelongsToWaveTree_extends (rooted_reached config calls) hext hi hs] at hbel
  obtain ⟨u, hu, he⟩ := ended_cancelWave hwave reason now hold hbel
  exact (not_leased (fun _ _ h => TaskRecord.Ended.move h) (fun _ h => h.not_waiting) hu he
    later).2 lease hl rfl

/-- A tree with one running task; the slot it leaves goes to a task outside. -/
def deadTree : List Call := [.registerAgent {}, .createWave {}, .submit { waveId := some 1 },
  .submit {}, .admitNext 0]

theorem cancelled_tree_stays_dead_outside :
    (leasesFrom (step (reached { maxConcurrent := 1 } deadTree) (.cancelWave 1 "stop" 0 true)).1
      [.complete 1 {} 1, .admitNext 1]).map (·.taskId) = [2] ∧
    ∀ lease ∈ leasesFrom (step (reached { maxConcurrent := 1 } deadTree)
        (.cancelWave 1 "stop" 0 true)).1 [.complete 1 {} 1, .admitNext 1],
      ∀ t, (reached { maxConcurrent := 1 } (deadTree ++ .cancelWave 1 "stop" 0 true ::
          [.complete 1 {} 1, .admitNext 1])).tasks.find lease.taskId = some t →
        taskBelongsToWaveTree (reached { maxConcurrent := 1 } (deadTree ++
          .cancelWave 1 "stop" 0 true :: [.complete 1 {} 1, .admitNext 1]))
            lease.taskId t 1 true = false := by
  refine ⟨by decide, cancelled_tree_stays_dead (by decide) "stop" 0 fun id t hf _ => ?_⟩
  match id with
  | 0 => cases hf
  | 1 => rfl
  | 2 => rfl
  | n + 3 =>
    have hl : n + 3 < 3 := lt_nextId (isSome_of_mem hf)
    omega

/-- A wave created below the cancelled one takes tasks, and they are admitted. -/
def lateChild : List Call := [.createWave { parent := { parentWaveId := some 1 } },
  .submit { waveId := some 2 }, .admitNext 0]

theorem late_child_is_admitted :
    ((reached { maxConcurrent := 1 } [.registerAgent {}, .createWave {}]).waves.find 1).isSome ∧
    ∃ lease ∈ leasesFrom (step (reached { maxConcurrent := 1 } [.registerAgent {}, .createWave {}])
        (.cancelWave 1 "stop" 0 true)).1 lateChild,
      ∃ t, (reached { maxConcurrent := 1 } ([.registerAgent {}, .createWave {}] ++
          .cancelWave 1 "stop" 0 true :: lateChild)).tasks.find lease.taskId = some t ∧
        taskBelongsToWaveTree (reached { maxConcurrent := 1 }
          ([.registerAgent {}, .createWave {}] ++
          .cancelWave 1 "stop" 0 true :: lateChild)) lease.taskId t 1 true = true :=
  ⟨rfl, _, .head _, _, rfl, rfl⟩

inductive Node where
  | wave (id : WaveId)
  | task (id : TaskId)

def Link (s : State) : Node → Node → Prop
  | .wave above, .task id => ∃ spec, taskSpecOf s id = some spec ∧
      (spec.waveId = some above ∨ spec.parent.parentWaveId = some above)
  | .task parent, .task id =>
    ∃ spec, taskSpecOf s id = some spec ∧ spec.parent.parentTaskId = some parent
  | .wave above, .wave id =>
    ∃ spec, waveSpecOf s id = some spec ∧ spec.parent.parentWaveId = some above
  | .task parent, .wave id =>
    ∃ spec, waveSpecOf s id = some spec ∧ spec.parent.parentTaskId = some parent

abbrev InTree (s : State) (root : WaveId) : Node → Prop :=
  Relation.ReflTransGen (Link s) (.wave root)

/-- A wave below a task of the tree has its own parent wave, or that of the task, in the tree. -/
def Rejoins (s : State) (root : WaveId) : Prop :=
  ∀ id spec parent, id ≠ root → waveSpecOf s id = some spec →
    spec.parent.parentTaskId = some parent → InTree s root (.task parent) →
    ∃ above, parentWave s spec.parent = some above ∧ InTree s root (.wave above)

variable {s : State} {root : WaveId}

lemma climbWaves_succ {id ab : WaveId} {sp : WaveSpec} {ts : Nat} {vi : List WaveId}
    (hs : waveSpecOf s id = some sp) (hp : parentWave s sp.parent = some ab)
    (hv : ∀ wave ∈ vi, id < wave) :
    climbWaves s root (ts + 1) vi id =
    (decide (ab = root) || climbWaves s root ts (id :: vi) ab) := by
  obtain ⟨wave, hw, rfl⟩ := map_eq_some_iff.1 hs
  have hn : vi.contains id = false := by
    simpa using fun hm => (hv id hm).false
  rw [climbWaves, hn, hw]
  simp [hp]

section
variable (h : Rooted s) (hj : Rejoins s root) (hroot : (waveSpecOf s root).isSome)
include h hj

/-- The climb from a wave of the tree finds the root, whatever younger waves it has visited. -/
lemma climbs_root (id : WaveId) (hi : InTree s root (.wave id)) : id = root ∨
    ∀ (ts : Nat) vi, id < ts → (∀ wave ∈ vi, id < wave) →
    climbWaves s root ts vi id = true := by
  induction id using Nat.strong_induction_on with
  | _ id ih =>
    have hclimbs {sp : WaveSpec} {ab : WaveId} (hs : waveSpecOf s id = some sp)
        (hp : parentWave s sp.parent = some ab) (ha : InTree s root (.wave ab))
        (ts : Nat) (vi : List WaveId) (ht : id < ts)
        (hv : ∀ wave ∈ vi, id < wave) : climbWaves s root ts vi id = true := by
      obtain ⟨ts, rfl⟩ := Nat.exists_eq_succ_of_ne_zero (Nat.ne_zero_of_lt ht)
      have hlt : ab < id := ((h.wave id sp hs).1 ab hp).1
      rw [climbWaves_succ hs hp hv, Bool.or_eq_true, decide_eq_true_eq]
      refine (ih ab hlt ha).imp_right fun hf =>
        hf ts _ (lt_of_lt_of_le hlt (Nat.le_of_lt_succ ht)) ?_
      rintro wave (_ | ⟨_, hm⟩)
      · exact hlt
      · exact hlt.trans (hv wave hm)
    rcases hi.cases_tail with he | ⟨ab | p, hn, sp, hs, hl⟩
    · exact .inl (by cases he; rfl)
    · exact .inr (hclimbs hs (by rw [parentWave, hl]) hn)
    · refine or_iff_not_imp_left.2 fun hne => ?_
      obtain ⟨ab, hp, ha⟩ := hj id _ _ hne hs hl hn
      exact hclimbs hs hp ha

omit h hj in
lemma isSome_of_inTree (hroot : (waveSpecOf s root).isSome) {id : WaveId}
    (hi : InTree s root (.wave id)) : (waveSpecOf s id).isSome := by
  rcases hi.cases_tail with he | ⟨_ | _, -, sp, hs, -⟩
  · cases he
    exact hroot
  · exact isSome_of_mem hs
  · exact isSome_of_mem hs

include hroot

lemma waveIsDescendant_of_inTree {id : WaveId} (hi : InTree s root (.wave id)) :
    waveIsDescendant s id root true = true := by
  have hl : id < s.waves.nextId :=
    lt_nextId (by rw [← isSome_waveSpecOf]; exact isSome_of_inTree hroot hi)
  rw [waveIsDescendant]
  rcases climbs_root h hj id hi with rfl | hfound
  · simp
  · simp [hfound _ [] (Nat.lt_succ_of_lt hl)]

lemma climbTasks_of_inTree (id : TaskId) (hi : InTree s root (.task id)) (task : TaskRecord)
    (hf : s.tasks.find id = some task) :
    task.spec.waveId.any (waveIsDescendant s · root true) = true ∨
    ∀ (ts : Nat) vi, id < ts → (∀ o ∈ vi, id < o) →
    climbTasks s root ts vi id task = true := by
  induction id using Nat.strong_induction_on generalizing task with
  | _ id ih =>
    have hs : taskSpecOf s id = some task.spec := by rw [taskSpecOf, hf]; rfl
    refine or_iff_not_imp_left.2 fun hno ts vi ht hv => ?_
    obtain ⟨ts, rfl⟩ := Nat.exists_eq_succ_of_ne_zero (Nat.ne_zero_of_lt ht)
    have hn : vi.contains id = false := by
      simpa using fun hm => (hv id hm).false
    rcases hi.cases_tail with he | ⟨ab | p, hnd, sp, hs', hl⟩
    · cases he
    · cases hs.symm.trans hs'
      have ha := waveIsDescendant_of_inTree h hj hroot hnd
      rcases hl with hl | hl
      · exact absurd (by rw [hl]; exact ha) hno
      · rw [climbTasks, hn, hl]
        simp [ha]
    · cases hs.symm.trans hs'
      obtain ⟨hlt, hso⟩ := (h.task id _ hs).1 p hl
      rw [isSome_taskSpecOf] at hso
      obtain ⟨ab, ha⟩ := isSome_iff_exists.1 hso
      rw [climbTasks, hn, hl]
      simp only [ha, Bool.false_eq_true, if_false]
      split_ifs with hw hme
      · rfl
      · rfl
      · refine (ih p hlt hnd ab ha).resolve_left hme ts _
          (lt_of_lt_of_le hlt (Nat.le_of_lt_succ ht)) ?_
        rintro o (_ | ⟨_, hm⟩)
        · exact hlt
        · exact hlt.trans (hv o hm)

lemma taskBelongsToWaveTree_of_inTree {id : TaskId} {task : TaskRecord}
    (hi : InTree s root (.task id)) (hf : s.tasks.find id = some task) :
    taskBelongsToWaveTree s id task root true = true := by
  have hl : id < s.tasks.nextId := lt_nextId (isSome_of_mem hf)
  rw [taskBelongsToWaveTree]
  rcases climbTasks_of_inTree h hj hroot id hi task hf with hm | hfound
  · rw [if_pos hm]
  · simp [hfound _ [] (Nat.lt_succ_of_lt hl)]

end

/-- After `cancel_wave` every task of the tree has ended or is marked, and every wave is marked. -/
def Covered (before after : State) (root : WaveId) : Prop :=
  (∀ id t, InTree before root (.task id) → after.tasks.find id = some t →
    isTerminal t.state = true ∨ t.cancellationRequested = true) ∧
  ∀ id wave, InTree before root (.wave id) → after.waves.find id = some wave →
    wave.cancellationRequested = true

lemma covered_of_rejoins {config : SchedulerConfig} {calls : List Call} {root : WaveId}
    (hroot : ((reached config calls).waves.find root).isSome)
    (hrejoins : Rejoins (reached config calls) root) (reason : String) (now : TimePoint) :
    Covered (reached config calls)
      (step (reached config calls) (.cancelWave root reason now true)).1 root := by
  have hrooted := rooted_reached config calls
  have hs : (waveSpecOf (reached config calls) root).isSome := by rwa [isSome_waveSpecOf]
  refine ⟨fun id t hi ht => ?_, fun id wave hi hw => ?_⟩
  · obtain ⟨task, hf⟩ : ∃ task, (reached config calls).tasks.find id = some task := by
      rw [← isSome_iff_exists, ← isSome_taskSpecOf]
      rcases hi.cases_tail with heq | ⟨_ | _, -, sp, hs, -⟩
      · cases heq
      · exact isSome_of_mem hs
      · exact isSome_of_mem hs
    obtain ⟨u, hu, he⟩ := ended_cancelWave hroot reason now hf
      (taskBelongsToWaveTree_of_inTree hrooted hrejoins hs hi hf)
    cases ht.symm.trans hu
    rcases he with hte | ⟨task, -, hc | ⟨-, -, hfg⟩⟩
    · exact .inl hte
    · exact .inl (by rw [hc]; rfl)
    · exact .inr hfg
  · have hso := isSome_of_inTree hs hi
    have hext := extends_expireRunning config calls now
    have hdesc := waveIsDescendant_of_inTree hrooted hrejoins hs hi
    rw [← waveIsDescendant_extends hrooted hext hso] at hdesc
    have hso' := hext.isSome_wave hso
    have hrt' := hext.isSome_wave hs
    rw [isSome_waveSpecOf] at hso' hrt'
    obtain ⟨re, hr⟩ := isSome_iff_exists.1 hso'
    have hse : id ∈ selectedWaves (expireRunning (reached config calls) now) root true := by
      refine mem_map.2 ⟨(id, re), mem_filter.2 ⟨mem_entries_iff.2 hr, ?_⟩, rfl⟩
      rw [waveIsDescendant] at hdesc ⊢
      simpa using hdesc
    have hre : id ∈ requested (reached config calls) (.cancelWave root reason now true) := by
      rw [requested, if_pos hrt']
      exact hse
    have hflagged := flagged_of_requested { state := reached config calls } hre
    rw [Journal.state_step] at hflagged
    obtain ⟨f, hfo, hfg⟩ := map_eq_some_iff.1 hflagged
    cases hw.symm.trans hfo
    exact hfg

lemma inTree_of_parentWave {id above : WaveId} {spec : WaveSpec}
    (hs : waveSpecOf s id = some spec) (hp : parentWave s spec.parent = some above)
    (h : InTree s root (.wave above)) : InTree s root (.wave id) := by
  rw [parentWave_eq] at hp
  cases hw : spec.parent.parentWaveId with
  | some wave =>
    rw [hw] at hp
    cases hp
    exact h.tail ⟨spec, hs, hw⟩
  | none =>
    rw [hw] at hp
    obtain ⟨task, ht, hp⟩ := bind_eq_some_iff.1 hp
    obtain ⟨taskSpec, hts, hp⟩ := bind_eq_some_iff.1 hp
    have htask : InTree s root (.task task) := h.tail ⟨taskSpec, hts, .inl hp⟩
    exact htask.tail ⟨spec, hs, ht⟩

/-- What the climb goes through is in the tree, where it finds the root. -/
lemma inTree_of_climbWaves {turns : Nat} {visited : List WaveId} {id : WaveId}
    (h : climbWaves s root turns visited id = true) : ∃ spec above,
      waveSpecOf s id = some spec ∧ parentWave s spec.parent = some above ∧
        InTree s root (.wave above) := by
  induction turns generalizing visited id with
  | zero => cases h
  | succ turns ih =>
    rw [climbWaves] at h
    split at h
    · cases h
    · split at h
      · cases h
      next wave hw =>
        split at h
        · cases h
        next above hp =>
          refine ⟨wave.spec, above, map_eq_some_iff.2 ⟨wave, hw, rfl⟩, hp, ?_⟩
          split_ifs at h with ha
          · rw [ha]
          · obtain ⟨spec, higher, hs, hp', hin⟩ := ih h
            exact inTree_of_parentWave hs hp' hin

lemma kept_unflagged {id : WaveId} :
    Kept (fun j => waveView (·.cancellationRequested) j.state id = some false) (· ≠ id) := by
  refine kept_of_views_where (g := (·.cancellationRequested)) (fun _ _ _ _ => rfl)
    (fun s s' hv _ h => (congrFun hv id).trans h) (fun s spec h hc => ?_)
    (fun s spec h he => ?_) fun s o ho h => ?_
  · rw [hc]
    obtain ⟨wave, hfind, hf⟩ := map_eq_some_iff.1 h
    exact map_eq_some_iff.2 ⟨wave, find_emplace_of_find _ hfind, hf⟩
  · rw [submit, he]
    exact h
  · refine (map_find_modify ..).trans ?_
    obtain ⟨wave, hfind, hf⟩ := map_eq_some_iff.1 h
    simp [hfind, hf, ho.symm]

/-- No wave of the tree was asked to cancel before. -/
def Unasked (s : State) (root : WaveId) : Prop :=
  ∀ id wave, InTree s root (.wave id) → s.waves.find id = some wave →
    wave.cancellationRequested = false

/-- A wave that is flagged by the call was found by the climb. -/
lemma rejoins_of_covered {config : SchedulerConfig} {calls : List Call} {root : WaveId}
    {reason : String} {now : TimePoint} (hun : Unasked (reached config calls) root)
    (h : Covered (reached config calls)
      (step (reached config calls) (.cancelWave root reason now true)).1 root) :
    Rejoins (reached config calls) root := by
  intro id spec parent hne hs hp hin
  have hid : InTree (reached config calls) root (.wave id) := hin.tail ⟨spec, hs, hp⟩
  obtain ⟨wave, hw, hws⟩ := map_eq_some_iff.1 hs
  have hflag : waveView (·.cancellationRequested) (reached config calls) id = some false :=
    map_eq_some_iff.2 ⟨wave, hw, hun id wave hid hw⟩
  have hreq : id ∈ requested (reached config calls) (.cancelWave root reason now true) := by
    by_contra hno
    have hafter := kept_unflagged.step (j := { state := reached config calls }) hflag
      fun o ho heq => hno (heq ▸ ho)
    rw [Journal.state_step] at hafter
    obtain ⟨after, hfind, hf⟩ := map_eq_some_iff.1 hafter
    rw [h.2 id after hid hfind] at hf
    cases hf
  rw [requested] at hreq
  split_ifs at hreq
  · obtain ⟨entry, he, rfl⟩ := mem_map.1 hreq
    have hdesc := (mem_filter.1 he).2
    rw [Bool.or_eq_true, beq_iff_eq, Bool.true_and] at hdesc
    have hclimb := hdesc.resolve_left hne
    rw [waveIsDescendant_extends (rooted_reached config calls)
      (extends_expireRunning config calls now) (isSome_of_mem hs)] at hclimb
    obtain ⟨spec', above, hs', hab, hina⟩ := inTree_of_climbWaves hclimb
    cases hs.symm.trans hs'
    exact ⟨above, hab, hina⟩
  · cases hreq

/-- The cancellation of a wave with its descendants covers the tree where every wave below a task of
the tree rejoins it, and only there, if no wave of the tree was asked before. -/
theorem cancelWave_covers_tree {config : SchedulerConfig} {calls : List Call} {root : WaveId}
    (hroot : ((reached config calls).waves.find root).isSome) (reason : String) (now : TimePoint) :
    let after := (step (reached config calls) (.cancelWave root reason now true)).1
    (Rejoins (reached config calls) root → Covered (reached config calls) after root) ∧
    (Unasked (reached config calls) root →
      (Covered (reached config calls) after root ↔ Rejoins (reached config calls) root)) := by
  intro after
  have hcovers : Rejoins (reached config calls) root →
      Covered (reached config calls) after root := fun hrejoins =>
    covered_of_rejoins hroot hrejoins reason now
  exact ⟨hcovers, fun hun => ⟨rejoins_of_covered hun, hcovers⟩⟩

/-- A wave with a task, a wave below both, and a task of that wave. -/
def joinedWave : List Call := [.createWave {}, .submit { waveId := some 1 },
  .createWave { parent := { parentTaskId := some 1, parentWaveId := some 1 } },
  .submit { waveId := some 2 }]

theorem cancelWave_covers_joined_wave :
    let after := (step (reached {} joinedWave) (.cancelWave 1 "stop" 0 true)).1
    Covered (reached {} joinedWave) after 1 ∧ InTree (reached {} joinedWave) 1 (.task 2) ∧
      (after.tasks.find 2).map (·.state) = some .cancelled ∧
      (after.waves.find 2).map (·.cancellationRequested) = some true := by
  refine ⟨(cancelWave_covers_tree (by decide) "stop" 0).1 fun id spec parent hne hs hp _ => ?_,
    ?_, by decide, by decide⟩
  · rcases id with _ | _ | _ | n
    · cases hs
    · exact absurd rfl hne
    · cases hs
      exact ⟨1, rfl, .refl⟩
    · have hl : n + 3 < 3 := lt_nextId (by rw [← isSome_waveSpecOf, hs]; rfl)
      omega
  · have hw : Link (reached {} joinedWave) (.wave 1) (.wave 2) :=
      ⟨{ parent := { parentTaskId := some 1, parentWaveId := some 1 } }, by decide, rfl⟩
    have hm : Link (reached {} joinedWave) (.wave 2) (.task 2) :=
      ⟨{ waveId := some 2 }, by decide, .inl rfl⟩
    exact (Relation.ReflTransGen.single hw).tail hm

/-- A task below a wave, a wave below the task, and a task of that wave. -/
def detachedWave : List Call := [.createWave {}, .submit { parent := { parentWaveId := some 1 } },
  .createWave { parent := { parentTaskId := some 1 } }, .submit { waveId := some 2 }]

/-- The lower wave and its task are in the tree and stay as they were. -/
theorem detached_wave_not_cancelled :
    InTree (reached {} detachedWave) 1 (.wave 2) ∧ InTree (reached {} detachedWave) 1 (.task 2) ∧
    ((step (reached {} detachedWave) (.cancelWave 1 "stop" 0 true)).1.waves.find 2).map
      (·.cancellationRequested) = some false ∧
    ((step (reached {} detachedWave) (.cancelWave 1 "stop" 0 true)).1.tasks.find 2).map
      (fun t => (t.state, t.cancellationRequested)) = some (.queued, false) := by
  have ht : Link (reached {} detachedWave) (.wave 1) (.task 1) :=
    ⟨{ parent := { parentWaveId := some 1 } }, by decide, .inr rfl⟩
  have hw : Link (reached {} detachedWave) (.task 1) (.wave 2) :=
    ⟨{ parent := { parentTaskId := some 1 } }, by decide, rfl⟩
  have hm : Link (reached {} detachedWave) (.wave 2) (.task 2) :=
    ⟨{ waveId := some 2 }, by decide, .inl rfl⟩
  have htree := (Relation.ReflTransGen.single ht).tail hw
  exact ⟨htree, htree.tail hm, by decide, by decide⟩

end AxiomKernel.Swarm
