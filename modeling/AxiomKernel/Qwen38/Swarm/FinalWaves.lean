import AxiomKernel.Qwen38.Swarm.WaveStates
import AxiomKernel.Qwen38.Swarm.WaveTrees

/-!
# Waves that have ended

All tasks of a wave in a terminal state are terminal, and it takes no new ones, so recomputing it
gives the state it is in. A cancellation is the exception: `cancel_wave` marks every wave of the
tree, also those that have ended, and then recomputes them as cancelled.
-/
namespace AxiomKernel.Swarm

open List Registry
open Option hiding any_eq_false mem_map

variable {s s' : State} {id : WaveId} {state : WaveState}

/-- The wave is in a state that recomputing does not change, and its tasks are terminal. -/
def Frozen (id : WaveId) (state : WaveState) (s : State) : Prop :=
  ∃ wave, s.waves.find id = some wave ∧ wave.state = state ∧
    recomputedState (tasksOfWave s id) wave = state ∧
    ∀ t ∈ tasksOfWave s id, isTerminal t.state = true

variable {tasks : List TaskRecord}

lemma recomputedState_congr {wave w' : WaveRecord} (hs : w'.state = wave.state)
    (hc : w'.cancellationRequested = wave.cancellationRequested)
    (hst : w'.hasStarted = wave.hasStarted) :
    recomputedState tasks w' = recomputedState tasks wave := by
  unfold recomputedState
  rw [hs, hc, hst]

lemma Frozen.of_read (h : Frozen id state s) (ht : tasksOfWave s' id = tasksOfWave s id)
    (hr : (s'.waves.find id).map WaveRecord.read = (s.waves.find id).map WaveRecord.read) :
    Frozen id state s' := by
  obtain ⟨wa, hfind, hst, hs, hte⟩ := h
  rw [hfind, map_some, map_eq_some_iff] at hr
  obtain ⟨w', hf', hr⟩ := hr
  obtain ⟨hst', hr⟩ := Prod.mk.inj hr
  obtain ⟨hc', hs'⟩ := Prod.mk.inj hr
  refine ⟨w', hf', hst'.trans hst, ?_, by rwa [ht]⟩
  rw [ht, recomputedState_congr hst' hc' hs', hs]

lemma Frozen.recomputeWave (h : Frozen id state s) (o : WaveId) :
    Frozen id state (recomputeWave s o) := by
  obtain ⟨wave, hfind, hst, hs, ht⟩ := h
  by_cases he : id = o
  · subst he
    refine ⟨{ wave with state := state }, ?_, rfl, ?_, ht⟩
    · simp [Swarm.recomputeWave, find_modify_self, hfind, hs]
    · have hc : recomputedState (tasksOfWave s id) { wave with state := state } =
          recomputedState (tasksOfWave s id) wave := recomputedState_congr hst.symm rfl rfl
      exact hc.trans hs
  · exact ⟨wave, by rw [Swarm.recomputeWave, find_modify_of_ne _ _ he, hfind], hst, hs, ht⟩

lemma Frozen.recomputeWaveOf (h : Frozen id state s) (ta : TaskRecord) :
    Frozen id state (recomputeWaveOf s ta) := by
  unfold Swarm.recomputeWaveOf
  split
  · exact h.recomputeWave _
  · exact h

variable {taskId : TaskId} {t u : TaskRecord}

section
variable (h : Frozen id state s) (hfind : s.tasks.find taskId = some t)
  (hlive : isTerminal t.state = false)
include h hfind hlive

lemma Frozen.not_in : t.spec.waveId ≠ some id := by
  intro hw
  obtain ⟨-, -, -, -, ht⟩ := h
  rw [ht t (mem_tasksOfWave hfind hw)] at hlive
  cases hlive

/-- A task that is not terminal changes, and waves other than its own are left alone. -/
lemma Frozen.retask (hs : u.spec = t.spec) (ht : s'.tasks = s.tasks.modify taskId fun _ => u)
    (hw : ∀ o, t.spec.waveId ≠ some o → s'.waves.find o = s.waves.find o) :
    Frozen id state s' := by
  have hne := h.not_in hfind hlive
  refine h.of_read ?_ (by rw [hw id hne])
  rw [tasksOfWave, ht]
  exact tasksOfWave_modify_of_ne hfind hs hne

lemma Frozen.finishAttempt (tokensUsed : Nat) (o : TaskOutcome) (now : TimePoint) (re : String) :
    Frozen id state (finishAttempt s taskId { t with tokensUsed } o now re) := by
  refine Frozen.recomputeWaveOf (h.retask hfind hlive ?_ rfl fun ot hn => ?_) _
  · rw [finishedTask_spec]
  · rw [releaseResources]
    cases hwa : t.spec.waveId with
    | none => rfl
    | some wa =>
      refine find_modify_of_ne _ _ ?_
      rintro rfl
      exact hn hwa

end

section
variable (h : Frozen id state s)
include h

lemma Frozen.cancelTaskLocked (hfind : s.tasks.find taskId = some t) (re : String) :
    Frozen id state (cancelTaskLocked s taskId t re).1 := by
  unfold Swarm.cancelTaskLocked
  split
  · exact h
  next hlive =>
    have hlive : isTerminal t.state = false := by simpa using hlive
    split
    · refine Frozen.recomputeWaveOf ?_ t
      exact h.retask (u := cancelledTask t re) hfind hlive rfl rfl fun _ _ => rfl
    · exact h.retask (u := { t with cancellationRequested := true }) hfind hlive rfl rfl
        fun _ _ => rfl

lemma Frozen.admitTask {now : TimePoint} (ht : selectedTask s now = some (taskId, t))
    (ag : AgentId) :
    Frozen id state (admitTask s taskId t ag now).1 := by
  obtain ⟨hfind, he⟩ := selectedTask_spec ht
  have hlive := isTerminal_of_isWaiting (eligible_waiting he).1
  refine h.retask (u := admittedTask t ag now) hfind hlive rfl rfl fun o hn => ?_
  rw [Swarm.admitTask]
  cases hwa : t.spec.waveId with
  | none => rfl
  | some wa =>
    refine find_modify_of_ne _ _ ?_
    rintro rfl
    exact hn hwa

lemma Frozen.createWave (spec : WaveSpec) :
    Frozen id state { s with waves := s.waves.emplace { spec } } := by
  refine h.of_read rfl ?_
  obtain ⟨wa, hfind, -⟩ := h
  rw [find_emplace_of_find _ hfind, hfind]

lemma Frozen.submit (hs : isTerminalWave state) {sp : TaskSpec}
    (he : submitError s sp = none) : Frozen id state (submit s sp).1 := by
  rw [Swarm.submit, he]
  refine h.of_read ?_ rfl
  have hn : ¬ sp.waveId = some id := by
    intro hw
    obtain ⟨f, hf, ho, -⟩ := (submitError_none he).1 id hw
    obtain ⟨wa, hfind, rfl, -⟩ := h
    cases hfind.symm.trans hf
    rw [ho] at hs
    cases hs
  simp [tasksOfWave, emplace, TaskRecord.inWave, hn]

lemma Frozen.requestWaveCancellation {o : WaveId} (ho : o = id → state = .cancelled) :
    Frozen id state (requestWaveCancellation s o) := by
  by_cases he : id = o
  · subst he
    obtain rfl := ho rfl
    obtain ⟨wa, hfind, hs, -, hte⟩ := h
    refine ⟨{ wa with cancellationRequested := true }, ?_, hs, ?_, hte⟩
    · simp [Swarm.requestWaveCancellation, hfind, hs]
    · have hn : (tasksOfWave s id).any (!isTerminal ·.state) = false := by
        rw [any_eq_false]
        intro t ht
        simp [hte t ht]
      change recomputedState (tasksOfWave s id) _ = _
      unfold recomputedState
      rw [hn]
      simp
  · refine h.of_read rfl ?_
    rw [Swarm.requestWaveCancellation, find_modify_of_ne _ _ he]

end

def Journal.eventsOf (j : Journal) (id : WaveId) : List (WaveId × WaveState) :=
  j.waveEvents.filter (·.1 == id)

lemma eventsOf_advance {j : Journal} (h : Frozen id state j.state) (h' : Frozen id state s')
    (wa : Option WaveId) : (j.advance s' wa).eventsOf id = j.eventsOf id := by
  have hn (o : WaveId) : (waveChange j.state s' o).filter (·.1 == id) = [] := by
    unfold waveChange
    split
    next f f' hf hf' =>
      by_cases he : o = id
      · subst he
        obtain ⟨w, hw, hs, -⟩ := h
        obtain ⟨w', hw', hs', -⟩ := h'
        cases hw.symm.trans hf
        cases hw'.symm.trans hf'
        rw [if_pos (hs.trans hs'.symm)]
        rfl
      · split <;> simp [he]
    · rfl
  cases wa <;> simp [Journal.eventsOf, Journal.advance, hn]

lemma kept_frozen (hs : isTerminalWave state) (events : List (WaveId × WaveState)) :
    Kept (fun j => Frozen id state j.state ∧ j.eventsOf id = events)
      fun o => o = id → state = .cancelled := by
  have hadv {j : Journal} {s' : State} {wa : Option WaveId}
      (hj : Frozen id state j.state ∧ j.eventsOf id = events) (h' : Frozen id state s') :
      (j.advance s' wa).eventsOf id = events := (eventsOf_advance hj.1 h' wa).trans hj.2
  constructor
  case registerAgent =>
    intro j sp hj
    refine ⟨hj.1.of_read ?_ ?_, hj.2⟩ <;> unfold registerAgent <;> split <;> rfl
  case setAgentState =>
    intro j ag age hj
    refine ⟨hj.1.of_read ?_ ?_, hj.2⟩ <;> unfold setAgentState <;> split <;> rfl
  case createWave =>
    intro j sp hj hc
    rw [hc]
    exact ⟨hj.1.createWave sp, hj.2⟩
  case submit =>
    intro j sp hj he
    refine ⟨?_, ?_⟩
    · rw [j.state_submit]
      exact hj.1.submit hs he
    · rw [Journal.submit, he]
      exact hj.2
  case count =>
    intro j taskId t tokensUsed hj hfind hr
    exact ⟨hj.1.retask (u := { t with tokensUsed }) hfind (isTerminal_of_isRunning hr) rfl rfl
      fun _ _ => rfl, hj.2⟩
  case admitted =>
    intro j taskId t ai ag now hj _ _ ht
    have h' := hj.1.admitTask ht ai
    exact ⟨h', hadv hj h'⟩
  case finish =>
    intro j taskId t tokensUsed ou now re hj hfind hr _
    have h' := hj.1.finishAttempt hfind (isTerminal_of_isRunning hr) tokensUsed ou now re
    refine ⟨by rwa [j.state_finishAttempt], ?_⟩
    unfold Journal.finishAttempt
    split <;> exact hadv hj h'
  case cancel =>
    intro j taskId t re hj hfind
    have h' := hj.1.cancelTaskLocked hfind re
    refine ⟨by rwa [j.state_cancelTaskLocked], ?_⟩
    unfold Journal.cancelTaskLocked
    split <;> exact hadv hj h'
  case recompute =>
    intro j o hj
    have h' := hj.1.recomputeWave o
    exact ⟨h', hadv hj h'⟩
  case request =>
    intro j o ho hj
    have h' := hj.1.requestWaveCancellation ho
    exact ⟨h', hadv hj h'⟩

lemma Settled.frozen (h : Settled s ∅) {wa : WaveRecord} (hfind : s.waves.find id = some wa)
    (hte : isTerminalWave wa.state) : Frozen id wa.state s := by
  have hst := h.state id wa hfind (Set.notMem_empty id)
  have hd : (tasksOfWave s id).any (!isTerminal ·.state) = false := by
    by_contra hlive
    rw [Bool.not_eq_false] at hlive
    have hs : (tasksOfWave s id).isEmpty = false := by
      cases hls : tasksOfWave s id with
      | nil => rw [hls] at hlive; cases hlive
      | cons t tasks => rfl
    rw [hst, waveStateOf, hs, hlive] at hte
    revert hte
    cases wa.cancellationRequested <;>
      cases (tasksOfWave s id).any TaskRecord.wasAdmitted <;> exact Bool.false_ne_true
  refine ⟨wa, hfind, rfl, ?_, fun t ht => ?_⟩
  · refine (recomputedState_eq (h.started id wa hfind) fun hc hi hlive => ?_).trans hst.symm
    rw [hst, hc]
    exact waveStateOf_pending hi hlive
  · simpa using any_eq_false.1 hd t ht

def Flagged (id : WaveId) (s : State) : Prop := waveView (·.cancellationRequested) s id = some true

lemma Flagged.requestWaveCancellation (h : Flagged id s) (o : WaveId) :
    Flagged id (requestWaveCancellation s o) := by
  refine (map_find_modify ..).trans ?_
  obtain ⟨wa, hfind, hf⟩ := map_eq_some_iff.1 h
  simp [hfind, hf]

lemma kept_flagged : Kept (fun j => Flagged id j.state) fun _ => True := by
  refine kept_of_views (g := (·.cancellationRequested)) (fun _ _ _ _ => rfl)
    (fun s s' hv _ h => (congrFun hv id).trans h) (fun s sp h hc => ?_)
    (fun s sp h he => ?_) fun s o h => h.requestWaveCancellation o
  · rw [hc]
    obtain ⟨wa, hfind, hf⟩ := map_eq_some_iff.1 h
    exact map_eq_some_iff.2 ⟨wa, find_emplace_of_find _ hfind, hf⟩
  · rw [submit, he]
    exact h

/-- A call that asks for the cancellation of the wave leaves it flagged. -/
lemma flagged_of_requested (j : Journal) {ca : Call} (h : id ∈ requested j.state ca) :
    Flagged id (j.step ca).state := by
  cases ca with
  | cancelWave wa re now ds =>
    rw [requested] at h
    split_ifs at h with hs
    · rw [← j.state_expireRunning] at h hs
      simp only [Journal.step, Journal.cancelWaveTree]
      generalize j.expireRunning now = j at h hs
      obtain ⟨rec, hr⟩ := isSome_iff_exists.1 hs
      rw [hr]
      refine kept_flagged.cancelRequested ?_ wa re ds _ _
      have hfind : (j.state.waves.find id).isSome := by
        obtain ⟨e, he, rfl⟩ := mem_map.1 h
        exact isSome_of_mem (mem_entries_iff.1 (mem_filter.1 he).1)
      -- the loop flags the wave in its turn, and no turn takes a flag away
      generalize selectedWaves j.state wa ds = ws at h
      clear hr hs
      induction ws generalizing j with
      | nil => cases h
      | cons o ws ih =>
        rw [foldl_cons]
        rcases mem_cons.1 h with rfl | hm
        · refine foldlRecOn (motive := fun j => Flagged id (Journal.state j)) _ _ ?_
            fun j hj o _ => hj.requestWaveCancellation o
          obtain ⟨f, hf⟩ := isSome_iff_exists.1 hfind
          refine (map_find_modify ..).trans ?_
          simp [hf]
        · refine ih (j.requestWaveCancellation o) ?_ hm
          change ((j.state.waves.modify o _).find id).isSome
          rwa [isSome_find_modify]
    · cases h
  | _ => cases h

/-- Recomputing a flagged wave gives a state that is terminal only as `cancelled`. -/
lemma waveStateOf_flagged
    (h : isTerminalWave (waveStateOf tasks true)) : waveStateOf tasks true = .cancelled := by
  revert h
  unfold waveStateOf
  split_ifs <;> simp_all [isTerminalWave]

lemma journal_append (co : SchedulerConfig) (cs : List Call) (call : Call) :
    journal co (cs ++ [call]) = (journal co cs).step call := by
  rw [journal, foldl_append]
  rfl

/-- A wave in a terminal state keeps it through the calls that follow, without an event, exactly
when none of them asks for its cancellation, or it is cancelled already. -/
theorem terminal_wave_final_iff {config : SchedulerConfig} {calls : List Call} {id : WaveId}
    {wave : WaveRecord} (hfind : (reached config calls).waves.find id = some wave)
    (hterminal : isTerminalWave wave.state = true) (later : List Call) :
    (∀ before, before <+: later →
      ((reached config (calls ++ before)).waves.find id).map (·.state) = some wave.state ∧
      (journal config (calls ++ before)).eventsOf id = (journal config calls).eventsOf id) ↔
    (∀ before call, before ++ [call] <+: later →
      id ∈ requested (reached config (calls ++ before)) call → wave.state = .cancelled) := by
  constructor
  · intro h before call hpr hc
    obtain ⟨w, hw, hs⟩ := map_eq_some_iff.1 (h _ hpr).1
    rw [← state_journal] at hc
    have hfg := flagged_of_requested (journal config (calls ++ before)) hc
    rw [← journal_append, append_assoc, state_journal] at hfg
    obtain ⟨w', hw', hfg⟩ := map_eq_some_iff.1 hfg
    cases hw.symm.trans hw'
    have hgiv := (settled_reached config _).state id w hw (Set.notMem_empty id)
    rw [hfg] at hgiv
    rw [← hs, hgiv] at hterminal ⊢
    exact waveStateOf_flagged hterminal
  · intro h
    have hke := @kept_frozen id _ hterminal ((journal config calls).eventsOf id)
    -- induction from the right: each call is made in the state the calls before it reach
    have hr (before : List Call) : before <+: later →
        Frozen id wave.state (journal config (calls ++ before)).state ∧
        (journal config (calls ++ before)).eventsOf id = (journal config calls).eventsOf id := by
      induction before using List.reverseRecOn with
      | nil =>
        intro _
        rw [append_nil, state_journal]
        exact ⟨(settled_reached config calls).frozen hfind hterminal, rfl⟩
      | append_singleton before call ih =>
        intro hpr
        have hp := ih ((prefix_append before [call]).trans hpr)
        rw [← append_assoc, journal_append]
        refine hke.step hp fun o ho hi => ?_
        subst hi
        rw [state_journal] at ho
        exact h before call hpr ho
    intro before hpr
    obtain ⟨⟨w, hw, hs, -⟩, heven⟩ := hr before hpr
    rw [state_journal] at hw
    exact ⟨by rw [hw, map_some, hs], heven⟩

def succeededWave : List Call := [.registerAgent {}, .createWave {}, .submit { waveId := some 1 },
  .admitNext 0, .complete 1 { outcome := .succeeded } 1]

/-- Work elsewhere leaves it as it is. -/
theorem terminal_wave_final_elsewhere :
    ((reached { maxConcurrent := 1 } (succeededWave ++ [.submit {}, .admitNext 2])).waves.find
      1).map (·.state) = some .succeeded ∧
    (journal { maxConcurrent := 1 } (succeededWave ++ [.submit {}, .admitNext 2])).eventsOf 1 =
      (journal { maxConcurrent := 1 } succeededWave).eventsOf 1 := by
  have hs : ((reached { maxConcurrent := 1 } succeededWave).waves.find 1).map (·.state) =
      some .succeeded := by decide
  obtain ⟨wa, hfind, hst⟩ := map_eq_some_iff.1 hs
  rw [← hst]
  refine (terminal_wave_final_iff hfind (by rw [hst]; rfl) [.submit {}, .admitNext 2]).2
    (fun b ca hp hc => ?_) _ (prefix_refl _)
  have hm := hp.subset (mem_append_right b (mem_singleton_self ca))
  rcases mem_pair.1 hm with rfl | rfl <;> cases hc

/-- Its cancellation makes it cancelled, with an event. -/
theorem succeeded_wave_is_cancelled :
    ((reached { maxConcurrent := 1 } succeededWave).waves.find 1).map (·.state) = some .succeeded ∧
    ((reached { maxConcurrent := 1 } (succeededWave ++ [.cancelWave 1 "stop" 2 true])).waves.find
      1).map (·.state) = some .cancelled ∧
    (journal { maxConcurrent := 1 } (succeededWave ++ [.cancelWave 1 "stop" 2 true])).eventsOf 1 =
      (journal { maxConcurrent := 1 } succeededWave).eventsOf 1 ++ [(1, .cancelled)] := by
  decide

end AxiomKernel.Swarm
