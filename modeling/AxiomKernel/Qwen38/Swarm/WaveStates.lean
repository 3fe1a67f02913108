import AxiomKernel.Qwen38.Swarm.Accounting

/-!
# The state of a wave

The code keeps the state of a wave by hand: `recompute_wave` writes it in some branches and leaves
it in others, admission writes it directly, and submission does not touch it. This file states
what it should be, a function of the tasks of the wave and of whether its cancellation was
requested, and shows that every call keeps it so. Inside `cancel_wave` the waves already marked
are out of step until the last loop recomputes them; the invariant carries them as exceptions.
-/
namespace AxiomKernel.Swarm

open TaskRecord List Registry
open Option hiding any_eq_true any_map filter_map map_map

def TaskRecord.wasAdmitted (t : TaskRecord) : Bool := 0 < t.attemptsStarted

/-- The state of a wave as a function of its tasks and of its cancellation. -/
def waveStateOf (tasks : List TaskRecord) (cancellationRequested : Bool) : WaveState :=
  if tasks.isEmpty then
    if cancellationRequested then .cancelled else .pending
  else if tasks.any (!isTerminal ·.state) then
    if cancellationRequested then .cancelling
    else if tasks.any wasAdmitted then .running
    else .pending
  else if cancellationRequested then .cancelled
  else if tasks.any (·.state == .failed) then .failed
  else if tasks.any (·.state == .timedOut) then .timedOut
  else if tasks.any (·.state == .budgetExhausted) then .budgetExhausted
  else if tasks.any (·.state == .cancelled) then .cancelled
  else .succeeded

/-- Every wave outside `E` is in the state its tasks give it; those in `E` are being cancelled. -/
structure Settled (s : State) (E : Set WaveId) : Prop where
  state : ∀ id wave, s.waves.find id = some wave → id ∉ E →
    wave.state = waveStateOf (tasksOfWave s id) wave.cancellationRequested
  started : ∀ id wave, s.waves.find id = some wave →
    wave.hasStarted = (tasksOfWave s id).any wasAdmitted
  cancelling : ∀ id wave, s.waves.find id = some wave → id ∈ E → wave.cancellationRequested = true
  known : ∀ id t wave, s.tasks.find id = some t → t.spec.waveId = some wave →
    (s.waves.find wave).isSome

lemma settled_init (config : SchedulerConfig) : Settled { config } ∅ where
  state id wave h := by simp at h
  started id wave h := by simp at h
  cancelling id wave h := by simp at h
  known id t wave h := by simp at h

def TaskRecord.standing (t : TaskRecord) : TaskState × Bool := (t.state, t.wasAdmitted)

variable {tasks : List TaskRecord}

lemma waveStateOf_congr {ts' : List TaskRecord} (cancellationRequested : Bool)
    (h : tasks.map TaskRecord.standing = ts'.map TaskRecord.standing) :
    waveStateOf tasks cancellationRequested = waveStateOf ts' cancellationRequested := by
  have ha : ∀ p : TaskState × Bool → Bool,
      tasks.any (fun t => p t.standing) = ts'.any (fun t => p t.standing) := by
    intro p
    have := congrArg (any · p) h
    simpa [any_map, Function.comp_def] using this
  have hs : ∀ p : TaskState → Bool, tasks.any (fun t => p t.state) =
      ts'.any (fun t => p t.state) := fun p => ha fun v => p v.1
  have he : tasks.isEmpty = ts'.isEmpty := by
    have := congrArg isEmpty h
    simpa using this
  have had : tasks.any wasAdmitted = ts'.any wasAdmitted := ha Prod.snd
  simp only [waveStateOf, he, had, hs (!isTerminal ·), hs (· == .failed),
    hs (· == .timedOut), hs (· == .budgetExhausted), hs (· == .cancelled)]

lemma isTerminalWave_waveStateOf (hs : tasks.isEmpty = false)
    (hd : tasks.any (!isTerminal ·.state) = false) (cr : Bool) :
    isTerminalWave (waveStateOf tasks cr) = true := by
  simp only [waveStateOf, hs, hd, Bool.false_eq_true, if_false]
  split_ifs <;> rfl

lemma waveStateOf_pending (ha : tasks.any wasAdmitted = false)
    (hv : tasks.isEmpty ∨ tasks.any (!isTerminal ·.state)) :
    waveStateOf tasks false = .pending := by
  unfold waveStateOf
  rcases hv with hv | hv <;> simp [hv, ha]

/-- `recompute_wave` reaches the closed form wherever it writes, and where it does not write the
wave has to be pending already. -/
lemma recomputedState_eq {wave : WaveRecord} (hs : wave.hasStarted = tasks.any wasAdmitted)
    (hpend : wave.cancellationRequested = false → tasks.any wasAdmitted = false →
    tasks.isEmpty ∨ tasks.any (!isTerminal ·.state) → wave.state = .pending) :
    recomputedState tasks wave = waveStateOf tasks wave.cancellationRequested := by
  unfold recomputedState waveStateOf finalWaveState
  cases hcanc : wave.cancellationRequested with
  | true => split_ifs <;> simp_all
  | false =>
    have hpend := hpend hcanc
    rw [hs]
    cases hem : tasks.isEmpty with
    | true =>
      have hn : tasks = [] := isEmpty_iff.1 hem
      simpa [hcanc] using hpend (by simp [hn]) (.inl hem)
    | false =>
      cases hv : tasks.any (!isTerminal ·.state) with
      | false => simp
      | true =>
        cases hadm : tasks.any wasAdmitted with
        | true => simp
        | false => simpa using hpend hadm (.inr hv)

variable {s : State} {id : TaskId} {t u : TaskRecord} {wave : WaveId}

section
variable (hfind : s.tasks.find id = some t) (hspec : u.spec = t.spec)
include hfind hspec

lemma tasksOfWave_modify_of_ne (hn : t.spec.waveId ≠ some wave) :
    (s.tasks.modify id fun _ => u).rows.filter (·.inWave wave) = tasksOfWave s wave := by
  refine filter_rows_modify fun a ha => ?_
  obtain rfl : t = a := by simpa [hfind] using ha
  simp [inWave, hspec, hn]

lemma map_tasksOfWave_modify {β : Type*} (g : TaskRecord → β) (hv : g u = g t) (wave : WaveId) :
    ((s.tasks.modify id fun _ => u).rows.filter (·.inWave wave)).map g =
      (tasksOfWave s wave).map g := by
  have hr : (s.tasks.modify id fun _ => u).rows.map (fun t => (t.inWave wave, g t)) =
      s.tasks.rows.map (fun t => (t.inWave wave, g t)) := by
    refine map_rows_modify fun a ha => ?_
    obtain rfl : t = a := by simpa [hfind] using ha
    simp [inWave, hspec, hv]
  have hs : ∀ rs : List TaskRecord, (rs.filter (·.inWave wave)).map g =
      ((rs.map fun t => (t.inWave wave, g t)).filter (·.1)).map (·.2) := by
    intro rs
    rw [filter_map, map_map]
    rfl
  rw [tasksOfWave, hs, hs, hr]

lemma any_tasksOfWave_modify (p : TaskRecord → Bool) (hv : p u = p t) (wave : WaveId) :
    ((s.tasks.modify id fun _ => u).rows.filter (·.inWave wave)).any p =
      (tasksOfWave s wave).any p := by
  have := congrArg (any · fun b => b) (map_tasksOfWave_modify hfind hspec p hv wave)
  simpa [any_map, Function.comp_def] using this

end

lemma mem_tasksOfWave (hfind : s.tasks.find id = some t) (hw : t.spec.waveId = some wave) :
    t ∈ tasksOfWave s wave := by
  simp only [tasksOfWave, mem_filter, inWave, hw, beq_self_eq_true, and_true]
  exact mem_rows_iff.2 ⟨id, hfind⟩

variable {E : Set WaveId}

/-- What `Settled` says of one wave. -/
def InStep (tasks : List TaskRecord) (E : Set WaveId) (id : WaveId) (wave : WaveRecord) : Prop :=
  (id ∉ E → wave.state = waveStateOf tasks wave.cancellationRequested) ∧
    wave.hasStarted = tasks.any wasAdmitted ∧ (id ∈ E → wave.cancellationRequested)

lemma Settled.of_waves
    (hw : ∀ id wave, s.waves.find id = some wave → InStep (tasksOfWave s id) E id wave)
    (hk : ∀ id t wave, s.tasks.find id = some t → t.spec.waveId = some wave →
    (s.waves.find wave).isSome) : Settled s E :=
  ⟨fun id wave h => (hw id wave h).1, fun id wave h => (hw id wave h).2.1,
    fun id wave h => (hw id wave h).2.2, hk⟩

def WaveRecord.read (wave : WaveRecord) : WaveState × Bool × Bool :=
  (wave.state, wave.cancellationRequested, wave.hasStarted)

section
variable (h : Settled s E)
include h

lemma Settled.inStep {id : WaveId} {wave : WaveRecord} (hw : s.waves.find id = some wave) :
    InStep (tasksOfWave s id) E id wave :=
  ⟨h.state id wave hw, h.started id wave hw, h.cancelling id wave hw⟩

lemma Settled.rewave {s' : State} (hta : s'.tasks = s.tasks)
    (hr : ∀ id, (s'.waves.find id).map WaveRecord.read = (s.waves.find id).map WaveRecord.read) :
    Settled s' E := by
  refine .of_waves (fun id wave hw => ?_) fun id t wave ht hw => ?_
  · have hid := hr id
    rw [hw, map_some, eq_comm, map_eq_some_iff] at hid
    obtain ⟨old, ho, he⟩ := hid
    simp only [WaveRecord.read, Prod.mk.injEq] at he
    obtain ⟨hs, hc, hst⟩ := he
    rw [InStep, tasksOfWave, hta, ← hs, ← hc, ← hst]
    exact h.inStep ho
  · have hid := congrArg isSome (hr wave)
    rw [isSome_map, isSome_map] at hid
    rw [hid]
    exact h.known id t wave (hta ▸ ht) hw

lemma Settled.known_modify (hfind : s.tasks.find id = some t) (hspec : u.spec = t.spec)
    {o : TaskId} {v : TaskRecord} (hv : (s.tasks.modify id fun _ => u).find o = some v)
    (hw : v.spec.waveId = some wave) :
    (s.waves.find wave).isSome := by
  rw [find_modify] at hv
  split at hv
  next he =>
    subst he
    obtain rfl : u = v := by simpa [hfind] using hv
    exact h.known o t wave hfind (hspec ▸ hw)
  · exact h.known o v wave hv hw

lemma Settled.retask (hfind : s.tasks.find id = some t) (hspec : u.spec = t.spec)
    (hs : u.standing = t.standing) :
    Settled { s with tasks := s.tasks.modify id fun _ => u } E where
  state wave w hw hE := by
    rw [h.state wave w hw hE]
    exact (waveStateOf_congr _ (map_tasksOfWave_modify hfind hspec _ hs wave)).symm
  started wave w hw := by
    rw [h.started wave w hw]
    exact (any_tasksOfWave_modify hfind hspec _ (congrArg Prod.snd hs) wave).symm
  cancelling := h.cancelling
  known _ _ _ := h.known_modify hfind hspec

/-- A wave is brought back in step by `recompute_wave`. -/
lemma Settled.recomputeWave (id : WaveId) : Settled (recomputeWave s id) (E \ {id}) := by
  refine .of_waves (fun wave w hw => ?_) fun tid t wave ht hwa => ?_
  · change InStep (tasksOfWave s wave) _ wave w
    simp only [Swarm.recomputeWave, find_modify] at hw
    split at hw
    next he =>
      subst he
      obtain ⟨old, ho, rfl⟩ := map_eq_some_iff.1 hw
      refine ⟨fun _ => ?_, h.started wave old ho, fun hE => absurd rfl hE.2⟩
      refine recomputedState_eq (h.started wave old ho) fun hc ha hv => ?_
      -- a wave that is not being cancelled is no exception, so it was pending before
      have hi : wave ∉ E := by
        intro hm
        have := h.cancelling wave old ho hm
        simp [hc] at this
      rw [h.state wave old ho hi, hc]
      exact waveStateOf_pending ha hv
    next hn =>
      exact ⟨fun hE => h.state wave w hw fun hm => hE ⟨hm, hn⟩, h.started wave w hw,
        fun hE => h.cancelling wave w hw hE.1⟩
  · simp only [Swarm.recomputeWave, isSome_find_modify]
    exact h.known tid t wave ht hwa

lemma Settled.retaskRecompute (hfind : s.tasks.find id = some t) (hspec : u.spec = t.spec)
    (ha : u.wasAdmitted = t.wasAdmitted) (hlv : isTerminal t.state = false) :
    Settled (recomputeWaveOf { s with tasks := s.tasks.modify id fun _ => u } t) E := by
  have hco : ∀ wave, (tasksOfWave { s with tasks := s.tasks.modify id fun _ => u } wave).any
      wasAdmitted = (tasksOfWave s wave).any wasAdmitted :=
    fun wave => any_tasksOfWave_modify hfind hspec _ ha wave
  have ho : ∀ wave w, t.spec.waveId ≠ some wave → s.waves.find wave = some w →
      InStep (tasksOfWave { s with tasks := s.tasks.modify id fun _ => u } wave) E wave w := by
    intro wave w hne hw
    have hs : tasksOfWave { s with tasks := s.tasks.modify id fun _ => u } wave =
        tasksOfWave s wave := tasksOfWave_modify_of_ne hfind hspec hne
    rw [hs]
    exact h.inStep hw
  unfold Swarm.recomputeWaveOf
  split
  next mi hm =>
    refine .of_waves (fun wave w hw => ?_) fun tid v wave hv hwa => ?_
    · simp only [Swarm.recomputeWave, find_modify] at hw
      split at hw
      next he =>
        subst he
        obtain ⟨old, hl, rfl⟩ := map_eq_some_iff.1 hw
        have hst := (h.started wave old hl).trans (hco wave).symm
        refine ⟨fun hE => recomputedState_eq hst fun hc hn _ => ?_, hst, h.cancelling wave old hl⟩
        -- the wave held a task that was not terminal and none that was admitted
        rw [h.state wave old hl hE, hc]
        rw [hco] at hn
        refine waveStateOf_pending hn (.inr ?_)
        exact any_eq_true.2 ⟨t, mem_tasksOfWave hfind hm, by simp [hlv]⟩
      next hne => exact ho wave w (by simpa [hm] using fun he => hne he.symm) hw
    · simp only [Swarm.recomputeWave, isSome_find_modify]
      exact h.known_modify hfind hspec hv hwa
  next hn =>
    exact .of_waves (fun wave w hw => ho wave w (by simp [hn]) hw)
      fun _ _ _ => h.known_modify hfind hspec

end

lemma Settled.finishAttempt (h : Settled s ∅) (hfind : s.tasks.find id = some t)
    (hr : t.isRunning) (tokensUsed : Nat) (o : TaskOutcome) (now : TimePoint)
    (re : String) :
    Settled (finishAttempt s id { t with tokensUsed } o now re) ∅ := by
  have hre : Settled { releaseResources s { t with tokensUsed } with
      nextQueueSequence := if shouldRetry { t with tokensUsed } o then s.nextQueueSequence + 1
        else s.nextQueueSequence } ∅ := by
    refine h.rewave rfl fun wave => ?_
    rw [releaseResources]
    cases t.spec.waveId with
    | none => rfl
    | some mi =>
      rw [map_find_modify]
      simp only [WaveRecord.read, ite_self]
      rfl
  exact hre.retaskRecompute (t := t) hfind (by simp) (by simp [wasAdmitted])
    (isTerminal_of_isRunning hr)

lemma Settled.cancelTaskLocked (h : Settled s E) (hfind : s.tasks.find id = some t) (re : String) :
    Settled (cancelTaskLocked s id t re).1 E := by
  unfold Swarm.cancelTaskLocked
  split
  · exact h
  next hv =>
    split
    · exact h.retaskRecompute hfind rfl rfl (by simpa using hv)
    · exact h.retask hfind rfl rfl

lemma Settled.admitTask {now : TimePoint} {ta : TaskRecord} (h : Settled s ∅)
    (ht : selectedTask s now = some (id, ta)) (ag : AgentId) :
    Settled (admitTask s id ta ag now).1 ∅ := by
  obtain ⟨hfind, he⟩ := selectedTask_spec ht
  have hspec : (admittedTask ta ag now).spec = ta.spec := rfl
  have hf' : (s.tasks.modify id fun _ => admittedTask ta ag now).find id =
      some (admittedTask ta ag now) := by simp [hfind]
  have ho : ∀ wave, ta.spec.waveId ≠ some wave →
      tasksOfWave (Swarm.admitTask s id ta ag now).1 wave = tasksOfWave s wave :=
    fun wave hn => tasksOfWave_modify_of_ne hfind hspec hn
  have hmi : ∀ wave, ta.spec.waveId = some wave →
      admittedTask ta ag now ∈ tasksOfWave (Swarm.admitTask s id ta ag now).1 wave :=
    fun wave hwa => mem_tasksOfWave (s := (Swarm.admitTask s id ta ag now).1) hf' hwa
  -- a wave record after the admission is the old one, or that of the admitted task's wave
  have hca : ∀ wave w, (Swarm.admitTask s id ta ag now).1.waves.find wave = some w →
      (ta.spec.waveId ≠ some wave ∧ s.waves.find wave = some w) ∨
      (ta.spec.waveId = some wave ∧ w.state = .running ∧ w.hasStarted = true ∧
        w.cancellationRequested = false) := by
    intro wave w hw
    rw [Swarm.admitTask] at hw
    cases hmi : ta.spec.waveId with
    | none => exact .inl ⟨by simp, by simpa [hmi] using hw⟩
    | some mi =>
      obtain ⟨old, hl, hr⟩ := eligible_wave he hmi
      simp only [hmi, find_modify] at hw
      split at hw
      next heq =>
        subst heq
        rw [hl, map_some, some.injEq] at hw
        subst hw
        simp only [WaveRecord.hasRoom, Bool.and_eq_true, Bool.not_eq_eq_eq_not, Bool.not_true] at hr
        exact .inr ⟨rfl, rfl, rfl, hr.1⟩
      next hn => exact .inl ⟨by simpa using fun heq => hn heq.symm, hw⟩
  refine .of_waves (fun wave w hw => ?_) fun tid v wave hv hwa => ?_
  · rcases hca wave w hw with ⟨hn, hl⟩ | ⟨hwa, hsta, hst, hc⟩
    · rw [ho wave hn]
      exact h.inStep hl
    · have hm := hmi wave hwa
      generalize tasksOfWave (Swarm.admitTask s id ta ag now).1 wave = tasks at hm ⊢
      have hso : tasks.isEmpty = false := by
        rw [isEmpty_eq_false_iff]
        exact ne_nil_of_mem hm
      have hlv : tasks.any (!isTerminal ·.state) := any_eq_true.2 ⟨_, hm, rfl⟩
      have ha : tasks.any wasAdmitted := any_eq_true.2 ⟨_, hm, by simp [wasAdmitted, admittedTask]⟩
      refine ⟨fun _ => ?_, by rw [hst, ha], fun h => absurd h (Set.notMem_empty _)⟩
      simp [waveStateOf, hsta, hc, hso, hlv, ha]
  · have hs : ((Swarm.admitTask s id ta ag now).1.waves.find wave).isSome =
        (s.waves.find wave).isSome := by
      rw [Swarm.admitTask]
      cases ta.spec.waveId <;> simp
    rw [hs]
    exact h.known_modify hfind hspec hv hwa

lemma Settled.createWave (h : Settled s ∅) (spec : WaveSpec) :
    Settled { s with waves := s.waves.emplace { spec } } ∅ := by
  -- no task can name the fresh wave, for it would name a wave nobody knows
  have hf : tasksOfWave s s.waves.nextId = [] := by
    rw [tasksOfWave, filter_eq_nil_iff]
    intro t ht
    obtain ⟨id, hi⟩ := mem_rows_iff.1 ht
    intro hin
    have hkn := h.known id t s.waves.nextId hi (by simpa [inWave] using hin)
    simp [find_nextId] at hkn
  refine .of_waves (fun id wave hw => ?_) fun id t wave ht hw => ?_
  · change InStep (tasksOfWave s id) ∅ id wave
    rw [find_emplace] at hw
    split at hw
    next he =>
      obtain rfl : _ = wave := by simpa using hw
      rw [he, hf]
      exact ⟨fun _ => rfl, rfl, fun h => absurd h (Set.notMem_empty _)⟩
    · exact h.inStep hw
  · obtain ⟨old, ho⟩ := isSome_iff_exists.1 (h.known id t wave ht hw)
    simp [find_emplace_of_find { spec } ho]

/-- A submitted task joins a wave that is pending or running, and does not change which. -/
lemma Settled.submit (h : Settled s ∅) {spec : TaskSpec} (hno : submitError s spec = none) :
    Settled (submit s spec).1 ∅ := by
  obtain ⟨hw, _⟩ := submitError_none hno
  rw [Swarm.submit, hno]
  generalize hn : ({ spec, queueSequence := s.nextQueueSequence } : TaskRecord) = new
  have hv : (!isTerminal new.state) := by rw [← hn]; rfl
  have hid : new.wasAdmitted = false := by rw [← hn]; rfl
  have hspec : new.spec = spec := by rw [← hn]
  have hl : ∀ wave, (s.tasks.emplace new).rows.filter (·.inWave wave) =
      tasksOfWave s wave ++ if new.inWave wave then [new] else [] := by
    intro wave
    simp only [emplace, filter_append, tasksOfWave]
    congr 1
    by_cases hi : new.inWave wave = true <;> simp [hi]
  refine .of_waves (fun id wave hwa =>
    ⟨fun _ => ?_, ?_, fun h => absurd h (Set.notMem_empty _)⟩) fun id t wave ht hwa => ?_
  · change wave.state = waveStateOf ((s.tasks.emplace new).rows.filter (·.inWave id)) _
    have hold := h.state id wave hwa (by simp)
    rw [hl]
    split
    next hi =>
      simp only [inWave, hspec, beq_iff_eq] at hi
      obtain ⟨f, hf, hte, hc⟩ := hw id hi
      cases hf.symm.trans hwa
      rw [hc] at hold ⊢
      cases hem : (tasksOfWave s id).isEmpty with
      | true =>
        have hni : tasksOfWave s id = [] := isEmpty_iff.1 hem
        rw [hold, hni]
        simp [waveStateOf, hv, hid]
      | false =>
        cases hso : (tasksOfWave s id).any (!isTerminal ·.state) with
        | false =>
          have := isTerminalWave_waveStateOf hem hso false
          rw [← hold, hte] at this
          simp at this
        | true =>
          rw [hold]
          have he' : (tasksOfWave s id ++ [new]).isEmpty = false := by simp
          simp only [waveStateOf, hem, he', hso, any_append, any_cons, any_nil, hv, hid]
          simp
    · simpa using hold
  · change wave.hasStarted = ((s.tasks.emplace new).rows.filter (·.inWave id)).any _
    rw [hl, h.started id wave hwa]
    split <;> simp [hid]
  · rw [find_emplace] at ht
    split at ht
    · obtain rfl : new = t := by simpa using ht
      obtain ⟨f, hf, _⟩ := hw wave (hspec ▸ hwa)
      simp [hf]
    · exact h.known id t wave ht hwa

/-- The first loop of `cancel_wave` turns the waves it marks into exceptions. -/
lemma Settled.requestWaveCancellation (h : Settled s E) (id : WaveId) :
    Settled (requestWaveCancellation s id) (insert id E) := by
  refine .of_waves (fun wave w hw => ?_) fun tid t wave ht hwa => ?_
  · change InStep (tasksOfWave s wave) _ wave w
    simp only [Swarm.requestWaveCancellation, find_modify] at hw
    rw [InStep, Set.mem_insert_iff, not_or]
    split at hw
    next he =>
      obtain ⟨old, ho, rfl⟩ := map_eq_some_iff.1 hw
      exact ⟨fun hE => absurd he hE.1, h.started wave old ho, fun _ => rfl⟩
    next hn =>
      exact ⟨fun hE => h.state wave w hw hE.2, h.started wave w hw,
        fun hE => h.cancelling wave w hw (hE.resolve_left hn)⟩
  · simp only [Swarm.requestWaveCancellation, isSome_find_modify]
    exact h.known tid t wave ht hwa

lemma Settled.requestAll (h : Settled s E) (ws : List WaveId) :
    Settled (ws.foldl Swarm.requestWaveCancellation s) ({id | id ∈ ws} ∪ E) := by
  induction ws generalizing s E with
  | nil => simpa using h
  | cons id ws ih =>
    have hs : {other | other ∈ id :: ws} ∪ E = {other | other ∈ ws} ∪ insert id E := by
      ext other
      simp only [mem_cons, Set.mem_union, Set.mem_ofPred_eq, Set.mem_insert_iff]
      tauto
    rw [hs]
    exact ih (h.requestWaveCancellation id)

/-- The last loop of `cancel_wave` brings its waves back in step. -/
lemma Settled.recomputeAll (h : Settled s E) (ws : List WaveId) :
    Settled (ws.foldl Swarm.recomputeWave s) (E \ {id | id ∈ ws}) := by
  induction ws generalizing s E with
  | nil => simpa using h
  | cons id ws ih =>
    have hs : E \ {other | other ∈ id :: ws} = (E \ {id}) \ {other | other ∈ ws} := by
      ext other
      simp only [mem_cons, Set.mem_sdiff, Set.mem_ofPred_eq, Set.mem_singleton_iff]
      tauto
    rw [hs]
    exact ih (h.recomputeWave id)

lemma Settled.cancelWaveTree (h : Settled s ∅) (id : WaveId) (re : String)
    (i : Bool) : Settled (cancelWaveTree s id re i).1 ∅ := by
  unfold Swarm.cancelWaveTree
  split
  · exact h
  · simp only
    generalize selectedWaves s id i = waves
    have hreq := h.requestAll waves
    have hc : Settled
        (((waves.foldl Swarm.requestWaveCancellation s).tasks.entries.map Prod.fst).foldl
          (cancelSelectedTask id re i waves)
          (waves.foldl Swarm.requestWaveCancellation s, 0)).1 ({id | id ∈ waves} ∪ ∅) := by
      refine foldlRecOn
        (motive := fun acc : State × Nat => Settled acc.1 ({id | id ∈ waves} ∪ ∅)) _ _ hreq ?_
      intro acc ha ti _
      unfold cancelSelectedTask
      split
      · exact ha
      next ta hfind =>
        split
        · exact ha.cancelTaskLocked hfind re
        · exact ha
    have hdn := hc.recomputeAll waves
    simpa using hdn

/-- Every change but the request of a cancellation keeps the waves in step. -/
lemma kept_settled : Kept (fun j => Settled j.state ∅) fun _ => False := by
  constructor
  case registerAgent =>
    intro j spec hj
    refine hj.rewave ?_ fun _ => ?_ <;> unfold registerAgent <;> split <;> rfl
  case setAgentState =>
    intro j ag st hj
    refine hj.rewave ?_ fun _ => ?_ <;> unfold setAgentState <;> split <;> rfl
  case createWave =>
    intro j spec hj hc
    rw [hc]
    exact hj.createWave spec
  case submit =>
    intro j spec hj he
    rw [j.state_submit]
    exact hj.submit he
  case count => exact fun j id t tu hj hfind _ => hj.retask hfind rfl rfl
  case admitted => exact fun j id t ai ag now hj _ _ ht => hj.admitTask ht ai
  case finish =>
    intro j id t tu o now re hj hfind hr _
    rw [j.state_finishAttempt]
    exact hj.finishAttempt hfind hr tu o now re
  case cancel =>
    intro j id t re hj hfind
    rw [j.state_cancelTaskLocked]
    exact hj.cancelTaskLocked hfind re
  case recompute =>
    intro j id hj
    have := hj.recomputeWave id
    rwa [Set.empty_sdiff] at this
  case request => exact fun j id hi => hi.elim

lemma settled_reached (co : SchedulerConfig) (cs : List Call) : Settled (reached co cs) ∅ := by
  refine Machine.run_preserves (P := fun s => Settled s ∅) (fun s ca h => ?_) (settled_init co) cs
  have hj : Settled ({ state := s } : Journal).state ∅ := h
  rw [← Journal.state_step { state := s }]
  cases ca with
  | cancelWave wave re now ds =>
    rw [Journal.state_step]
    have hexp := kept_settled.expireRunning hj now
    rw [Journal.state_expireRunning] at hexp
    exact hexp.cancelWaveTree wave re ds
  | _ => exact kept_settled.step hj fun _ hi => absurd hi not_mem_nil

/-- In every reachable state the state of every wave is the one its tasks and its cancellation
give it, although submission and admission do not recompute it. -/
theorem wave_state_function_of_tasks (config : SchedulerConfig) (calls : List Call) (id : WaveId)
    (wave : WaveRecord) (hwave : (reached config calls).waves.find id = some wave) : wave.state =
      waveStateOf (tasksOfWave (reached config calls) id) wave.cancellationRequested := by
  exact (settled_reached config calls).state id wave hwave (Set.notMem_empty id)

/-- A wave of two tasks, one of which runs while the other is queued. -/
theorem wave_state_function_of_tasks_running :
    (reached { maxConcurrent := 1 } [.registerAgent {}, .createWave {},
      .submit { waveId := some 1 },
      .submit { waveId := some 1 }, .admitNext 0]).waves.find 1 =
        some { spec := {}, state := .running, hasStarted := true, activeTasks := 1 } ∧
    WaveState.running = waveStateOf (tasksOfWave (reached { maxConcurrent := 1 }
      [.registerAgent {}, .createWave {}, .submit { waveId := some 1 },
        .submit { waveId := some 1 }, .admitNext 0]) 1) false :=
  ⟨by decide, wave_state_function_of_tasks _ _ 1
    { spec := {}, state := .running, hasStarted := true, activeTasks := 1 } (by decide)⟩

end AxiomKernel.Swarm
