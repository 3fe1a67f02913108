import AxiomKernel.Lib.Image
import AxiomKernel.Lib.Machine
import AxiomKernel.Qwen4exp.MtpSession

/-!
# The expert slots of the MTP session

`mtp_session` keeps the experts of its last route on the device, one in each slot. The loop over
the slots reads the missing experts and enqueues their copies; the tags are written when all copies
have arrived. A call that stops in between leaves its copies under the old tags.
-/
namespace AxiomKernel.Qwen4exp

open MtpSession Image Hoare

abbrev kMtpExperts : UInt32 := 512
abbrev kMtpTopK : Nat := 10
abbrev Slot := Fin kMtpTopK

abbrev Planes := Bytes × Bytes

/-- The experts of the checkpoint, and the graph around them: the route of a row behind the
committed rows, and its prediction from what the slots hold. -/
structure MtpProvider (α : Type) where
  gateUp : UInt32 → Bytes
  down : UInt32 → Bytes
  route : List α → α → Slot → UInt32
  predict : List α → α → (Slot → Planes) → MtpPrediction

structure SlotSession (α : Type) extends MtpSession where
  cachedExperts : Slot → UInt32 := fun _ => 0xFFFFFFFF
  gateUpSlots : Slot → Bytes
  downSlots : Slot → Bytes
  /-- The inputs of the committed rows. -/
  rows : List α := []
  stagedRow : Option α := none

lemma invalidArgument_failed : MtpStatus.invalidArgument ≠ .ok := by decide

lemma invalidState_failed : MtpStatus.invalidState ≠ .ok := by decide

lemma capacityExceeded_failed : MtpStatus.capacityExceeded ≠ .ok := by decide

abbrev SlotM (α β : Type) := ExceptT MtpError (StateM (SlotSession α)) β

variable {α β : Type}

namespace SlotSession

def onSession (x : MtpM β) : SlotM α β := ExceptT.mk fun s =>
  ((x.run.run s.toMtpSession).1, { s with toMtpSession := (x.run.run s.toMtpSession).2 })

section
variable (p : MtpProvider α)

variable (route : Slot → UInt32)

def pageSlot (slot : Slot) : SlotM α Unit := do
  let s ← get
  if kMtpExperts ≤ route slot then
    onSession (fail .routerError "MTP router returned an invalid expert id")
  else if s.cachedExperts slot = route slot then pure ()
  else
    onSession leaf -- the read of each plane, then its copy
    onSession leaf
    onSession leaf
    modify fun s => { s with
      gateUpSlots := Function.update s.gateUpSlots slot (p.gateUp (route slot)) }
    onSession leaf
    modify fun s => { s with downSlots := Function.update s.downSlots slot (p.down (route slot)) }

def pageExperts : SlotM α Unit := do
  (List.finRange kMtpTopK).forM (pageSlot p route)
  onSession leaf -- the synchronization
  modify fun s => { s with
    cachedExperts := fun slot =>
      if s.cachedExperts slot ≠ route slot then route slot else s.cachedExperts slot }

def planes (s : SlotSession α) (slot : Slot) : Planes := (s.gateUpSlots slot, s.downSlots slot)

/-- The launches of `stage_token` behind the opened transaction. -/
def stageRow (row : α) : SlotM α MtpPrediction := do
  onSession leaf
  modify fun s => { s with attentionCache := { s.attentionCache with stagedTokens := 1 } }
  onSession leaf -- the launches up to the route
  let s ← get
  pageExperts p (p.route s.rows row)
  onSession leaf -- the launches behind the paging
  let s ← get
  set { s with staged := true, stagedRow := some row }
  pure (p.predict s.rows row s.planes)

def stageToken (inputs : SpeculativeDraftInputs) (row : α) : SlotM α MtpPrediction := do
  let s ← get
  if inputs.inputEmbedding = 0 ∨ inputs.targetHidden = 0 ∨ inputs.fullCos = 0 ∨
      inputs.fullSin = 0 ∨ inputs.outputHidden = 0 then
    onSession (fail .invalidArgument "invalid stage_token arguments"
      invalidArgument_failed)
  else if s.poisoned = true ∨ s.transactionOpen = true ∨ s.staged = true then
    onSession (fail .invalidState
      "session is poisoned or already has an open transaction" invalidState_failed)
  else if s.capacity ≤ s.committed ∨ inputs.positionCount ≤ s.committed ∨
      s.capacity < inputs.positionCount then
    onSession (fail .capacityExceeded "MTP position exceeds session cache capacity"
      capacityExceeded_failed)
  else
    onSession leaf
    onSession beginTransaction
    modify fun s => { s with transactionOpen := true }
    tryCatch (stageRow p row) fun e => onSession (abortTransaction e)

def commit : SlotM α Unit := do
  onSession MtpSession.commit
  modify fun s => { s with rows := s.rows ++ s.stagedRow.toList, stagedRow := none }

def truncateCommitted (committedTokens : Nat) : SlotM α Unit := do
  onSession (MtpSession.truncateCommitted committedTokens)
  modify fun s => { s with rows := s.rows.take committedTokens }

def reset : SlotM α Unit := do
  onSession MtpSession.reset
  modify fun s => { s with rows := [] }

end

end SlotSession

inductive MtpCall (α : Type) where
  | stageToken (inputs : SpeculativeDraftInputs) (row : α)
  | commit
  | rollback
  | truncateCommitted (committedTokens : Nat)
  | reset

namespace SlotSession

variable (p : MtpProvider α)

def call : MtpCall α → SlotM α (Option MtpPrediction)
  | .stageToken inputs row => do
    let prediction ← stageToken p inputs row
    pure (some prediction)
  | .commit => commit *> pure none
  | .rollback => onSession rollback *> pure none
  | .truncateCommitted committedTokens => truncateCommitted committedTokens *> pure none
  | .reset => reset *> pure none

def step (s : SlotSession α) (c : MtpCall α) :
    SlotSession α × Except MtpError (Option MtpPrediction) :=
  (((call p c).run.run s).2, ((call p c).run.run s).1)

def expert (e : UInt32) : Planes := (p.gateUp e, p.down e)

def Matches (s : SlotSession α) : Prop :=
  ∀ slot, s.cachedExperts slot < kMtpExperts → s.planes slot = expert p (s.cachedExperts slot)

/-- What comes of the next operations on checkpoint and device, before they are made. -/
def okAt (script : List (Option MtpError)) (i : Nat) : Bool := script[i]?.join.isNone

/-- The copies that arrive in the loop over the slots, `true` for a gate-up plane, with the
operations left behind it; a loop that stops has none. A missing expert takes two reads and two
copies. -/
def copies (route tags : Slot → UInt32) :
    List Slot → List (Option MtpError) → List (Slot × Bool) × Option (List (Option MtpError))
  | [], script => ([], some script)
  | slot :: slots, script =>
    if kMtpExperts ≤ route slot then ([], none)
    else if tags slot = route slot then copies route tags slots script
    else if okAt script 0 ∧ okAt script 1 ∧ okAt script 2 then
      if okAt script 3 then
        ((slot, true) :: (slot, false) :: (copies route tags slots (script.drop 4)).1,
          (copies route tags slots (script.drop 4)).2)
      else ([(slot, true)], none)
    else ([], none)

/-- A stage comes to its route: its arguments are taken, and the four operations before succeed. -/
def Routes (s : SlotSession α) (inputs : SpeculativeDraftInputs) : Prop :=
  ¬ (inputs.inputEmbedding = 0 ∨ inputs.targetHidden = 0 ∨ inputs.fullCos = 0 ∨
    inputs.fullSin = 0 ∨ inputs.outputHidden = 0) ∧
  ¬ (s.poisoned = true ∨ s.transactionOpen = true ∨ s.staged = true) ∧
  ¬ (s.capacity ≤ s.committed ∨ inputs.positionCount ≤ s.committed ∨
    s.capacity < inputs.positionCount) ∧
  s.attentionCache.transactionOpen = false ∧
  okAt s.script 0 ∧ okAt s.script 1 ∧ okAt s.script 2 ∧ okAt s.script 3

/-- The copies of a paging that stops, at the latest with the synchronization. -/
def tornCopies (route tags : Slot → UInt32) (script : List (Option MtpError)) :
    List (Slot × Bool) :=
  let paging := copies route tags (List.finRange kMtpTopK) script
  if paging.2.any (okAt · 0) then [] else paging.1

def plane (gateUp : Bool) (e : UInt32) : Bytes := if gateUp then p.gateUp e else p.down e

/-- Where the paging of a stage stops, no copy that has arrived is to a slot under the tag of an
expert whose bytes are others. -/
def Spares (s : SlotSession α) : MtpCall α → Prop
  | .stageToken inputs row => Routes s inputs →
    ∀ copy ∈ tornCopies (p.route s.rows row) s.cachedExperts (s.script.drop 4),
      s.cachedExperts copy.1 < kMtpExperts →
      plane p copy.2 (p.route s.rows row copy.1) = plane p copy.2 (s.cachedExperts copy.1)
  | _ => True

variable {p} {s t u : SlotSession α} {route : Slot → UInt32} {row : α}

def Kept (s t : SlotSession α) : Prop := t.cachedExperts = s.cachedExperts ∧ t.rows = s.rows

lemma Kept.trans (h : Kept s t) (h' : Kept t u) : Kept s u := ⟨h'.1.trans h.1, h'.2.trans h.2⟩

def Same (s t : SlotSession α) : Prop := Kept s t ∧ t.planes = s.planes

lemma Same.trans (h : Same s t) (h' : Same t u) : Same s u := ⟨h.1.trans h'.1, h'.2.trans h.2⟩

lemma onSession_ends {x : MtpM β} {Q : β → MtpSession → Prop} {R : MtpError → MtpSession → Prop}
    (h : Ends Q R (x.run.run s.toMtpSession)) :
    Ends (fun a t => Q a t.toMtpSession ∧ Same s t) (fun _ => Same s)
      ((onSession x).run.run s) := by
  have hr : (onSession x).run.run s = ((x.run.run s.toMtpSession).1,
      { s with toMtpSession := (x.run.run s.toMtpSession).2 }) := rfl
  rw [hr]
  generalize x.run.run s.toMtpSession = out at h ⊢
  obtain ⟨e | a, m⟩ := out
  · exact ⟨⟨rfl, rfl⟩, rfl⟩
  · exact ⟨h, ⟨rfl, rfl⟩, rfl⟩

lemma onSession_bind_ends {γ : Type} {x : MtpM β} {f : β → SlotM α γ}
    {Q : γ → SlotSession α → Prop} {R : MtpError → SlotSession α → Prop}
    (ho : ∀ a t, Same s t → Ends Q R ((f a).run.run t)) (he : ∀ e t, Same s t → R e t) :
    Ends Q R ((onSession x >>= f).run.run s) :=
  (onSession_ends (ends_true _)).bind (fun a t _ h => ho a t h.2) fun e t _ h => he e t h

/-- The session behind one operation. -/
def answered (s : SlotSession α) : SlotSession α :=
  { s with toMtpSession := { s.toMtpSession with script := s.script.tail } }

lemma leaf_run : (onSession leaf : SlotM α Unit).run.run s =
    (match s.script[0]?.join with
      | none => .ok ()
      | some e => .error e, s.answered) := by
  have hr : (onSession leaf : SlotM α Unit).run.run s = ((leaf.run.run s.toMtpSession).1,
      { s with toMtpSession := (leaf.run.run s.toMtpSession).2 }) := rfl
  rw [hr]
  obtain ⟨⟨_, _, _, _, _, _, _, _, script⟩, _, _, _, _, _⟩ := s
  rcases script with _ | ⟨_ | e, script⟩ <;> rfl

lemma leaf_bind_ends {f : Unit → SlotM α β} {Q : β → SlotSession α → Prop}
    {R : MtpError → SlotSession α → Prop}
    (ho : okAt s.script 0 = true → Ends Q R ((f ()).run.run s.answered))
    (he : okAt s.script 0 = false → ∀ e, R e s.answered) :
    Ends Q R ((onSession leaf >>= f).run.run s) := by
  unfold okAt at ho he
  rw [run_bind, leaf_run]
  cases h : s.script[0]?.join with
  | none => exact ho (by rw [h]; rfl)
  | some e => exact he (by rw [h]; rfl) e

lemma okAt_tail (script : List (Option MtpError)) (i : Nat) :
    okAt script.tail i = okAt script (i + 1) := by
  rw [okAt, okAt, List.getElem?_tail]

/-- Some copies of a route have arrived. -/
def Landed (p : MtpProvider α) (route : Slot → UInt32) (done : List (Slot × Bool))
    (s t : SlotSession α) : Prop :=
  Kept s t ∧ ∀ slot, t.planes slot =
    (if (slot, true) ∈ done then p.gateUp (route slot) else s.gateUpSlots slot,
      if (slot, false) ∈ done then p.down (route slot) else s.downSlots slot)

lemma Same.landed (h : Same s t) : Landed p route [] s t :=
  ⟨h.1, fun slot => by simpa [planes] using congrFun h.2 slot⟩

lemma Landed.trans {done more : List (Slot × Bool)} (h : Landed p route done s t)
    (h' : Landed p route more t u) : Landed p route (done ++ more) s u := by
  refine ⟨h.1.trans h'.1, fun slot => ?_⟩
  have hs := h.2 slot
  simp only [planes, Prod.mk.injEq] at hs
  rw [h'.2 slot, hs.1, hs.2]
  simp only [List.mem_append]
  grind

lemma pageSlot_ends (slot : Slot) (s : SlotSession α) :
    Ends (fun _ t => Landed p route (copies route s.cachedExperts [slot] s.script).1 s t ∧
        (copies route s.cachedExperts [slot] s.script).2 = some t.script)
      (fun _ t => Landed p route (copies route s.cachedExperts [slot] s.script).1 s t ∧
        (copies route s.cachedExperts [slot] s.script).2 = none)
      ((pageSlot p route slot).run.run s) := by
  unfold pageSlot copies
  refine Ends.get_bind ?_
  by_cases hv : kMtpExperts ≤ route slot
  · rw [if_pos hv, if_pos hv]
    exact ⟨Same.landed ⟨⟨rfl, rfl⟩, rfl⟩, rfl⟩
  by_cases hh : s.cachedExperts slot = route slot
  · rw [if_neg hv, if_neg hv, if_pos hh, if_pos hh]
    exact ⟨Same.landed ⟨⟨rfl, rfl⟩, rfl⟩, rfl⟩
  rw [if_neg hv, if_neg hv, if_neg hh, if_neg hh]
  generalize hg : ite (okAt s.script 0 ∧ okAt s.script 1 ∧ okAt s.script 2) _ _ = g
  have hstop {t : SlotSession α} (hs : Same s t)
      (hno : ¬ (okAt s.script 0 ∧ okAt s.script 1 ∧ okAt s.script 2)) :
      Landed p route g.1 s t ∧ g.2 = none := by
    rw [if_neg hno] at hg
    subst hg
    exact ⟨hs.landed, rfl⟩
  refine leaf_bind_ends (fun h0 => ?_) fun h0 _ => hstop ⟨⟨rfl, rfl⟩, rfl⟩ (by simp [h0])
  refine leaf_bind_ends (fun h1 => ?_) fun h1 _ => ?_
  on_goal 2 =>
    rw [answered, okAt_tail] at h1
    exact hstop ⟨⟨rfl, rfl⟩, rfl⟩ (by simp [h1])
  refine leaf_bind_ends (fun h2 => Ends.modify_bind ?_) fun h2 _ => ?_
  on_goal 2 =>
    rw [answered, answered, okAt_tail, okAt_tail] at h2
    exact hstop ⟨⟨rfl, rfl⟩, rfl⟩ (by simp [h2])
  rw [answered, okAt_tail] at h1
  rw [answered, answered, okAt_tail, okAt_tail] at h2
  rw [if_pos ⟨h0, h1, h2⟩] at hg
  refine leaf_bind_ends (fun h3 => ?_) fun h3 _ => ?_
  all_goals
    simp only [answered, okAt_tail] at h3
    rw [h3] at hg
    subst hg
    refine ⟨⟨⟨rfl, rfl⟩, fun other => ?_⟩, by simp [copies, answered, ← List.drop_one]⟩
    by_cases he : other = slot
    · subst he
      simp [planes, answered, copies]
    · simp [planes, answered, copies, he]

lemma copies_cons (slot : Slot) (slots : List Slot) (tags : Slot → UInt32)
    (script : List (Option MtpError)) : copies route tags (slot :: slots) script =
    match copies route tags [slot] script with
    | (done, none) => (done, none)
    | (done, some rest) => (done ++ (copies route tags slots rest).1,
        (copies route tags slots rest).2) := by
  simp only [copies]
  split_ifs <;> rfl

lemma pageSlots_ends (slots : List Slot) (s : SlotSession α) :
    Ends (fun _ t => Landed p route (copies route s.cachedExperts slots s.script).1 s t ∧
        (copies route s.cachedExperts slots s.script).2 = some t.script)
      (fun _ t => Landed p route (copies route s.cachedExperts slots s.script).1 s t ∧
        (copies route s.cachedExperts slots s.script).2 = none)
      ((slots.forM (pageSlot p route)).run.run s) := by
  induction slots generalizing s with
  | nil => exact ⟨Same.landed ⟨⟨rfl, rfl⟩, rfl⟩, rfl⟩
  | cons slot slots ih =>
    refine (pageSlot_ends slot s).bind ?_ ?_
    · rintro - t - ⟨hl, hr⟩
      have htags := hl.1.1
      rw [copies_cons]
      generalize copies route s.cachedExperts [slot] s.script = first at hl hr
      obtain ⟨done, rest⟩ := first
      cases hr
      have hrest := ih t
      rw [htags] at hrest
      exact hrest.imp (fun _ _ h => ⟨hl.trans h.1, h.2⟩) fun _ _ h => ⟨hl.trans h.1, h.2⟩
    · rintro e t - ⟨hl, hr⟩
      rw [copies_cons]
      generalize copies route s.cachedExperts [slot] s.script = first at hl hr
      obtain ⟨done, rest⟩ := first
      cases hr
      exact ⟨hl, rfl⟩

/-- A loop that comes to its end has paged in what was missing. -/
lemma mem_copies {slots : List Slot} {tags : Slot → UInt32} {script rest : List (Option MtpError)}
    (h : (copies route tags slots script).2 = some rest) :
    (∀ slot ∈ slots, route slot < kMtpExperts) ∧ ∀ slot gateUp,
      (slot, gateUp) ∈ (copies route tags slots script).1 ↔
        slot ∈ slots ∧ tags slot ≠ route slot := by
  induction slots generalizing script with
  | nil => simp [copies]
  | cons first slots ih =>
    unfold copies at h ⊢
    split_ifs at h ⊢ with hv hh ho ho'
    · obtain ⟨hva, hmem⟩ := ih h
      refine ⟨List.forall_mem_cons.2 ⟨UInt32.not_le.1 hv, hva⟩, fun slot gateUp => ?_⟩
      rw [hmem, List.mem_cons]
      grind
    · obtain ⟨hva, hmem⟩ := ih h
      refine ⟨List.forall_mem_cons.2 ⟨UInt32.not_le.1 hv, hva⟩, fun slot gateUp => ?_⟩
      simp only [List.mem_cons, hmem, Prod.mk.injEq]
      grind

structure Paged (p : MtpProvider α) (route : Slot → UInt32) (s t : SlotSession α) : Prop where
  valid : ∀ slot, route slot < kMtpExperts
  tags : t.cachedExperts = route
  planes : ∀ slot, t.planes slot =
    if s.cachedExperts slot = route slot then s.planes slot else expert p (route slot)
  rows : t.rows = s.rows

lemma Paged.holds (h : Paged p route s t) (hs : Matches p s) (slot : Slot) :
    t.planes slot = expert p (route slot) := by
  rw [h.planes slot]
  split_ifs with hh
  · rw [hs slot (hh ▸ h.valid slot), hh]
  · rfl

lemma Paged.same (h : Paged p route s t) (h' : Same t u) : Paged p route s u :=
  ⟨h.valid, h'.1.1.trans h.tags, fun slot => (congrFun h'.2 slot).trans (h.planes slot),
    h'.1.2.trans h.rows⟩

lemma Paged.of_same (h : Same s t) (h' : Paged p route t u) : Paged p route s u :=
  ⟨h'.valid, h'.tags, fun slot => by rw [h'.planes slot, h.1.1, h.2], h'.rows.trans h.1.2⟩

lemma Landed.of_same {done : List (Slot × Bool)} (h : Same s t) (h' : Landed p route done t u) :
    Landed p route done s u := by
  simpa using h.landed.trans h'

lemma pageExperts_ends (s : SlotSession α) :
    Ends (fun _ t => Paged p route s t ∧ tornCopies route s.cachedExperts s.script = [])
      (fun _ => Landed p route (tornCopies route s.cachedExperts s.script) s)
      ((pageExperts p route).run.run s) := by
  unfold tornCopies
  dsimp only
  refine (pageSlots_ends _ s).bind ?_ fun _ t _ h => ?_
  · rintro - t - ⟨hl, hr⟩
    obtain ⟨hv, hm⟩ := mem_copies hr
    rw [hr]
    refine leaf_bind_ends (fun ho => ?_) fun ho _ => ?_
    · refine ⟨⟨fun slot => hv slot (List.mem_finRange slot), ?_, fun slot => ?_, hl.1.2⟩, ?_⟩
      · funext slot
        exact ite_eq_left_iff.2 not_not.1
      · refine (hl.2 slot).trans ?_
        simp only [hm, List.mem_finRange, true_and]
        split_ifs <;> first | rfl | contradiction
      · rw [Option.any_some, ho, if_pos rfl]
    · rw [Option.any_some, ho, if_neg Bool.false_ne_true]
      exact hl
  · rw [h.2]
    exact h.1

/-- The session behind `begin_transaction` of the attention cache. -/
def begun (s : SlotSession α) : SlotSession α :=
  { s.answered with attentionCache := { s.attentionCache with
      stagedTokens := 0, transactionOpen := true } }

lemma begin_bind_ends {f : Unit → SlotM α β} {Q : β → SlotSession α → Prop}
    {R : MtpError → SlotSession α → Prop}
    (ho : okAt s.script 0 = true → s.attentionCache.transactionOpen = false →
      Ends Q R ((f ()).run.run s.begun))
    (he : ¬ (okAt s.script 0 = true ∧ s.attentionCache.transactionOpen = false) →
      ∀ e, R e s.answered) :
    Ends Q R ((onSession beginTransaction >>= f).run.run s) := by
  have hr : (onSession beginTransaction : SlotM α Unit).run.run s =
      ((beginTransaction.run.run s.toMtpSession).1,
        { s with toMtpSession := (beginTransaction.run.run s.toMtpSession).2 }) := rfl
  rw [run_bind, hr]
  unfold okAt at ho he
  obtain ⟨⟨_, _, _, _, _, ⟨_, _, _, opened⟩, _, _, script⟩, _, _, _, _, _⟩ := s
  rcases script with _ | ⟨_ | e, script⟩ <;> cases opened
  all_goals first
    | exact ho rfl rfl
    | exact he (by simp) _

/-- What a stage leaves: it has paged its route in, its paging has stopped, or it did not come to
it. -/
def Left (p : MtpProvider α) (inputs : SpeculativeDraftInputs) (row : α) (s t : SlotSession α) :
    Prop :=
  let route := p.route s.rows row
  let torn := tornCopies route s.cachedExperts (s.script.drop 4)
  Paged p route s t ∧ torn = [] ∨ Routes s inputs ∧ Landed p route torn s t ∨
    ¬ Routes s inputs ∧ Same s t

lemma Left.same {i : SpeculativeDraftInputs} (h : Left p i row s t) (h' : Same t u) :
    Left p i row s u := by
  rcases h with ⟨h, ht⟩ | ⟨hr, h⟩ | ⟨hr, h⟩
  · exact .inl ⟨h.same h', ht⟩
  · exact .inr (.inl ⟨hr, by simpa using h.trans h'.landed⟩)
  · exact .inr (.inr ⟨hr, h.trans h'⟩)

def Staged (p : MtpProvider α) (inputs : SpeculativeDraftInputs) (row : α) (s : SlotSession α) :
    Except MtpError MtpPrediction × SlotSession α → Prop :=
  Ends (fun prediction t => (Paged p (p.route s.rows row) s t ∧
      tornCopies (p.route s.rows row) s.cachedExperts (s.script.drop 4) = []) ∧
      prediction = p.predict s.rows row t.planes) fun _ => Left p inputs row s

lemma staged_stageRow {i : SpeculativeDraftInputs} (h : Same s t)
    (ht : t.script = s.script.drop 2)
    (hr : Routes s i ↔ okAt s.script 2 = true ∧ okAt s.script 3 = true) :
    Staged p i row s ((stageRow p row).run.run t) := by
  have hok (j : Nat) : okAt t.script j = okAt s.script (j + 2) := by
    rw [ht, okAt, okAt, List.getElem?_drop, Nat.add_comm]
  refine leaf_bind_ends (fun h2 => ?_) fun h2 _ => .inr (.inr ⟨?_, h⟩)
  on_goal 2 =>
    rw [hok] at h2
    rw [hr, h2]
    exact fun h => absurd h.1 Bool.false_ne_true
  refine Ends.modify_bind (leaf_bind_ends (fun h3 => ?_) fun h3 _ => .inr (.inr ⟨?_, h⟩))
  on_goal 2 =>
    have h3 : okAt t.script.tail 0 = false := h3
    rw [okAt_tail, hok] at h3
    rw [hr, h3]
    exact fun h => absurd h.2 Bool.false_ne_true
  have h3 : okAt t.script.tail 0 = true := h3
  rw [hok] at h2
  rw [okAt_tail, hok] at h3
  have hroutes : Routes s i := hr.2 ⟨h2, h3⟩
  refine Ends.get_bind ?_
  generalize hu : answered _ = t₂
  have hs₂ : Same s t₂ := by
    rw [← hu]
    exact h
  have hscript : t₂.script = s.script.drop 4 := by
    rw [← hu]
    change t.script.tail.tail = _
    rw [ht]
    simp
  rw [hs₂.1.2]
  have hpage := @pageExperts_ends _ p (p.route s.rows row) t₂
  rw [hscript, hs₂.1.1] at hpage
  refine hpage.bind (fun _ t₃ _ h₃ => ?_) fun _ _ _ h' => .inr (.inl ⟨hroutes, h'.of_same hs₂⟩)
  have hp₃ := h₃.1.of_same hs₂
  refine onSession_bind_ends (fun _ t₄ h₄ => ?_) fun _ _ h' => .inl ⟨hp₃.same h', h₃.2⟩
  have h₄ := hp₃.same h₄
  refine Ends.get_bind ?_
  exact ⟨⟨⟨h₄.valid, h₄.tags, h₄.planes, h₄.rows⟩, h₃.2⟩, by rw [h₄.rows]; rfl⟩

lemma staged_stageToken (i : SpeculativeDraftInputs) (s : SlotSession α) :
    Staged p i row s ((stageToken p i row).run.run s) := by
  unfold stageToken Staged
  refine Ends.get_bind ?_
  split_ifs with ha hs hc
  · exact .inr (.inr ⟨fun h => h.1 ha, ⟨rfl, rfl⟩, rfl⟩)
  · exact .inr (.inr ⟨fun h => h.2.1 hs, ⟨rfl, rfl⟩, rfl⟩)
  · exact .inr (.inr ⟨fun h => h.2.2.1 hc, ⟨rfl, rfl⟩, rfl⟩)
  refine leaf_bind_ends (fun h0 => ?_) fun h0 _ => .inr (.inr ⟨fun h => ?_, ⟨rfl, rfl⟩, rfl⟩)
  on_goal 2 => exact absurd h.2.2.2.2.1 (by rw [h0]; exact Bool.false_ne_true)
  refine begin_bind_ends (fun h1 hop => ?_) fun hno _ => .inr (.inr ⟨fun h => ?_, ⟨rfl, rfl⟩, rfl⟩)
  on_goal 2 => exact hno ⟨(okAt_tail _ _).trans h.2.2.2.2.2.1, h.2.2.2.1⟩
  have h1 : okAt s.script 1 = true := (okAt_tail _ _).symm.trans h1
  have ho : Same s { s.answered.begun with transactionOpen := true } := ⟨⟨rfl, rfl⟩, rfl⟩
  have hscript : s.script.tail.tail = s.script.drop 2 := by
    rw [← List.drop_one, ← List.drop_one, List.drop_drop]
  have hr : Routes s i ↔ okAt s.script 2 = true ∧ okAt s.script 3 = true :=
    ⟨fun h => h.2.2.2.2.2.2, fun h => ⟨ha, hs, hc, hop, h0, h1, h⟩⟩
  refine Ends.modify_bind ((staged_stageRow ho hscript hr).tryCatch fun e t h => ?_)
  exact (onSession_ends (ends_of_triple (abortTransaction_spec _ e))).imp
    (fun _ _ h => h.1.elim) fun _ u hs => h.same hs

def Untouched (s t : SlotSession α) : Prop :=
  t.cachedExperts = s.cachedExperts ∧ t.planes = s.planes

lemma Same.untouched (h : Same s t) : Untouched s t := ⟨h.1.1, h.2⟩

/-- A call that is no stage leaves the slots alone. -/
lemma untouched_call {c : MtpCall α} (hc : ∀ inputs row, c ≠ .stageToken inputs row)
    (s : SlotSession α) :
    Ends (fun _ => Untouched s) (fun _ => Untouched s) ((call p c).run.run s) := by
  have hqu {x : SlotM α Unit}
      (h : Ends (fun _ => Untouched s) (fun _ => Untouched s) (x.run.run s)) :
      Ends (fun _ => Untouched s) (fun _ => Untouched s)
        ((x *> pure none : SlotM α (Option MtpPrediction)).run.run s) :=
    h.bind (fun _ _ _ h => h) fun _ _ _ h => h
  cases c with
  | stageToken inputs row => exact absurd rfl (hc inputs row)
  | rollback =>
    exact hqu ((onSession_ends (ends_true _)).imp (fun _ _ h => h.2.untouched)
      fun _ _ h => h.untouched)
  | commit | truncateCommitted | reset =>
    exact hqu (onSession_bind_ends (fun _ _ h => h.untouched) fun _ _ h => h.untouched)

variable (h : Matches p s)
include h

lemma Paged.matches (hp : Paged p route s t) : Matches p t := by
  intro slot _
  rw [hp.holds h slot, hp.tags]

lemma Untouched.matches (hu : Untouched s t) : Matches p t := by
  intro slot hs
  rw [hu.1] at hs ⊢
  rw [hu.2]
  exact h slot hs

lemma Landed.matches_iff {done : List (Slot × Bool)} (hl : Landed p route done s t) :
    Matches p t ↔ ∀ copy ∈ done, s.cachedExperts copy.1 < kMtpExperts →
      plane p copy.2 (route copy.1) = plane p copy.2 (s.cachedExperts copy.1) := by
  unfold Matches
  rw [hl.1.1]
  have hold (slot : Slot) (hs : s.cachedExperts slot < kMtpExperts) :
      s.gateUpSlots slot = p.gateUp (s.cachedExperts slot) ∧
        s.downSlots slot = p.down (s.cachedExperts slot) := Prod.mk.inj (h slot hs)
  constructor
  · rintro hm ⟨slot, gateUp⟩ hmem hs
    have hslot := Prod.mk.inj ((hl.2 slot).symm.trans (hm slot hs))
    cases gateUp with
    | true => exact (if_pos hmem).symm.trans hslot.1
    | false => exact (if_pos hmem).symm.trans hslot.2
  · intro hc slot hs
    rw [hl.2 slot, (hold slot hs).1, (hold slot hs).2]
    refine Prod.ext ?_ ?_
    · exact ite_eq_right_iff.2 fun hmem => hc _ hmem hs
    · exact ite_eq_right_iff.2 fun hmem => hc _ hmem hs

lemma Left.matches_iff {i : SpeculativeDraftInputs} (hl : Left p i row s t) :
    Matches p t ↔ Spares p s (.stageToken i row) := by
  unfold Spares
  dsimp only
  rcases hl with ⟨hp, ht⟩ | ⟨hr, hl⟩ | ⟨hr, hs⟩
  · rw [ht]
    exact iff_of_true (hp.matches h) fun _ _ hm => absurd hm List.not_mem_nil
  · exact (hl.matches_iff h).trans ⟨fun hc _ => hc, fun hc => hc hr⟩
  · exact iff_of_true (hs.untouched.matches h) fun h => absurd h hr

/-- Whether the slots match their tags behind a call is told by its route, the tags before it and
the operations that fail. -/
lemma matches_step_iff (c : MtpCall α) : Matches p (step p s c).1 ↔ Spares p s c := by
  by_cases hc : ∃ inputs row, c = .stageToken inputs row
  · obtain ⟨inputs, row, rfl⟩ := hc
    have hen := @staged_stageToken _ p row inputs s
    have hst : (step p s (.stageToken inputs row)).1 = ((stageToken p inputs row).run.run s).2 := by
      unfold SlotSession.step call
      rw [run_bind]
      rcases (stageToken p inputs row).run.run s with ⟨e | o, t⟩ <;> rfl
    rw [hst]
    generalize (stageToken p inputs row).run.run s = out at hen
    obtain ⟨e | o, t⟩ := out
    · exact hen.matches_iff h
    · exact Left.matches_iff h (.inl hen.1)
  · have hu := untouched_call (p := p) (fun inputs row he => hc ⟨inputs, row, he⟩) s
    have htrue : Spares p s c := by
      cases c with
      | stageToken inputs row => exact absurd ⟨inputs, row, rfl⟩ hc
      | _ => trivial
    refine iff_of_true ?_ htrue
    unfold SlotSession.step
    exact (hu.state (fun _ _ h => h) fun _ _ h => h).matches h

lemma Matches.predicts {i : SpeculativeDraftInputs} {pr : MtpPrediction}
    (ho : (SlotSession.step p s (.stageToken i row)).2 = .ok (some pr)) :
    pr = p.predict s.rows row fun slot => expert p (p.route s.rows row slot) := by
  have hen := @staged_stageToken _ p row i s
  unfold SlotSession.step call at ho
  rw [run_bind] at ho
  generalize (stageToken p i row).run.run s = out at hen ho
  obtain ⟨e | o, t⟩ := out
  · cases ho
  · cases ho
    obtain ⟨⟨hp, -⟩, rfl⟩ := hen
    exact congrArg _ (funext (hp.holds h))

def create (capacity : Nat) (predictions : Nat → MtpPrediction) (script : List (Option MtpError))
    (gateUpSlots downSlots : Slot → Bytes) : SlotSession α :=
  { capacity, predictions, script, gateUpSlots, downSlots
    attentionCache := { capacityTokens := capacity } }

lemma matches_run_iff (calls : List (MtpCall α)) :
    (∀ d, d <+: calls → Matches p (Machine.run (step p) s d)) ↔
    Machine.Meets (step p) (Spares p) s calls := by
  induction calls generalizing s with
  | nil =>
    refine iff_of_true (fun d hd => ?_) trivial
    rw [List.prefix_nil.1 hd]
    exact h
  | cons c calls ih =>
    constructor
    · intro ha
      have hn : Matches p (SlotSession.step p s c).1 := ha [c] (by simp)
      refine ⟨(matches_step_iff h c).1 hn, (ih hn).1 fun d hd => ?_⟩
      exact ha (c :: d) (List.cons_prefix_cons.2 ⟨rfl, hd⟩)
    · rintro ⟨hs, hm⟩ d hd
      rcases d with _ | ⟨first, d⟩
      · exact h
      · obtain ⟨rfl, hr⟩ := List.cons_prefix_cons.1 hd
        exact (ih ((matches_step_iff h _).2 hs)).2 hm d hr

omit h

/-- The slots match their tags in every state of a run exactly when no stage of it stops in its
paging with a copy of other bytes in a slot under the tag of an expert, and then every prediction
comes from the experts of its route. -/
theorem slots_match_tags_iff (p : MtpProvider α) (capacity : Nat)
    (predictions : Nat → MtpPrediction) (script : List (Option MtpError))
    (gateUpSlots downSlots : Slot → Bytes)
    (calls : List (MtpCall α)) :
    let s₀ : SlotSession α := create capacity predictions script gateUpSlots downSlots
    ((∀ done, done <+: calls → Matches p (Machine.run (step p) s₀ done)) ↔
      Machine.Meets (step p) (Spares p) s₀ calls) ∧
    (Machine.Meets (step p) (Spares p) s₀ calls →
      ∀ done inputs row prediction, done ++ [.stageToken inputs row] <+: calls →
        let s := Machine.run (step p) s₀ done
        (step p s (.stageToken inputs row)).2 = .ok (some prediction) →
        prediction = p.predict s.rows row fun slot => expert p (p.route s.rows row slot)) := by
  intro s₀
  have hf : Matches p s₀ := fun _ h => absurd h (show ¬ (0xFFFFFFFF : UInt32) < 512 by decide)
  refine ⟨matches_run_iff hf calls, fun hm done inputs row prediction hd => ?_⟩
  exact ((matches_run_iff hf calls).2 hm done
    ((List.prefix_append done _).trans hd)).predicts

/-- Ten experts for each of two rows; the prediction is the first byte of the first slot. -/
def twoRoutes : MtpProvider Nat where
  gateUp e := [e.toUInt8]
  down e := [e.toUInt8]
  route _ row slot := UInt32.ofNat (10 * row + slot)
  predict _ _ planes := ⟨UInt32.ofNat ((planes 0).1.headD 0).toNat, 0⟩

def allInputs : SpeculativeDraftInputs := ⟨1, 1, 1, 1, 4, 1⟩

def tornSession : SlotSession Nat := create 8 (fun _ => {}) (List.replicate 56 none ++
    [some ⟨.expertPagingError, "MTP expert NVMe read failed", by decide⟩]) (fun _ => []) fun _ => []

theorem torn_slot_mispredicts :
    let calls := [.stageToken allInputs 0, .rollback, .stageToken allInputs 1]
    let s := Machine.run (step twoRoutes) tornSession calls
    ¬ Matches twoRoutes s ∧
      (step twoRoutes s (.stageToken allInputs 0)).2.toOption = some (some ⟨10, 0⟩) ∧
      (step twoRoutes tornSession (.stageToken allInputs 0)).2.toOption = some (some ⟨0, 0⟩) := by
  intro calls s
  refine ⟨fun h => absurd (h 0 (by decide +kernel)) (by decide +kernel), ?_, ?_⟩
  · decide +kernel
  · decide +kernel

end SlotSession

end AxiomKernel.Qwen4exp
