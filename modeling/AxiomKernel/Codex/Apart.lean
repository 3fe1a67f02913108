import AxiomKernel.Codex.Prepare
import AxiomKernel.Lib.Relate

/-!
# Two runs that differ in one definition

Two runs of `prepare` whose maps differ at most at the wire names of one definition. Whatever has
other wire names is done alike on both sides; what the definition itself writes before it is
declared is unseen from the other side.
-/
namespace AxiomKernel.Codex

open Ajson Image Text Relate Hoare List Function Option

section
variable (c : Checks)

variable (scope : Bytes) (tool : Ajson)

def baseId : Identity := ⟨toolName tool, effectiveScope scope tool, []⟩

def ownIds : List Identity :=
  if (toolName tool).isEmpty then [] else [baseId scope tool]

def variantIds : List Identity :=
  match alternativesOf c (nestedOf tool) [] with
  | .ok alternatives => alternatives.map fun branch =>
    ⟨toolName tool, effectiveScope scope tool, c.dumps branch⟩
  | .error _ => []

def leafIds : List Identity :=
  if (toolName tool).isEmpty then []
  else baseId scope tool ::
    if isFunction scope (tool.stringField "type") then variantIds c scope tool else []

def rawNames : List Bytes :=
  if isFunction scope (tool.stringField "type") ∨ tool.stringField "type" = ascii "namespace" ∨
      tool.stringField "type" = ascii "tool_search" ∨ toolName tool = [] then []
  else [toolName tool]

def childrenOf : Option (List Ajson) :=
  match tool.field "tools" with
  | some (.arr tools) => if (tool.stringField "name").isEmpty then none else some tools
  | _ => none

def outerIds : List Identity :=
  if tool.stringField "type" = ascii "namespace" then
    match childrenOf tool with
    | some children => children.flatMap (leafIds c (tool.stringField "name"))
    | none => ownIds [] tool
  else if tool.stringField "type" = ascii "tool_search" then
    ownIds [] tool ++ leafIds c [] (searchFunction tool)
  else leafIds c [] tool

def outerRawNames : List Bytes :=
  if tool.stringField "type" = ascii "namespace" then
    match childrenOf tool with
    | some children => children.flatMap (rawNames (tool.stringField "name"))
    | none => []
  else rawNames [] tool
end

/-- The identities of a request, no two of which share a wire name, and the wire names of the
definition that is looked at. -/
structure Setting (c : Checks) where
  ids : Identity → Prop
  wires : Bytes → Prop
  named : ∀ id, ids id → id.name ≠ []
  distinct : ∀ id id', ids id → ids id' → wireName c.sha256 id = wireName c.sha256 id' → id = id'
  nil_apart : ¬ wires []

variable {c : Checks}

variable (p : Setting c)

def BoundBy (reverse : Reverse) : Prop :=
  ∀ wire id, reverse wire = some id → p.ids id ∧ wireName c.sha256 id = wire

/-- The maps differ at most at the wire names of the definition. On the left, `K` says what
variants are listed there; on the right there are none. -/
structure Apart (K : Bytes → Option (List Bytes) → Prop) (s s' : Catalog) :
    Prop where
  bound : BoundBy p s.reverse
  bound' : BoundBy p s'.reverse
  branches : AgreeOff p.wires s.branches s'.branches
  variants : AgreeOff p.wires s.variants s'.variants
  declared : AgreeOff p.wires s.declared s'.declared
  prepared : AgreeOff p.wires s.preparedDefinitions s'.preparedDefinitions
  unavailable : AgreeOff p.wires s.unavailable s'.unavailable
  search : s.toolSearchWire = s'.toolSearchWire
  selected : s.selected = s'.selected
  restricted : s.restrictCatalog = s'.restrictCatalog
  listed : ∀ wire wires, s.variants wire = some wires →
    ∀ other ∈ wires, (p.wires other ↔ p.wires wire)
  stored : ∀ wire tools, ¬ p.wires wire → s.preparedDefinitions wire = some tools →
    ∀ tool ∈ tools, ¬ p.wires (toolName tool)
  kept : ∀ wire, p.wires wire → K wire (s.variants wire)
  fresh : ∀ wire, p.wires wire → s'.variants wire = none

variable {p : Setting c} {K : Bytes → Option (List Bytes) → Prop} {s s' : Catalog}

variable {id : Identity}
  {reverse : Reverse} {wires : List Bytes} {K' : Bytes → Option (List Bytes) → Prop}
  {alternatives tools prepared : List Ajson} {out : List Bytes × List Ajson} {encoded : Bytes}

lemma BoundBy.update (h : BoundBy p reverse) (hi : p.ids id) :
    BoundBy p (update reverse (wireName c.sha256 id) (some id)) := by
  intro wire o ho
  by_cases hwire : wire = wireName c.sha256 id
  · rw [hwire, update_self] at ho
    cases ho
    exact ⟨hi, hwire.symm⟩
  · rw [update_of_ne hwire] at ho
    exact h wire o ho

lemma BoundBy.bind (h : BoundBy p reverse) (hi : p.ids id) : bind c.sha256 reverse id =
    .ok (wireName c.sha256 id, Function.update reverse (wireName c.sha256 id) (some id)) := by
  refine (bind_eq_ok_iff c.sha256).2 ⟨p.named id hi, ?_, rfl⟩
  unfold collides
  split
  · rfl
  next o ho =>
    obtain ⟨hids, hwire⟩ := h _ _ ho
    rw [p.distinct o id hids hi hwire]
    exact decide_eq_false (not_not_intro rfl)

lemma run_get_bind {α : Type} (f : Catalog → M α) (s : Catalog) :
    (get >>= f).run.run s = (f s).run.run s := rfl

lemma run_bindWire (h : BoundBy p s.reverse) (hi : p.ids id) :
    (bindWire c id).run.run s = (.ok (wireName c.sha256 id),
    { s with reverse := Function.update s.reverse (wireName c.sha256 id) (some id) }) := by
  unfold bindWire
  rw [run_get_bind, h.bind hi]
  rfl

lemma run_bindWire_nil (h : id.name = []) (s : Catalog) :
    ∃ e, (bindWire c id).run.run s = (.error e, s) := by
  rcases hbind : bind c.sha256 s.reverse id with e | out
  · refine ⟨.other (ascii e), ?_⟩
    unfold bindWire
    rw [run_get_bind, hbind]
    rfl
  · exact absurd h ((bind_eq_ok_iff c.sha256).1 hbind).1

lemma Apart.bind_left (h : Apart p K s s') (hid : p.ids id) :
    Apart p K { s with reverse := update s.reverse (wireName c.sha256 id) (some id) } s' :=
  { h with bound := h.bound.update hid }

lemma Apart.bind_right (h : Apart p K s s') (hid : p.ids id) : Apart p K s { s' with
    reverse := update s'.reverse (wireName c.sha256 id) (some id) } :=
  { h with bound' := h.bound'.update hid }

lemma surely_bindWire (hi : p.ids id) :
    Surely (Apart p K) (fun wire => wire = wireName c.sha256 id) (bindWire c id) (bindWire c id) :=
  fun _ _ h => ⟨_, _, _, run_bindWire h.bound hi, run_bindWire h.bound' hi, rfl,
    (h.bind_left hi).bind_right hi⟩

lemma related_bindWire (hi : id.name ≠ [] → p.ids id) :
    Related (Apart p K) (fun wire => wire = wireName c.sha256 id ∧ p.ids id) (bindWire c id)
      (bindWire c id) := by
  by_cases hname : id.name = []
  · intro s s' h
    obtain ⟨e, hr⟩ := run_bindWire_nil (c := c) hname s
    obtain ⟨e', hr'⟩ := run_bindWire_nil (c := c) hname s'
    rw [hr, hr']
    exact h
  · exact (surely_bindWire (hi hname)).related.imp fun _ hwire => ⟨hwire, hi hname⟩

lemma unseen_bindWire (hi : id.name ≠ [] → p.ids id) :
    Unseen (Apart p K) (fun wire => wire = wireName c.sha256 id ∧ p.ids id) (bindWire c id) := by
  intro s s' h
  by_cases hname : id.name = []
  · obtain ⟨e, hr⟩ := run_bindWire_nil (c := c) hname s
    rw [hr]
    exact ⟨h, nofun⟩
  · rw [run_bindWire h.bound (hi hname)]
    refine ⟨h.bind_left (hi hname), fun wire hwire => ?_⟩
    cases hwire
    exact ⟨rfl, hi hname⟩

lemma Apart.push (h : Apart p K s s') (d d' : Ajson) :
    Apart p K (pushDiagnostic d s) (pushDiagnostic d' s') := { h with }

lemma Apart.push_left (h : Apart p K s s') (d : Ajson) :
    Apart p K (pushDiagnostic d s) s' := { h with }

variable {wire : Bytes}

lemma mem_getD_variants {o : Bytes} (hm : o ∈ (s.variants wire).getD []) :
    ∃ wires, s.variants wire = some wires ∧ o ∈ wires := by
  rcases hfo : s.variants wire with _ | wires <;> rw [hfo] at hm
  · cases hm
  · exact ⟨wires, rfl, hm⟩

section
variable (h : Apart p K s s')
include h

lemma Apart.listed_update (wire : Bytes) (hw : ∀ o ∈ wires, (p.wires o ↔ p.wires wire))
    (name : Bytes) (fo : List Bytes)
    (hf : update s.variants wire (some wires) name = some fo) :
    ∀ o ∈ fo, (p.wires o ↔ p.wires name) := by
  by_cases hname : name = wire
  · rw [hname, update_self] at hf
    cases hf
    rw [hname]
    exact hw
  · rw [update_of_ne hname] at hf
    exact h.listed name fo hf

lemma Apart.listed_getD (wire : Bytes) :
    ∀ o ∈ (s.variants wire).getD [], (p.wires o ↔ p.wires wire) := by
  intro o ho
  obtain ⟨wires, hf, hm⟩ := mem_getD_variants ho
  exact h.listed wire wires hf o hm

section
variable (hwire : ¬ p.wires wire) (wires : Option (List Bytes)) (name : Bytes)
  (hname : p.wires name)
include hwire hname

lemma Apart.kept_update : K name (update s.variants wire wires name) := by
  have hn : name ≠ wire := fun he => hwire (he ▸ hname)
  rw [update_of_ne hn]
  exact h.kept name hname

lemma Apart.fresh_update : update s'.variants wire wires name = none := by
  have hn : name ≠ wire := fun he => hwire (he ▸ hname)
  rw [update_of_ne hn]
  exact h.fresh name hname

end

lemma Apart.markRejected (hwire : ¬ p.wires wire) :
    Apart p K (markRejected wire s) (markRejected wire s') := by
  have hs := h.variants wire hwire
  refine { h with
    variants := ?_, unavailable := ?_, listed := h.listed_update wire (h.listed_getD wire)
    kept := h.kept_update hwire _, fresh := h.fresh_update hwire _ }
  · change AgreeOff p.wires (update s.variants wire (some ((s.variants wire).getD [])))
      (update s'.variants wire (some ((s'.variants wire).getD [])))
    rw [hs]
    exact h.variants.update wire _
  · intro o ho
    change (s.unavailable o || o == wire || ((s.variants wire).getD []).contains o) =
      (s'.unavailable o || o == wire || ((s'.variants wire).getD []).contains o)
    rw [h.unavailable o ho, hs]

lemma Apart.markRejected_left (hwire : p.wires wire)
    (hK : ∀ o, p.wires o → o ≠ wire → K o (s.variants o) →
    K' o (s.variants o)) (hK' : K' wire (some ((s.variants wire).getD []))) :
    Apart p K' (Codex.markRejected wire s) s' := by
  refine { h with
    variants := h.variants.update_left hwire _, unavailable := ?_
    listed := h.listed_update wire (h.listed_getD wire), kept := ?_ }
  · intro o ho
    have hn : (o == wire) = false := beq_false_of_ne fun he => ho (he ▸ hwire)
    have hu : ((s.variants wire).getD []).contains o = false := by
      rw [← Bool.not_eq_true, contains_iff_mem]
      exact fun hm => ho ((h.listed_getD wire o hm).2 hwire)
    change (s.unavailable o || o == wire || ((s.variants wire).getD []).contains o) =
      s'.unavailable o
    rw [hn, hu, Bool.or_false, Bool.or_false, h.unavailable o ho]
  · intro o ho
    change K' o (update s.variants wire (some ((s.variants wire).getD [])) o)
    by_cases he : o = wire
    · rw [he, update_self]
      exact hK'
    · rw [update_of_ne he]
      exact hK o ho he (h.kept o ho)

end

variable {scope : Bytes} {tool : Ajson}

lemma mem_ownIds (h : ¬ (toolName tool).isEmpty) : baseId scope tool ∈ ownIds scope tool := by
  rw [ownIds, if_neg h]
  exact mem_singleton_self _

def Clear (p : Setting c) (ids : List Identity) : Prop :=
  ∀ id ∈ ids, p.ids id ∧ ¬ p.wires (wireName c.sha256 id)

def Own (p : Setting c) (ids : List Identity) : Prop :=
  ∀ id ∈ ids, p.ids id ∧ p.wires (wireName c.sha256 id)

lemma surely_reject (ho : Clear p (ownIds scope tool)) (path p' : Bytes) (fa f' : Failure) :
    Surely (Apart p K) (fun _ => True) (reject c tool (effectiveScope scope tool) path fa)
      (reject c tool (effectiveScope scope tool) p' f') := by
  unfold reject
  split
  next => exact surely_modify fun s s' h => h.push _ _
  next hname =>
    obtain ⟨hi, hwire⟩ := ho _ (mem_ownIds hname)
    refine (surely_bindWire hi).bind fun wire he => surely_modify fun s s' h => ?_
    exact (h.markRejected (he ▸ hwire)).push _ _

def NoneLeft (own : List Identity) : Bytes → Option (List Bytes) → Prop :=
  fun wire wires => (∃ id ∈ own, wireName c.sha256 id = wire) → wires = some []

def Unlisted : Bytes → Option (List Bytes) → Prop := fun _ wires => wires = none

lemma Apart.weaken (h : Apart p K s s') (hK : ∀ wire wires, K wire wires → K' wire wires) :
    Apart p K' s s' :=
  { h with kept := fun wire hwire => hK wire _ (h.kept wire hwire) }

lemma Apart.reject_left (h : Apart p Unlisted s s') (ho : Own p (ownIds scope tool))
    (path : Bytes) (fa : Failure) :
    ∃ t, (reject c tool (effectiveScope scope tool) path fa).run.run s = (.ok (), t) ∧
    Apart p (NoneLeft (c := c) (ownIds scope tool)) t s' := by
  unfold reject
  split
  next hname =>
    refine ⟨_, rfl, (h.weaken fun wire wires _ hwire => ?_).push_left _⟩
    rw [ownIds, if_pos hname] at hwire
    obtain ⟨id, hi, _⟩ := hwire
    cases hi
  next hname =>
    obtain ⟨hi, hwire⟩ := ho _ (mem_ownIds hname)
    refine ⟨_, run_bind_ok (run_bindWire h.bound hi) _, ?_⟩
    have hbo := h.bind_left hi
    refine (hbo.markRejected_left hwire ?_ ?_).push_left _
    · rintro o _ hn _ ⟨id, hm, he⟩
      rw [ownIds, if_neg hname, mem_singleton] at hm
      exact absurd (he.symm.trans (congrArg _ hm)) hn
    · rintro -
      rw [hbo.kept _ hwire]
      rfl

lemma unseen_reject (ho : Own p (ownIds scope tool)) (hK : ∀ wire wires, K wire wires)
    (path : Bytes) (fa : Failure) : Unseen (Apart p K) (fun _ => True)
      (reject c tool (effectiveScope scope tool) path fa) := by
  unfold reject
  split
  next => exact unseen_modify fun s s' h => h.push_left _
  next hname =>
    obtain ⟨hi, hwire⟩ := ho _ (mem_ownIds hname)
    refine (unseen_bindWire fun _ => hi).bind fun wire he => unseen_modify fun s s' h => ?_
    exact (h.markRejected_left (he.1 ▸ hwire) (fun _ _ _ hk => hk) (hK _ _)).push_left _

variable {α : Type} {Q : α → Prop}

lemma related_liftExcept {a b : Except Failure α}
    (h : ∀ x, a = .ok x → b = .ok x ∧ Q x) (h' : ∀ x, b = .ok x → a = .ok x) :
    Related (Apart p K) Q (liftExcept a) (liftExcept b) := by
  intro s s' hR
  rcases a with e | x
  · rcases b with e' | y
    · exact hR
    · exact absurd (h' y rfl) nofun
  · obtain ⟨rfl, hQ⟩ := h x rfl
    exact ⟨rfl, hQ, hR⟩

lemma unseen_liftExcept {a : Except Failure α} (h : ∀ x, a = .ok x → Q x) :
    Unseen (Apart p K) Q (liftExcept a) := by
  rcases a with e | x
  · exact unseen_throw e
  · exact unseen_pure (h x rfl)

variable {definition described : Ajson} {path : Bytes}

section
variable (h : describeCustomFormat c definition path = .ok described)
include h

lemma describeCustomFormat_path (p' : Bytes) :
    describeCustomFormat c definition p' = .ok described := by
  unfold describeCustomFormat at h ⊢
  split at h
  · exact h
  · exact h
  · dsimp only at h ⊢
    split_ifs at h ⊢ <;> exact h
  · cases h

lemma field_describeCustomFormat : described.field "function" = definition.field "function" := by
  unfold describeCustomFormat at h
  split at h
  · cases h
    rfl
  · cases h
    rfl
  · dsimp only at h
    split_ifs at h <;> cases h
    · rfl
    · rfl
    · exact field_set_of_ne (by decide) _
  · cases h

end

variable (h : alternativesOf c definition path = .ok alternatives)
include h

lemma alternativesOf_path (p' : Bytes) : alternativesOf c definition p' = .ok alternatives := by
  unfold alternativesOf at h ⊢
  split at h
  · exact h
  · exact c.lower_path _ _ _ _ h

lemma alternativesOf_ne_nil : alternatives ≠ [] := by
  rintro rfl
  unfold alternativesOf at h
  split at h
  · cases h
  · exact c.lower_ne_nil _ _ h

omit h

section
variable (f : FunctionTool)

lemma related_describe (path p' : Bytes) :
    Related (Apart p K) (fun described => described.field "function" =
      f.definition.field "function") (describe c f path) (describe c f p') := by
  unfold describe
  split
  · exact related_liftExcept
      (fun x hx => ⟨describeCustomFormat_path hx p', field_describeCustomFormat hx⟩)
      fun x hx => describeCustomFormat_path hx path
  · exact related_pure rfl

lemma unseen_describe (path : Bytes) : Unseen (Apart p K) (fun _ => True) (describe c f path) := by
  unfold describe
  split
  · exact unseen_liftExcept fun _ _ => trivial
  · exact unseen_pure trivial

lemma field_function (described : Ajson) (wire : Bytes) (branch : Ajson) :
    (f.function c described wire branch).field "name" = some (.str wire) ∧
    (f.function c described wire branch).field "function" = described.field "function" := by
  unfold FunctionTool.function
  dsimp only
  constructor
  · split_ifs <;>
      simp only [field_set_of_ne (show cString (ascii "name") ≠ ascii "description" by decide),
        field_set_of_ne (show cString (ascii "name") ≠ ascii "parameters" by decide),
        field_erase_of_ne (show cString (ascii "name") ≠ ascii "namespace" by decide),
        field_set_self _ (show cString (ascii "name") = ascii "name" by decide)]
  · split_ifs <;>
      simp only [field_set_of_ne (show cString (ascii "function") ≠ ascii "description" by decide),
        field_set_of_ne (show cString (ascii "function") ≠ ascii "parameters" by decide),
        field_set_of_ne (show cString (ascii "function") ≠ ascii "name" by decide),
        field_erase_of_ne (show cString (ascii "function") ≠ ascii "namespace" by decide)]

lemma toolName_candidate (wire : Bytes) (branch : Ajson)
    (h : described.field "function" = f.definition.field "function") :
    toolName (f.candidate c described wire branch) = wire := by
  obtain ⟨hname, hf⟩ := field_function (c := c) f described wire branch
  have ht : cString (ascii "function") ≠ ascii "type" := by decide
  have hn : (nestedOf (f.candidate c described wire branch)).field "name" =
      some (.str wire) := by
    unfold FunctionTool.candidate nestedOf
    dsimp only
    rcases horig : f.original.field "function" with _ | inner
    · have hd : f.definition = f.original := by
        rw [FunctionTool.definition, nestedOf, horig, getD_none]
      rw [hd, horig] at h
      split_ifs
      · rw [field_set_of_ne ht, hf, h, getD_none, field_set_of_ne (by decide), hname]
      · rw [hf, h, getD_none, hname]
    · split_ifs
      · rw [field_set_of_ne ht, field_set_self _ (by decide), getD_some, hname]
      · rw [field_set_self _ (by decide), getD_some, hname]
  exact stringField_of_field hn

end

lemma toolName_deferred (replay : Bool) (tool : Ajson) :
    toolName (deferred replay tool) = toolName tool := by
  unfold deferred
  split
  · have hf : (tool.set (ascii "defer_loading") (.bool true)).field "function" =
        tool.field "function" := field_set_of_ne (by decide) _
    unfold toolName nestedOf stringField
    rw [hf]
    rcases tool.field "function" with _ | inner
    · rw [getD_none, getD_none, field_set_of_ne (by decide)]
    · rfl
  · rfl

def branchId (c : Checks) (f : FunctionTool) (branch : Ajson) : Identity :=
  ⟨f.name, f.scope, c.dumps branch⟩

variable {f : FunctionTool} {branch : Ajson}

lemma related_branchWire (hbase : ¬ p.wires f.base) (hi : Clear p [branchId c f branch]) :
    Related (Apart p K) (fun wire => ¬ p.wires wire) (branchWire c f branch)
      (branchWire c f branch) := by
  unfold branchWire
  obtain ⟨hids, hwire⟩ := hi _ mem_cons_self
  split
  · exact related_pure hbase
  · exact (related_bindWire fun _ => hids).imp fun wire he => he.1 ▸ hwire

lemma unseen_branchWire (hbase : p.wires f.base) (hi : Own p [branchId c f branch]) :
    Unseen (Apart p K) p.wires (branchWire c f branch) := by
  unfold branchWire
  obtain ⟨hids, hwire⟩ := hi _ mem_cons_self
  split
  · exact unseen_pure hbase
  · exact (unseen_bindWire fun _ => hids).imp fun wire he => he.1 ▸ hwire

lemma Apart.recordBranch (h : Apart p K s s') (f : FunctionTool) (branch : Ajson) :
    Apart p K (recordBranch f wire branch s) (recordBranch f wire branch s') := by
  unfold Codex.recordBranch
  split
  · exact { h with branches := h.branches.update wire _ }
  · exact h

lemma Apart.recordBranch_left (h : Apart p K s s') (f : FunctionTool) (hwire : p.wires wire)
    (branch : Ajson) : Apart p K (Codex.recordBranch f wire branch s) s' := by
  unfold Codex.recordBranch
  split
  · exact { h with branches := h.branches.update_left hwire _ }
  · exact h

def ClearTools (p : Setting c) (tools : List Ajson) : Prop :=
  ∀ tool ∈ tools, ¬ p.wires (toolName tool)

lemma ClearTools.append {ts' : List Ajson} (h : ClearTools p tools) (h' : ClearTools p ts') :
    ClearTools p (tools ++ ts') := by
  intro tool hm
  rcases mem_append.1 hm with hm | hm
  · exact h tool hm
  · exact h' tool hm

lemma ClearTools.deferred (h : ClearTools p tools) (replay : Bool) :
    ClearTools p (tools.map (deferred replay)) := by
  intro tool hm
  obtain ⟨tool, hs, rfl⟩ := mem_map.1 hm
  rw [toolName_deferred]
  exact h tool hs

lemma related_defineBranch (hbase : ¬ p.wires f.base)
    (hids : Clear p (f.alternatives.map (branchId c f))) (path p' : Bytes)
    (ho : (∀ wire ∈ out.1, ¬ p.wires wire) ∧ ClearTools p out.2)
    (hb : branch ∈ f.alternatives) :
    Related (Apart p K) (fun out => (∀ wire ∈ out.1, ¬ p.wires wire) ∧ ClearTools p out.2)
      (defineBranch c f path out branch) (defineBranch c f p' out branch) := by
  have hi : Clear p [branchId c f branch] := by
    intro id hm
    rw [mem_singleton.1 hm]
    exact hids _ (mem_map_of_mem hb)
  unfold defineBranch
  refine (related_describe f path p').bind fun described hd => ?_
  refine (related_branchWire hbase hi).bind fun wire hwire => ?_
  rcases c.toolCheck (f.candidate c described wire branch) with _ | error
  · refine (surely_modify fun s s' h => h.recordBranch f branch).related.bind fun _ _ => ?_
    refine related_pure ?_
    split_ifs
    · exact ho
    · constructor
      · intro o hm
        rcases mem_append.1 hm with hm | hm
        · exact ho.1 o hm
        · rwa [mem_singleton.1 hm]
      · refine ho.2.append fun tool hm => ?_
        rwa [mem_singleton.1 hm, toolName_candidate f wire branch hd]
  · exact related_throw _ _

lemma unseen_defineBranch (hbase : p.wires f.base)
    (hids : Own p (f.alternatives.map (branchId c f))) (path : Bytes)
    (ho : ∀ wire ∈ out.1, p.wires wire) (hb : branch ∈ f.alternatives) :
    Unseen (Apart p K) (fun out => ∀ wire ∈ out.1, p.wires wire)
      (defineBranch c f path out branch) := by
  have hi : Own p [branchId c f branch] := by
    intro id hm
    rw [mem_singleton.1 hm]
    exact hids _ (mem_map_of_mem hb)
  unfold defineBranch
  refine (unseen_describe f path).bind fun described _ => ?_
  refine (unseen_branchWire hbase hi).bind fun wire hwire => ?_
  rcases c.toolCheck (f.candidate c described wire branch) with _ | error
  · refine (unseen_modify fun s s' h => h.recordBranch_left f hwire branch).bind fun _ _ => ?_
    refine unseen_pure ?_
    split_ifs
    · exact ho
    · intro o hm
      rcases mem_append.1 hm with hm | hm
      · exact ho o hm
      · rwa [mem_singleton.1 hm]
  · exact unseen_throw _

lemma Apart.recordTool (h : Apart p K s s') {base : Bytes} (hbase : ¬ p.wires base)
    (hw : ∀ wire ∈ wires, ¬ p.wires wire) (hp : ClearTools p prepared) :
    Apart p K (recordTool base encoded wires prepared s)
    (recordTool base encoded wires prepared s') := by
  refine { h with
    variants := h.variants.update base _, declared := h.declared.update base _
    prepared := h.prepared.update base _, listed := h.listed_update base ?_, stored := ?_
    kept := h.kept_update hbase _, fresh := h.fresh_update hbase _ }
  · exact fun o ho => iff_of_false (hw o ho) hbase
  · intro wire tools hwire hf
    change update s.preparedDefinitions base (some prepared) wire = some tools at hf
    by_cases he : wire = base
    · rw [he, update_self] at hf
      cases hf
      exact hp
    · rw [update_of_ne he] at hf
      exact h.stored wire tools hwire hf

variable {base : Bytes}

lemma Apart.recordTool_left (h : Apart p K s s') (hbase : p.wires base)
    (hw : ∀ wire ∈ wires, p.wires wire) (hK : ∀ wire wires, K wire wires) :
    Apart p K (Codex.recordTool base encoded wires prepared s) s' := by
  refine { h with
    variants := h.variants.update_left hbase _, declared := h.declared.update_left hbase _
    prepared := h.prepared.update_left hbase _, listed := h.listed_update base ?_, stored := ?_
    kept := fun _ _ => hK _ _ }
  · exact fun o ho => iff_of_true (hw o ho) hbase
  · intro wire tools hwire hf
    have hn : wire ≠ base := fun he => hwire (he ▸ hbase)
    change update s.preparedDefinitions base (some prepared) wire = some tools at hf
    rw [update_of_ne hn] at hf
    exact h.stored wire tools hwire hf

def Alternatives (P : List Identity → Prop) (c : Checks) (original : Ajson)
    (name scope : Bytes) : Prop :=
  ∀ alternatives, alternativesOf c (nestedOf original) [] = .ok alternatives →
    P (alternatives.map fun branch => ⟨name, scope, c.dumps branch⟩)

lemma headD_mem {xs : List α} (h : xs ≠ []) (a : α) : xs.headD a ∈ xs := by
  cases xs with
  | nil => exact absurd rfl h
  | cons x xs => exact mem_cons_self

variable {original : Ajson} {type name : Bytes}

lemma related_defineBranches (path p' : Bytes) (hbase : ¬ p.wires base)
    (hids : Alternatives (Clear p) c original name scope) :
    Related (Apart p K) (fun out => (∀ wire ∈ out.1, ¬ p.wires wire) ∧ ClearTools p out.2)
      (defineBranches c original type scope path name base)
      (defineBranches c original type scope p' name base) := by
  unfold defineBranches
  have ha : Related (Apart p K)
      (fun alternatives => alternativesOf c (nestedOf original) [] = .ok alternatives)
      (liftExcept (alternativesOf c (nestedOf original) path))
      (liftExcept (alternativesOf c (nestedOf original) p')) :=
    related_liftExcept (fun x hx => ⟨alternativesOf_path hx p', alternativesOf_path hx []⟩)
      fun x hx => alternativesOf_path hx path
  refine ha.bind fun alternatives hok => ?_
  have hcl := hids alternatives hok
  have hh := headD_mem (alternativesOf_ne_nil hok) (.obj [])
  refine (related_branchWire hbase ?_).bind fun pr _ => ?_
  · intro id hm
    rw [mem_singleton.1 hm]
    exact hcl _ (mem_map_of_mem hh)
  refine Related.foldlM (fun out ho branch hb =>
    related_defineBranch hbase hcl path p' ho hb) ⟨?_, ?_⟩
  · exact fun _ hm => absurd hm not_mem_nil
  · exact fun _ hm => absurd hm not_mem_nil

lemma unseen_defineBranches (path : Bytes) (hbase : p.wires base)
    (hids : Alternatives (Own p) c original name scope) :
    Unseen (Apart p K) (fun out => ∀ wire ∈ out.1, p.wires wire)
      (defineBranches c original type scope path name base) := by
  unfold defineBranches
  have ha : Unseen (Apart p K)
      (fun alternatives => alternativesOf c (nestedOf original) [] = .ok alternatives)
      (liftExcept (alternativesOf c (nestedOf original) path)) :=
    unseen_liftExcept fun x hx => alternativesOf_path hx []
  refine ha.bind fun alternatives hok => ?_
  have hown := hids alternatives hok
  have hh := headD_mem (alternativesOf_ne_nil hok) (.obj [])
  refine (unseen_branchWire hbase ?_).bind fun pr _ => ?_
  · intro id hm
    rw [mem_singleton.1 hm]
    exact hown _ (mem_map_of_mem hh)
  refine Unseen.foldlM (fun out ho branch hb =>
    unseen_defineBranch hbase hown path ho hb) ?_
  exact fun _ hm => absurd hm not_mem_nil

lemma related_defineNew (path p' : Bytes) (replay : Bool) (hbase : ¬ p.wires base)
    (hids : Alternatives (Clear p) c original name scope) :
    Related (Apart p K) (ClearTools p) (defineNew c original type scope path replay name base)
    (defineNew c original type scope p' replay name base) := by
  unfold defineNew
  refine (related_defineBranches path p' hbase hids).bind fun out ho => ?_
  refine (surely_modify fun s s' h => h.recordTool hbase ho.1 ho.2).related.bind fun _ _ => ?_
  exact related_pure (ho.2.deferred replay)

section
variable (path : Bytes) (replay : Bool) (hbase : p.wires base)
  (hids : Alternatives (Own p) c original name scope)
include hbase hids

lemma unseen_defineNew (hK : ∀ wire wires, K wire wires) :
    Unseen (Apart p K) (fun _ => True) (defineNew c original type scope path replay name base) := by
  unfold defineNew
  refine (unseen_defineBranches path hbase hids).bind fun out ho => ?_
  refine (unseen_modify fun s s' h => h.recordTool_left hbase ho hK).bind fun _ _ => ?_
  exact unseen_pure trivial

lemma unseenFailure_defineNew :
    UnseenFailure (Apart p K) (defineNew c original type scope path replay name base) := by
  unfold defineNew
  exact UnseenFailure.bind (unseen_defineBranches path hbase hids) fun out _ =>
    unseenFailure_modify _ _

end

lemma related_defineAgain (h : Apart p K s s') (hbase : ¬ p.wires base) (original : Ajson)
    (path p' : Bytes) (replay : Bool) (pr : Bytes) : Related (Apart p K) (ClearTools p)
    (liftExcept (defineAgain c original path replay base pr s))
    (liftExcept (defineAgain c original p' replay base pr s')) := by
  unfold defineAgain
  split
  · refine related_liftExcept (fun tools ht => ?_) fun tools ht => ?_
    · refine ⟨by rw [← h.prepared base hbase, ht], ?_⟩
      cases ht
      split
      · refine ClearTools.deferred (fun tool hm => ?_) true
        rcases hfo : s.preparedDefinitions base with _ | tools <;> rw [hfo] at hm
        · cases hm
        · exact h.stored base tools hbase hfo tool hm
      · exact fun _ hm => absurd hm not_mem_nil
    · rw [h.prepared base hbase, ht]
  · exact related_throw _ _

end AxiomKernel.Codex
