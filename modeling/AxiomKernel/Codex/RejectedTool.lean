import AxiomKernel.Codex.Rejection

/-!
# A rejected tool and the rest of the request

The rejection of a definition leaves an empty list of variants at its wire name. A call of the
history to that tool then finds no alternative and `prepare` fails; whatever else the request holds
is prepared as if the definition were not there.
-/
namespace AxiomKernel.Codex

open Catalog Ajson Image Text Relate Hoare
open List hiding Vector set_set

variable {c : Checks} {p : Setting c} {K : Bytes → Option (List Bytes) → Prop} {s s' : Catalog}

def callId (item : Ajson) : Identity :=
  ⟨item.stringField "name", item.stringField "namespace", []⟩

variable {item : Ajson}

lemma related_rename (hi : (callId item).name ≠ [] → p.ids (callId item)) :
    Related (Apart p K) (fun _ => True) (rename c item) (rename c item) := by
  have hb (name : Bytes) (hn : item.field "name" = some (.str name)) :
      Related (Apart p K) (fun _ => True) (do
          let wire ← bindWire c ⟨name, item.stringField "namespace", []⟩
          pure ((item.set (ascii "name") (.str wire)).erase (ascii "namespace")))
        (do
          let wire ← bindWire c ⟨name, item.stringField "namespace", []⟩
          pure ((item.set (ascii "name") (.str wire)).erase (ascii "namespace"))) := by
    have hc : (⟨name, item.stringField "namespace", []⟩ : Identity) = callId item := by
      rw [callId, stringField_of_field hn]
    rw [hc]
    exact (related_bindWire hi).bind fun _ _ => related_pure trivial
  unfold rename
  split
  next name hn =>
    split
    · exact hb name hn
    · exact hb name hn
    · exact hb name hn
    · exact related_throw _ _
  next => exact related_throw _ _

lemma matching_congr {bs bs' : Bytes → Option Ajson} (ar : Ajson)
    {wires : List Bytes} (h : ∀ wi ∈ wires, bs wi = bs' wi) :
    matching c bs ar wires = matching c bs' ar wires := by
  induction wires with
  | nil => rfl
  | cons wi wires ih =>
    rw [matching, matching, h wi mem_cons_self, ih fun wi hm => h wi (mem_cons_of_mem _ hm)]

/-- A call finds the same alternatives on both sides unless the definition it names was rejected
before. -/
lemma related_history (hid : (callId item).name ≠ [] → p.ids (callId item))
    (hwi : (callId item).name ≠ [] → ¬ p.wires (wireName c.sha256 (callId item)) ∨
      ∀ ws, K (wireName c.sha256 (callId item)) ws → ws = none) :
    Related (Apart p K) (fun _ => True) (history c item) (history c item) := by
  unfold history
  refine (related_bindWire hid).bind fun b hb => related_get fun s s' h => ?_
  obtain ⟨rfl, hi⟩ := hb
  replace hwi := hwi (p.named _ hi)
  by_cases hmi : p.wires (wireName c.sha256 (callId item))
  · have hno := (hwi.resolve_left (not_not_intro hmi)) _ (h.kept _ hmi)
    rw [hno, h.fresh _ hmi]
    exact related_rename hid s s' h
  · rw [← h.variants _ hmi]
    rcases hfo : s.variants (wireName c.sha256 (callId item)) with _ | ws
    · exact related_rename hid s s' h
    · dsimp only
      split_ifs
      · exact related_rename hid s s' h
      · have hs : historyBranch c item ws s = historyBranch c item ws s' := by
          have hbr (ar : Ajson) := matching_congr (c := c) ar
            fun wi hm => h.branches wi fun hw => hmi ((h.listed _ _ hfo wi hm).1 hw)
          unfold historyBranch
          simp only [hbr]
        rw [hs]
        exact related_liftExcept (fun x hx => ⟨hx, trivial⟩) (fun x hx => hx) s s' h

lemma Apart.history_fails (h : Apart p K s s') (hi : (callId item).name ≠ [] → p.ids (callId item))
    (hm : p.wires (wireName c.sha256 (callId item)))
    (hK : ∀ ws, K (wireName c.sha256 (callId item)) ws → ws = some []) :
    ∃ e t, (history c item).run.run s = (.error e, t) := by
  unfold history
  by_cases hn : (callId item).name = []
  · obtain ⟨e, hr⟩ := run_bindWire_nil (c := c) hn s
    exact ⟨e, s, run_bind_error hr _⟩
  · have hem := hK _ (h.kept _ hm)
    have hr := run_bindWire h.bound (hi hn)
    rw [show (⟨item.stringField "name", item.stringField "namespace", []⟩ : Identity) =
      callId item from rfl, run_bind_ok hr, run_get_bind]
    dsimp only
    rw [hem]
    dsimp only
    rw [if_neg (by decide)]
    unfold historyBranch
    split
    · exact ⟨_, _, rfl⟩
    · exact ⟨_, _, rfl⟩

def referenceId (v : Ajson) : Identity := ⟨toolName v, (nestedOf v).stringField "namespace", []⟩

variable {v : Ajson} {toolChoice : Option Ajson} {scope : Bytes} {list : List Ajson}

lemma related_reference (hid : (referenceId v).name ≠ [] → Clear p [referenceId v]) :
    Related (Apart p K) (fun _ => True) (reference c v) (reference c v) := by
  unfold reference
  refine (related_bindWire fun hn => (hid hn _ mem_cons_self).1).bind
    fun b hb => related_get fun s s' h => ?_
  obtain ⟨rfl, hi⟩ := hb
  have hw := (hid (p.named _ hi) _ mem_cons_self).2
  rw [h.unavailable _ hw, h.variants _ hw]
  split_ifs
  · exact h
  · split
    · exact h
    · exact ⟨rfl, trivial, h⟩

lemma Apart.select (h : Apart p K s s') (ws : List Bytes) :
    Apart p K (select ws s) (select ws s') := by
  refine { h with selected := ?_ }
  change (fun w => s.selected w || ws.contains w) = fun w => s'.selected w || ws.contains w
  rw [h.selected]

lemma Apart.restrict (h : Apart p K s s') : Apart p K (restrict s) (restrict s') :=
  { h with restricted := rfl }

variable {tools : List Ajson}

lemma related_selectAll
    (hi : ∀ tool ∈ tools, (referenceId tool).name ≠ [] → Clear p [referenceId tool]) :
    Related (Apart p K) (fun _ => True) (selectAll c tools) (selectAll c tools) := by
  induction tools with
  | nil => exact related_pure trivial
  | cons tool tools ih =>
    refine (related_reference (hi tool mem_cons_self)).bind fun ws _ => ?_
    refine (surely_modify fun s s' h => h.select ws).related.bind fun _ _ => ?_
    exact ih fun tool hm => hi tool (mem_cons_of_mem _ hm)

def listOf : Option Ajson → List Ajson
  | some (.arr list) => list
  | _ => []

def choiceIds (v : Ajson) : List Identity :=
  if v.stringField "type" = ascii "allowed_tools" then
    (listOf (v.field "tools")).map referenceId
  else if v.stringField "type" = ascii "function" ∨ v.stringField "type" = ascii "custom" then
    [referenceId v]
  else []

/-- Identities with a name are of the request and not of the definition. -/
def ClearNamed (p : Setting c) (ids : List Identity) : Prop :=
  ∀ id ∈ ids, id.name ≠ [] → Clear p [id]

lemma related_choice (hi : ClearNamed p (choiceIds v)) :
    Related (Apart p K) (fun _ => True) (choice c v) (choice c v) := by
  unfold choice
  split
  next members =>
    split_ifs with hsear ha hfun
    · unfold chooseSearch
      refine related_get fun s s' h => ?_
      rw [h.search]
      split_ifs
      · exact h
      · exact ⟨rfl, trivial, h.search ▸ h.select _⟩
    · rw [choiceIds, if_pos ha] at hi
      unfold allowedTools
      refine (surely_modify fun s s' h => h.restrict).related.bind fun _ _ => ?_
      split_ifs
      · exact related_throw _ _
      · split
        next tool tools hfi =>
          rw [hfi] at hi
          refine (related_selectAll fun tool hm => ?_).bind fun _ _ => related_pure trivial
          exact hi _ (mem_map_of_mem hm)
        next => exact related_throw _ _
    · rw [choiceIds, if_neg ha, if_pos hfun] at hi
      unfold chooseFunction
      refine (related_reference (hi _ mem_cons_self)).bind fun wires _ => ?_
      refine (surely_modify fun s s' h => h.select wires).related.bind fun _ _ => ?_
      split
      · exact related_pure trivial
      · exact (surely_modify fun s s' h => h.restrict).related.bind fun _ _ =>
          related_pure trivial
    · exact related_throw _ _
  next =>
    split_ifs
    · exact related_pure trivial
    · exact related_throw _ _
  next => exact related_throw _ _

lemma related_definitions {tools : Ajson} (h : ∀ tool ∈ listOf (some tools), ClearOuter p tool)
    (re : Bool) (b : Bytes) :
    Related (Apart p K) (ClearTools p) (definitions c re b tools)
    (definitions c re b tools) := by
  unfold definitions
  split
  next list =>
    exact (surely_collect (fun tool hm pa p' =>
      surely_outerTool (h tool hm) re pa p') b b 0 0).related
  next => exact related_throw _ _

lemma Apart.filter_available (h : Apart p K s s') (hc : ClearTools p tools) :
    tools.filter (fun tool => !s.unavailable (toolName tool)) =
      tools.filter fun tool => !s'.unavailable (toolName tool) :=
  filter_congr fun tool hm => by rw [h.unavailable _ (hc tool hm)]

lemma related_available (hc : ClearTools p tools) : Related (Apart p K) (fun _ => True) (do
        let s ← get
        pure (tools.filter fun tool => !s.unavailable (toolName tool)) : M (List Ajson))
      (do
        let s ← get
        pure (tools.filter fun tool => !s.unavailable (toolName tool))) :=
  related_get fun _ _ h => ⟨h.filter_available hc, trivial, h⟩

lemma related_prepareTools {tools : Ajson} (h : ∀ tool ∈ listOf (some tools), ClearOuter p tool) :
    Related (Apart p K) (fun _ => True) (prepareTools c tools) (prepareTools c tools) :=
  (related_definitions h false _).bind fun _ hc => related_available hc

def loadedTools (item : Ajson) : List Ajson :=
  if item.stringField "type" = ascii "tool_search_output" then listOf (item.field "tools") else []

lemma related_prepareItem (hl : ∀ tool ∈ loadedTools item, ClearOuter p tool)
    (hc : isHistoryCall item → Related (Apart p K) (fun _ => True) (history c item)
      (history c item)) (i : Nat) :
    Related (Apart p K) (fun _ => True) (prepareItem c i item) (prepareItem c i item) := by
  unfold prepareItem
  split_ifs with hh ho
  · exact hc hh
  · rw [loadedTools, if_pos ho] at hl
    split
    · exact related_pure trivial
    next tools hf =>
      rw [hf] at hl
      exact (related_definitions hl true _).bind fun _ _ => related_pure trivial
  · exact related_pure trivial

lemma related_prepareItems {ite : List Ajson}
    (h : ∀ item ∈ ite, ∀ i, Related (Apart p K) (fun _ => True) (prepareItem c i item)
      (prepareItem c i item)) (i : Nat) :
    Related (Apart p K) (fun _ => True) (prepareItems c i ite) (prepareItems c i ite) := by
  induction ite generalizing i with
  | nil => exact related_pure trivial
  | cons item ite ih =>
    refine (h item mem_cons_self i).bind fun _ _ => ?_
    refine (ih (fun item hm => h item (mem_cons_of_mem _ hm)) _).bind fun _ _ => ?_
    exact related_pure trivial

lemma prepareItems_append (ind : Nat) (i is' : List Ajson) :
    prepareItems c ind (i ++ is') = prepareItems c ind i >>= fun out =>
        prepareItems c (ind + i.length) is' >>= fun re => pure (out ++ re) := by
  induction i generalizing ind with
  | nil => simp [prepareItems]
  | cons item i ih =>
    rw [cons_append, prepareItems, prepareItems, ih, length_cons, add_comm i.length 1, ← add_assoc]
    simp

lemma related_optional {α β : Type} {f f' : α → M β} {va : Option α}
    (h : ∀ a ∈ va, Related (Apart p K) (fun _ => True) (f a) (f' a)) :
    Related (Apart p K) (fun _ => True) (optional f va) (optional f' va) := by
  cases va with
  | none => exact related_pure trivial
  | some a => exact (h a rfl).bind fun _ _ => related_pure trivial

lemma related_finish (h : ∀ v ∈ toolChoice, ClearNamed p (choiceIds v))
    (tools input : Option (List Ajson)) :
    Related (Apart p K) (fun _ => True) (finish c toolChoice tools input)
      (finish c toolChoice tools input) := by
  unfold finish
  refine (related_optional fun v hv => related_choice (h v hv)).bind fun ch _ => ?_
  refine related_get fun s s' h => ?_
  have hs : offeredTools s tools = offeredTools s' tools := by
    rw [offeredTools, offeredTools, h.restricted, h.selected]
  rw [hs]
  split_ifs
  · exact h
  · exact ⟨rfl, trivial, h⟩

/-- The definition fails where `prepare` gets to it. The items are those prepared behind it. -/
inductive DropRequest (c : Checks) :
    List Identity → Bool → List Ajson → ToolRequest → ToolRequest → Prop
  | tools {request : ToolRequest} {list list' : List Ajson} {ids : List Identity}
      {isSearch : Bool} :
      request.tools = some (.arr list) →
      DropTool c false (ascii "$.tools") empty ids isSearch list list' →
      DropRequest c ids isSearch (request.input.getD []) request
        { request with tools := some (.arr list') }
  | input {request : ToolRequest} {before after list list' : List Ajson} {item : Ajson}
      {ids : List Identity} {isSearch : Bool} {admitted : Option (List Ajson)}
      {prepared : List Ajson} {s t : Catalog} :
      request.input = some (before ++ item :: after) →
      item.stringField "type" = ascii "tool_search_output" →
      item.field "tools" = some (.arr list) →
      (optional (prepareTools c) request.tools).run.run empty = (.ok admitted, t) →
      (prepareItems c 0 before).run.run t = (.ok prepared, s) →
      DropTool c true (inputPath before.length) s ids isSearch list list' →
      DropRequest c ids isSearch after request
        { request with
          input := some (before ++ item.set (ascii "tools") (.arr list') :: after) }

def allDefinitions (request : ToolRequest) : List Ajson :=
  listOf request.tools ++ (request.input.getD []).flatMap loadedTools

def callsOf (request : ToolRequest) : List Ajson := (request.input.getD []).filter isHistoryCall

def requestIds (c : Checks) (request : ToolRequest) : List Identity :=
  (allDefinitions request).flatMap (outerIds c) ++ (callsOf request).map callId ++
    request.toolChoice.toList.flatMap choiceIds

/-- The identities of the definition are not declared elsewhere and not named by the tool choice,
and no two identities share a wire name. -/
structure NotElsewhere (c : Checks) (ids : List Identity) (request : ToolRequest) : Prop where
  distinct : ∀ id ∈ ids ++ requestIds c request, ∀ id' ∈ ids ++ requestIds c request,
    id.name ≠ [] → id'.name ≠ [] → wireName c.sha256 id = wireName c.sha256 id' → id = id'
  undeclared : ∀ tool ∈ allDefinitions request, ∀ id ∈ outerIds c tool, id ∉ ids
  unnamed : ∀ tool ∈ allDefinitions request, ∀ name ∈ outerRawNames tool, ∀ id ∈ ids,
    wireName c.sha256 id ≠ name
  unchosen : ∀ v ∈ request.toolChoice, ∀ id ∈ choiceIds v, id ∉ ids

variable {tool : Ajson} {id : Identity}

lemma name_of_leafIds (h : id ∈ leafIds c scope tool) : id.name ≠ [] := by
  rw [leafIds] at h
  split_ifs at h with hn hf
  · cases h
  · rcases mem_cons.1 h with rfl | h
    · exact mt isEmpty_iff.2 hn
    · rw [variantIds] at h
      split at h
      · obtain ⟨b, -, rfl⟩ := mem_map.1 h
        exact mt isEmpty_iff.2 hn
      · cases h
  · rw [mem_singleton.1 h]
    exact mt isEmpty_iff.2 hn

lemma name_of_ownIds (h : id ∈ ownIds scope tool) : id.name ≠ [] := by
  rw [ownIds] at h
  split_ifs at h with hn
  · cases h
  · rw [mem_singleton.1 h]
    exact mt isEmpty_iff.2 hn

lemma name_of_outerIds (h : id ∈ outerIds c tool) : id.name ≠ [] := by
  rw [outerIds] at h
  split_ifs at h
  · split at h
    · obtain ⟨ch, -, hi⟩ := mem_flatMap.1 h
      exact name_of_leafIds hi
    · exact name_of_ownIds h
  · rcases mem_append.1 h with h | h
    · exact name_of_ownIds h
    · exact name_of_leafIds h
  · exact name_of_leafIds h

variable {ids : List Identity} {isSearch : Bool}

lemma DropTool.named {re : Bool} {b : Bytes} {ts' : List Ajson}
    (h : DropTool c re b s ids isSearch tools ts') : ∀ id ∈ ids, id.name ≠ [] := by
  cases h with
  | outer _ _ => exact fun _ => name_of_outerIds
  | inner _ _ _ _ _ => exact fun _ => name_of_leafIds

variable {later : List Ajson} {request request' : ToolRequest}

lemma DropRequest.named (h : DropRequest c ids isSearch later request request') :
    ∀ id ∈ ids, id.name ≠ [] := by
  cases h with
  | tools _ hd => exact hd.named
  | input _ _ _ _ _ hd => exact hd.named

section
variable {ids : List Identity} {isSearch : Bool} {later : List Ajson}
  {request request' : ToolRequest}

/-- The request without the definition, beside the wire names of the definition. -/
def settingOf (hnamed : ∀ id ∈ ids, id.name ≠ []) (h : NotElsewhere c ids request) : Setting c where
  ids := fun id => id.name ≠ [] ∧ id ∈ ids ++ requestIds c request
  wires := fun wire => ∃ id ∈ ids, wireName c.sha256 id = wire
  named := fun _ hid => hid.1
  distinct := fun id id' hid hid' => h.distinct id hid.2 id' hid'.2 hid.1 hid'.1
  nil_apart := by
    rintro ⟨id, hmem, hwire⟩
    have := canonical_wireName c.sha256 (hnamed id hmem)
    rw [hwire] at this
    exact absurd this (by decide)

variable (hnamed : ∀ id ∈ ids, id.name ≠ []) (h : NotElsewhere c ids request)
include hnamed h

lemma own_settingOf : Own (settingOf hnamed h) ids :=
  fun id hm => ⟨⟨hnamed id hm, mem_append_left _ hm⟩, id, hm, rfl⟩

lemma clear_settingOf (hi : id ∈ requestIds c request) (hn : id.name ≠ []) (ho : id ∉ ids) :
    Clear (settingOf hnamed h) [id] := by
  intro f hf
  rw [mem_singleton.1 hf]
  have ha : id ∈ ids ++ requestIds c request := mem_append_right _ hi
  refine ⟨⟨hn, ha⟩, ?_⟩
  rintro ⟨mi, hm, hw⟩
  refine ho ?_
  rwa [← h.distinct mi (mem_append_left _ hm) id ha (hnamed mi hm) hn hw]

lemma clearOuter_settingOf (ht : tool ∈ allDefinitions request) :
    ClearOuter (settingOf hnamed h) tool := by
  refine ⟨fun id hi => ?_, fun name hn => ?_⟩
  · have ha : id ∈ requestIds c request :=
      mem_append_left _ (mem_append_left _ (mem_flatMap.2 ⟨tool, ht, hi⟩))
    exact clear_settingOf hnamed h ha (name_of_outerIds hi) (h.undeclared tool ht id hi) id
      mem_cons_self
  · rintro ⟨id, hm, hw⟩
    exact h.unnamed tool ht name hn id hm hw

lemma clearNamed_settingOf {v : Ajson} (hv : v ∈ request.toolChoice) :
    ClearNamed (settingOf hnamed h) (choiceIds v) := by
  intro id hi hn
  refine clear_settingOf hnamed h (mem_append_right _ ?_) hn (h.unchosen v hv id hi)
  exact mem_flatMap.2 ⟨v, Option.mem_toList.2 hv, hi⟩

variable {item : Ajson}

section
variable (hitem : item ∈ request.input.getD [])
include hitem

lemma callId_settingOf (hc : isHistoryCall item) (hn : (callId item).name ≠ []) :
    (settingOf hnamed h).ids (callId item) := by
  refine ⟨hn, mem_append_right _ (mem_append_left _ (mem_append_right _ ?_))⟩
  exact mem_map_of_mem (mem_filter.2 ⟨hitem, hc⟩)

/-- A call whose identity is not the definition's has a wire name of its own. -/
lemma callId_clear (hc : isHistoryCall item) (ho : callId item ∉ ids)
    (hn : (callId item).name ≠ []) :
    ¬ (settingOf hnamed h).wires (wireName c.sha256 (callId item)) := by
  have ha : callId item ∈ requestIds c request := mem_append_left _ (mem_append_right _
      (mem_map_of_mem (mem_filter.2 ⟨hitem, hc⟩)))
  exact (clear_settingOf hnamed h ha hn ho _ mem_cons_self).2

lemma related_item (hc : isHistoryCall item → callId item ∉ ids ∨
      ∀ ws, K (wireName c.sha256 (callId item)) ws → ws = none) (i : Nat) :
    Related (Apart (settingOf hnamed h) K) (fun _ => True) (prepareItem c i item)
      (prepareItem c i item) := by
  refine related_prepareItem (fun tool ht => ?_) (fun hh => ?_) i
  · refine clearOuter_settingOf hnamed h (mem_append_right _ ?_)
    exact mem_flatMap.2 ⟨item, hitem, ht⟩
  · refine related_history (callId_settingOf hnamed h hitem hh) fun hn => ?_
    exact (hc hh).imp_left fun ho => callId_clear hnamed h hitem hh ho hn

end

lemma prepareItems_fails {items : List Ajson} (hit : ∀ item ∈ items, item ∈ request.input.getD [])
    (hc : ∃ item ∈ items, isHistoryCall item ∧ callId item ∈ ids) (i : Nat)
    (hR : Apart (settingOf hnamed h) (Leftover c false ids) s s') :
    ∃ e t, (prepareItems c i items).run.run s = (.error e, t) := by
  induction items generalizing i s s' with
  | nil =>
    obtain ⟨item, hm, _⟩ := hc
    cases hm
  | cons item items ih =>
    have hitem := hit item mem_cons_self
    rw [prepareItems]
    by_cases hmi : isHistoryCall item ∧ callId item ∈ ids
    · obtain ⟨hh, hi⟩ := hmi
      have hb : callId item ∈ basesOf ids := mem_filter.2 ⟨hi, rfl⟩
      obtain ⟨e, t, hr⟩ := hR.history_fails (callId_settingOf hnamed h hitem hh)
        ⟨_, hi, rfl⟩ fun ws hl => hl ⟨_, hb, rfl⟩
      refine ⟨e, t, run_bind_error ?_ _⟩
      rw [prepareItem, if_pos hh, hr]
    · have hrel := related_item (K := Leftover c false ids) hnamed h hitem
        (fun hh => Or.inl fun hi => hmi ⟨hh, hi⟩) i s s' hR
      rcases hr : (prepareItem c i item).run.run s with ⟨e | out, t⟩ <;>
        rw [hr] at hrel
      · exact ⟨e, t, run_bind_error hr _⟩
      · obtain ⟨t', -, -, ht⟩ := hrel.ok
        obtain ⟨o, hm, ho⟩ := hc
        have hre : o ∈ items := by
          rcases mem_cons.1 hm with rfl | hm
          · exact absurd ho hmi
          · exact hm
        obtain ⟨e, u, hf⟩ := ih (fun item hm => hit item (mem_cons_of_mem _ hm)) ⟨o, hre, ho⟩
          (i + 1) ht
        exact ⟨e, u, by rw [run_bind_ok hr, run_bind_error hf]⟩
end

lemma apart_empty (p : Setting c) : Apart p Unlisted empty empty where
  bound := nofun
  bound' := nofun
  branches := .refl _ _
  variants := .refl _ _
  declared := .refl _ _
  prepared := .refl _ _
  unavailable := .refl _ _
  search := rfl
  selected := rfl
  restricted := rfl
  listed := nofun
  stored := nofun
  kept := fun _ _ => rfl
  fresh := fun _ _ => rfl

def remaining (c : Checks) (toolChoice : Option Ajson) (tools : Option (List Ajson))
    (hasInput : Bool) (front : List Ajson) (index : Nat) (later : List Ajson) :
    M (Option (List Ajson) × Option (List Ajson) × Option Ajson) := do
  let rest ← prepareItems c index later
  finish c toolChoice tools (if hasInput then some (front ++ rest) else none)

lemma prepareItem_output (ht : item.stringField "type" = ascii "tool_search_output")
    (hf : item.field "tools" = some (.arr list)) (i : Nat) :
    prepareItem c i item = collect (outerTool c true) (inputPath i) 0 list >>=
      fun l => pure (item.set (ascii "tools") (.arr l)) := by
  have hh : ¬ isHistoryCall item := by
    rw [isHistoryCall, ht]
    decide
  rw [prepareItem, if_neg hh, if_pos ht, hf]
  rfl

variable {t : Catalog}

lemma run_prepare (request : ToolRequest) {tools : Option (List Ajson)}
    (ho : checkOthers request.others = .ok ())
    (ht : (optional (prepareTools c) request.tools).run.run empty = (.ok tools, t)) :
    (prepare c request).run.run empty = (optional (prepareItems c 0) request.input >>=
    finish c request.toolChoice tools).run.run t := by
  have hc : (liftExcept (checkOthers request.others)).run.run empty = (.ok (), empty) := by
    rw [ho]
    rfl
  rw [prepare, run_bind_ok hc, run_bind_ok ht]

lemma run_prepareTools {ad : List Ajson}
    (hr : (collect (outerTool c false) (ascii "$.tools") 0 list).run.run empty =
      (.ok ad, t)) : (optional (prepareTools c) (some (.arr list))).run.run empty =
      (.ok (some (ad.filter fun tool => !t.unavailable (toolName tool))), t) := by
  have hd : (prepareTools c (.arr list)).run.run empty =
      (.ok (ad.filter fun tool => !t.unavailable (toolName tool)), t) := by
    rw [prepareTools, definitions, run_bind_ok hr]
    rfl
  rw [optional, run_bind_ok hd]
  rfl

lemma remaining_all (toolChoice : Option Ajson) (tools input : Option (List Ajson)) :
    optional (prepareItems c 0) input >>= finish c toolChoice tools =
    remaining c toolChoice tools input.isSome [] 0 (input.getD []) := by
  cases input with
  | none => rfl
  | some i =>
    simp [optional, remaining]

lemma run_items {b af pr : List Ajson} {out : Ajson} {u : Catalog} {tools : Option (List Ajson)}
    (hp : (prepareItems c 0 b).run.run s = (.ok pr, t))
    (hitem : (prepareItem c b.length item).run.run t = (.ok out, u)) :
    (optional (prepareItems c 0) (some (b ++ item :: af)) >>=
    finish c toolChoice tools).run.run s =
    (remaining c toolChoice tools true (pr ++ [out]) (b.length + 1) af).run.run
    u := by
  rw [optional, prepareItems_append, zero_add]
  simp only [prepareItems, bind_assoc, pure_bind, remaining, if_true, append_assoc,
    singleton_append]
  rw [run_bind_ok hp, run_bind_ok hitem]

/-- With and without the definition the same is left to do, from states that differ at most at its
wire names. -/
lemma DropRequest.behind (hd : DropRequest c ids isSearch later request request')
    (h : NotElsewhere c ids request') (ho : checkOthers request.others = .ok ()) :
    ∃ tools hi f i t t',
    Apart (settingOf hd.named h) (Leftover c isSearch ids) t t' ∧
    (prepare c request).run.run empty =
    (remaining c request.toolChoice tools hi f i later).run.run t ∧
    (prepare c request').run.run empty =
    (remaining c request.toolChoice tools hi f i later).run.run t' := by
  have hnamed := hd.named
  have hem := apart_empty (settingOf hnamed h)
  have hown := own_settingOf hnamed h
  cases hd with
  | tools hto hdr =>
    rename_i list list'
    obtain ⟨ad, t, t', hr, hr', hc, ht⟩ := hdr.paired hown
      (fun tool hm => clearOuter_settingOf hnamed h (mem_append_left _ hm)) hem
    have hle := run_prepareTools hr
    have hri := run_prepareTools hr'
    rw [← ht.filter_available hc] at hri
    rw [← hto] at hle
    refine ⟨some (ad.filter fun tool => !t.unavailable (toolName tool)),
      request.input.isSome, [], 0, t, t', ht, ?_, ?_⟩
    · rw [run_prepare request ho hle, remaining_all]
    · rw [run_prepare { request with tools := some (.arr list') } ho hri, remaining_all]
  | input hin hty hf ha hp hdr =>
    rename_i before list list' item ad pr s t
    -- The tools and the items before this one are prepared with nothing rejected yet.
    have ht : Apart (settingOf hnamed h) Unlisted t t := by
      have hre : Related (Apart (settingOf hnamed h) Unlisted) (fun _ => True)
          (optional (prepareTools c) request.tools)
          (optional (prepareTools c) request.tools) := by
        refine related_optional fun tools hto => related_prepareTools fun tool hm => ?_
        refine clearOuter_settingOf hnamed h (mem_append_left _ ?_)
        change tool ∈ listOf request.tools
        rwa [Option.mem_def.1 hto]
      have hal := hre _ _ hem
      rw [ha] at hal
      exact hal.2.2
    have hs : Apart (settingOf hnamed h) Unlisted s s := by
      have hal := related_prepareItems (fun o hm i =>
        related_item hnamed h (mem_append_left _ hm) (fun _ => Or.inr fun _ hK => hK) i) 0 t t ht
      rw [hp] at hal
      exact hal.2.2
    have ht' : (item.set (ascii "tools") (.arr list')).stringField "type" =
        ascii "tool_search_output" := by
      rw [← hty, stringField, stringField, field_set_of_ne (by decide)]
    have hf' : (item.set (ascii "tools") (.arr list')).field "tools" = some (.arr list') :=
      field_set_self _ (by decide) _
    have hl : loadedTools (item.set (ascii "tools") (.arr list')) = list' := by
      rw [loadedTools, if_pos ht', hf', listOf]
    obtain ⟨l, u, u', hr, hr', -, hu⟩ := hdr.paired hown (fun tool hm =>
      clearOuter_settingOf hnamed h (mem_append_right _ (mem_flatMap.2
        ⟨_, mem_append_right _ mem_cons_self, hl.symm ▸ hm⟩))) hs
    have hitem : (prepareItem c before.length item).run.run s =
        (.ok (item.set (ascii "tools") (.arr l)), u) := by
      rw [prepareItem_output hty hf, run_bind_ok hr]
      rfl
    have hi' : (prepareItem c before.length (item.set (ascii "tools")
        (.arr list'))).run.run s = (.ok (item.set (ascii "tools") (.arr l)), u') := by
      rw [prepareItem_output ht' hf', run_bind_ok hr', set_set]
      rfl
    refine ⟨ad, true, pr ++ [item.set (ascii "tools") (.arr l)],
      before.length + 1, u, u', hu, ?_, ?_⟩
    · rw [run_prepare request ho ha, hin, run_items hp hitem]
    · rw [run_prepare { request with
        input := some (before ++ item.set (ascii "tools") (.arr list') :: later) } ho
          ha, run_items hp hi']

lemma toOption_eq_of_alike {α : Type} {R : Catalog → Catalog → Prop} {Q : α → Prop}
    {x x' : Except Failure α × Catalog} (h : Alike R Q x x') : x.1.toOption = x'.1.toOption := by
  rcases x with ⟨e | a, t⟩
  · obtain ⟨e', t', rfl, _⟩ := h.error
    rfl
  · obtain ⟨t', rfl, _⟩ := h.ok
    rfl

lemma outcome_of_others {e : Failure} (h : checkOthers request.others = .error e) :
    outcome c request = none := by
  have hc : (liftExcept (checkOthers request.others)).run.run empty = (.error e, empty) := by
    rw [h]
    rfl
  rw [outcome, prepare, run_bind_error hc]
  rfl

lemma DropRequest.rest (h : DropRequest c ids isSearch later request request') :
    (∀ item ∈ later, item ∈ request'.input.getD []) ∧
    request'.toolChoice = request.toolChoice ∧ request'.others = request.others := by
  cases h with
  | tools _ _ => exact ⟨fun _ hm => hm, rfl, rfl⟩
  | input _ _ _ _ _ _ =>
    exact ⟨fun _ hm => mem_append_right _ (mem_cons_of_mem _ hm), rfl, rfl⟩

lemma DropRequest.same_outcome (hd : DropRequest c ids isSearch later request request')
    (h : NotElsewhere c ids request')
    (hca : ∀ item ∈ later, isHistoryCall item → callId item ∉ ids) :
    outcome c request = outcome c request' := by
  obtain ⟨hl, hch, hs⟩ := hd.rest
  rcases ho : checkOthers request.others with e | _
  · rw [outcome_of_others ho, outcome_of_others (hs ▸ ho)]
  · obtain ⟨tools, hi, f, i, t, t', ht, hr, hr'⟩ := hd.behind h ho
    rw [outcome, outcome, hr, hr']
    refine toOption_eq_of_alike (R := Apart (settingOf hd.named h) (Leftover c isSearch ids))
      (Q := fun _ => True) ?_
    have hit := related_prepareItems (K := Leftover c isSearch ids) (fun item hm i =>
      related_item hd.named h (hl item hm) (fun hc => Or.inl (hca item hm hc)) i) i
    refine hit.bind (fun re _ => related_finish (fun v hv => ?_) _ _) t t' ht
    exact clearNamed_settingOf hd.named h (hch ▸ hv)

/-- A call to the definition behind its rejection makes `prepare` fail. -/
lemma DropRequest.call_fails (hd : DropRequest c ids false later request request')
    (h : NotElsewhere c ids request')
    (hc : ∃ item ∈ later, isHistoryCall item ∧ callId item ∈ ids) :
    outcome c request = none := by
  rcases ho : checkOthers request.others with e | _
  · exact outcome_of_others ho
  · obtain ⟨tools, hi, f, i, t, t', ht, hr, -⟩ := hd.behind h ho
    obtain ⟨e, u, hf⟩ := prepareItems_fails hd.named h hd.rest.1 hc i ht
    rw [outcome, hr, remaining, run_bind_error hf]
    rfl

def refusing : Checks where
  sha256 := fun _ => Vector.replicate 32 0
  dumps := fun _ => []
  parse := fun _ => .ok .null
  lower := fun _ path => .error (.schema path (ascii "type") (ascii "unsupported"))
  hoist := fun schema => (schema, .obj [])
  toolCheck := fun _ => none
  argumentCheck := fun _ _ => true
  lower_ne_nil := fun _ _ => nofun
  lower_path := fun _ _ _ _ => nofun

def probe : Ajson :=
  .obj [(ascii "type", .str (ascii "function")), (ascii "name", .str (ascii "probe")),
    (ascii "parameters", .obj [])]

variable (name : String)

def callOf : Ajson :=
  .obj [(ascii "type", .str (ascii "function_call")), (ascii "name", .str (ascii name)),
    (ascii "arguments", .str (ascii "\x7b\x7d"))]

def probing (tools : List Ajson) (name : String) : ToolRequest :=
  ⟨some (.arr tools), some [callOf name], none, .obj []⟩

lemma dropRequest_probing :
    DropRequest refusing [⟨ascii "probe", [], []⟩] false [callOf name] (probing [probe] name)
    (probing [] name) := by
  have hi : outerIds refusing probe = [⟨ascii "probe", [], []⟩] := by decide +kernel
  have hs : (probe.stringField "type" == ascii "tool_search") = false := by decide +kernel
  have hd : DropTool refusing false (ascii "$.tools") empty (outerIds refusing probe)
      (probe.stringField "type" == ascii "tool_search") [probe] [] :=
    @DropTool.outer refusing false (ascii "$.tools") empty [] [] _ probe _ _ _ rfl rfl
  rw [hi, hs] at hd
  exact @DropRequest.tools refusing (probing [probe] name) [probe] [] _ _ rfl hd

lemma notElsewhere_probing {name : String}
    (h : ∀ id ∈ [⟨ascii "probe", [], []⟩, callId (callOf name)],
      ∀ id' ∈ [(⟨ascii "probe", [], []⟩ : Identity), callId (callOf name)],
        wireName refusing.sha256 id = wireName refusing.sha256 id' → id = id') :
    NotElsewhere refusing [⟨ascii "probe", [], []⟩] (probing [] name) where
  distinct := fun id hi id' hi' _ _ => h id hi id' hi'
  undeclared := fun _ hm => absurd hm not_mem_nil
  unnamed := fun _ hm => absurd hm not_mem_nil
  unchosen := nofun

end AxiomKernel.Codex
