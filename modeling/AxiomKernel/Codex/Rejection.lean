import AxiomKernel.Codex.Apart

/-!
# Lists of definitions with and without one

A definition fails and is rejected in one run, and is not there in the other. The definitions around
it are prepared alike, and the rejection leaves traces at its own wire names only.
-/
namespace AxiomKernel.Codex

open Ajson Image Text Relate Hoare List

variable {c : Checks} {p : Setting c} {K : Bytes → Option (List Bytes) → Prop} {s s' : Catalog}

variable {tool : Ajson}

lemma toolName_of_field {name : Bytes} (h : (nestedOf tool).field "name" = some (.str name)) :
    toolName tool = name :=
  stringField_of_field h

variable {scope : Bytes}

lemma alternatives_of_leafIds {P : Identity → Prop} {n : Bytes}
    (hf : isFunction scope (tool.stringField "type"))
    (hfi : (nestedOf tool).field "name" = some (.str n))
    (h : ∀ id ∈ leafIds c scope tool, P id) (hn : n ≠ []) :
    P ⟨n, effectiveScope scope tool, []⟩ ∧
      Alternatives (fun ids => ∀ id ∈ ids, P id) c tool n (effectiveScope scope tool) := by
  obtain rfl := toolName_of_field hfi
  have hi : leafIds c scope tool = baseId scope tool :: variantIds c scope tool := by
    rw [leafIds, if_neg (by simpa using hn), if_pos hf]
  rw [hi] at h
  refine ⟨h _ mem_cons_self, fun al ho id hm => ?_⟩
  refine h id (mem_cons_of_mem _ ?_)
  rw [variantIds, ho]
  exact hm

variable {original : Ajson}

variable (hf : isFunction scope (original.stringField "type"))
include hf

lemma related_defineFunction
    (hi : Clear p (leafIds c scope original)) (ty path p' : Bytes) (replay : Bool) :
    Related (Apart p K) (ClearTools p)
    (defineFunction c original ty (effectiveScope scope original) path replay)
    (defineFunction c original ty (effectiveScope scope original) p' replay) := by
  unfold defineFunction
  split
  next n hfi =>
    have hleaf := alternatives_of_leafIds hf hfi hi
    refine (related_bindWire fun hn => (hleaf hn).1.1).bind fun base hb => ?_
    obtain ⟨rfl, hid⟩ := hb
    obtain ⟨⟨_, hw⟩, halt⟩ := hleaf (p.named _ hid)
    refine related_get fun s s' h => ?_
    rw [h.declared _ hw]
    split
    · exact related_defineAgain h hw original path p' replay _ s s' h
    · exact related_defineNew path p' replay hw halt s s' h
  next => exact related_throw _ _

lemma unseen_defineFunction
    (hi : Own p (leafIds c scope original)) (hK : ∀ wi ws, K wi ws) (ty path : Bytes)
    (replay : Bool) : Unseen (Apart p K) (fun _ => True)
      (defineFunction c original ty (effectiveScope scope original) path replay) := by
  unfold defineFunction
  split
  next n hfi =>
    have hleaf := alternatives_of_leafIds hf hfi hi
    refine (unseen_bindWire fun hn => (hleaf hn).1.1).bind fun base hb => ?_
    obtain ⟨rfl, hid⟩ := hb
    obtain ⟨⟨_, hw⟩, halt⟩ := hleaf (p.named _ hid)
    refine unseen_get fun s => ?_
    split
    · exact unseen_liftExcept fun _ _ => trivial
    · exact unseen_defineNew path replay hw halt hK
  next => exact unseen_throw _

omit hf

lemma unseenFailure_defineFunction (hfun : isFunction scope (original.stringField "type"))
    (hi : Own p (leafIds c scope original)) (type path : Bytes) (replay : Bool) :
    UnseenFailure (Apart p K)
    (defineFunction c original type (effectiveScope scope original) path replay) := by
  unfold defineFunction
  split
  next name hfi =>
    have hleaf := alternatives_of_leafIds hfun hfi hi
    refine UnseenFailure.bind (unseen_bindWire fun hne => (hleaf hne).1.1) fun base hb => ?_
    obtain ⟨rfl, hid⟩ := hb
    obtain ⟨⟨_, hw⟩, halt⟩ := hleaf (p.named _ hid)
    refine unseenFailure_get fun s => ?_
    split
    · exact (unseen_liftExcept fun _ _ => trivial : Unseen _ (fun _ => True) _).failure
    · exact unseenFailure_defineNew path replay hw halt
  next => exact (unseen_throw _ : Unseen _ (fun _ => True) _).failure

lemma related_defineBuiltin (hn : ¬ p.wires (toolName original)) (path p' : Bytes) :
    Related (Apart p K) (ClearTools p) (defineBuiltin c original path)
    (defineBuiltin c original p') := by
  have hc : ClearTools p [original] := by
    intro tool hm
    rwa [mem_singleton.1 hm]
  unfold defineBuiltin
  split
  · exact related_throw _ _
  · split
    · exact related_pure hc
    · refine related_get fun s s' h => ?_
      rw [h.declared _ hn]
      split
      · split
        · exact ⟨rfl, fun _ hm => absurd hm not_mem_nil, h⟩
        · exact h
      · exact ⟨rfl, hc, { h with declared := h.declared.update _ _ }⟩

lemma unseenFailure_defineBuiltin (original : Ajson) (path : Bytes) :
    UnseenFailure (Apart p K) (defineBuiltin c original path) := by
  have hthr (e : Failure) : UnseenFailure (Apart p K) (throw e : M (List Ajson)) :=
    (unseen_throw e : Unseen _ (fun _ => True) _).failure
  have hpure (tools : List Ajson) : UnseenFailure (Apart p K) (pure tools : M (List Ajson)) :=
    (unseen_pure trivial : Unseen _ (fun _ => True) _).failure
  unfold defineBuiltin
  split
  · exact hthr _
  · split
    · exact hpure _
    · refine unseenFailure_get fun s => ?_
      split
      · split
        · exact hpure _
        · exact hthr _
      · intro t t' _ e u hr
        cases hr

/-- A leaf of the request that has other wire names than the definition. -/
structure ClearLeaf (p : Setting c) (scope : Bytes) (tool : Ajson) : Prop where
  ids : Clear p (leafIds c scope tool)
  raw : ∀ name ∈ rawNames scope tool, ¬ p.wires name

variable (h : ClearLeaf p scope tool)
include h

lemma ClearLeaf.own : Clear p (ownIds scope tool) := by
  intro id hm
  refine h.ids id ?_
  rw [ownIds] at hm
  rw [leafIds]
  split_ifs at hm ⊢ <;> simp_all

/-- The name of a leaf that is not a function is not one of the definition. -/
lemma ClearLeaf.name
    (hf : isFunction scope (tool.stringField "type") = false)
    (hnamespace : tool.stringField "type" ≠ ascii "namespace")
    (hs : tool.stringField "type" ≠ ascii "tool_search") : ¬ p.wires (toolName tool) := by
  by_cases hn : toolName tool = []
  · rw [hn]
    exact p.nil_apart
  · refine h.raw _ ?_
    rw [rawNames, if_neg (by simp [hf, hnamespace, hs, hn])]
    exact mem_singleton_self _

lemma related_defineLeaf
    (hnamespace : tool.stringField "type" ≠ ascii "namespace")
    (hs : tool.stringField "type" ≠ ascii "tool_search") (replay : Bool) (path p' : Bytes) :
    Related (Apart p K) (ClearTools p) (defineLeaf c scope replay tool path)
    (defineLeaf c scope replay tool p') := by
  unfold defineLeaf
  split
  next hf => exact related_defineFunction hf h.ids _ path p' replay
  next hf =>
    exact related_defineBuiltin (h.name (Bool.eq_false_iff.2 hf) hnamespace hs) path p'

omit h

lemma unseenFailure_defineLeaf (h : Own p (leafIds c scope tool)) (replay : Bool) (path : Bytes) :
    UnseenFailure (Apart p K) (defineLeaf c scope replay tool path) := by
  unfold defineLeaf
  split
  next hf => exact unseenFailure_defineFunction hf h _ path replay
  next => exact unseenFailure_defineBuiltin tool path

variable {body : M (List Ajson)} {define_ : Ajson → Bytes → M (List Ajson)} {tools : List Ajson}
  {u : Catalog} {ids : List Identity}

lemma surely_guarded (ho : Clear p (ownIds scope tool)) {b' : M (List Ajson)}
    (h : Related (Apart p K) (ClearTools p) body b') (path p' : Bytes) :
    Surely (Apart p K) (ClearTools p) (guarded c scope tool path body)
    (guarded c scope tool p' b') := by
  refine h.recover fun e e' => ?_
  refine (surely_reject ho path p' e e').bind fun _ _ => surely_pure ?_
  exact fun _ hm => absurd hm not_mem_nil

lemma surely_innerTool (h : ClearLeaf p scope tool) (replay : Bool) (path p' : Bytes) :
    Surely (Apart p K) (ClearTools p) (innerTool c scope replay tool path)
    (innerTool c scope replay tool p') := by
  refine surely_guarded h.own ?_ path p'
  unfold innerBody
  split_ifs with hnamespace hs
  · exact related_throw _ _
  · exact related_throw _ _
  · exact related_defineLeaf h hnamespace hs replay path p'

lemma surely_collect (h : ∀ tool ∈ tools, ∀ path p',
    Surely (Apart p K) (ClearTools p) (define_ tool path) (define_ tool p'))
    (base b' : Bytes) (i i' : Nat) :
    Surely (Apart p K) (ClearTools p) (collect define_ base i tools)
    (collect define_ b' i' tools) := by
  induction tools generalizing i i' with
  | nil => exact surely_pure fun _ hm => absurd hm not_mem_nil
  | cons tool tools ih =>
    refine (h tool mem_cons_self _ _).bind fun out ho => ?_
    refine (ih (fun tool hm => h tool (mem_cons_of_mem _ hm)) _ _).bind fun re hr => ?_
    exact surely_pure (ho.append hr)

/-- A definition of the request that has other wire names than the one that is looked at. -/
structure ClearOuter (p : Setting c) (tool : Ajson) : Prop where
  ids : Clear p (outerIds c tool)
  raw : ∀ name ∈ outerRawNames tool, ¬ p.wires name

lemma stringField_searchFunction (tool : Ajson) :
    (searchFunction tool).stringField "type" = ascii "function" := by
  unfold searchFunction stringField
  rw [field_erase_of_ne (by decide), field_set_of_ne (by decide), field_set_self _ (by decide)]

lemma isFunction_searchFunction (tool : Ajson) :
    isFunction [] ((searchFunction tool).stringField "type") = true := by
  rw [stringField_searchFunction]
  decide

lemma rawNames_searchFunction (tool : Ajson) : rawNames [] (searchFunction tool) = [] := by
  rw [rawNames, if_pos (Or.inl (isFunction_searchFunction tool))]

lemma related_defineSearch (h : Clear p (leafIds c [] (searchFunction tool))) (replay : Bool)
    (path p' : Bytes) : Related (Apart p K) (ClearTools p) (defineSearch c replay tool path)
    (defineSearch c replay tool p') := by
  have hl : ClearLeaf p [] (searchFunction tool) := by
    refine ⟨h, fun n hm => ?_⟩
    rw [rawNames_searchFunction] at hm
    cases hm
  unfold defineSearch
  split_ifs
  · exact related_throw _ _
  · refine (surely_collect (fun tool hm path p' => ?_) path p' 0 0).related.bind
      fun l hlo => ?_
    · rw [mem_singleton.1 hm]
      exact surely_innerTool hl replay path p'
    · split
      · refine (surely_modify fun s s' h => ?_).related.bind fun _ _ => related_pure hlo
        exact { h with search := rfl }
      · exact related_throw _ _

variable {children : List Ajson}

lemma surely_children (hi : Clear p (children.flatMap (leafIds c scope)))
    (hr : ∀ n ∈ children.flatMap (rawNames scope), ¬ p.wires n) (replay : Bool)
    (base b' : Bytes) (i i' : Nat) :
    Surely (Apart p K) (ClearTools p) (collect (innerTool c scope replay) base i children)
    (collect (innerTool c scope replay) b' i' children) := by
  refine surely_collect (fun tool hm path p' => ?_) base b' i i'
  refine surely_innerTool ⟨?_, ?_⟩ replay path p'
  · exact fun id hid => hi id (mem_flatMap.2 ⟨tool, hm, hid⟩)
  · exact fun n hn => hr n (mem_flatMap.2 ⟨tool, hm, hn⟩)

lemma defineNamespace_of_children (h : childrenOf tool = some children) (replay : Bool)
    (path : Bytes) : defineNamespace c replay tool path =
    collect (innerTool c (tool.stringField "name") replay) (schemaPath c path (ascii "tools")) 0
    children := by
  unfold childrenOf at h
  unfold defineNamespace
  split at h
  next tools hf =>
    split_ifs at h with hn
    cases h
    simp only [hf, if_neg hn]
  next => cases h

lemma defineNamespace_of_none (h : childrenOf tool = none) (replay : Bool) (path : Bytes) :
    ∃ e, defineNamespace c replay tool path = throw e := by
  unfold childrenOf at h
  unfold defineNamespace
  split
  · exact ⟨_, rfl⟩
  next children hf =>
    dsimp only
    split_ifs with hn
    · exact ⟨_, rfl⟩
    · split
      next tools =>
        rw [hf] at h
        simp [hn] at h
      next => exact ⟨_, rfl⟩

lemma surely_outerTool (h : ClearOuter p tool) (replay : Bool) (path p' : Bytes) :
    Surely (Apart p K) (ClearTools p) (outerTool c replay tool path)
    (outerTool c replay tool p') := by
  obtain ⟨hi, hr⟩ := h
  unfold outerIds at hi
  unfold outerRawNames at hr
  unfold outerTool outerBody
  split_ifs at hi hr ⊢ with hnamespace hs
  · rcases hchildren : childrenOf tool with _ | children
    · rw [hchildren] at hi
      obtain ⟨e, hb⟩ := defineNamespace_of_none (c := c) hchildren replay path
      obtain ⟨e', hb'⟩ := defineNamespace_of_none (c := c) hchildren replay p'
      rw [hb, hb']
      exact surely_guarded hi (related_throw e e') path p'
    · rw [hchildren] at hi hr
      rw [defineNamespace_of_children hchildren, defineNamespace_of_children hchildren]
      exact fun s s' h => (surely_children hi hr replay _ _ 0 0 s s' h).tryCatch _ _
  · have ho : Clear p (ownIds [] tool) := fun id hm => hi id (mem_append_left _ hm)
    refine surely_guarded ho (related_defineSearch ?_ replay path p') path p'
    exact fun id hm => hi id (mem_append_right _ hm)
  · have hl : ClearLeaf p [] tool := ⟨hi, hr⟩
    exact surely_guarded hl.own (related_defineLeaf hl hnamespace hs replay path p') path p'

lemma Own.of_leafIds (h : Own p (leafIds c scope tool)) : Own p (ownIds scope tool) := by
  intro id hm
  refine h id ?_
  rw [ownIds] at hm
  rw [leafIds]
  split_ifs at hm ⊢ <;> simp_all

variable {path : Bytes} {e : Failure} {t : Catalog}

lemma run_guarded (hb : body.run.run s = (.error e, t))
    (hr : (reject c tool (effectiveScope scope tool) path e).run.run t = (.ok (), u)) :
    (guarded c scope tool path body).run.run s = (.ok [], u) := by
  unfold guarded
  rw [run_tryCatch, hb]
  exact run_bind_ok hr _

def basesOf (ids : List Identity) : List Identity := ids.filter fun id => id.variant.isEmpty

/-- What the rejection of a definition with these identities leaves listed. The function behind a
tool search may have been declared by then. -/
def Leftover (c : Checks) (isSearch : Bool) (ids : List Identity) :
    Bytes → Option (List Bytes) → Prop :=
  NoneLeft (c := c) (if isSearch then [] else basesOf ids)

lemma mem_ownIds_of_basesOf {id : Identity} (h : id ∈ basesOf (leafIds c scope tool)) :
    id ∈ ownIds scope tool := by
  rw [basesOf, mem_filter, List.isEmpty_iff] at h
  obtain ⟨hm, hv⟩ := h
  rw [leafIds] at hm
  split_ifs at hm with hn hf
  · cases hm
  · rcases mem_cons.1 hm with rfl | hm
    · exact mem_ownIds hn
    · -- An alternative whose text is empty has the identity of the tool.
      rw [variantIds] at hm
      split at hm
      · obtain ⟨b, -, rfl⟩ := mem_map.1 hm
        dsimp only at hv
        rw [hv]
        exact mem_ownIds hn
      · cases hm
  · rw [mem_singleton.1 hm]
    exact mem_ownIds hn

lemma NoneLeft.mono {own own' : List Identity} (hs : ∀ id ∈ own', id ∈ own) (wi : Bytes)
    (wires : Option (List Bytes)) (h : NoneLeft (c := c) own wi wires) :
    NoneLeft (c := c) own' wi wires :=
  fun ⟨id, hm, hw⟩ => h ⟨id, hs id hm, hw⟩

lemma leftover_leafIds : ∀ wi wires, NoneLeft (c := c) (ownIds scope tool) wi wires →
      Leftover c false (leafIds c scope tool) wi wires :=
  NoneLeft.mono fun _ hm => mem_ownIds_of_basesOf hm

variable {replay : Bool}

lemma Apart.innerTool_rejected (h : Apart p Unlisted s s') (hown : Own p (leafIds c scope tool))
    (hfa : (innerBody c scope replay tool path).run.run s = (.error e, t)) :
    ∃ u, (innerTool c scope replay tool path).run.run s = (.ok [], u) ∧
    Apart p (Leftover c false (leafIds c scope tool)) u s' := by
  have huns : UnseenFailure (Apart p Unlisted) (innerBody c scope replay tool path) := by
    unfold innerBody
    split_ifs
    · exact (unseen_throw _ : Unseen _ (fun _ => True) _).failure
    · exact (unseen_throw _ : Unseen _ (fun _ => True) _).failure
    · exact unseenFailure_defineLeaf hown replay path
  obtain ⟨u, hrej, hu⟩ := (huns s s' h e t hfa).reject_left hown.of_leafIds path e
  exact ⟨u, run_guarded hfa hrej, hu.weaken leftover_leafIds⟩

lemma unseen_defineSearch (hown : Own p (leafIds c [] (searchFunction tool)))
    (hK : ∀ wire wires, K wire wires) (replay : Bool) (path : Bytes) :
    UnseenFailure (Apart p K) (defineSearch c replay tool path) := by
  have hinn (path : Bytes) : Unseen (Apart p K) (fun _ => True)
      (innerTool c [] replay (searchFunction tool) path) := by
    refine Unseen.tryCatch ?_ fun e => ?_
    · unfold innerBody defineLeaf
      rw [if_pos (isFunction_searchFunction tool)]
      split_ifs
      · exact unseen_throw _
      · exact unseen_throw _
      · exact unseen_defineFunction (isFunction_searchFunction tool) hown hK _ path replay
    · exact (unseen_reject hown.of_leafIds hK path e).bind fun _ _ => unseen_pure trivial
  unfold defineSearch
  split_ifs
  · exact (unseen_throw _ : Unseen _ (fun _ => True) _).failure
  · refine UnseenFailure.bind (P := fun _ => True) ?_ fun lowered _ => ?_
    · refine (hinn _).bind fun out _ => ?_
      exact (unseen_pure trivial : Unseen _ (fun _ => True) _).bind fun _ _ => unseen_pure trivial
    · split
      · exact unseenFailure_modify _ _
      · exact (unseen_throw _ : Unseen _ (fun _ => True) _).failure

/-- Without a definition that is looked at, a state stands beside itself. -/
def Setting.plain (p : Setting c) : Setting c := { p with wires := fun _ => False, nil_apart := id }

lemma Apart.beside (h : Apart p K s s') : Apart p.plain K s s where
  bound := h.bound
  bound' := h.bound
  branches := .refl _ _
  variants := .refl _ _
  declared := .refl _ _
  prepared := .refl _ _
  unavailable := .refl _ _
  search := rfl
  selected := rfl
  restricted := rfl
  listed := fun _ _ _ _ _ => Iff.rfl
  stored := fun _ _ _ _ _ _ => id
  kept := fun _ => False.elim
  fresh := fun _ => False.elim

lemma noneLeft_nil (wi : Bytes) (wires : Option (List Bytes)) : NoneLeft (c := c) [] wi wires := by
  rintro ⟨id, hm, _⟩
  cases hm

lemma Own.plain (h : Own p ids) : Clear p.plain ids :=
  fun id hi => ⟨(h id hi).1, fun hf => hf⟩

lemma Apart.namespace_ok (h : Apart p K s s') (ho : Own p (children.flatMap (leafIds c scope)))
    (replay : Bool) (base : Bytes) :
    ∃ out t, (collect (innerTool c scope replay) base 0 children).run.run s = (.ok out, t) := by
  obtain ⟨out, t, _, hr, _⟩ :=
    surely_children ho.plain (fun _ _ hf => hf) replay base base 0 0 s s h.beside
  exact ⟨out, t, hr⟩

lemma Apart.search_rejected (h : Apart p Unlisted s s')
    (ho : Own p (ownIds [] tool ++ leafIds c [] (searchFunction tool)))
    (hf : (defineSearch c replay tool path).run.run s = (.error e, t)) :
    ∃ u, (reject c tool (effectiveScope [] tool) path e).run.run t = (.ok (), u) ∧
    Apart p (NoneLeft (c := c) []) u s' := by
  have hb : Own p (ownIds [] tool) := fun id hi => ho id (mem_append_left _ hi)
  have hp := h.weaken fun wi ws _ => noneLeft_nil (c := c) wi ws
  have ht := unseen_defineSearch (fun id hi => ho id (mem_append_right _ hi))
    (noneLeft_nil (c := c)) replay path s s' hp e t hf
  obtain ⟨_, u, _, hr, _⟩ := surely_reject hb.plain path path e e t t ht.beside
  have hu := (unseen_reject hb (noneLeft_nil (c := c)) path e t s' ht).1
  rw [hr] at hu
  exact ⟨u, hr, hu⟩

lemma Apart.outerTool_rejected (h : Apart p Unlisted s s') (ho : Own p (outerIds c tool))
    (hf : (outerBody c replay tool path).run.run s = (.error e, t)) :
    ∃ u, (outerTool c replay tool path).run.run s = (.ok [], u) ∧
    Apart p (Leftover c (tool.stringField "type" == ascii "tool_search") (outerIds c tool))
    u s' := by
  have hbd := hf
  unfold outerBody at hbd
  unfold outerIds at ho ⊢
  by_cases hs : tool.stringField "type" = ascii "tool_search"
  · have hnamespace : tool.stringField "type" ≠ ascii "namespace" := by
      rw [hs]
      decide
    rw [if_neg hnamespace, if_pos hs] at hbd ho
    obtain ⟨u, hre, hu⟩ := h.search_rejected ho hbd
    rw [beq_iff_eq.2 hs]
    exact ⟨u, run_guarded hf hre, hu⟩
  · rw [if_neg hs] at hbd ho ⊢
    rw [beq_false_of_ne hs]
    by_cases hnamespace : tool.stringField "type" = ascii "namespace"
    · rw [if_pos hnamespace] at hbd ho ⊢
      rcases hchildren : childrenOf tool with _ | children <;> rw [hchildren] at ho
      · obtain ⟨e', hth⟩ := defineNamespace_of_none (c := c) hchildren replay path
        rw [hth] at hbd
        cases hbd
        obtain ⟨u, hre, hu⟩ := h.reject_left ho path e
        refine ⟨u, run_guarded hf hre, hu.weaken ?_⟩
        exact NoneLeft.mono fun id hm => (mem_filter.1 hm).1
      · rw [defineNamespace_of_children hchildren] at hbd
        obtain ⟨out, u, hr⟩ := h.namespace_ok ho replay (schemaPath c path (ascii "tools"))
        rw [hr] at hbd
        cases hbd
    · rw [if_neg hnamespace] at hbd ho ⊢
      have ht := unseenFailure_defineLeaf ho replay path s s' h e t hbd
      obtain ⟨u, hre, hu⟩ := ht.reject_left ho.of_leafIds path e
      exact ⟨u, run_guarded hf hre, hu.weaken leftover_leafIds⟩

lemma collect_append (define_ : Ajson → Bytes → M (List Ajson)) (base : Bytes) (i : Nat)
    (tools ts' : List Ajson) : collect define_ base i (tools ++ ts') =
      collect define_ base i tools >>= fun out =>
        collect define_ base (i + tools.length) ts' >>= fun re => pure (out ++ re) := by
  induction tools generalizing i with
  | nil => simp [collect]
  | cons tool tools ih =>
    rw [cons_append, collect, collect, ih, length_cons, add_comm tools.length 1, ← add_assoc]
    simp only [bind_assoc, pure_bind, append_assoc]

variable {base : Bytes}

/-- One part of the list is another one on the right; the rest is done alike. -/
lemma paired_collect {K' : Bytes → Option (List Bytes) → Prop} (mi m' : List Ajson)
    {b af : List Ajson} {out : List Ajson}
    (hp : ∀ tool ∈ b, ∀ path p',
    Surely (Apart p K) (ClearTools p) (define_ tool path) (define_ tool p'))
    (ha : ∀ tool ∈ af, ∀ path p',
    Surely (Apart p K') (ClearTools p) (define_ tool path) (define_ tool p'))
    (hr : (collect define_ base 0 b).run.run s = (.ok out, t))
    (hm : ∀ t', Apart p K t t' → Paired (Apart p K') (ClearTools p)
    ((collect define_ base b.length mi).run.run t)
    ((collect define_ base b.length m').run.run t')) (h : Apart p K s s') :
    Paired (Apart p K') (ClearTools p)
    ((collect define_ base 0 (b ++ (mi ++ af))).run.run s)
    ((collect define_ base 0 (b ++ (m' ++ af))).run.run s') := by
  obtain ⟨out', t₁, t', hr₁, hr', ho, ht⟩ := surely_collect hp base base 0 0 s s' h
  rw [hr] at hr₁
  cases hr₁
  rw [collect_append define_ base 0 b, collect_append define_ base 0 b,
    run_bind_ok hr, run_bind_ok hr', zero_add]
  rw [collect_append, collect_append]
  refine Paired.bind (P := ClearTools p) (Paired.bind (hm t' ht) fun f hf => ?_)
    fun re hre => ?_
  · refine (surely_collect ha base base _ _).bind fun re hre => ?_
    exact surely_pure (hf.append hre)
  · exact surely_pure (ho.append hre)

/-- A definition of a list fails in the run from `s`; in the second list it is not there. The
identities are those of the definition. -/
inductive DropTool (c : Checks) (replay : Bool) (base : Bytes) (s : Catalog) :
    List Identity → Bool → List Ajson → List Ajson → Prop
  | outer {before after out : List Ajson} {tool : Ajson} {t u : Catalog} {e : Failure} :
      (collect (outerTool c replay) base 0 before).run.run s = (.ok out, t) →
      (outerBody c replay tool (indexed base before.length)).run.run t = (.error e, u) →
      DropTool c replay base s (outerIds c tool)
        (tool.stringField "type" == ascii "tool_search") (before ++ tool :: after)
        (before ++ after)
  | inner {before after out first rest out' : List Ajson} {group tool : Ajson}
      {t t' u : Catalog} {e : Failure} :
      (collect (outerTool c replay) base 0 before).run.run s = (.ok out, t) →
      group.stringField "type" = ascii "namespace" →
      childrenOf group = some (first ++ tool :: rest) →
      (collect (innerTool c (group.stringField "name") replay)
        (schemaPath c (indexed base before.length) (ascii "tools")) 0 first).run.run t =
          (.ok out', t') →
      (innerBody c (group.stringField "name") replay tool
        (indexed (schemaPath c (indexed base before.length) (ascii "tools"))
          first.length)).run.run t' = (.error e, u) →
      DropTool c replay base s (leafIds c (group.stringField "name") tool) false
        (before ++ group :: after)
        (before ++ group.set (ascii "tools") (.arr (first ++ rest)) :: after)

lemma paired_dropped {i : Nat}
    (hr : (define_ tool (indexed base i)).run.run s = (.ok [], u)) (hu : Apart p K u s') :
    Paired (Apart p K) (ClearTools p) ((collect define_ base i [tool]).run.run s)
    ((collect define_ base i []).run.run s') :=
  ⟨[], u, s', run_bind_ok hr _, rfl, fun _ hm => absurd hm not_mem_nil, hu⟩

variable {group : Ajson}

lemma withoutChild (children' : List Ajson)
    (hnamespace : group.stringField "type" = ascii "namespace")
    (hchildren : childrenOf group = some children) :
    (group.set (ascii "tools") (.arr children')).stringField "type" = ascii "namespace" ∧
    (group.set (ascii "tools") (.arr children')).stringField "name" = group.stringField "name" ∧
    childrenOf (group.set (ascii "tools") (.arr children')) = some children' := by
  have hn : (group.set (ascii "tools") (.arr children')).stringField "name" =
      group.stringField "name" := by
    rw [stringField, stringField, field_set_of_ne (by decide)]
  refine ⟨?_, hn, ?_⟩
  · rw [← hnamespace, stringField, stringField, field_set_of_ne (by decide)]
  · unfold childrenOf at hchildren ⊢
    rw [field_set_self _ (by decide), hn]
    split at hchildren
    · split_ifs at hchildren ⊢
      rfl
    · cases hchildren

section
variable (hnamespace : group.stringField "type" = ascii "namespace")
  (hchildren : childrenOf group = some children)
include hnamespace hchildren

lemma outerTool_of_children (replay : Bool) (path : Bytes) :
    outerTool c replay group path = guarded c [] group path
    (collect (innerTool c (group.stringField "name") replay) (schemaPath c path (ascii "tools"))
    0 children) := by
  rw [outerTool, outerBody, if_pos hnamespace, defineNamespace_of_children hchildren]

lemma clear_children (h : ClearOuter p group) :
    ∀ tool ∈ children, ClearLeaf p (group.stringField "name") tool := by
  obtain ⟨hi, hr⟩ := h
  rw [outerIds, if_pos hnamespace, hchildren] at hi
  rw [outerRawNames, if_pos hnamespace, hchildren] at hr
  intro tool hm
  refine ⟨fun id hid => hi id ?_, fun n hn => hr n ?_⟩
  · exact mem_flatMap.2 ⟨tool, hm, hid⟩
  · exact mem_flatMap.2 ⟨tool, hm, hn⟩

end

lemma DropTool.paired {i : Bool} {ts' : List Ajson}
    (hd : DropTool c replay base s ids i tools ts') (how : Own p ids)
    (hc : ∀ tool ∈ ts', ClearOuter p tool) (h : Apart p Unlisted s s') :
    Paired (Apart p (Leftover c i ids)) (ClearTools p)
    ((collect (outerTool c replay) base 0 tools).run.run s)
    ((collect (outerTool c replay) base 0 ts').run.run s') := by
  have ho {K} (o) (hm : o ∈ ts') := @surely_outerTool c p K o (hc o hm) replay
  cases hd with
  | outer hp hf =>
    rename_i b af out tool t u e
    refine paired_collect [tool] [] (fun o hm => ho o (mem_append_left _ hm))
      (fun o hm => ho o (mem_append_right _ hm)) hp (fun t' ht => ?_) h
    obtain ⟨u, hr, hu⟩ := ht.outerTool_rejected how hf
    exact paired_dropped hr hu
  | inner hp hnamespace hchildren hfi hf =>
    rename_i b af out first re out' group tool t t₁ u e
    obtain ⟨hn', hn, hc'⟩ := withoutChild (first ++ re) hnamespace hchildren
    have hgr := clear_children hn' hc' (hc _ (mem_append_right _ mem_cons_self))
    rw [hn] at hgr
    have hinn {K} (o) (hm : o ∈ first ++ re) := surely_innerTool (K := K) (hgr o hm) replay
    refine paired_collect [group] [group.set (ascii "tools") (.arr (first ++ re))]
      (fun o hm => ho o (mem_append_left _ hm))
      (fun o hm => ho o (mem_append_right _ (mem_cons_of_mem _ hm)))
      hp (fun t' ht => ?_) h
    refine Paired.bind (P := ClearTools p) ?_ fun f hfo => ?_
    · rw [outerTool_of_children hnamespace hchildren, outerTool_of_children hn' hc', hn]
      refine Paired.tryCatch ?_ _ _
      refine paired_collect [tool] [] (fun o hm => hinn o (mem_append_left _ hm))
        (fun o hm => hinn o (mem_append_right _ hm)) hfi (fun t' ht => ?_) ht
      obtain ⟨u, hr, hu⟩ := ht.innerTool_rejected how hf
      exact paired_dropped hr hu
    · exact surely_pure (hfo.append fun _ hm => absurd hm not_mem_nil)

end AxiomKernel.Codex
