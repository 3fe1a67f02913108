import AxiomKernel.Json
import AxiomKernel.Codex.WireNames

/-!
# Putting the tool identities back into a response

`restore` of `tools/axiom_codex_provider.h`, on the map a prepared request left behind.
-/
namespace AxiomKernel.Codex

open Ajson Image Text
open List hiding Vector

def responseKeys : List Bytes :=
  ["metadata", "client_metadata", "session_id", "thread_id", "turn_id",
    "parallel_tool_calls"].map ascii

/-- What `restore` reads of the map of a prepared request. -/
structure Restorer where
  reverse : Reverse
  toolSearchWire : Bytes
  rejected : List Ajson
  responseFields : List (Bytes × Ajson)
  /-- `ajson_parse`. -/
  parse : Bytes → Except String Ajson
  keys : ∀ field ∈ responseFields, field.1 ∈ responseKeys

namespace Restorer

def isClientToolSearch (m : Restorer) (wire : Bytes) : Bool :=
  !m.toolSearchWire.isEmpty && wire == m.toolSearchWire

end Restorer

variable (v : Ajson)

def isCall : Bool :=
  v.stringField "type" == ascii "function_call" || v.stringField "type" == ascii "custom_tool_call"

def isResponse : Bool :=
  v.stringField "type" == ascii "response" || v.stringField "object" == ascii "response" ||
    (v.field "output").isSome

def setAll (fields : List (Bytes × Ajson)) : Ajson :=
  fields.foldl (fun v field => v.set field.1 field.2) v

variable (m : Restorer)

def responseFieldsOf : List (Bytes × Ajson) :=
  (if m.rejected.isEmpty then [] else [(ascii "codex_tool_errors", .arr m.rejected)]) ++
    m.responseFields

def restoreHeader (v : Ajson) : Ajson :=
  if isResponse v then setAll v (responseFieldsOf m) else v

def restoreToolSearch (v : Ajson) : Except String Ajson :=
  let text := v.stringField "arguments"
  match m.parse (if text.isEmpty then ascii "\x7b\x7d" else text) with
  | .ok (.obj arguments) =>
    .ok (((((v.set (ascii "type") (.str (ascii "tool_search_call"))).set (ascii "execution")
      (.str (ascii "client"))).set (ascii "arguments") (.obj arguments)).erase
      (ascii "name")).erase (ascii "namespace"))
  | .ok _ => .error "invalid client tool_search arguments: "
  | .error e => .error ("invalid client tool_search arguments: " ++ e)

def restoreIdentity (id : Identity) (v : Ajson) : Ajson :=
  let named := v.set (ascii "name") (.str id.name)
  if id.scope.isEmpty then named else named.set (ascii "namespace") (.str id.scope)

/-- The object itself, before its children; the flag says that the function returns. -/
def restoreHead (v : Ajson) : Except String (Ajson × Bool) :=
  let header := restoreHeader m v
  if isCall v then
    let wire := header.stringField "name"
    if m.isClientToolSearch wire then (restoreToolSearch m header).map (·, true)
    else
      match m.reverse wire with
      | some id => .ok (restoreIdentity id header, false)
      | none => .ok (header, false)
  else .ok (header, false)

def childKeys : List Bytes := ["item", "response", "output"].map ascii

lemma isObj_set (key : Bytes) (ch : Ajson) : ∃ members, v.set key ch = .obj members := by
  cases v <;> exact ⟨_, rfl⟩

variable {members : List (Bytes × Ajson)} {v : Ajson} {key : Bytes}

lemma member_set_ne (hv : v = .obj members) {other : Bytes} (h : other ≠ key) (ch : Ajson) :
    (v.set key ch).member other = v.member other := by
  rw [hv]
  exact member_set_of_ne members h ch

lemma setAll_spec (fields : List (Bytes × Ajson)) (hv : v = .obj members) :
    (∃ ms', setAll v fields = .obj ms') ∧
    ∀ key, key ∉ fields.map Prod.fst → (setAll v fields).member key = v.member key := by
  induction fields generalizing v members with
  | nil => exact ⟨⟨members, hv⟩, fun _ _ => rfl⟩
  | cons first fields ih =>
    obtain ⟨ms₁, h₁⟩ := isObj_set v first.1 first.2
    obtain ⟨ho, hk⟩ := ih h₁
    refine ⟨ho, fun key hkey => ?_⟩
    rw [map_cons, mem_cons, not_or] at hkey
    exact (hk key hkey.2).trans (member_set_ne hv hkey.1 first.2)

/-- The fields `restore` sets on a response object. -/
def headerKeys (m : Restorer) (v : Ajson) : List Bytes :=
  if isResponse v then (responseFieldsOf m).map Prod.fst else []

variable {m : Restorer}

lemma headerKeys_known (h : key ∈ headerKeys m v) :
    key ∈ ascii "codex_tool_errors" :: responseKeys := by
  unfold headerKeys responseFieldsOf at h
  split at h
  · obtain ⟨fi, hf, rfl⟩ := mem_map.1 h
    rcases mem_append.1 hf with he | hecho
    · split at he
      · cases he
      · rw [mem_singleton.1 he]
        exact mem_cons_self
    · exact mem_cons_of_mem _ (m.keys fi hecho)
  · cases h

lemma restoreHeader_spec (m : Restorer) (hv : v = .obj members) :
    (∃ ms', restoreHeader m v = .obj ms') ∧
    ∀ key, key ∉ headerKeys m v → (restoreHeader m v).member key = v.member key := by
  unfold restoreHeader headerKeys
  split
  · exact setAll_spec _ hv
  · exact ⟨⟨members, hv⟩, fun _ _ => rfl⟩

lemma restoreIdentity_spec (id : Identity) (hv : v = .obj members) :
    (∃ ms', restoreIdentity id v = .obj ms') ∧
    (restoreIdentity id v).member (ascii "name") = some (.str id.name) ∧
    (restoreIdentity id v).member (ascii "namespace") =
    (if id.scope = [] then v.member (ascii "namespace") else some (.str id.scope)) ∧
    ∀ key, key ≠ ascii "name" → key ≠ ascii "namespace" →
    (restoreIdentity id v).member key = v.member key := by
  obtain ⟨ms₁, h₁⟩ := isObj_set v (ascii "name") (.str id.name)
  have hne : ascii "namespace" ≠ ascii "name" := by decide
  unfold restoreIdentity
  by_cases hs : id.scope = []
  · simp only [hs, isEmpty_nil, if_true]
    exact ⟨⟨_, h₁⟩, member_set_self .., member_set_ne hv hne _,
      fun key hn _ => member_set_ne hv hn _⟩
  · have hs' : id.scope.isEmpty = false := by simpa using hs
    simp only [hs', if_neg hs, Bool.false_eq_true, if_false]
    refine ⟨isObj_set .., ?_, member_set_self .., fun key hn hsp => ?_⟩
    · rw [member_set_ne h₁ hne.symm]
      exact member_set_self ..
    · rw [member_set_ne h₁ hsp, member_set_ne hv hn]

lemma childKeys_apart : ∀ key ∈ childKeys, key ∉ ascii "codex_tool_errors" :: responseKeys ∧
    key ≠ ascii "name" ∧ key ≠ ascii "namespace" := by
  decide

variable {v' : Ajson}

section
variable (h : restoreHead m (.obj members) = .ok (v', false)) (hkey : key ∈ childKeys)
include h hkey

lemma member_child_head : v'.member key = member (.obj members) key := by
  obtain ⟨hu, hn⟩ := childKeys_apart key hkey
  have hh : key ∉ headerKeys m (.obj members) := fun hm => hu (headerKeys_known hm)
  obtain ⟨⟨ms₁, h₁⟩, hkp⟩ := restoreHeader_spec m (@rfl _ (Ajson.obj members))
  unfold restoreHead at h
  dsimp only at h
  split at h
  · split at h
    · cases hsear : restoreToolSearch m (restoreHeader m (.obj members)) <;>
        rw [hsear] at h <;> cases h
    · split at h
      next id _ =>
        cases h
        rw [(restoreIdentity_spec id h₁).2.2.2 key hn.1 hn.2]
        exact hkp key hh
      · cases h
        exact hkp key hh
  · cases h
    exact hkp key hh

lemma sizeOf_child {ch : Ajson} (hc : v'.member key = some ch) :
    sizeOf ch < sizeOf (Ajson.obj members) := by
  rw [member_child_head h hkey] at hc
  have := sizeOf_lookup hc
  simp
  omega

end

def rewritten (v : Ajson) (key : Bytes)
    (f : ∀ child, v.member key = some child → Except String Ajson) :
    Except String (List (Bytes × Ajson)) :=
  match h : v.member key with
  | none => .ok []
  | some child => (f child h).map fun copy => [(key, copy)]

def restore (m : Restorer) : Ajson → Except String Ajson
  | .obj members =>
    match _hhead : restoreHead m (.obj members) with
    | .error e => .error e
    | .ok (v, true) => .ok v
    | .ok (v, false) => do
        -- the three children are members of their own, so each is read from `v`
        let item ← rewritten v (ascii "item") fun child _hitem => restore m child
        let response ← rewritten v (ascii "response") fun child _hresponse => restore m child
        let output ← rewritten v (ascii "output") fun child _houtput =>
          match child with
          | .arr items => (items.attach.mapM fun x => restore m x.1).map Ajson.arr
          | other => .ok other
        pure (setAll v (item ++ response ++ output))
  | v => .ok v
termination_by v => sizeOf v
decreasing_by
  · exact sizeOf_child _hhead (by decide) _hitem
  · exact sizeOf_child _hhead (by decide) _hresponse
  · have hlt := sizeOf_child _hhead (by decide) _houtput
    have := sizeOf_lt_of_mem x.2
    simp at hlt ⊢
    omega

section
variable {m : Restorer} {members : List (Bytes × Ajson)} {v : Ajson} {key : Bytes}

variable (f : Ajson → Except String Ajson)

def rewrittenBy (v : Ajson) (key : Bytes) : Except String (List (Bytes × Ajson)) :=
  match v.member key with
  | none => .ok []
  | some child => (f child).map fun copy => [(key, copy)]

lemma rewritten_eq {f : ∀ ch, v.member key = some ch → Except String Ajson}
    {g : Ajson → Except String Ajson} (hf : ∀ ch h, f ch h = g ch) :
    rewritten v key f = rewrittenBy g v key := by
  unfold rewritten rewrittenBy
  split
  next h => simp only [h]
  next ch h => simp only [h, hf]

def restoreOutput (m : Restorer) : Ajson → Except String Ajson
  | .arr items => (items.mapM (restore m)).map Ajson.arr
  | other => .ok other

lemma mapM_attach (i : List Ajson) : (i.attach.mapM fun x => f x.1) = i.mapM f := by
  conv_rhs => rw [← attach_map_subtype_val i, mapM_map]
  rfl

lemma restore_eq (hh : restoreHead m (.obj members) = .ok (v, false)) :
    restore m (.obj members) = (do
      let item ← rewrittenBy (restore m) v (ascii "item")
      let response ← rewrittenBy (restore m) v (ascii "response")
      let output ← rewrittenBy (restoreOutput m) v (ascii "output")
      pure (setAll v (item ++ response ++ output))) := by
  rw [restore]
  split
  next hh' => rw [hh] at hh'; cases hh'
  next hh' => rw [hh] at hh'; cases hh'
  next hh' =>
    rw [hh] at hh'
    cases hh'
    rw [rewritten_eq (g := restore m) (fun _ _ => rfl),
      rewritten_eq (g := restore m) (fun _ _ => rfl), rewritten_eq (g := restoreOutput m)]
    intro ch _
    cases ch with
    | arr i => exact congrArg (Except.map Ajson.arr) (mapM_attach (restore m) i)
    | _ => rfl

variable {f : Ajson → Except String Ajson} {fields : List (Bytes × Ajson)}

lemma rewrittenBy_ok (h : rewrittenBy f v key = .ok fields) : (v.member key = none ∧ fields = []) ∨
    ∃ ch co, v.member key = some ch ∧ f ch = .ok co ∧ fields = [(key, co)] := by
  unfold rewrittenBy at h
  split at h
  next hn => exact .inl ⟨hn, (Except.ok.inj h).symm⟩
  next ch hc =>
    cases hf : f ch with
    | error e =>
      rw [hf] at h
      cases h
    | ok co =>
      rw [hf] at h
      exact .inr ⟨ch, co, hc, hf, (Except.ok.inj h).symm⟩

lemma rewrittenBy_none (h : v.member key = none) : rewrittenBy f v key = .ok [] := by
  simp only [rewrittenBy, h]

lemma rewrittenBy_keys (h : rewrittenBy f v key = .ok fields) :
    ∀ fi ∈ fields, fi.1 = key ∧ (v.member key).isSome := by
  rcases rewrittenBy_ok h with ⟨-, rfl⟩ | ⟨ch, co, hc, -, rfl⟩
  · exact nofun
  · intro fi hf
    rw [mem_singleton.1 hf, hc]
    exact ⟨rfl, rfl⟩

lemma restore_ok (hh : restoreHead m (.obj members) = .ok (v, false))
    (h : restore m (.obj members) = .ok v') : ∃ fields, v' = setAll v fields ∧
    ∀ fi ∈ fields, fi.1 ∈ childKeys ∧ (member (.obj members) fi.1).isSome := by
  rw [restore_eq hh] at h
  obtain ⟨i, hi, h⟩ := Guard.bind_eq_ok.1 h
  obtain ⟨re, hr, h⟩ := Guard.bind_eq_ok.1 h
  obtain ⟨o, ho, h⟩ := Guard.bind_eq_ok.1 h
  cases h
  refine ⟨_, rfl, fun fi hf => ?_⟩
  have hc : ∀ {key}, key ∈ childKeys → fi.1 = key ∧ (v.member key).isSome →
      fi.1 ∈ childKeys ∧ (member (.obj members) fi.1).isSome := by
    rintro key hkey ⟨rfl, hs⟩
    rw [member_child_head hh hkey] at hs
    exact ⟨hkey, hs⟩
  rcases mem_append.1 hf with hf | hf
  · rcases mem_append.1 hf with hf | hf
    · exact hc (by decide) (rewrittenBy_keys hi fi hf)
    · exact hc (by decide) (rewrittenBy_keys hr fi hf)
  · exact hc (by decide) (rewrittenBy_keys ho fi hf)

lemma restore_returned (hh : restoreHead m (.obj members) = .ok (v, true)) :
    restore m (.obj members) = .ok v := by
  rw [restore]
  split
  next hh' => rw [hh] at hh'; cases hh'
  next hh' =>
    rw [hh] at hh'
    cases hh'
    rfl
  next hh' => rw [hh] at hh'; cases hh'

lemma restore_childless (hh : restoreHead m (.obj members) = .ok (v, false))
    (h : ∀ key ∈ childKeys, member (.obj members) key = none) :
    restore m (.obj members) = .ok v := by
  have hn : ∀ key ∈ childKeys, v.member key = none := fun key hkey =>
    (member_child_head hh hkey).trans (h key hkey)
  rw [restore_eq hh, rewrittenBy_none (hn _ (by decide)),
    rewrittenBy_none (hn _ (by decide)), rewrittenBy_none (hn _ (by decide))]
  rfl

lemma stringField_congr {key : String} (hkey : (0 : UInt8) ∉ ascii key)
    (h : v.member (ascii key) = v'.member (ascii key)) :
    v.stringField key = v'.stringField key := by
  simp only [stringField, field, get_eq_member hkey, h]

lemma restoreHead_call {id : Identity} (hc : isCall (.obj members))
    (hb : m.reverse (stringField (.obj members) "name") = some id)
    (hs : m.isClientToolSearch (stringField (.obj members) "name") = false) :
    restoreHead m (.obj members) =
    .ok (restoreIdentity id (restoreHeader m (.obj members)), false) := by
  have hn : (restoreHeader m (.obj members)).stringField "name" =
      stringField (.obj members) "name" := by
    refine stringField_congr (by decide) ?_
    refine (restoreHeader_spec m (@rfl _ (Ajson.obj members))).2 _ fun hm => ?_
    exact absurd (headerKeys_known hm) (by decide)
  simp [restoreHead, hc, hn, hs, hb]
end

/-- The fields of a call that may differ after `restore`. -/
def restoredKeys (m : Restorer) (v : Ajson) : List Bytes :=
  ascii "name" :: ascii "namespace" :: headerKeys m v ++
    childKeys.filter fun key => (v.member key).isSome

/-- A call to a bound name: what `restore` makes of it. -/
structure Restored (m : Restorer) (id : Identity) (v v' : Ajson) : Prop where
  name : v'.member (ascii "name") = some (.str id.name)
  scope : v'.member (ascii "namespace") =
    if id.scope = [] then v.member (ascii "namespace") else some (.str id.scope)
  rest : ∀ key, key ∉ restoredKeys m v → v'.member key = v.member key

lemma restored {id : Identity} (hc : isCall (.obj members))
    (hb : m.reverse (stringField (.obj members) "name") = some id)
    (hs : m.isClientToolSearch (stringField (.obj members) "name") = false)
    (h : restore m (.obj members) = .ok v') : Restored m id (.obj members) v' := by
  obtain ⟨⟨ms₁, h₁⟩, hh⟩ := restoreHeader_spec m (@rfl _ (Ajson.obj members))
  obtain ⟨⟨ms₂, h₂⟩, hn, hsc, hre⟩ := restoreIdentity_spec id h₁
  obtain ⟨fields, rfl, hf⟩ := restore_ok (restoreHead_call hc hb hs) h
  obtain ⟨_, hkp⟩ := setAll_spec fields h₂
  have ho : ∀ key, key ∉ childKeys → key ∉ fields.map Prod.fst := by
    rintro key hkey hm
    obtain ⟨fi, hfi, rfl⟩ := mem_map.1 hm
    exact hkey (hf fi hfi).1
  refine ⟨?_, ?_, fun key hkey => ?_⟩
  · rw [hkp _ (ho _ (by decide)), hn]
  · rw [hkp _ (ho _ (by decide)), hsc, hh]
    exact fun hm => absurd (headerKeys_known hm) (by decide)
  · simp only [restoredKeys, cons_append, mem_cons, mem_append, mem_filter, not_or, not_and] at hkey
    obtain ⟨hkn, hks, hkh, hk⟩ := hkey
    rw [hkp key, hre key hkn hks, hh key hkh]
    intro hm
    obtain ⟨fi, hfi, rfl⟩ := mem_map.1 hm
    exact hk (hf fi hfi).1 (hf fi hfi).2

structure Reversible (sha256 : Bytes → Vector UInt8 32) (ids : List Identity) : Prop where
  /-- A wire name stands for one identity. -/
  one : ∀ wire id, boundAll sha256 ids wire = some id → id ∈ ids ∧ wireName sha256 id = wire
  /-- Each identity gets its own name, whatever was bound before, or a reported collision. -/
  answer : ∀ id answer,
    (id, answer) ∈ ids.zip (Machine.outputs (bindStep sha256) (fun _ => none) ids) →
    id.name ≠ [] →
    (answer = .ok (wireName sha256 id) ∧ boundAll sha256 ids (wireName sha256 id) = some id) ∨
    (answer = .error "Codex tool wire-name collision" ∧ ¬ Undigested id ∧
      ∃ other ∈ ids, other ≠ id ∧ ¬ Undigested other ∧ wireName sha256 other = wireName sha256 id)
  /-- Calls to bound names get name and namespace back. -/
  back : ∀ (m : Restorer) members id, m.reverse = boundAll sha256 ids →
    isCall (.obj members) = true →
    boundAll sha256 ids (stringField (.obj members) "name") = some id →
    m.isClientToolSearch (stringField (.obj members) "name") = false →
    (∀ v', restore m (.obj members) = .ok v' → Restored m id (.obj members) v') ∧
    ((∀ key ∈ childKeys, member (.obj members) key = none) →
      ∃ v', restore m (.obj members) = .ok v')

theorem wire_names_reversible (sha256 : Bytes → Vector UInt8 32) : (∀ id : Identity, id.name ≠ [] →
      canonical (wireName sha256 id) = true ∧ (wireName sha256 id).length ≤ 64) ∧
    (∀ id id' : Identity, Undigested id → wireName sha256 id = wireName sha256 id' → id = id') ∧
    ∀ ids : List Identity, Reversible sha256 ids := by
  refine ⟨fun id hn => ?_, fun id id' h he => wireName_injective sha256 h he, fun ids => ?_⟩
  · have hcan := canonical_wireName sha256 hn
    refine ⟨hcan, ?_⟩
    simp only [canonical, Bool.and_eq_true, decide_eq_true_eq] at hcan
    exact hcan.1.1.1.2
  · have hb : Bound sha256 (boundAll sha256 ids) := bound_run sha256 ids (bound_empty sha256)
    have hme : ∀ {wi id}, boundAll sha256 ids wi = some id → id ∈ ids := fun h =>
      (run_bindStep_mem sha256 ids h).resolve_right fun h => by cases h
    refine ⟨fun wi id h => ⟨hme h, (hb wi id h).2⟩, fun id an ha hn => ?_, ?_⟩
    · rcases run_bindStep_answer sha256 ids (bound_empty sha256) ha hn with
        hok | ⟨herr, other, ho, hne⟩
      · exact .inl hok
      · have hs : wireName sha256 other = wireName sha256 id := (hb _ _ ho).2
        exact .inr ⟨herr, fun h => hne (wireName_injective sha256 h hs.symm).symm, other,
          hme ho, hne, fun h => hne (wireName_injective sha256 h hs), hs⟩
    · rintro m members id hm hc hf hse
      rw [← hm] at hf
      exact ⟨fun v' h => restored hc hf hse h, fun hch =>
        ⟨_, restore_childless (restoreHead_call hc hf hse) hch⟩⟩

def searchMap : Restorer where
  reverse := boundAll (fun _ => Vector.replicate 32 0) [⟨ascii "tool_search", [], []⟩]
  toolSearchWire := ascii "tool_search"
  rejected := []
  responseFields := []
  parse := fun _ => .ok (.obj [])
  keys := nofun

def plainMap : Restorer := { searchMap with toolSearchWire := [] }

def callTo (wire : String) (rest : List (Bytes × Ajson)) : Ajson :=
  .obj ((ascii "type", .str (ascii "function_call")) :: (ascii "name", .str (ascii wire)) :: rest)

lemma searchMap_search : searchMap.reverse (ascii "tool_search") =
    some ⟨ascii "tool_search", [], []⟩ := by
  decide

/-- A call of the client's tool search loses its name, and a namespace the call came with stays on
a tool that has none. -/
theorem restore_leaves_identity :
    (searchMap.reverse (ascii "tool_search") = some ⟨ascii "tool_search", [], []⟩ ∧
      ∃ v, restore searchMap (callTo "tool_search" []) = .ok v ∧ v.member (ascii "name") = none) ∧
    (plainMap.reverse (ascii "tool_search") = some ⟨ascii "tool_search", [], []⟩ ∧
      ∃ v, restore plainMap (callTo "tool_search" [(ascii "namespace", .str (ascii "other"))]) =
          .ok v ∧
        v.member (ascii "name") = some (.str (ascii "tool_search")) ∧
        v.member (ascii "namespace") = some (.str (ascii "other"))) := by
  refine ⟨⟨searchMap_search, _, restore_returned rfl, rfl⟩, ⟨searchMap_search, ?_⟩⟩
  have hh := @restoreHead_call plainMap
    [(ascii "type", .str (ascii "function_call")), (ascii "name", .str (ascii "tool_search")),
      (ascii "namespace", .str (ascii "other"))] _ (by decide) searchMap_search rfl
  exact ⟨_, restore_childless hh (by decide), rfl, rfl⟩

end AxiomKernel.Codex
