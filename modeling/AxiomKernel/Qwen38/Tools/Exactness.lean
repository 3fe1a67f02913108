import Mathlib.Data.List.Dedup
import AxiomKernel.Qwen38.Tools.Arguments

/-!
# Which values are checked exactly

A value with a key that holds a NUL byte is checked wrongly under some schema: one that declares the
cut key and closes the object.
-/
namespace AxiomKernel.Qwen38.Tools

open Ajson Guard Image Text
open List hiding lookup

inductive Nested : Nat → Ajson → Prop
  | intro {n : Nat} {value : Ajson}
      (members : ∀ members, value = .obj members → ∀ member ∈ members, Nested n member.2)
      (items : ∀ items, value = .arr items → ∀ item ∈ items, Nested n item) : Nested (n + 1) value

mutual
def allKeys : Ajson → List Bytes
  | .arr items => allKeysItems items
  | .obj members => allKeysMembers members
  | _ => []

def allKeysItems : List Ajson → List Bytes
  | [] => []
  | x :: xs => allKeys x ++ allKeysItems xs

def allKeysMembers : List (Bytes × Ajson) → List Bytes
  | [] => []
  | (key, x) :: members => key :: (allKeys x ++ allKeysMembers members)
end

lemma allKeys_item {i : List Ajson} {x : Ajson} (h : x ∈ i) : allKeys x ⊆ allKeys (.arr i) := by
  rw [allKeys]
  induction i with
  | nil => cases h
  | cons y i ih =>
    rw [allKeysItems]
    rcases mem_cons.1 h with rfl | hm
    · exact subset_append_left _ _
    · exact List.Subset.trans (ih hm) (subset_append_right _ _)

lemma allKeys_member {ms : List (Bytes × Ajson)} {me : Bytes × Ajson} (h : me ∈ ms) :
    me.1 ∈ allKeys (.obj ms) ∧ allKeys me.2 ⊆ allKeys (.obj ms) := by
  rw [allKeys]
  induction ms with
  | nil => cases h
  | cons first ms ih =>
    obtain ⟨key, x⟩ := first
    rw [allKeysMembers]
    rcases mem_cons.1 h with rfl | hm
    · exact ⟨mem_cons_self, fun k hk =>
        mem_cons_of_mem _ (mem_append_left _ hk)⟩
    · obtain ⟨hke, hs⟩ := ih hm
      exact ⟨mem_cons_of_mem _ (mem_append_right _ hke), fun k hk =>
        mem_cons_of_mem _ (mem_append_right _ (hs hk))⟩

def declaring (names : List Bytes) : Nat → Ajson
  | 0 => .obj []
  | n + 1 =>
    .obj [(ascii "properties", .obj (names.map fun name => (name, declaring names n))),
      (ascii "additionalProperties", .bool false), (ascii "items", declaring names n)]

section
variable {names : List Bytes} {n : Nat}

lemma isObject_declaring : isObject (declaring names n) = true := by
  cases n <;> rfl

lemma field_declaring (key : String)
    (h : ascii key ≠ ascii "properties" ∧ ascii key ≠ ascii "additionalProperties" ∧
    ascii key ≠ ascii "items") (hn : (0 : UInt8) ∉ ascii key) :
    (declaring names n).field key = none := by
  rw [Ajson.field, get_eq_member hn]
  cases n with
  | zero => rfl
  | succ n =>
    change lookup _ _ = none
    rw [lookup, if_neg h.1.symm, lookup, if_neg h.2.1.symm, lookup, if_neg h.2.2.symm]
    rfl

lemma properties_declaring : (declaring names (n + 1)).field "properties" =
    some (.obj (names.map fun name => (name, declaring names n))) := rfl

lemma additional_declaring :
    (declaring names (n + 1)).field "additionalProperties" = some (.bool false) := rfl

lemma items_declaring : (declaring names (n + 1)).field "items" = some (declaring names n) := rfl

lemma lookup_declared {name : Bytes} (schema : Ajson) :
    lookup name (names.map fun name => (name, schema)) =
      if name ∈ names then some schema else none := by
  induction names with
  | nil => rfl
  | cons first names ih =>
    rw [map_cons, lookup, ih]
    by_cases hn : first = name
    · rw [if_pos hn, if_pos (by simp [hn])]
    · rw [if_neg hn]
      simp [Ne.symm hn]

lemma validateSchema_declaring {dumps : Bytes → Bytes} {tool : Bytes} {levels : Nat}
    (hn : n < levels) (path : Bytes) :
    validateSchema dumps tool levels (declaring names n) path = .ok () := by
  induction n generalizing levels path with
  | zero =>
    obtain ⟨levels, rfl⟩ : ∃ l, levels = l + 1 := ⟨levels - 1, by omega⟩
    rfl
  | succ n ih =>
    obtain ⟨levels, rfl⟩ : ∃ l, levels = l + 1 := ⟨levels - 1, by omega⟩
    have hreq := @field_declaring names (n + 1) "required" (by decide) (by decide)
    have hty := @field_declaring names (n + 1) "type" (by decide) (by decide)
    have henum := @field_declaring names (n + 1) "enum" (by decide) (by decide)
    have hco := @field_declaring names (n + 1) "const" (by decide) (by decide)
    have hke : (unsupportedKeywords.forM fun keyword =>
        refuse ((declaring names (n + 1)).field keyword).isSome
          (catalogError dumps tool path (ascii "unsupported schema keyword " ++ ascii keyword)))
        = .ok () := by
      refine forM_eq_ok.2 fun keyword hkeyw => ?_
      have hap : ∀ keyword ∈ unsupportedKeywords,
          (ascii keyword ≠ ascii "properties" ∧ ascii keyword ≠ ascii "additionalProperties" ∧
            ascii keyword ≠ ascii "items") ∧ (0 : UInt8) ∉ ascii keyword := by decide
      rw [field_declaring keyword (hap keyword hkeyw).1 (hap keyword hkeyw).2]
      rfl
    have hprop : defineProperties dumps (validateSchema dumps tool levels)
        (declaring names (n + 1)) path = .ok () := by
      rw [defineProperties, properties_declaring]
      refine forM_eq_ok.2 fun member hmb => ?_
      obtain ⟨name, _, rfl⟩ := mem_map.1 hmb
      exact ih (by omega) _
    have hit : defineChild (validateSchema dumps tool levels)
        ((declaring names (n + 1)).field "items") (path ++ ascii "[]") = .ok () := by
      rw [items_declaring]
      obtain ⟨members, hme⟩ := isObject_iff.1 (@isObject_declaring names n)
      have hch := ih (Nat.lt_of_succ_lt_succ hn) (path ++ ascii "[]")
      rw [hme] at hch ⊢
      exact hch
    rw [validateSchema]
    refine refuse_eq_ok.2 ⟨by simp [isObject_declaring], ?_⟩
    refine bind_eq_ok.2 ⟨_, hke, ?_⟩
    refine bind_eq_ok.2 ⟨_, by rw [defineType, hty], ?_⟩
    refine bind_eq_ok.2 ⟨_, by rw [defineEnum, henum], ?_⟩
    refine bind_eq_ok.2 ⟨_, by rw [defineConst, hco], ?_⟩
    refine refuse_eq_ok.2 ⟨by simp [properties_declaring, optionalObject, isObject], ?_⟩
    refine refuse_eq_ok.2 ⟨by simp [hty], ?_⟩
    refine bind_eq_ok.2 ⟨_, by rw [defineRequired, hreq], ?_⟩
    refine bind_eq_ok.2 ⟨_, hprop, ?_⟩
    refine refuse_eq_ok.2 ⟨by simp [additional_declaring, additionalShape], ?_⟩
    refine bind_eq_ok.2 ⟨_, rfl, ?_⟩
    refine refuse_eq_ok.2 ⟨by simp [hasType, hty], ?_⟩
    refine refuse_eq_ok.2 ⟨by simp [items_declaring, optionalObject, isObject_declaring], ?_⟩
    refine refuse_eq_ok.2 ⟨by simp [hty], ?_⟩
    exact refuse_eq_ok.2 ⟨by simp [hasType, hty], hit⟩

lemma distinctKeys_empty : DistinctKeys (.obj []) := ⟨fun ms h => by cases h; exact nodup_nil,
    fun ms h => by cases h; exact fun _ h => absurd h not_mem_nil, fun _ h => by cases h⟩

lemma distinctKeys_declaring (hn : names.Nodup) : DistinctKeys (declaring names n) := by
  induction n with
  | zero => exact distinctKeys_empty
  | succ n ih =>
    have hp : DistinctKeys (.obj (names.map fun name => (name, declaring names n))) := by
      refine ⟨fun ms h => ?_, fun ms h me hm => ?_, nofun⟩
      · cases h
        rw [map_map]
        exact (map_id' names).symm ▸ hn
      · cases h
        obtain ⟨name, _, rfl⟩ := mem_map.1 hm
        exact ih
    refine ⟨fun ms h => ?_, fun ms h me hm => ?_, nofun⟩
    · cases h
      simp only [map_cons, map_nil]
      decide
    · cases h
      simp only [mem_cons, not_mem_nil, or_false] at hm
      rcases hm with rfl | rfl | rfl
      · exact hp
      · exact ⟨nofun, nofun, nofun⟩
      · exact ih

lemma plainSchema_declaring (hnames : ∀ name ∈ names, (0 : UInt8) ∉ name) :
    PlainSchema (declaring names n) := by
  induction n with
  | zero => exact ⟨nofun, nofun, nofun, nofun, nofun⟩
  | succ n ih =>
    refine ⟨fun ps h key hk => ?_, fun es name h => ?_, fun key s h => ?_,
      fun s h => ?_, fun s h => ?_⟩
    · rw [properties_declaring] at h
      cases h
      simp only [keys, map_map, mem_map] at hk
      obtain ⟨name, hn, rfl⟩ := hk
      exact hnames name hn
    · rw [field_declaring "required" (by decide) (by decide)] at h
      cases h
    · rw [declaredSchema, properties_declaring] at h
      change lookup key _ = some s at h
      rw [lookup_declared] at h
      split at h
      · cases h
        exact ih
      · cases h
    · rw [additional_declaring] at h
      cases h
      exact ⟨nofun, nofun, nofun, nofun, nofun⟩
    · rw [items_declaring] at h
      cases h
      exact ih
end

section
variable {names : List Bytes} {dumps : Bytes → Bytes}

lemma get_properties {key : Bytes} (schema : Ajson) (h : cString key ∈ names) :
    Ajson.get (.obj (names.map fun name => (name, schema))) key = some schema := by
  change lookup (cString key) _ = _
  rw [lookup_declared, if_pos h]

lemma validateArgument_untyped {ls : Nat} {value : Ajson} {n : Nat} {p : Bytes}
    (ho : checkObject dumps (validateArgument dumps ls) value (declaring names n) p
    = .ok ())
    (ha : checkArray (validateArgument dumps ls) value (declaring names n) p = .ok ()) :
    validateArgument dumps (ls + 1) value (declaring names n) p = .ok () := by
  rw [validateArgument]
  refine refuse_eq_ok.2 ⟨by simp [isObject_declaring], ?_⟩
  refine bind_eq_ok.2 ⟨_, by rw [checkType, field_declaring "type" (by decide) (by decide)], ?_⟩
  refine bind_eq_ok.2 ⟨_, by rw [checkEnum, field_declaring "enum" (by decide) (by decide)], ?_⟩
  refine bind_eq_ok.2 ⟨_, by rw [checkConst, field_declaring "const" (by decide) (by decide)], ?_⟩
  exact bind_eq_ok.2 ⟨_, ho, ha⟩

section
variable (hnames : ∀ name ∈ names, (0 : UInt8) ∉ name) (n : Nat) {value : Ajson}
include hnames

lemma validateArgument_declaring {ls : Nat} (hn : n < ls)
    (hks : ∀ key ∈ allKeys value, cString key ∈ names) (p : Bytes) :
    validateArgument dumps ls value (declaring names n) p = .ok () := by
  induction n generalizing value ls p with
  | zero =>
    obtain ⟨ls, rfl⟩ : ∃ l, ls = l + 1 := ⟨ls - 1, by omega⟩
    refine validateArgument_untyped ?_ ?_
    · unfold checkObject
      split
      · refine refuse_eq_ok.2 ⟨(fun h => by cases h), ?_⟩
        refine bind_eq_ok.2 ⟨_, rfl, ?_⟩
        refine refuse_eq_ok.2 ⟨(fun h => by cases h), ?_⟩
        exact bind_eq_ok.2 ⟨_, forM_eq_ok.2 fun _ _ => rfl, rfl⟩
      · rfl
    · unfold checkArray
      split
      · exact refuse_eq_ok.2 ⟨(fun h => by cases h), rfl⟩
      · rfl
  | succ n ih =>
    obtain ⟨ls, rfl⟩ : ∃ l, ls = l + 1 := ⟨ls - 1, by omega⟩
    refine validateArgument_untyped ?_ ?_
    · unfold checkObject
      split
      next ho =>
        obtain ⟨ms, rfl⟩ := isObject_iff.1 ho
        have hreq := @field_declaring names (n + 1) "required" (by decide) (by decide)
        have hkn : (keys (.obj ms)).filter
            (isUnknown ((declaring names (n + 1)).field "properties")) = [] := by
          refine filter_eq_nil_iff.2 fun key hk => ?_
          obtain ⟨me, hm, rfl⟩ := mem_map.1 hk
          rw [properties_declaring, isUnknown, get_properties _ (hks _ (allKeys_member hm).1)]
          exact Bool.false_ne_true
        dsimp only
        rw [hkn]
        refine refuse_eq_ok.2 ⟨by simp [properties_declaring, optionalObject, isObject], ?_⟩
        refine bind_eq_ok.2 ⟨_, by rw [checkRequired, hreq], ?_⟩
        refine refuse_eq_ok.2 ⟨by simp [additional_declaring, additionalShape], ?_⟩
        refine bind_eq_ok.2 ⟨(), by rw [sortNames, mergeSort_nil]; rfl, ?_⟩
        rw [properties_declaring]
        refine forM_eq_ok.2 fun name hnm => ?_
        unfold checkProperty
        cases hx : Ajson.get (.obj ms) name with
        | none => rfl
        | some x =>
          have hd : name ∈ names := by
            simpa [mem_sortNames, keys, Function.comp_def] using hnm
          have hc : cString name = name := cString_of_not_mem (hnames name hd)
          rw [get_properties _ (hc.symm ▸ hd)]
          refine ih (by omega) (fun key hk => ?_) _
          exact hks key ((allKeys_member (mem_of_lookup hx)).2 hk)
      · rfl
    · unfold checkArray
      split
      next i =>
        refine refuse_eq_ok.2 ⟨by simp [items_declaring, optionalObject, isObject_declaring], ?_⟩
        rw [items_declaring]
        refine forM_eq_ok.2 fun ite hi => ih (by omega) (fun key hk => ?_) _
        exact hks key (allKeys_item (fst_mem_of_mem_zipIdx hi) hk)
      · rfl

lemma plainKeys_of_satisfies (hne : Nested n value) (hd : DistinctKeys value)
    (h : Satisfies value (declaring names n)) : PlainKeys value := by
  induction n generalizing value with
  | zero => cases hne
  | succ n ih =>
    obtain ⟨_, _, _, _, hcl, _, hde, hit⟩ := h
    cases hne with
    | intro hme hc =>
      have hdc : ∀ key, declaredSchema (declaring names (n + 1)) key =
          if key ∈ names then some (declaring names n) else none := fun key => by
        rw [declaredSchema, properties_declaring]
        exact lookup_declared _
      have hm : ∀ key, (value.member key).isSome → key ∈ names := fun key hk => by
        have := hcl additional_declaring key hk
        rw [hdc] at this
        by_contra hout
        rw [if_neg hout] at this
        cases this
      refine ⟨fun ms hv key hk => ?_, fun ms hv me hmb => ?_,
        fun i hv ite hi => ?_⟩
      · exact hnames key (hm key (mem_keys_iff.1 (hv ▸ hk)))
      · subst hv
        have hx := lookup_of_mem hd.here hmb
        have hn := hm me.1 (by change (lookup _ _).isSome = true; rw [hx]; rfl)
        refine ih (hme ms rfl me hmb) (hd.lookup hx) ?_
        exact hde me.1 me.2 _ hx (by rw [hdc, if_pos hn])
      · subst hv
        exact ih (hc i rfl ite hi) (hd.item hi) (hit i _ rfl items_declaring ite hi)
end

end

lemma legible_of_plainKeys {value : Ajson} (h : PlainKeys value) (schema : Ajson) :
    Legible value schema := by
  induction h generalizing schema with
  | @intro value here members items ihMembers ihItems =>
    have hmember {key : Bytes} {x : Ajson} (hx : value.member key = some x) (s : Ajson) :
        Legible x s := by
      cases value with
      | obj ms => exact ihMembers ms rfl _ (mem_of_lookup hx) s
      | null | bool _ | int _ | num _ | str _ | arr _ => cases hx
    refine ⟨fun _ => ⟨here, members, items⟩, fun _ key hk => ?_, fun key x s hx _ => hmember hx s,
      fun key x s hx _ _ => hmember hx s, fun xs s hxs _ x hx => ihItems xs hxs x hx s⟩
    cases value with
    | obj ms => exact here ms rfl key hk
    | null | bool _ | int _ | num _ | str _ | arr _ => cases hk

def oneMember (key : Bytes) : Ajson := .obj [(key, .int 1)]

/-- An object schema that declares `a` as an integer and says nothing about other keys. -/
def integerA : Ajson :=
  .obj [(ascii "type", .str (ascii "object")),
    (ascii "properties", .obj [(ascii "a", .obj [(ascii "type", .str (ascii "integer"))])])]

def besideA : Ajson := .obj [([98, 0], .null), (ascii "a", .int 1)]

section
variable {P : List Bytes → Prop}

lemma everyKeys_obj {ms : List (Bytes × Ajson)} (h : P (ms.map Prod.fst))
    (hm : ∀ me ∈ ms, EveryKeys P me.2) : EveryKeys P (.obj ms) := by
  refine ⟨fun _ hv => ?_, fun _ hv => ?_, fun _ hv => by cases hv⟩
  · cases hv
    exact h
  · cases hv
    exact hm

lemma everyKeys_leaf {x : Ajson} (hx : ∀ ms, x ≠ .obj ms) (hx' : ∀ xs, x ≠ .arr xs) :
    EveryKeys P x :=
  ⟨fun ms h => absurd h (hx ms), fun ms h => absurd h (hx ms), fun xs h => absurd h (hx' xs)⟩

lemma everyKeys_int (i : Int) : EveryKeys P (.int i) :=
  everyKeys_leaf (fun _ h => by cases h) fun _ h => by cases h

lemma everyKeys_str (text : Bytes) : EveryKeys P (.str text) :=
  everyKeys_leaf (fun _ h => by cases h) fun _ h => by cases h

lemma everyKeys_null : EveryKeys P .null :=
  everyKeys_leaf (fun _ h => by cases h) fun _ h => by cases h

end

lemma distinctKeys_besideA : DistinctKeys besideA :=
  everyKeys_obj (by decide) (by simp [everyKeys_null, everyKeys_int])

lemma distinctKeys_integerA : DistinctKeys integerA := by
  refine everyKeys_obj (by decide) (forall_mem_cons.2 ⟨everyKeys_str _, ?_⟩)
  refine forall_mem_singleton.2 (everyKeys_obj (by decide) (forall_mem_singleton.2 ?_))
  exact everyKeys_obj (by decide) (forall_mem_singleton.2 (everyKeys_str _))

lemma declaredSchema_integerA {key : Bytes} {s : Ajson}
    (h : declaredSchema integerA key = some s) :
    key = ascii "a" ∧ s = .obj [(ascii "type", .str (ascii "integer"))] := by
  change lookup key [(ascii "a", _)] = some s at h
  rw [lookup] at h
  split_ifs at h with hk
  · cases h
    exact ⟨hk.symm, rfl⟩
  · cases h

lemma plainSchema_integerA : PlainSchema integerA := by
  refine ⟨fun ps h => ?_, fun es name h => ?_, fun key s h => ?_, fun s h => ?_, fun s h => ?_⟩
  · cases h
    decide
  · cases h
  · obtain ⟨-, rfl⟩ := declaredSchema_integerA h
    refine ⟨fun ps h => ?_, fun es name h => ?_, fun key s h => ?_, fun s h => ?_, fun s h => ?_⟩
    all_goals cases h
  · cases h
  · cases h

lemma legible_besideA : Legible besideA integerA := by
  refine ⟨fun h => ?_, fun h => ?_, fun key x s hx hs => ?_, fun key x s _ _ h => ?_,
    fun xs s h => ?_⟩
  · rcases h with h | h <;> cases h
  · rcases h with ⟨_, h⟩ | ⟨ms, h⟩ <;> cases h
  · obtain ⟨rfl, rfl⟩ := declaredSchema_integerA hs
    cases hx
    exact legible_of_plainKeys (everyKeys_int 1) _
  · cases h
  · cases h

end AxiomKernel.Qwen38.Tools
