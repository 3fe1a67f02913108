import AxiomKernel.Qwen38.Tools.Schema

/-!
# What a tool argument has to satisfy

The meaning of a schema, with counted keys, and that the check of a call decides it for schemas that
passed the check of definitions, as long as no key is cut by the C-string lookups.
-/
namespace AxiomKernel.Qwen38.Tools

open Ajson Guard Image Text
open Option hiding any_eq_true mem_map mem_map_of_mem
open List hiding lookup

inductive EveryKeys (P : List Bytes → Prop) : Ajson → Prop
  | intro {value : Ajson} (here : ∀ members, value = .obj members → P (members.map Prod.fst))
      (members : ∀ members, value = .obj members → ∀ member ∈ members, EveryKeys P member.2)
      (items : ∀ items, value = .arr items → ∀ item ∈ items, EveryKeys P item) : EveryKeys P value

/-- The keys of an object are distinct: `set` replaces. -/
abbrev DistinctKeys : Ajson → Prop := EveryKeys List.Nodup

abbrev PlainKeys : Ajson → Prop := EveryKeys fun keys => ∀ key ∈ keys, (0 : UInt8) ∉ key

def numeric : Ajson → Option ℚ
  | .int i => some i
  | .num d => some d
  | _ => none

inductive SameJson : Ajson → Ajson → Prop
  | null : SameJson .null .null
  | bool (b : Bool) : SameJson (.bool b) (.bool b)
  | str (s : Bytes) : SameJson (.str s) (.str s)
  | number {a b : Ajson} {q : ℚ} (left : numeric a = some q) (right : numeric b = some q) :
      SameJson a b
  | arr {xs ys : List Ajson} (length : xs.length = ys.length)
      (items : ∀ (i : Nat) (x y : Ajson), xs[i]? = some x → ys[i]? = some y → SameJson x y) :
      SameJson (.arr xs) (.arr ys)
  | obj {ms ns : List (Bytes × Ajson)} (keys : ∀ key, lookup key ms = none ↔ lookup key ns = none)
      (members : ∀ key x y, lookup key ms = some x → lookup key ns = some y → SameJson x y) :
      SameJson (.obj ms) (.obj ns)

variable {P : List Bytes → Prop} {members : List (Bytes × Ajson)} {key : Bytes} {x : Ajson}

lemma EveryKeys.lookup (h : EveryKeys P (.obj members)) (hx : lookup key members = some x) :
    EveryKeys P x := by
  cases h with
  | intro _ hmb _ => exact hmb members rfl _ (mem_of_lookup hx)

variable {items : List Ajson} {name : Bytes}

lemma EveryKeys.item (h : EveryKeys P (.arr items)) (hx : x ∈ items) : EveryKeys P x := by
  cases h with
  | intro _ _ hi => exact hi items rfl x hx

lemma EveryKeys.here (h : EveryKeys P (.obj members)) : P (members.map Prod.fst) := by
  cases h with
  | intro hh _ _ => exact hh members rfl

variable {schema : Ajson}

lemma DistinctKeys.field {s : Ajson} (h : DistinctKeys schema) {key : String}
    (hk : (0 : UInt8) ∉ ascii key) (hs : schema.field key = some s) : DistinctKeys s := by
  cases schema with
  | obj members => exact EveryKeys.lookup h ((get_eq_member hk).symm.trans hs)
  | null | bool _ | int _ | num _ | str _ | arr _ => cases hs

lemma jsonEqualItems_iff {xs ys : List Ajson} (h : xs.length = ys.length) : jsonEqualItems xs ys ↔
    ∀ (i : Nat) (x y : Ajson), xs[i]? = some x → ys[i]? = some y → jsonEqual x y = true := by
  induction xs generalizing ys with
  | nil => exact ⟨fun _ i x y hx => by simp at hx, fun _ => rfl⟩
  | cons x xs ih =>
    cases ys with
    | nil => cases h
    | cons y ys =>
      rw [jsonEqualItems, Bool.and_eq_true, ih (Nat.succ.inj h)]
      constructor
      · rintro ⟨hxy, hr⟩ i x' y' hx' hy'
        cases i with
        | zero =>
          cases hx'
          cases hy'
          exact hxy
        | succ i => exact hr i x' y' hx' hy'
      · intro ha
        exact ⟨ha 0 x y rfl rfl, fun i x' y' hx' hy' => ha (i + 1) x' y' hx' hy'⟩

variable {ms ns : List (Bytes × Ajson)}

lemma jsonEqualMembers_iff (hp : ∀ key ∈ ms.map Prod.fst, (0 : UInt8) ∉ key) :
    jsonEqualMembers ms ns ↔
    ∀ me ∈ ms, ∃ y, lookup me.1 ns = some y ∧ jsonEqual me.2 y = true := by
  induction ms with
  | nil => exact ⟨fun _ _ h => absurd h not_mem_nil, fun _ => rfl⟩
  | cons first ms ih =>
    obtain ⟨key, x⟩ := first
    rw [map_cons, forall_mem_cons] at hp
    rw [jsonEqualMembers, Bool.and_eq_true, ih hp.2, forall_mem_cons, get_eq_member hp.1]
    refine and_congr_left' ?_
    rw [show (obj ns).member (key, x).1 = lookup key ns from rfl]
    dsimp only
    cases lookup key ns with
    | none => exact ⟨fun h => absurd h Bool.false_ne_true, by rintro ⟨_, h, _⟩; cases h⟩
    | some y => exact ⟨fun h => ⟨y, rfl, h⟩, by rintro ⟨_, h, hy⟩; cases h; exact hy⟩

lemma sizeOf_member (h : lookup key members = some x) : sizeOf x < sizeOf (Ajson.obj members) := by
  have := sizeOf_lookup h
  simp
  omega

lemma sizeOf_item (h : x ∈ items) : sizeOf x < sizeOf (Ajson.arr items) := by
  have := sizeOf_lt_of_mem h
  simp
  omega

lemma length_eq_of_keys (hm : (ms.map Prod.fst).Nodup) (hn : (ns.map Prod.fst).Nodup)
    (h : ∀ key, lookup key ms = none ↔ lookup key ns = none) : ms.length = ns.length := by
  have hp : (ms.map Prod.fst).Perm (ns.map Prod.fst) := by
    rw [perm_ext_iff_of_nodup hm hn]
    intro key
    have := h key
    rw [lookup_eq_none_iff, lookup_eq_none_iff] at this
    exact not_iff_not.1 this
  have := hp.length_eq
  rwa [length_map, length_map] at this

lemma keys_eq_of_subset (hms : (ms.map Prod.fst).Nodup) (hl : ms.length = ns.length)
    (h : ∀ me ∈ ms, (lookup me.1 ns).isSome) (key : Bytes) :
    lookup key ms = none ↔ lookup key ns = none := by
  have hs : ms.map Prod.fst ⊆ ns.map Prod.fst := by
    intro key hk
    obtain ⟨me, hm, rfl⟩ := mem_map.1 hk
    by_contra hout
    rw [← lookup_eq_none_iff] at hout
    have := h me hm
    rw [hout] at this
    cases this
  have hperm := (subperm_of_subset hms hs).perm_of_length_le (by simp [hl])
  rw [lookup_eq_none_iff, lookup_eq_none_iff, hperm.mem_iff]

lemma sameJson_number_iff {a b : Ajson} {p q : ℚ} (ha : numeric a = some p)
    (hb : numeric b = some q) : SameJson a b ↔ p = q := by
  constructor
  · intro h
    cases h with
    | number left right =>
      rw [ha] at left
      rw [hb] at right
      exact some.inj (left.trans right.symm)
    | _ => cases ha
  · rintro rfl
    exact .number ha hb

lemma number_of_numeric {v : Ajson} {q : ℚ} (h : numeric v = some q) :
    (∃ i, v = .int i) ∨ ∃ d, v = .num d := by
  unfold numeric at h
  split at h
  · exact .inl ⟨_, rfl⟩
  · exact .inr ⟨_, rfl⟩
  · cases h

lemma jsonEqual_iff (left right : Ajson) (hle : DistinctKeys left) (hp : PlainKeys left)
    (hri : DistinctKeys right) : jsonEqual left right ↔ SameJson left right := by
  induction hn : sizeOf left using Nat.strong_induction_on generalizing left right with
  | _ n ih =>
  subst hn
  fun_cases jsonEqual left right with
  | case1 => rw [beq_iff_eq, sameJson_number_iff rfl rfl, Int.cast_inj]
  | case2 | case3 | case4 => rw [beq_iff_eq, sameJson_number_iff rfl rfl]
  | case5 => exact ⟨fun _ => .null, fun _ => rfl⟩
  | case6 a b =>
    rw [beq_iff_eq]
    exact ⟨fun h => h ▸ .bool a, fun h => by cases h with | bool => rfl | number hl _ => cases hl⟩
  | case7 s t =>
    rw [beq_iff_eq]
    exact ⟨fun h => h ▸ .str s, fun h => by cases h with | str => rfl | number hl _ => cases hl⟩
  | case8 xs ys =>
    have hit {i : Nat} {x y : Ajson} (hx : xs[i]? = some x) (hy : ys[i]? = some y) :
        jsonEqual x y ↔ SameJson x y := by
      have hm := mem_of_getElem? hx
      exact ih _ (sizeOf_item hm) x y (hle.item hm) (hp.item hm) (hri.item (mem_of_getElem? hy)) rfl
    rw [Bool.and_eq_true, beq_iff_eq]
    constructor
    · rintro ⟨hln, hi⟩
      refine .arr hln fun i x y hx hy => ?_
      exact (hit hx hy).1 ((jsonEqualItems_iff hln).1 hi i x y hx hy)
    · intro h
      cases h with
      | number hl _ => cases hl
      | arr hln hi =>
        refine ⟨hln, (jsonEqualItems_iff hln).2 fun i x y hx hy => ?_⟩
        exact (hit hx hy).2 (hi i x y hx hy)
  | case9 ms ns =>
    have hme {key : Bytes} {x y : Ajson} (hx : lookup key ms = some x)
        (hy : lookup key ns = some y) : jsonEqual x y ↔ SameJson x y :=
      ih _ (sizeOf_member hx) x y (hle.lookup hx) (hp.lookup hx) (hri.lookup hy) rfl
    rw [Bool.and_eq_true, beq_iff_eq, jsonEqualMembers_iff hp.here]
    constructor
    · rintro ⟨hln, hm⟩
      refine .obj (keys_eq_of_subset hle.here hln fun me hme => ?_)
        fun key x y hx hy => ?_
      · obtain ⟨y, hy, _⟩ := hm me hme
        rw [hy]
        rfl
      · obtain ⟨y', hy', he⟩ := hm _ (mem_of_lookup hx)
        cases hy.symm.trans hy'
        exact (hme hx hy).1 he
    · intro h
      cases h with
      | number hl _ => cases hl
      | obj hk hm =>
        refine ⟨length_eq_of_keys hle.here hri.here hk, fun me hmem => ?_⟩
        have hx := lookup_of_mem hle.here hmem
        cases hy : lookup me.1 ns with
        | none =>
          rw [(hk me.1).2 hy] at hx
          cases hx
        | some y => exact ⟨y, rfl, (hme hx hy).2 (hm _ _ _ hx hy)⟩
  | case10 left right h₁ h₂ h₃ h₄ h₅ h₆ h₇ h₈ h₉ =>
    refine ⟨nofun, fun h => ?_⟩
    cases h with
    | null => cases h₅ rfl rfl
    | bool b => cases h₆ b b rfl rfl
    | str s => cases h₇ s s rfl rfl
    | number hl hr =>
      obtain ⟨i, rfl⟩ | ⟨d, rfl⟩ := number_of_numeric hl
      · obtain ⟨j, rfl⟩ | ⟨e, rfl⟩ := number_of_numeric hr
        · cases h₁ i j rfl rfl
        · cases h₂ i e rfl rfl
      · obtain ⟨j, rfl⟩ | ⟨e, rfl⟩ := number_of_numeric hr
        · cases h₃ d j rfl rfl
        · cases h₄ d e rfl rfl
    | arr => cases h₈ _ _ rfl rfl
    | obj => cases h₉ _ _ rfl rfl

def declaredSchema (schema : Ajson) (key : Bytes) : Option Ajson :=
  (schema.field "properties").bind (·.member key)

/-- The values of each type that a schema can declare; a number without a fraction is an integer. -/
inductive OfType : Ajson → String → Prop
  | object (members : List (Bytes × Ajson)) : OfType (.obj members) "object"
  | array (items : List Ajson) : OfType (.arr items) "array"
  | string (text : Bytes) : OfType (.str text) "string"
  | integer (i : Int) : OfType (.int i) "integer"
  | wholeNumber {d : Rat} (h : d.den = 1) : OfType (.num d) "integer"
  | intNumber (i : Int) : OfType (.int i) "number"
  | number (d : Rat) : OfType (.num d) "number"
  | boolean (b : Bool) : OfType (.bool b) "boolean"
  | null : OfType .null "null"

inductive Satisfies : Ajson → Ajson → Prop
  | intro {value schema : Ajson}
      (type : ∀ t, schema.field "type" = some (.str t) → ∃ name, t = ascii name ∧
        OfType value name)
      (enum : ∀ cs, schema.field "enum" = some (.arr cs) → ∃ c ∈ cs, SameJson value c)
      (const : ∀ c, schema.field "const" = some c → SameJson value c)
      (required : isObject value = true → ∀ entries name,
        schema.field "required" = some (.arr entries) → .str name ∈ entries →
        (value.member name).isSome)
      (closed : schema.field "additionalProperties" = some (.bool false) →
        ∀ key, (value.member key).isSome → (declaredSchema schema key).isSome)
      (additional : ∀ key x members, value.member key = some x → declaredSchema schema key = none →
        schema.field "additionalProperties" = some (.obj members) → Satisfies x (.obj members))
      (declared : ∀ key x s, value.member key = some x → declaredSchema schema key = some s →
        Satisfies x s)
      (items : ∀ xs s, value = .arr xs → schema.field "items" = some s → ∀ x ∈ xs, Satisfies x s) :
      Satisfies value schema

/-- The check looks the keys of a value up: among the declared names where other keys are refused,
and in the value itself where they have a schema. -/
def LooksUp (schema : Ajson) : Prop :=
  (schema.field "properties").isSome ∧ schema.field "additionalProperties" = some (.bool false) ∨
    ∃ members, schema.field "additionalProperties" = some (.obj members)

/-- No key of the value that is looked up under the schema has a NUL byte; a comparison with an
`enum` or a `const` looks all keys up. -/
inductive Legible : Ajson → Ajson → Prop
  | intro {value schema : Ajson}
      (whole : (schema.field "enum").isSome ∨ (schema.field "const").isSome → PlainKeys value)
      (here : LooksUp schema → ∀ key ∈ keys value, (0 : UInt8) ∉ key)
      (declared : ∀ key x s, value.member key = some x → declaredSchema schema key = some s →
        Legible x s)
      (additional : ∀ key x s, value.member key = some x → declaredSchema schema key = none →
        schema.field "additionalProperties" = some s → Legible x s)
      (items : ∀ xs s, value = .arr xs → schema.field "items" = some s → ∀ x ∈ xs, Legible x s) :
      Legible value schema

inductive PlainSchema : Ajson → Prop
  | intro {schema : Ajson}
      (names : ∀ properties, schema.field "properties" = some properties →
        ∀ key ∈ keys properties, (0 : UInt8) ∉ key)
      (required : ∀ entries name, schema.field "required" = some (.arr entries) →
        .str name ∈ entries → (0 : UInt8) ∉ name)
      (declared : ∀ key s, declaredSchema schema key = some s → PlainSchema s)
      (additional : ∀ s, schema.field "additionalProperties" = some s → PlainSchema s)
      (items : ∀ s, schema.field "items" = some s → PlainSchema s) : PlainSchema schema

structure Accepted (child : Ajson → Prop) (schema : Ajson) : Prop where
  object : isObject schema = true
  type : ∀ t, schema.field "type" = some t → ∃ s, t = .str s ∧ typeSupported s = true
  enum : ∀ e, schema.field "enum" = some e → ∃ cs, e = .arr cs
  properties : ∀ p, schema.field "properties" = some p →
    ∃ ms, p = .obj ms ∧ ∀ member ∈ ms, child member.2
  required : ∀ r, schema.field "required" = some r → ∃ names : List Bytes, r = .arr (names.map .str)
  additional : ∀ a, schema.field "additionalProperties" = some a →
    (∃ b, a = .bool b) ∨ (∃ ms, a = .obj ms) ∧ child a
  items : ∀ s, schema.field "items" = some s → (∃ ms, s = .obj ms) ∧ child s

section
variable {dumps : Bytes → Bytes} {tool : Bytes}

lemma defineRequiredNames_ok {ps : Option Ajson} {f : String → Bytes}
    (es : List Ajson) {se : List Bytes}
    (h : defineRequiredNames ps f se es = .ok ()) :
    ∃ n : List Bytes, es = n.map .str := by
  induction es generalizing se with
  | nil => exact ⟨[], rfl⟩
  | cons en es ih =>
    cases en with
    | str name =>
      rw [defineRequiredNames, refuse_eq_ok, refuse_eq_ok] at h
      obtain ⟨n, rfl⟩ := ih h.2.2
      exact ⟨name :: n, rfl⟩
    | null => cases h
    | bool b => cases h
    | int i => cases h
    | num d => cases h
    | arr items => cases h
    | obj members => cases h

variable {path : Bytes}

lemma defineChild_ok {child : Ajson → Bytes → Except Bytes Unit} {schema : Option Ajson}
    (h : defineChild child schema path = .ok ()) (hs : schema = some (.obj members)) :
    child (.obj members) path = .ok () := by
  rw [hs] at h
  exact h

lemma isObject_iff {value : Ajson} : isObject value ↔ ∃ members, value = .obj members := by
  cases value <;> simp [isObject]

lemma optionalObject_iff {value : Option Ajson} :
    optionalObject value ↔ ∀ v, value = some v → ∃ members, v = .obj members := by
  cases value with
  | none => exact ⟨fun _ _ => nofun, fun _ => rfl⟩
  | some v =>
    change isObject v = true ↔ _
    rw [isObject_iff]
    exact ⟨fun h _ hv => by cases hv; exact h, fun h => h v rfl⟩

lemma accepted_of_validateSchema {ls : Nat}
    (h : validateSchema dumps tool (ls + 1) schema path = .ok ()) :
    Accepted (fun s => ∃ path, validateSchema dumps tool ls s path = .ok ()) schema := by
  rw [validateSchema] at h
  obtain ⟨hob, h⟩ := refuse_eq_ok.1 h
  obtain ⟨_, _, h⟩ := bind_eq_ok.1 h
  obtain ⟨_, hty, h⟩ := bind_eq_ok.1 h
  obtain ⟨_, hen, h⟩ := bind_eq_ok.1 h
  obtain ⟨_, _, h⟩ := bind_eq_ok.1 h
  obtain ⟨hpr, h⟩ := refuse_eq_ok.1 h
  obtain ⟨_, h⟩ := refuse_eq_ok.1 h
  obtain ⟨_, hre, h⟩ := bind_eq_ok.1 h
  obtain ⟨_, hc, h⟩ := bind_eq_ok.1 h
  obtain ⟨hsh, h⟩ := refuse_eq_ok.1 h
  obtain ⟨_, had, h⟩ := bind_eq_ok.1 h
  obtain ⟨_, h⟩ := refuse_eq_ok.1 h
  obtain ⟨hi, h⟩ := refuse_eq_ok.1 h
  obtain ⟨_, h⟩ := refuse_eq_ok.1 h
  obtain ⟨_, hchild⟩ := refuse_eq_ok.1 h
  refine ⟨by simpa using hob, ?_, ?_, ?_, ?_, ?_, ?_⟩
  · intro t ht
    rw [defineType, ht] at hty
    split at hty
    next heq => cases heq
    next s heq =>
      cases heq
      refine ⟨s, rfl, ?_⟩
      by_contra hs
      rw [refuse, if_pos (by simpa using hs)] at hty
      cases hty
    next => cases hty
  · intro e he
    rw [defineEnum, he] at hen
    split at hen
    next heq => cases heq
    next cs heq =>
      cases heq
      exact ⟨cs, rfl⟩
    next => cases hen
  · intro p hp
    have ho : optionalObject (schema.field "properties") := by simpa using hpr
    obtain ⟨ms, rfl⟩ := optionalObject_iff.1 ho p hp
    refine ⟨ms, rfl, fun me hm => ?_⟩
    rw [defineProperties, hp] at hc
    exact ⟨_, forM_eq_ok.1 hc me hm⟩
  · intro r hr
    rw [defineRequired, hr] at hre
    split at hre
    next heq => cases heq
    next es heq =>
      cases heq
      obtain ⟨n, rfl⟩ := defineRequiredNames_ok es hre
      exact ⟨n, rfl⟩
    next => cases hre
  · intro a ha
    rw [ha] at hsh
    cases a with
    | bool b => exact .inl ⟨b, rfl⟩
    | obj ms => exact .inr ⟨⟨ms, rfl⟩, _, defineChild_ok had ha⟩
    | null | int _ | num _ | str _ | arr _ => exact absurd rfl hsh
  · intro s hs
    have ho : optionalObject (schema.field "items") := by simpa using hi
    obtain ⟨ms, rfl⟩ := optionalObject_iff.1 ho s hs
    exact ⟨⟨ms, rfl⟩, _, defineChild_ok hchild hs⟩
end

/-- The check passes when the property holds and otherwise refuses the value, not the schema. -/
def Decides (check : Except ArgumentError Unit) (P : Prop) : Prop :=
  (check = .ok () ∧ P) ∨ ∃ e, check = .error e ∧ e.code ≠ .schema ∧ ¬ P

section
variable {check check' : Except ArgumentError Unit} {P Q : Prop}

lemma Decides.congr (h : Decides check P) (hi : P ↔ Q) : Decides check Q := by
  rcases h with ⟨ho, hP⟩ | ⟨e, he, hc, hP⟩
  · exact .inl ⟨ho, hi.1 hP⟩
  · exact .inr ⟨e, he, hc, fun hQ => hP (hi.2 hQ)⟩

lemma decides_ok (h : P) : Decides (.ok ()) P := .inl ⟨rfl, h⟩

lemma Decides.andThen (h : Decides check P) (h' : P → Decides check' Q) :
    Decides (check >>= fun _ => check') (P ∧ Q) := by
  rcases h with ⟨rfl, hP⟩ | ⟨e, rfl, hc, hP⟩
  · rcases h' hP with ⟨rfl, hQ⟩ | ⟨e, rfl, hc, hQ⟩
    · exact .inl ⟨rfl, hP, hQ⟩
    · exact .inr ⟨e, rfl, hc, fun hPQ => hQ hPQ.2⟩
  · exact .inr ⟨e, rfl, hc, fun hPQ => hP hPQ.1⟩

variable {c : Prop} {e : ArgumentError}

lemma decides_refuse [Decidable c] (he : e.code ≠ .schema) : Decides (refuse c e) (¬ c) := by
  by_cases hc : c
  · exact .inr ⟨e, if_pos hc, he, fun h => h hc⟩
  · exact .inl ⟨if_neg hc, hc⟩

lemma refuse_andThen [Decidable c] (hc : ¬ c) : (refuse c e >>= fun _ => check) = check := by
  rw [refuse, if_neg hc]
  rfl

lemma decides_forM {α : Type} {xs : List α} {f : α → Except ArgumentError Unit} {P : α → Prop}
    (h : ∀ x ∈ xs, Decides (f x) (P x)) : Decides (xs.forM f) (∀ x ∈ xs, P x) := by
  induction xs with
  | nil => exact decides_ok nofun
  | cons x xs ih =>
    rw [forall_mem_cons] at h
    exact ((h.1.andThen fun _ => ih h.2).congr forall_mem_cons.symm)
end

lemma mem_sortNames {names : List Bytes} : name ∈ sortNames names ↔ name ∈ names := mem_mergeSort

lemma mem_uniqueNames (names : List Bytes) (name : Bytes) :
    name ∈ uniqueNames names ↔ name ∈ names := by
  match names with
  | [] => rfl
  | [_] => rfl
  | a :: b :: names =>
    rw [uniqueNames]
    split
    next ha =>
      rw [mem_uniqueNames, ha]
      simp
    next => rw [mem_cons, mem_uniqueNames, mem_cons (a := name) (b := a)]

lemma requiredNames_map (path : Bytes) (names : List Bytes) :
    requiredNames path (names.map .str) = .ok names := by
  induction names with
  | nil => rfl
  | cons name names ih =>
    rw [map_cons, requiredNames, ih]
    rfl

section
variable {value schema : Ajson} {path : Bytes} {child : Ajson → Prop}

lemma typeMatches_iff {t : Bytes} :
    typeMatches value t = true ↔ ∃ name, t = ascii name ∧ OfType value name := by
  constructor
  · intro h
    cases value <;> simp only [typeMatches, Bool.or_eq_true, Bool.and_eq_true, beq_iff_eq] at h
    case obj members => exact ⟨_, h, .object members⟩
    case arr items => exact ⟨_, h, .array items⟩
    case str text => exact ⟨_, h, .string text⟩
    case int i =>
      rcases h with h | h
      · exact ⟨_, h, .integer i⟩
      · exact ⟨_, h, .intNumber i⟩
    case num d =>
      rcases h with ⟨h, hd⟩ | h
      · exact ⟨_, h, .wholeNumber hd⟩
      · exact ⟨_, h, .number d⟩
    case bool b => exact ⟨_, h, .boolean b⟩
    case null => exact ⟨_, h, .null⟩
  · rintro ⟨name, rfl, h⟩
    cases h <;> simp_all [typeMatches]

lemma decides_checkType (h : Accepted child schema) : Decides (checkType value schema path)
    (∀ t, schema.field "type" = some (.str t) → ∃ name, t = ascii name ∧ OfType value name) := by
  unfold checkType
  cases hty : schema.field "type" with
  | none => exact decides_ok nofun
  | some type =>
    obtain ⟨t, rfl, hsupp⟩ := h.type type hty
    simp only [hsupp, if_true]
    refine (decides_refuse (by simp)).congr ?_
    simp only [Bool.not_eq_true', Bool.not_eq_false, some.injEq, Ajson.str.injEq, forall_eq']
    exact typeMatches_iff

lemma decides_checkEnum (h : Accepted child schema) (hvl : DistinctKeys value)
    (hpl : (schema.field "enum").isSome → PlainKeys value) (hsch : DistinctKeys schema) :
    Decides (checkEnum value schema path)
    (∀ cs, schema.field "enum" = some (.arr cs) → ∃ c ∈ cs, SameJson value c) := by
  unfold checkEnum
  cases henum : schema.field "enum" with
  | none => exact decides_ok nofun
  | some enum =>
    obtain ⟨cs, rfl⟩ := h.enum enum henum
    have hcs : ∀ c ∈ cs, DistinctKeys c := fun c hc =>
      (DistinctKeys.field hsch (by decide) henum).item hc
    refine (decides_refuse (by simp)).congr ?_
    simp only [Bool.not_eq_true', Bool.not_eq_false, any_eq_true, some.injEq,
      Ajson.arr.injEq, forall_eq']
    have hpl := hpl (by rw [henum]; rfl)
    exact exists_congr fun c => and_congr_right fun hc => jsonEqual_iff value c hvl hpl (hcs c hc)

lemma decides_checkConst (hvl : DistinctKeys value)
    (hpl : (schema.field "const").isSome → PlainKeys value) (hsch : DistinctKeys schema) :
    Decides (checkConst value schema path)
    (∀ c, schema.field "const" = some c → SameJson value c) := by
  unfold checkConst
  cases hco : schema.field "const" with
  | none => exact decides_ok nofun
  | some c =>
    have hc : DistinctKeys c := hsch.field (by decide) hco
    refine (decides_refuse (by simp)).congr ?_
    simp only [Bool.not_eq_true', Bool.not_eq_false, some.injEq, forall_eq']
    exact jsonEqual_iff value c hvl (hpl (by rw [hco]; rfl)) hc
end

lemma PlainSchema.required (h : PlainSchema schema) {es : List Ajson}
    (hr : schema.field "required" = some (.arr es)) (hn : .str name ∈ es) :
    (0 : UInt8) ∉ name := by
  cases h with
  | intro _ hna _ _ _ => exact hna es name hr hn

lemma PlainSchema.names {ps : Ajson} (h : PlainSchema schema)
    (hp : schema.field "properties" = some ps) (hk : key ∈ keys ps) :
    (0 : UInt8) ∉ key := by
  cases h with
  | intro hn _ _ _ _ => exact hn ps hp key hk

variable {value : Ajson}

lemma mem_keys_iff : key ∈ keys value ↔ (value.member key).isSome := by
  cases value with
  | obj members =>
    change key ∈ members.map Prod.fst ↔ (lookup key members).isSome
    rw [← not_iff_not, ← lookup_eq_none_iff, isSome_iff_ne_none, not_not]
  | null | bool _ | int _ | num _ | str _ | arr _ => exact ⟨nofun, nofun⟩

def RequiredPresent (value schema : Ajson) : Prop :=
  ∀ entries name, schema.field "required" = some (.arr entries) → .str name ∈ entries →
    (value.member name).isSome

def UnknownFit (value schema : Ajson) : Prop :=
  (schema.field "additionalProperties" = some (.bool false) →
    ∀ key, (value.member key).isSome → (declaredSchema schema key).isSome) ∧
  ∀ key x members, value.member key = some x → declaredSchema schema key = none →
    schema.field "additionalProperties" = some (.obj members) → Satisfies x (.obj members)

def DeclaredFit (value schema : Ajson) : Prop :=
  ∀ key x s, value.member key = some x → declaredSchema schema key = some s → Satisfies x s

section
variable {dumps : Bytes → Bytes} {value schema : Ajson} {path : Bytes} {child : Ajson → Prop}

lemma decides_checkRequired (h : Accepted child schema) (hpl : PlainSchema schema) :
    Decides (checkRequired dumps value schema path) (RequiredPresent value schema) := by
  unfold checkRequired RequiredPresent
  cases hreq : schema.field "required" with
  | none => exact decides_ok nofun
  | some r =>
    obtain ⟨names, rfl⟩ := h.required r hreq
    simp only [requiredNames_map]
    refine (decides_forM fun name _ => decides_refuse (by simp)).congr ?_
    have hnul : ∀ name ∈ names, value.get name = value.member name := fun name hn =>
      get_eq_member (hpl.required hreq (mem_map_of_mem hn))
    simp only [mem_uniqueNames, mem_sortNames]
    constructor
    · intro ha entries name hentr hn
      cases hentr
      have hm : name ∈ names := by simpa using hn
      have := ha name hm
      rw [hnul name hm] at this
      simpa [isSome_iff_ne_none] using this
    · intro ha name hn
      have := ha _ name rfl (mem_map_of_mem hn)
      rw [hnul name hn]
      simpa [isSome_iff_ne_none] using this

/-- Where the answer matters, a key counts as unknown exactly if no schema is declared for it. -/
lemma isUnknown_iff (hl : Legible value schema) (hk : key ∈ keys value)
    (ha : schema.field "additionalProperties" = some (.bool false) ∨
      ∃ members, schema.field "additionalProperties" = some (.obj members)) :
    isUnknown (schema.field "properties") key ↔ declaredSchema schema key = none := by
  obtain ⟨-, hhere, -, -, -⟩ := hl
  unfold isUnknown declaredSchema
  cases hps : schema.field "properties" with
  | none => exact ⟨fun _ => rfl, fun _ => rfl⟩
  | some ps =>
    have hlook : LooksUp schema := ha.imp_left fun h => ⟨by rw [hps]; rfl, h⟩
    change (ps.get key).isNone = true ↔ ps.member key = none
    rw [get_eq_member (hhere hlook key hk), isNone_iff_eq_none]

def ChildrenDecide (check : Ajson → Ajson → Bytes → Except ArgumentError Unit)
    (child : Ajson → Prop) (value : Ajson) : Prop :=
  (∀ key x s path, value.member key = some x → child s → DistinctKeys s → PlainSchema s →
    Legible x s → Decides (check x s path) (Satisfies x s)) ∧
  ∀ xs x s path, value = .arr xs → x ∈ xs → child s → DistinctKeys s → PlainSchema s →
    Legible x s → Decides (check x s path) (Satisfies x s)

variable {check : Ajson → Ajson → Bytes → Except ArgumentError Unit}

section
variable (h : Accepted child schema) (hchild : ChildrenDecide check child value)
include h hchild

lemma decides_checkUnknown (hl : Legible value schema) (hs : DistinctKeys schema)
    (hn : PlainSchema schema) :
    Decides ((sortNames ((keys value).filter (isUnknown (schema.field "properties")))).forM
    (checkUnknown dumps check (schema.field "additionalProperties") value path))
    (UnknownFit value schema) := by
  have hon : ∀ key ∈ sortNames ((keys value).filter (isUnknown (schema.field "properties"))),
      Decides (checkUnknown dumps check (schema.field "additionalProperties") value path key)
        (schema.field "additionalProperties" ≠ some (.bool false) ∧
          ∀ x members, value.member key = some x →
            schema.field "additionalProperties" = some (.obj members) →
            Satisfies x (.obj members)) := by
    intro key hk
    rw [mem_sortNames, mem_filter] at hk
    unfold checkUnknown
    cases had : schema.field "additionalProperties" with
    | none => exact decides_ok ⟨nofun, nofun⟩
    | some a =>
      rcases h.additional a had with ⟨b, rfl⟩ | ⟨⟨members, rfl⟩, ha⟩
      · cases b with
        | true => exact decides_ok ⟨by simp, by simp⟩
        | false => exact .inr ⟨_, rfl, by simp, fun hP => hP.1 rfl⟩
      · obtain ⟨x, hx⟩ := isSome_iff_exists.1 (mem_keys_iff.1 hk.1)
        have hu := (isUnknown_iff hl hk.1 (.inr ⟨members, had⟩)).1 hk.2
        obtain ⟨-, hhere, -, hadditional, -⟩ := hl
        have hg : value.get key = some x :=
          (get_eq_member (hhere (.inr ⟨members, had⟩) key hk.1)).trans hx
        rw [hg]
        have hp : PlainSchema (.obj members) := by
          cases hn with
          | intro _ _ _ hadd _ => exact hadd _ had
        refine (hchild.1 key x _ _ hx ha (hs.field (by decide) had) hp
          (hadditional key x _ hx hu had)).congr ?_
        simp [hx]
  refine (decides_forM hon).congr ?_
  simp only [mem_sortNames, mem_filter]
  constructor
  · intro hal
    refine ⟨fun hc key hk => ?_, fun key x members hx hno hadd => ?_⟩
    · by_contra ho
      have hu : declaredSchema schema key = none := by
        simpa [isSome_iff_ne_none] using ho
      have hm := mem_keys_iff.2 hk
      exact (hal key ⟨hm, (isUnknown_iff hl hm (.inl hc)).2 hu⟩).1 hc
    · have hm : key ∈ keys value := mem_keys_iff.2 (by rw [hx]; rfl)
      exact (hal key ⟨hm, (isUnknown_iff hl hm (.inr ⟨members, hadd⟩)).2 hno⟩).2 x members hx hadd
  · rintro ⟨hc, hadd⟩ key ⟨hm, hu⟩
    refine ⟨fun hf => ?_, fun x members hx hob => hadd key x members hx
      ((isUnknown_iff hl hm (.inr ⟨members, hob⟩)).1 hu) hob⟩
    have := hc hf key (mem_keys_iff.1 hm)
    rw [(isUnknown_iff hl hm (.inl hf)).1 hu] at this
    cases this

lemma decides_checkProperties (hl : Legible value schema) (hsch : DistinctKeys schema)
    (hnam : PlainSchema schema) :
    Decides (match schema.field "properties" with
        | none => .ok ()
        | some properties =>
          (sortNames (keys properties)).forM (checkProperty dumps check properties value path))
      (DeclaredFit value schema) := by
  cases hprop : schema.field "properties" with
  | none =>
    refine decides_ok fun key x s _ hs => ?_
    rw [declaredSchema, hprop] at hs
    cases hs
  | some properties =>
    obtain ⟨ms, rfl, hms⟩ := h.properties properties hprop
    have hde : ∀ key, declaredSchema schema key = lookup key ms := fun key => by
      rw [declaredSchema, hprop]
      rfl
    have hone : ∀ key ∈ sortNames (keys (.obj ms)),
        Decides (checkProperty dumps check (.obj ms) value path key)
          (∀ x s, value.member key = some x → declaredSchema schema key = some s →
            Satisfies x s) := by
      intro key hk
      rw [mem_sortNames] at hk
      have hnul := hnam.names hprop hk
      obtain ⟨s, hs⟩ := isSome_iff_exists.1 (mem_keys_iff.1 hk)
      have hget : Ajson.get (.obj ms) key = some s := (get_eq_member hnul).trans hs
      unfold checkProperty
      rw [get_eq_member hnul, hget]
      cases hx : value.member key with
      | none => exact decides_ok nofun
      | some x =>
        have hs' : declaredSchema schema key = some s := (hde key).trans hs
        have hplai : PlainSchema s := by
          cases hnam with
          | intro _ _ hdecl _ _ => exact hdecl key s hs'
        have hdist : DistinctKeys s := (DistinctKeys.field hsch (by decide) hprop).lookup hs
        have hleg : Legible x s := by
          cases hl with
          | intro _ _ hdecl _ _ => exact hdecl key x s hx hs'
        refine (hchild.1 key x s _ hx (hms _ (mem_of_lookup hs)) hdist hplai hleg).congr ?_
        simp [hs']
    refine (decides_forM hone).congr ?_
    simp only [mem_sortNames]
    constructor
    · intro ha key x s hx hs
      refine ha key (mem_keys_iff.2 ?_) x s hx hs
      rw [hde] at hs
      change (lookup key ms).isSome = true
      rw [hs]
      rfl
    · intro ha key _ x s hx hs
      exact ha key x s hx hs

lemma decides_checkObject (hl : Legible value schema) (hs : DistinctKeys schema)
    (hn : PlainSchema schema) :
    Decides (checkObject dumps check value schema path) (isObject value →
    RequiredPresent value schema ∧ UnknownFit value schema ∧ DeclaredFit value schema) := by
  unfold checkObject
  split
  next ho =>
    dsimp only
    rw [refuse_andThen]
    · refine Decides.congr ((decides_checkRequired h hn).andThen fun _ => ?_)
        ⟨fun hP _ => hP, fun hP => hP ho⟩
      rw [refuse_andThen]
      · exact (decides_checkUnknown h hchild hl hs hn).andThen fun _ =>
          decides_checkProperties h hchild hl hs hn
      · cases hadd : schema.field "additionalProperties" with
        | none => decide
        | some a =>
          rcases h.additional a hadd with ⟨b, rfl⟩ | ⟨⟨members, rfl⟩, _⟩
          · simp [additionalShape]
          · simp [additionalShape]
    · simp only [Bool.not_eq_true', Bool.not_eq_false]
      rw [optionalObject_iff]
      intro v hv
      obtain ⟨ms, rfl, _⟩ := h.properties v hv
      exact ⟨ms, rfl⟩
  next ho => exact decides_ok fun h => absurd h ho

lemma decides_checkArray (hl : Legible value schema) (hsch : DistinctKeys schema)
    (hnam : PlainSchema schema) :
    Decides (checkArray check value schema path)
    (∀ xs s, value = .arr xs → schema.field "items" = some s → ∀ x ∈ xs, Satisfies x s) := by
  unfold checkArray
  split
  next xs =>
    rw [refuse_andThen]
    · cases hit : schema.field "items" with
      | none => exact decides_ok nofun
      | some s =>
        have hplai : PlainSchema s := by
          cases hnam with
          | intro _ _ _ _ hi => exact hi s hit
        have hleg : ∀ x ∈ xs, Legible x s := by
          cases hl with
          | intro _ _ _ _ hi => exact hi xs s rfl hit
        refine (decides_forM fun item hitem => hchild.2 xs item.1 s _ rfl
          (fst_mem_of_mem_zipIdx hitem) (h.items s hit).2
          (hsch.field (by decide) hit) hplai (hleg _ (fst_mem_of_mem_zipIdx hitem))).congr ?_
        constructor
        · rintro ha xs' s' hxs hs x hx
          cases hxs
          cases hs
          obtain ⟨i, hi⟩ := getElem?_of_mem hx
          exact ha (x, i) (mk_mem_zipIdx_iff_getElem?.2 hi)
        · rintro ha item hitem
          exact ha xs s rfl rfl item.1 (fst_mem_of_mem_zipIdx hitem)
    · simp only [Bool.not_eq_true', Bool.not_eq_false]
      rw [optionalObject_iff]
      intro v hv
      exact (h.items v hv).1
  next hno =>
    refine decides_ok fun xs s hxs => ?_
    exact absurd hxs (hno xs)
end

end

lemma satisfies_iff : Satisfies value schema ↔
    (∀ t, schema.field "type" = some (.str t) → ∃ name, t = ascii name ∧ OfType value name) ∧
    (∀ cs, schema.field "enum" = some (.arr cs) → ∃ c ∈ cs, SameJson value c) ∧
    (∀ c, schema.field "const" = some c → SameJson value c) ∧ (isObject value →
    RequiredPresent value schema ∧ UnknownFit value schema ∧ DeclaredFit value schema) ∧
    ∀ xs s, value = .arr xs → schema.field "items" = some s → ∀ x ∈ xs, Satisfies x s := by
  have hobje : ∀ {key x}, value.member key = some x → isObject value := by
    intro key x hx
    cases value with
    | obj members => rfl
    | null | bool _ | int _ | num _ | str _ | arr _ => cases hx
  constructor
  · rintro ⟨hty, henum, hco, hreq, hcl, hadd, hdecl, hit⟩
    exact ⟨hty, henum, hco, fun h => ⟨hreq h, ⟨hcl, hadd⟩, hdecl⟩, hit⟩
  · rintro ⟨hty, henum, hco, hobj, hit⟩
    refine ⟨hty, henum, hco, fun h => (hobj h).1, fun hfa key hk => ?_,
      fun key x members hx => (hobj (hobje hx)).2.1.2 key x members hx,
      fun key x s hx => (hobj (hobje hx)).2.2 key x s hx, hit⟩
    obtain ⟨x, hx⟩ := isSome_iff_exists.1 hk
    exact (hobj (hobje hx)).2.1.1 hfa key hk

lemma decides_validateArgument {dumps : Bytes → Bytes} {tool : Bytes} (levels : Nat)
    {path : Bytes} (schemaPath : Bytes)
    (hacc : validateSchema dumps tool levels schema schemaPath = .ok ())
    (hvl : DistinctKeys value) (hl : Legible value schema) (hsch : DistinctKeys schema)
    (hnam : PlainSchema schema) :
    Decides (validateArgument dumps levels value schema path) (Satisfies value schema) := by
  induction levels generalizing value schema path schemaPath with
  | zero =>
    rw [validateSchema] at hacc
    obtain ⟨_, h⟩ := refuse_eq_ok.1 hacc
    cases h
  | succ levels ih =>
    have h := accepted_of_validateSchema hacc
    have hchild : ChildrenDecide (validateArgument dumps levels)
        (fun s => ∃ path, validateSchema dumps tool levels s path = .ok ()) value := by
      refine ⟨?_, ?_⟩
      · rintro key x s path hx ⟨schemaPath, hs⟩ hdist hnam hleg
        cases value with
        | obj members => exact ih schemaPath hs (hvl.lookup hx) hleg hdist hnam
        | null | bool _ | int _ | num _ | str _ | arr _ => cases hx
      · rintro xs x s path rfl hx ⟨schemaPath, hs⟩ hdist hnam hleg
        exact ih schemaPath hs (hvl.item hx) hleg hdist hnam
    have hwhole : (schema.field "enum").isSome ∨ (schema.field "const").isSome →
        PlainKeys value := by
      cases hl with
      | intro hw _ _ _ _ => exact hw
    rw [validateArgument, refuse_andThen (by simp [h.object])]
    exact ((decides_checkType h).andThen fun _ =>
      (decides_checkEnum h hvl (fun he => hwhole (.inl he)) hsch).andThen fun _ =>
      (decides_checkConst hvl (fun hc => hwhole (.inr hc)) hsch).andThen fun _ =>
      (decides_checkObject h hchild hl hsch hnam).andThen fun _ =>
      decides_checkArray h hchild hl hsch hnam).congr satisfies_iff.symm

end AxiomKernel.Qwen38.Tools
