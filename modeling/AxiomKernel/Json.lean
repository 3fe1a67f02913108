import Mathlib.Data.List.TakeWhile
import Mathlib.Data.Rat.Defs
import Mathlib.Tactic.Common
import AxiomKernel.Lib.Text

/-! The JSON value of the request path (`tools/axiom_aliced_json.h`): strings are raw bytes, objects
keep the order of their members, integers and doubles are distinct. A double is finite and stands
for its rational value. -/
namespace AxiomKernel

open Image Text List

inductive Ajson where
  | null
  | bool (b : Bool)
  | int (i : Int)
  | num (d : ℚ)
  | str (s : Bytes)
  | arr (items : List Ajson)
  | obj (members : List (Bytes × Ajson))

variable (text : Bytes)

def cString : Bytes := text.takeWhile (· ≠ 0)

lemma cString_of_not_mem {text : Bytes} (h : (0 : UInt8) ∉ text) : cString text = text := by
  rw [cString, takeWhile_eq_self_iff]
  intro b hb
  rw [decide_eq_true_eq]
  rintro rfl
  exact h hb

lemma zero_not_mem_cString : (0 : UInt8) ∉ cString text := by
  intro h
  have := mem_takeWhile_imp h
  simp at this

lemma length_cString_lt {text : Bytes} (h : (0 : UInt8) ∈ text) :
    (cString text).length < text.length := by
  rcases lt_or_ge (cString text).length text.length with hl | hge
  · exact hl
  · have he : cString text = text :=
      ( takeWhile_prefix _).eq_of_length (le_antisymm ( takeWhile_prefix _).length_le hge)
    rw [← he] at h
    exact absurd h (zero_not_mem_cString text)

lemma cString_append {first second : Bytes} (h : (0 : UInt8) ∉ first) :
    cString (first ++ second) = first ++ cString second := by
  rw [cString, cString, takeWhile_append_of_pos]
  intro b hb
  rw [decide_eq_true_eq]
  rintro rfl
  exact h hb

namespace Ajson

def lookup (key : Bytes) : List (Bytes × Ajson) → Option Ajson
  | [] => none
  | (name, value) :: members => if name = key then some value else lookup key members

variable (value : Ajson)

/-- `get`: the key is a C string, so bytes behind a NUL in it are not seen. -/
def get (key : Bytes) : Option Ajson :=
  match value with
  | .obj members => lookup (cString key) members
  | _ => none

def text? : Ajson → Option Bytes
  | .str s => some s
  | _ => none

def field (key : String) : Option Ajson := value.get (ascii key)

variable {key : Bytes} {members : List (Bytes × Ajson)} {value : Ajson}

lemma sizeOf_lookup (h : lookup key members = some value) : sizeOf value < sizeOf members := by
  induction members with
  | nil => cases h
  | cons me members ih =>
    obtain ⟨n, he⟩ := me
    rw [lookup] at h
    split at h
    · cases h
      simp
      omega
    · have := ih h
      simp
      omega

lemma sizeOf_get {ch : Ajson} (h : value.get key = some ch) : sizeOf ch < sizeOf value := by
  cases value with
  | obj members =>
    have := sizeOf_lookup h
    simp
    omega
  | _ => cases h

lemma lookup_eq_none_iff : lookup key members = none ↔ key ∉ members.map Prod.fst := by
  induction members with
  | nil => simp [lookup]
  | cons first members ih =>
    obtain ⟨n, value⟩ := first
    rw [lookup, map_cons, mem_cons, not_or]
    split
    next hn => exact ⟨nofun, fun h => absurd hn.symm h.1⟩
    next hn => exact ih.trans ⟨fun h => ⟨Ne.symm hn, h⟩, fun h => h.2⟩

lemma mem_of_lookup (h : lookup key members = some value) : (key, value) ∈ members := by
  induction members with
  | nil => cases h
  | cons first members ih =>
    obtain ⟨n, he⟩ := first
    rw [lookup] at h
    split at h
    next hn =>
      cases h
      rw [hn]
      exact mem_cons_self
    · exact mem_cons_of_mem _ (ih h)

lemma lookup_of_mem (hn : (members.map Prod.fst).Nodup) (h : (key, value) ∈ members) :
    lookup key members = some value := by
  induction members with
  | nil => cases h
  | cons first members ih =>
    obtain ⟨n, he⟩ := first
    rw [map_cons, nodup_cons] at hn
    rw [lookup]
    rcases mem_cons.1 h with heq | hm
    · cases heq
      exact if_pos rfl
    · rw [if_neg, ih hn.2 hm]
      rintro rfl
      exact hn.1 (mem_map.2 ⟨_, hm, rfl⟩)

def setMember (key : Bytes) (value : Ajson) : List (Bytes × Ajson) → List (Bytes × Ajson)
  | [] => [(key, value)]
  | (name, old) :: members =>
    if name = key then (name, value) :: members else (name, old) :: setMember key value members

/-- `set`: a member keeps its place; any other value becomes an object. -/
def set (value : Ajson) (key : Bytes) (child : Ajson) : Ajson :=
  match value with
  | .obj members => .obj (setMember key child members)
  | _ => .obj [(key, child)]

def eraseMember (key : Bytes) : List (Bytes × Ajson) → List (Bytes × Ajson)
  | [] => []
  | (name, value) :: members =>
    if name = key then members else (name, value) :: eraseMember key members

def erase (value : Ajson) (key : Bytes) : Ajson :=
  match value with
  | .obj members => .obj (eraseMember key members)
  | other => other

def member (value : Ajson) (key : Bytes) : Option Ajson :=
  match value with
  | .obj members => lookup key members
  | _ => none

def stringField (value : Ajson) (key : String) : Bytes :=
  match value.field key with
  | some (.str s) => s
  | _ => []

lemma stringField_of_field {key : String} {text : Bytes} (h : value.field key = some (.str text)) :
    value.stringField key = text := by
  rw [stringField, h]

lemma get_eq_member (h : (0 : UInt8) ∉ key) : value.get key = value.member key := by
  cases value with
  | obj members =>
    change lookup (cString key) members = lookup key members
    rw [cString_of_not_mem h]
  | _ => rfl

lemma lookup_setMember (key o : Bytes) (value : Ajson) (members : List (Bytes × Ajson)) :
    lookup o (setMember key value members) =
    if o = key then some value else lookup o members := by
  induction members with
  | nil =>
    simp only [setMember, lookup, eq_comm (a := o)]
  | cons first members ih =>
    obtain ⟨n, old⟩ := first
    rw [setMember]
    split
    next hn =>
      rw [lookup, lookup, hn]
      by_cases hk : key = o
      · rw [if_pos hk, if_pos hk.symm]
      · rw [if_neg hk, if_neg (Ne.symm hk), if_neg hk]
    next hn =>
      rw [lookup, lookup, ih]
      by_cases ho : n = o
      · rw [if_pos ho, if_pos ho, if_neg fun h => hn (ho.trans h)]
      · rw [if_neg ho, if_neg ho]

@[simp] lemma member_set_self (value : Ajson) (key : Bytes) (child : Ajson) :
    (value.set key child).member key = some child := by
  cases value with
  | obj members => exact (lookup_setMember ..).trans (if_pos rfl)
  | _ => exact if_pos rfl

lemma member_set_of_ne (members : List (Bytes × Ajson)) {other : Bytes} (h : other ≠ key)
    (ch : Ajson) : (set (.obj members) key ch).member other = member (.obj members) other :=
  (lookup_setMember ..).trans (if_neg h)

lemma lookup_eraseMember_of_ne {o : Bytes} (h : o ≠ key) (members : List (Bytes × Ajson))
    : lookup o (eraseMember key members) = lookup o members := by
  induction members with
  | nil => rfl
  | cons first members ih =>
    obtain ⟨n, value⟩ := first
    rw [eraseMember]
    split
    next hn => rw [lookup, if_neg fun he => h (he.symm.trans hn)]
    next hn => rw [lookup, lookup, ih]

lemma setMember_setMember (key : Bytes) (old value : Ajson) (members : List (Bytes × Ajson)) :
    setMember key value (setMember key old members) = setMember key value members := by
  induction members with
  | nil => simp [setMember]
  | cons first members ih =>
    obtain ⟨n, p⟩ := first
    by_cases hn : n = key
    · simp only [setMember, if_pos hn]
    · simp only [setMember, if_neg hn, ih]

lemma set_set (value : Ajson) (key : Bytes) (old child : Ajson) :
    (value.set key old).set key child = value.set key child := by
  cases value with
  | obj members => exact congrArg Ajson.obj (setMember_setMember ..)
  | _ => exact congrArg Ajson.obj (if_pos rfl)

lemma field_set_self (value : Ajson) {key : String} (h : cString (ascii key) = ascii key)
    (child : Ajson) : (value.set (ascii key) child).field key = some child := by
  change (value.set (ascii key) child).get (ascii key) = _
  cases value with
  | obj members =>
    change lookup (cString (ascii key)) (setMember ..) = _
    rw [h, lookup_setMember, if_pos rfl]
  | _ =>
    change lookup (cString (ascii key)) [(ascii key, child)] = _
    rw [h, lookup, if_pos rfl]

lemma field_set_of_ne {other : String} (h : cString (ascii other) ≠ key) (ch : Ajson) :
    (value.set key ch).field other = value.field other := by
  cases value with
  | obj members =>
    change lookup (cString (ascii other)) (setMember ..) = lookup (cString (ascii other)) members
    rw [lookup_setMember, if_neg h]
  | _ =>
    change lookup (cString (ascii other)) [(key, ch)] = none
    rw [lookup, if_neg (Ne.symm h), lookup]

lemma field_erase_of_ne {other : String} (h : cString (ascii other) ≠ key) :
    (value.erase key).field other = value.field other := by
  cases value with
  | obj members => exact lookup_eraseMember_of_ne h members
  | _ => rfl

end Ajson

end AxiomKernel
