import AxiomKernel.JsonText

/-!
# What is read of a JSON text

A value that was read is no higher than the levels the reader had and regular, more levels do not
change it, and a string is shorter than the text it is read from.
-/
namespace AxiomKernel.Ajson

open Image Text List Nat
open Option hiding max_le mem_map mem_map_of_mem

variable {strtod : Bytes → Option ℚ} {double : ℚ → Bytes} {D : ℚ → Prop}

lemma length_utf8Append_le (cp : Nat) : (utf8Append cp).length ≤ 4 := by
  unfold utf8Append
  split_ifs <;> exact le_of_ble_eq_true rfl

variable {text rest : Bytes}

lemma length_hex4 {cp : Nat} (h : hex4 text = some (cp, rest)) : text.length = rest.length + 4 := by
  unfold hex4 at h
  split at h
  · simp only [bind_eq_bind, bind_eq_some_iff, some.injEq, Prod.mk.injEq] at h
    obtain ⟨_, _, _, _, _, _, _, _, -, rfl⟩ := h
    rfl
  · cases h

lemma length_readUnicode {out : Bytes} (h : readUnicode text = some (out, rest)) :
    out.length + rest.length ≤ text.length := by
  unfold readUnicode at h
  split at h
  · cases h
  next cp b hc =>
    have hl := length_hex4 hc
    have ho := length_utf8Append_le cp
    split at h
    next low =>
      split_ifs at h
      · split at h
        · cases h
        next lo af hlo =>
          have hlow := length_hex4 hlo
          split_ifs at h
          · obtain ⟨rfl, rfl⟩ := Prod.mk.inj (some.inj h)
            have hpair := length_utf8Append_le (0x10000 + (cp - 0xD800) * 1024 + (lo - 0xDC00))
            rw [length_cons, length_cons] at hl
            omega
          · cases h
            omega
      · cases h
        omega
    · cases h
      omega

lemma length_of_escape {p : Prop} [Decidable p] {c : UInt8} {b out : Bytes}
    {x : Option (Bytes × Bytes)} {n : Nat} (hn : b.length < n)
    (hx : x = some (out, rest) → out.length + rest.length ≤ n)
    (h : (if p then some ([c], b) else x) = some (out, rest)) :
    out.length + rest.length ≤ n := by
  split at h
  · cases h
    rw [length_singleton]
    omega
  · exact hx h

lemma length_readEscape {out : Bytes} (h : readEscape text = some (out, rest)) :
    out.length + rest.length ≤ text.length := by
  cases text with
  | nil => cases h
  | cons e text =>
    have hn : text.length < (e :: text).length := lt_succ_self _
    rw [readEscape] at h
    revert h
    -- one step for each of the eight escapes of a single byte
    iterate 8 refine length_of_escape hn ?_
    intro h
    split at h
    · have := length_readUnicode h
      omega
    · cases h

variable {fuel : Nat} {s : Bytes}

lemma length_readString (h : readString fuel text = some (s, rest)) :
    s.length + rest.length < text.length := by
  induction fuel generalizing text s with
  | zero =>
    cases text with
    | nil => cases h
    | cons c text => cases h
  | succ fuel ih =>
    cases text with
    | nil => cases h
    | cons c text =>
      rw [readString] at h
      rw [length_cons]
      split_ifs at h
      · cases h
        rw [length_nil]
        omega
      · split at h
        · cases h
        next out b he =>
          obtain ⟨⟨s', r'⟩, hread, heq⟩ := map_eq_some_iff.1 h
          simp only [Prod.mk.injEq] at heq
          obtain ⟨rfl, rfl⟩ := heq
          have hre := ih hread
          have ho := length_readEscape he
          change (out ++ s').length + r'.length < text.length + 1
          rw [length_append]
          omega
      · obtain ⟨⟨s', r'⟩, hread, heq⟩ := map_eq_some_iff.1 h
        simp only [Prod.mk.injEq] at heq
        obtain ⟨rfl, rfl⟩ := heq
        have hre := ih hread
        change s'.length + 1 + r'.length < text.length + 1
        omega

def FromText (strtod : Bytes → Option ℚ) (d : ℚ) : Prop := ∃ lexeme, strtod lexeme = some d

/-- A value within the levels, with the doubles of `D`. -/
def Within (D : ℚ → Prop) (levels : Nat) (v : Ajson) : Prop := height v ≤ levels ∧ Regular D v

variable {levels : Nat} {items : List Ajson} {P : Ajson → Prop} {w : Ajson}
  {read' : Bytes → Option (Ajson × Bytes)}

lemma itemsHeight_le (h : ∀ v ∈ items, height v ≤ levels) : itemsHeight items ≤ levels := by
  induction items with
  | nil => exact zero_le _
  | cons v items ih =>
    rw [itemsHeight]
    exact max_le (h v mem_cons_self) (ih fun w hw => h w (mem_cons_of_mem _ hw))

variable {members : List (Bytes × Ajson)}

lemma membersHeight_le (h : ∀ m ∈ members, height m.2 ≤ levels) :
    membersHeight members ≤ levels := by
  induction members with
  | nil => exact zero_le _
  | cons m members ih =>
    rw [membersHeight]
    exact max_le (h m mem_cons_self) (ih fun w hw => h w (mem_cons_of_mem _ hw))

lemma within_arr (h : ∀ v ∈ items, Within D levels v) : Within D (levels + 1) (.arr items) := by
  refine ⟨?_, ?_⟩
  · rw [height]
    exact succ_le_succ (itemsHeight_le fun v hv => (h v hv).1)
  · rw [Regular]
    exact regularItems_iff.2 fun v hv => (h v hv).2

def Members (P : Bytes × Ajson → Prop) (v : Ajson) : Prop :=
  ∃ members, v = .obj members ∧ (members.map Prod.fst).Nodup ∧ ∀ m ∈ members, P m

lemma members_nil {P : Bytes × Ajson → Prop} : Members P (.obj []) :=
  ⟨[], rfl, nodup_nil, fun _ h => absurd h not_mem_nil⟩

variable {v : Ajson}

lemma within_obj (h : Members (fun m => Within D levels m.2) v) : Within D (levels + 1) v := by
  obtain ⟨members, rfl, hn, hmb⟩ := h
  refine ⟨?_, ?_⟩
  · rw [height]
    exact succ_le_succ (membersHeight_le fun m hm => (hmb m hm).1)
  · rw [Regular]
    exact ⟨hn, regularMembers_iff.2 fun m hm => (hmb m hm).2⟩

variable {key : Bytes}

lemma mem_setMember {m : Bytes × Ajson} (h : m ∈ setMember key v members) :
    m = (key, v) ∨ m ∈ members := by
  induction members with
  | nil => exact .inl (mem_singleton.1 h)
  | cons first members ih =>
    obtain ⟨n, w⟩ := first
    rw [setMember] at h
    split_ifs at h with hn
    · rcases mem_cons.1 h with rfl | hm
      · rw [hn]
        exact .inl rfl
      · exact .inr (mem_cons_of_mem _ hm)
    · rcases mem_cons.1 h with rfl | hm
      · exact .inr mem_cons_self
      · exact (ih hm).imp_right (mem_cons_of_mem _)

lemma keys_setMember_subset :
    ∀ k ∈ (setMember key v members).map Prod.fst, k = key ∨ k ∈ members.map Prod.fst := by
  intro k hk
  obtain ⟨m, hm, rfl⟩ := mem_map.1 hk
  rcases mem_setMember hm with rfl | hmem
  · exact .inl rfl
  · exact .inr (mem_map_of_mem hmem)

lemma nodup_setMember (h : (members.map Prod.fst).Nodup) :
    ((setMember key v members).map Prod.fst).Nodup := by
  induction members with
  | nil => exact nodup_singleton _
  | cons first members ih =>
    obtain ⟨n, w⟩ := first
    rw [map_cons, nodup_cons] at h
    rw [setMember]
    split_ifs with hn
    · rw [map_cons, nodup_cons]
      exact h
    · rw [map_cons, nodup_cons]
      refine ⟨fun hm => ?_, ih h.2⟩
      rcases keys_setMember_subset n hm with he | hold
      · exact hn he
      · exact h.1 hold

variable {out : Ajson}

lemma Members.set {P : Bytes × Ajson → Prop} (h : Members P out) (hv : P (key, v)) :
    Members P (out.set key v) := by
  obtain ⟨members, rfl, hn, hmb⟩ := h
  refine ⟨_, rfl, nodup_setMember hn, fun m hm => ?_⟩
  rcases mem_setMember hm with rfl | hmem
  · exact hv
  · exact hmb m hmem

variable {read : Bytes → Option (Ajson × Bytes)}

lemma members_readMembers (hread : ∀ text v rest, read text = some (v, rest) → P v)
    (ho : Members (fun m => P m.2) out) (h : readMembers read fuel out text = some (v, rest)) :
    Members (fun m => P m.2) v := by
  fun_induction readMembers read fuel out text with
  | case4 fuel out text _ _ key _ _ _ _ w b hw _ _ ih => exact ih (ho.set (hread _ w b hw)) h
  | case5 fuel out text _ _ key _ _ _ _ w b hw =>
    cases h
    exact ho.set (hread _ w b hw)
  | _ => cases h

lemma items_readItems (hread : ∀ text v rest, read text = some (v, rest) → P v) {out : List Ajson}
    (ho : ∀ w ∈ out, P w) (h : readItems read fuel out text = some (v, rest)) :
    ∃ items, v = .arr items ∧ ∀ w ∈ items, P w := by
  have ha {out : List Ajson} (ho : ∀ w ∈ out, P w) {text w b} (hw : read text = some (w, b)) :
      ∀ u ∈ out ++ [w], P u := by
    intro u hu
    rcases mem_append.1 hu with hl | hnew
    · exact ho u hl
    · rw [mem_singleton.1 hnew]
      exact hread _ w b hw
  fun_induction readItems read fuel out text with
  | case3 fuel out text w b hw _ _ ih => exact ih (ha ho hw) h
  | case4 fuel out text w b hw =>
    cases h
    exact ⟨_, rfl, ha ho hw⟩
  | _ => cases h

lemma readNumber_spec (h : readNumber strtod text = some (v, rest)) :
    (∃ i, v = .int i ∧ int64 i) ∨ ∃ d, v = .num d ∧ FromText strtod d := by
  unfold readNumber at h
  simp only [bind_eq_bind, bind_eq_some_iff] at h
  obtain ⟨ds, -, f, -, e, -, h⟩ := h
  split at h
  next hi =>
    cases h
    rw [Bool.and_eq_true] at hi
    exact .inl ⟨_, rfl, hi.2⟩
  next =>
    obtain ⟨d, hd, he⟩ := map_eq_some_iff.1 h
    cases he
    exact .inr ⟨d, rfl, _, hd⟩

lemma within_readLiteral {l : Bytes} (hw : Within D levels w)
    (h : readLiteral l w text = some (v, rest)) : Within D levels v := by
  unfold readLiteral at h
  split_ifs at h
  cases h
  exact hw

lemma within_parseValue (h : parseValue strtod levels text = some (v, rest)) :
    Within (FromText strtod) levels v := by
  induction levels generalizing text v rest with
  | zero => cases h
  | succ levels ih =>
    have hread : ∀ text v rest, parseValue strtod levels text = some (v, rest) →
        Within (FromText strtod) levels v := fun _ _ _ h => ih h
    have hleaf {w : Ajson} (hw : height w = 1 ∧ Regular (FromText strtod) w) :
        Within (FromText strtod) (levels + 1) w := ⟨hw.1 ▸ Nat.le_add_left 1 levels, hw.2⟩
    rw [parseValue] at h
    split at h
    · cases h
    · split_ifs at h
      · split at h
        · cases h
          exact within_obj members_nil
        · exact within_obj (members_readMembers hread members_nil h)
      · split at h
        · cases h
          exact within_arr fun _ h => absurd h not_mem_nil
        · obtain ⟨items, rfl, hi⟩ := items_readItems hread (fun _ h => absurd h not_mem_nil) h
          exact within_arr hi
      · obtain ⟨⟨s, b⟩, -, heq⟩ := map_eq_some_iff.1 h
        cases heq
        exact hleaf (by simp [height, Regular])
      · exact within_readLiteral (hleaf (by simp [height, Regular])) h
      · exact within_readLiteral (hleaf (by simp [height, Regular])) h
      · exact within_readLiteral (hleaf (by simp [height, Regular])) h
      · rcases readNumber_spec h with ⟨i, rfl, hi⟩ | ⟨d, rfl, hd⟩
        · exact hleaf (by simp [height, Regular, hi])
        · exact hleaf (by simp [height, Regular, hd])

lemma within_parse (h : parse strtod text = some v) : Within (FromText strtod) 65 v := by
  unfold parse at h
  split at h
  · cases h
  next w rest hread =>
    split_ifs at h
    cases h
    exact within_parseValue hread

variable {r : Ajson × Bytes}

section
variable (hread : ∀ text r, read text = some r → read' text = some r)
include hread

lemma readMembers_mono (h : readMembers read fuel out text = some r) :
    readMembers read' fuel out text = some r := by
  fun_induction readMembers read fuel out text with
  | case4 fuel out text _ ht _ _ hk _ hc _ _ hw _ hn ih =>
    simp only [readMembers, ht, hk, hc, hread _ _ hw, hn]
    exact ih h
  | case5 fuel out text _ ht _ _ hk _ hc _ _ hw _ hn =>
    simp only [readMembers, ht, hk, hc, hread _ _ hw, hn]
    exact h
  | _ => cases h

lemma readItems_mono {out : List Ajson} (h : readItems read fuel out text = some r) :
    readItems read' fuel out text = some r := by
  fun_induction readItems read fuel out text with
  | case3 fuel out text _ _ hw _ hn ih =>
    simp only [readItems, hread _ _ hw, hn]
    exact ih h
  | case4 fuel out text _ _ hw _ hn =>
    simp only [readItems, hread _ _ hw, hn]
    exact h
  | _ => cases h

end

lemma parseValue_succ (h : parseValue strtod levels text = some r) :
    parseValue strtod (levels + 1) text = some r := by
  induction levels generalizing text r with
  | zero => cases h
  | succ levels ih =>
    rw [parseValue] at h ⊢
    split at h
    · cases h
    next c rest hs =>
      by_cases hbr : c = 123
      · rw [if_pos hbr] at h ⊢
        split at h
        · exact h
        · exact readMembers_mono (fun _ _ h => ih h) h
      · rw [if_neg hbr] at h ⊢
        by_cases hb : c = 91
        · rw [if_pos hb] at h ⊢
          split at h
          · exact h
          · exact readItems_mono (fun _ _ h => ih h) h
        · rw [if_neg hb] at h ⊢
          exact h

lemma parseValue_mono {mo : Nat} (hl : levels ≤ mo)
    (h : parseValue strtod levels text = some r) : parseValue strtod mo text = some r := by
  induction hl with
  | refl => exact h
  | step _ ih => exact parseValue_succ ih

lemma parse_dumps_eq (hd : Doubles strtod double D) (hv : Regular D v)
    (h : parse strtod (dumps double v) = some w) : w = v ∧ height v ≤ 65 := by
  unfold parse at h
  split at h
  · cases h
  next u rest hread =>
    split_ifs at h
    cases h
    have hmore := parseValue_mono (le_max_left 65 (height v)) hread
    have hbk := parseValue_dumps hd (max 65 (height v)) hv (le_max_right _ _) [] numberEnds_nil
    rw [append_nil, hmore] at hbk
    cases hbk
    exact ⟨rfl, (within_parseValue hread).1⟩

lemma length_of_parse_str (h : parse strtod text = some (.str s)) : s.length < text.length := by
  unfold parse at h
  split at h
  · cases h
  next u rest hread =>
    split_ifs at h
    cases h
    have hl : (skipWs text).length ≤ text.length := (dropWhile_sublist _).length_le
    rw [parseValue] at hread
    split at hread
    · cases hread
    next c b hs =>
      rw [hs, length_cons] at hl
      split_ifs at hread
      · split at hread
        · cases hread
        · obtain ⟨members, he, -⟩ := members_readMembers (P := fun _ => True)
            (fun _ _ _ _ => trivial) members_nil hread
          cases he
      · split at hread
        · cases hread
        · obtain ⟨items, he, -⟩ := items_readItems (P := fun _ => True)
            (fun _ _ _ _ => trivial) (fun _ h => absurd h not_mem_nil) hread
          cases he
      · obtain ⟨⟨u, af⟩, hstr, he⟩ := map_eq_some_iff.1 hread
        have hsh := length_readString hstr
        cases he
        change u.length < text.length
        omega
      · exact absurd hread (by simp [readLiteral])
      · exact absurd hread (by simp [readLiteral])
      · exact absurd hread (by simp [readLiteral])
      · rcases readNumber_spec hread with ⟨_, he, -⟩ | ⟨_, he, -⟩ <;> cases he

lemma dumpItems_concat (items : List Ajson) : ∃ text, dumpItems double items = text ++ [93] := by
  induction items with
  | nil => exact ⟨[], by rw [dumpItems]; rfl⟩
  | cons v items ih =>
    obtain ⟨text, ht⟩ := ih
    refine ⟨44 :: (dumps double v ++ text), ?_⟩
    rw [dumpItems, ht, cons_append, append_assoc]

lemma dumpMembers_concat (members : List (Bytes × Ajson)) :
    ∃ text, dumpMembers double members = text ++ [125] := by
  induction members with
  | nil => exact ⟨[], by rw [dumpMembers]; rfl⟩
  | cons m members ih =>
    obtain ⟨key, v⟩ := m
    obtain ⟨text, ht⟩ := ih
    refine ⟨44 :: (dumpString key ++ 58 :: (dumps double v ++ text)), ?_⟩
    rw [dumpMembers, ht]
    simp

lemma dumps_concat (hv : ∀ d, v ≠ .num d) :
    ∃ text c, dumps double v = text ++ [c] ∧ isWs c = false := by
  have hdec (n : Nat) : ∃ text c, decimal n = text ++ [c] ∧ isWs c = false := by
    have hne := decimal_ne_nil n
    refine ⟨_, _, (dropLast_append_getLast hne).symm, ?_⟩
    exact (number_start (.inr (isDigit_of_mem_decimal (getLast_mem hne)))).1
  cases v with
  | null => exact ⟨ascii "nul", 108, by rw [dumps]; rfl, by decide⟩
  | bool b =>
    cases b with
    | false => exact ⟨ascii "fals", 101, by rw [dumps]; rfl, by decide⟩
    | true => exact ⟨ascii "tru", 101, by rw [dumps]; rfl, by decide⟩
  | int i =>
    cases i with
    | ofNat n =>
      obtain ⟨text, c, ht, hc⟩ := hdec n
      exact ⟨text, c, by rw [dumps, dumpInt, ht], hc⟩
    | negSucc n =>
      obtain ⟨text, c, ht, hc⟩ := hdec (n + 1)
      exact ⟨45 :: text, c, by rw [dumps, dumpInt, ht]; rfl, hc⟩
  | num d => exact absurd rfl (hv d)
  | str s => exact ⟨34 :: s.flatMap dumpByte, 34, by rw [dumps, dumpString]; rfl, by decide⟩
  | arr items =>
    cases items with
    | nil => exact ⟨[91], 93, by rw [dumps]; rfl, by decide⟩
    | cons w items =>
      obtain ⟨text, ht⟩ : ∃ text, dumpItems double items = text ++ [93] := dumpItems_concat items
      refine ⟨91 :: (dumps double w ++ text), 93, ?_, by decide⟩
      rw [dumps, ht, cons_append, append_assoc]
  | obj members =>
    cases members with
    | nil => exact ⟨[123], 125, by rw [dumps]; rfl, by decide⟩
    | cons m members =>
      obtain ⟨key, w⟩ := m
      obtain ⟨text, ht⟩ : ∃ text, dumpMembers double members = text ++ [125] :=
        dumpMembers_concat members
      refine ⟨123 :: (dumpString key ++ 58 :: (dumps double w ++ text)), 125, ?_, by decide⟩
      rw [dumps, ht]
      simp

mutual

def NoDoubles : Ajson → Prop
  | .num _ => False
  | .arr items => NoDoublesItems items
  | .obj members => NoDoublesMembers members
  | _ => True

def NoDoublesItems : List Ajson → Prop
  | [] => True
  | v :: items => NoDoubles v ∧ NoDoublesItems items

def NoDoublesMembers : List (Bytes × Ajson) → Prop
  | [] => True
  | (_, v) :: members => NoDoubles v ∧ NoDoublesMembers members

end

mutual

variable {D' : ℚ → Prop}

lemma regular_of_noDoubles : ∀ {v : Ajson}, Regular D v → NoDoubles v → Regular D' v
  | .null, _, _ => trivial
  | .bool _, _, _ => trivial
  | .int _, h, _ => h
  | .num _, _, h => h.elim
  | .str _, _, _ => trivial
  | .arr _, h, hn => regularItems_of_noDoubles h hn
  | .obj _, h, hn => ⟨h.1, regularMembers_of_noDoubles h.2 hn⟩

lemma regularItems_of_noDoubles : ∀ {items : List Ajson}, RegularItems D items →
    NoDoublesItems items → RegularItems D' items
  | [], _, _ => trivial
  | _ :: _, h, hn => ⟨regular_of_noDoubles h.1 hn.1, regularItems_of_noDoubles h.2 hn.2⟩

lemma regularMembers_of_noDoubles : ∀ {members : List (Bytes × Ajson)},
    RegularMembers D members → NoDoublesMembers members → RegularMembers D' members
  | [], _, _ => trivial
  | (_, _) :: _, h, hn => ⟨regular_of_noDoubles h.1 hn.1, regularMembers_of_noDoubles h.2 hn.2⟩

end

lemma noDoublesMembers_iff : NoDoublesMembers members ↔ ∀ m ∈ members, NoDoubles m.2 := by
  induction members with
  | nil => simp [NoDoublesMembers]
  | cons m members ih => rw [NoDoublesMembers, ih, forall_mem_cons]

/-- A value without doubles comes back from its text, and so does what was read of any text. -/
theorem json_round_trip (strtod : Bytes → Option ℚ) (double : ℚ → Bytes) :
    (∀ v, Regular (fun _ => False) v → height v ≤ 65 →
      parse strtod (dumps double v) = some v) ∧
    ∀ text v, parse strtod text = some v → NoDoubles v →
      parse strtod (dumps double v) = some v := by
  refine ⟨fun v hv hh => parse_dumps doubles_none hv hh, fun text v h hn => ?_⟩
  obtain ⟨hh, hr⟩ := within_parse h
  exact parse_dumps doubles_none (regular_of_noDoubles hr hn) hh

theorem json_round_trip_nested :
    let v := obj [(ascii "k", arr [int (-1), str [0, 34, 200], obj []])]
    Regular (fun _ => False) v ∧ parse (fun _ => none) (dumps (fun _ => []) v) = some v := by
  intro v
  have hv : Regular (fun _ => False) v := by simp [v, Regular, RegularMembers, RegularItems, int64]
  refine ⟨hv, (json_round_trip _ _).1 v hv ?_⟩
  simp [v, height, membersHeight, itemsHeight]

end AxiomKernel.Ajson
