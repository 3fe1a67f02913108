import AxiomKernel.Json

/-!
# JSON text

The reader and the writer of `tools/axiom_aliced_json.h`. A number with a fraction or an exponent,
and an integer outside 64 bits, goes through `strtod`; the shortest text of a double is a parameter
of the writer. What the writer makes of a value without doubles the reader gives back, as long as
the value is not nested deeper than the reader goes.
-/
namespace AxiomKernel.Ajson

open Image Text List Option Nat

def dumpByte (c : UInt8) : Bytes :=
  if c = 34 then ascii "\\\""
  else if c = 92 then ascii "\\\\"
  else if c = 8 then ascii "\\b"
  else if c = 12 then ascii "\\f"
  else if c = 10 then ascii "\\n"
  else if c = 13 then ascii "\\r"
  else if c = 9 then ascii "\\t"
  else if c < 32 then ascii "\\u00" ++ [hexDigit (c.toNat / 16), hexDigit (c.toNat % 16)]
  else [c]

def dumpString (s : Bytes) : Bytes := 34 :: (s.flatMap dumpByte ++ [34])

def dumpInt : Int → Bytes
  | .ofNat n => decimal n
  | .negSucc n => 45 :: decimal (n + 1)

mutual

def dumps (double : ℚ → Bytes) : Ajson → Bytes
  | .null => ascii "null"
  | .bool b => if b then ascii "true" else ascii "false"
  | .int i => dumpInt i
  | .num d => double d
  | .str s => dumpString s
  | .arr [] => ascii "[]"
  | .arr (v :: items) => 91 :: (dumps double v ++ dumpItems double items)
  | .obj [] => ascii "\x7b\x7d"
  | .obj ((key, v) :: members) =>
    123 :: (dumpString key ++ 58 :: (dumps double v ++ dumpMembers double members))

def dumpItems (double : ℚ → Bytes) : List Ajson → Bytes
  | [] => [93]
  | v :: items => 44 :: (dumps double v ++ dumpItems double items)

def dumpMembers (double : ℚ → Bytes) : List (Bytes × Ajson) → Bytes
  | [] => [125]
  | (key, v) :: members =>
    44 :: (dumpString key ++ 58 :: (dumps double v ++ dumpMembers double members))

end

def isWs (c : UInt8) : Bool := c == 32 || c == 9 || c == 10 || c == 13

variable (text : Bytes)

def skipWs : Bytes := text.dropWhile isWs

def utf8Append (cp : Nat) : Bytes :=
  if cp < 0x80 then [UInt8.ofNat cp]
  else if cp < 0x800 then [UInt8.ofNat (0xC0 + cp / 64), UInt8.ofNat (0x80 + cp % 64)]
  else if cp < 0x10000 then
    [UInt8.ofNat (0xE0 + cp / 4096), UInt8.ofNat (0x80 + cp / 64 % 64),
      UInt8.ofNat (0x80 + cp % 64)]
  else
    [UInt8.ofNat (0xF0 + cp / 262144), UInt8.ofNat (0x80 + cp / 4096 % 64),
      UInt8.ofNat (0x80 + cp / 64 % 64), UInt8.ofNat (0x80 + cp % 64)]

def hexRead (c : UInt8) : Option Nat :=
  if 48 ≤ c ∧ c ≤ 57 then some (c.toNat - 48)
  else if 97 ≤ c ∧ c ≤ 102 then some (c.toNat - 87)
  else if 65 ≤ c ∧ c ≤ 70 then some (c.toNat - 55)
  else none

def hex4 : Bytes → Option (Nat × Bytes)
  | a :: b :: c :: d :: rest => do
      let a ← hexRead a
      let b ← hexRead b
      let c ← hexRead c
      let d ← hexRead d
      some (((a * 16 + b) * 16 + c) * 16 + d, rest)
  | _ => none

/-- Behind `\u`: a pair of surrogates is one character, a lone one is encoded as it is. -/
def readUnicode : Option (Bytes × Bytes) :=
  match hex4 text with
  | none => none
  | some (cp, rest) =>
    match rest with
    | 92 :: 117 :: low =>
      if 0xD800 ≤ cp ∧ cp ≤ 0xDBFF ∧ 4 ≤ low.length then
        match hex4 low with
        | none => none
        | some (lo, behind) =>
          if 0xDC00 ≤ lo ∧ lo ≤ 0xDFFF then
            some (utf8Append (0x10000 + (cp - 0xD800) * 1024 + (lo - 0xDC00)), behind)
          else some (utf8Append cp, rest)
      else some (utf8Append cp, rest)
    | _ => some (utf8Append cp, rest)

def readEscape : Bytes → Option (Bytes × Bytes)
  | [] => none
  | e :: rest =>
    if e = 34 then some ([34], rest)
    else if e = 92 then some ([92], rest)
    else if e = 47 then some ([47], rest)
    else if e = 98 then some ([8], rest)
    else if e = 102 then some ([12], rest)
    else if e = 110 then some ([10], rest)
    else if e = 114 then some ([13], rest)
    else if e = 116 then some ([9], rest)
    else if e = 117 then readUnicode rest
    else none

/-- `parse_string` behind the opening quote. Each round takes a byte, so the length of the text is
fuel enough. -/
def readString : Nat → Bytes → Option (Bytes × Bytes)
  | _, [] => none
  | 0, _ => none
  | fuel + 1, c :: rest =>
    if c = 34 then some ([], rest)
    else if c = 92 then
      match readEscape rest with
      | none => none
      | some (out, rest) => (readString fuel rest).map fun r => (out ++ r.1, r.2)
    else if c < 32 then none
    else (readString fuel rest).map fun r => (c :: r.1, r.2)

def digitsOf : Bytes := text.takeWhile isDigit
def behindDigits : Bytes := text.dropWhile isDigit

def readDigits : Option (Bytes × Bytes) :=
  match text with
  | [] => none
  | c :: rest =>
    if c = 48 then some ([48], rest)
    else if isDigit c then some (digitsOf text, behindDigits text)
    else none

def readFraction : Bytes → Option (Bytes × Bytes)
  | 46 :: rest =>
    if (digitsOf rest).isEmpty then none else some (46 :: digitsOf rest, behindDigits rest)
  | text => some ([], text)

def readSign : Bytes → Bytes × Bytes
  | c :: rest => if c = 43 ∨ c = 45 then ([c], rest) else ([], c :: rest)
  | [] => ([], [])

def readExponent : Bytes → Option (Bytes × Bytes)
  | c :: rest =>
    if c = 101 ∨ c = 69 then
      if (digitsOf (readSign rest).2).isEmpty then none
      else some (c :: ((readSign rest).1 ++ digitsOf (readSign rest).2),
        behindDigits (readSign rest).2)
    else some ([], c :: rest)
  | [] => some ([], [])

def int64 (i : Int) : Bool := -2 ^ 63 ≤ i && i < 2 ^ 63

def readMinus : Bytes → Bool × Bytes
  | 45 :: rest => (true, rest)
  | text => (false, text)

def signed (negative : Bool) (n : Nat) : Int := if negative then -n else n

section
variable (strtod : Bytes → Option ℚ)

def readNumber (text : Bytes) : Option (Ajson × Bytes) := do
  let (negative, unsigned) := readMinus text
  let (digits, rest) ← readDigits unsigned
  let (fraction, rest) ← readFraction rest
  let (exponent, rest) ← readExponent rest
  if fraction.isEmpty && exponent.isEmpty && int64 (signed negative (value digits)) then
    some (.int (signed negative (value digits)), rest)
  else
    let lexeme := (if negative then [45] else []) ++ digits ++ fraction ++ exponent
    (strtod lexeme).map fun d => (.num d, rest)

def readMembers (read : Bytes → Option (Ajson × Bytes)) :
    Nat → Ajson → Bytes → Option (Ajson × Bytes)
  | 0, _, _ => none
  | fuel + 1, out, text =>
    match skipWs text with
    | 34 :: rest =>
      match readString rest.length rest with
      | none => none
      | some (key, rest) =>
        match skipWs rest with
        | 58 :: rest =>
          match read rest with
          | none => none
          | some (v, rest) =>
            match skipWs rest with
            | 44 :: rest => readMembers read fuel (out.set key v) rest
            | 125 :: rest => some (out.set key v, rest)
            | _ => none
        | _ => none
    | _ => none

def readItems (read : Bytes → Option (Ajson × Bytes)) :
    Nat → List Ajson → Bytes → Option (Ajson × Bytes)
  | 0, _, _ => none
  | fuel + 1, out, text =>
    match read text with
    | none => none
    | some (v, rest) =>
      match skipWs rest with
      | 44 :: rest => readItems read fuel (out ++ [v]) rest
      | 93 :: rest => some (.arr (out ++ [v]), rest)
      | _ => none

def readLiteral (literal : Bytes) (v : Ajson) (text : Bytes) : Option (Ajson × Bytes) :=
  if literal.isPrefixOf text then some (v, text.drop literal.length) else none

/-- `parse_value`; the first number says how many levels are left. -/
def parseValue : Nat → Bytes → Option (Ajson × Bytes)
  | 0, _ => none
  | levels + 1, text =>
    match skipWs text with
    | [] => none
    | c :: rest =>
      if c = 123 then
        match skipWs rest with
        | 125 :: behind => some (.obj [], behind)
        | inside => readMembers (parseValue levels) inside.length (.obj []) inside
      else if c = 91 then
        match skipWs rest with
        | 93 :: behind => some (.arr [], behind)
        | inside => readItems (parseValue levels) inside.length [] inside
      else if c = 34 then (readString rest.length rest).map fun r => (.str r.1, r.2)
      else if c = 116 then readLiteral (ascii "true") (.bool true) (c :: rest)
      else if c = 102 then readLiteral (ascii "false") (.bool false) (c :: rest)
      else if c = 110 then readLiteral (ascii "null") .null (c :: rest)
      else if c = 45 ∨ isDigit c then readNumber strtod (c :: rest)
      else none

/-- `ajson_parse`, with the 64 levels below the document. -/
def parse (text : Bytes) : Option Ajson :=
  match parseValue strtod 65 text with
  | none => none
  | some (v, rest) => if (skipWs rest).isEmpty then some v else none

end

mutual

def height : Ajson → Nat
  | .arr items => itemsHeight items + 1
  | .obj members => membersHeight members + 1
  | _ => 1

def itemsHeight : List Ajson → Nat
  | [] => 0
  | v :: items => max (height v) (itemsHeight items)

def membersHeight : List (Bytes × Ajson) → Nat
  | [] => 0
  | (_, v) :: members => max (height v) (membersHeight members)

end

mutual

/-- Doubles of `D` only, integers of 64 bits, and no key twice. -/
def Regular (D : ℚ → Prop) : Ajson → Prop
  | .int i => int64 i = true
  | .num d => D d
  | .arr items => RegularItems D items
  | .obj members => (members.map Prod.fst).Nodup ∧ RegularMembers D members
  | _ => True

def RegularItems (D : ℚ → Prop) : List Ajson → Prop
  | [] => True
  | v :: items => Regular D v ∧ RegularItems D items

def RegularMembers (D : ℚ → Prop) : List (Bytes × Ajson) → Prop
  | [] => True
  | (_, v) :: members => Regular D v ∧ RegularMembers D members

end

variable {v : Ajson} {items : List Ajson}

lemma height_le_of_mem (h : v ∈ items) : height v ≤ itemsHeight items := by
  induction items with
  | nil => cases h
  | cons w items ih =>
    rw [itemsHeight]
    rcases mem_cons.1 h with rfl | hm
    · exact le_max_left _ _
    · exact (ih hm).trans (le_max_right _ _)

variable {key : Bytes} {members : List (Bytes × Ajson)}

lemma height_le_of_mem_members (h : (key, v) ∈ members) : height v ≤ membersHeight members := by
  induction members with
  | nil => cases h
  | cons first members ih =>
    obtain ⟨n, w⟩ := first
    rw [membersHeight]
    rcases mem_cons.1 h with he | hm
    · cases he
      exact le_max_left _ _
    · exact (ih hm).trans (le_max_right _ _)

lemma regularItems_iff {D : ℚ → Prop} : RegularItems D items ↔ ∀ v ∈ items, Regular D v := by
  induction items with
  | nil => simp [RegularItems]
  | cons v items ih => rw [RegularItems, ih, forall_mem_cons]

lemma regularMembers_iff {D : ℚ → Prop} :
    RegularMembers D members ↔ ∀ m ∈ members, Regular D m.2 := by
  induction members with
  | nil => simp [RegularMembers]
  | cons m members ih => rw [RegularMembers, ih, forall_mem_cons]

variable {c : UInt8}

lemma skipWs_of_not (h : isWs c = false) (text : Bytes) : skipWs (c :: text) = c :: text := by
  rw [skipWs, dropWhile_cons, h]
  rfl

lemma hexRead_hexDigit {d : Nat} (h : d < 16) : hexRead (hexDigit d) = some d := by
  interval_cases d <;> decide

lemma readUnicode_control (h : c < 32) (text : Bytes) :
    readUnicode (48 :: 48 :: hexDigit (c.toNat / 16) :: hexDigit (c.toNat % 16) :: text) =
    some ([c], text) := by
  have hl : c.toNat < 32 := UInt8.lt_iff_toNat_lt.1 h
  have hh : hex4 (48 :: 48 :: hexDigit (c.toNat / 16) :: hexDigit (c.toNat % 16) :: text) =
      some (c.toNat, text) := by
    have hz : hexRead 48 = some 0 := by decide
    simp only [hex4, hz, hexRead_hexDigit (show c.toNat / 16 < 16 by omega),
      hexRead_hexDigit (show c.toNat % 16 < 16 by omega), bind_eq_bind, bind_some,
      some.injEq, Prod.mk.injEq, and_true]
    omega
  have hu : utf8Append c.toNat = [c] := by
    rw [utf8Append, if_pos (by omega), UInt8.ofNat_toNat]
  rw [readUnicode, hh]
  dsimp only
  split
  · rw [if_neg (by omega), hu]
  · rw [hu]

lemma readString_dumpByte (c : UInt8) (f : Nat) (text : Bytes) :
    readString (f + 1) (dumpByte c ++ text) = (readString f text).map fun r => (c :: r.1, r.2) := by
  -- what each escape of a single byte adds in front of the other cases
  have hesc {p : Prop} [Decidable p] {e out : UInt8} {o : Bytes} (hou : p → c = out)
      (hr : readEscape (e :: text) = some ([out], text))
      (ho : ¬ p → readString (f + 1) (o ++ text) =
        (readString f text).map fun r => (c :: r.1, r.2)) :
      readString (f + 1) ((if p then [92, e] else o) ++ text) =
        (readString f text).map fun r => (c :: r.1, r.2) := by
    split
    next hp =>
      change readString (f + 1) (92 :: e :: text) = _
      rw [readString, if_neg (by decide), if_pos rfl, hr, hou hp]
      rfl
    next hp => exact ho hp
  unfold dumpByte
  refine hesc id rfl fun hq => hesc id rfl fun hs => hesc id rfl fun _ =>
    hesc id rfl fun _ => hesc id rfl fun _ => hesc id rfl fun _ =>
      hesc id rfl fun _ => ?_
  split
  next hc =>
    change readString (f + 1) (92 :: 117 :: 48 :: 48 :: hexDigit (c.toNat / 16) ::
      hexDigit (c.toNat % 16) :: text) = _
    have hr : readEscape (117 :: 48 :: 48 :: hexDigit (c.toNat / 16) ::
        hexDigit (c.toNat % 16) :: text) = some ([c], text) := by
      rw [← readUnicode_control hc text]
      rfl
    rw [readString, if_neg (by decide), if_pos rfl, hr]
    rfl
  next hc =>
    change readString (f + 1) (c :: text) = _
    rw [readString, if_neg hq, if_neg hs, if_neg hc]

lemma length_flatMap_dumpByte (s : Bytes) : s.length ≤ (s.flatMap dumpByte).length := by
  induction s with
  | nil => exact le_refl _
  | cons c s ih =>
    have ho : 1 ≤ (dumpByte c).length := by
      unfold dumpByte
      repeat' refine iteInduction (motive := fun b => 1 ≤ length b) (fun _ => ?_) fun _ => ?_
      all_goals exact succ_le_succ (zero_le _)
    rw [flatMap_cons, length_append, length_cons]
    omega

lemma readString_dumpString (s rest : Bytes) {f : Nat} (h : s.length < f) :
    readString f (s.flatMap dumpByte ++ 34 :: rest) = some (s, rest) := by
  induction s generalizing f with
  | nil =>
    obtain ⟨f, rfl⟩ := exists_eq_succ_of_ne_zero (ne_of_gt h)
    rw [flatMap_nil, nil_append, readString, if_pos rfl]
  | cons c s ih =>
    obtain ⟨f, rfl⟩ := exists_eq_succ_of_ne_zero (ne_of_gt (zero_lt_of_lt h))
    rw [flatMap_cons, append_assoc, readString_dumpByte, ih (lt_of_succ_lt_succ h)]
    rfl

lemma readString_length (s rest : Bytes) :
    readString (s.flatMap dumpByte ++ 34 :: rest).length (s.flatMap dumpByte ++ 34 :: rest) =
    some (s, rest) := by
  refine readString_dumpString s rest ?_
  have := length_flatMap_dumpByte s
  rw [length_append, length_cons]
  omega

def NumberEnds (text : Bytes) : Prop :=
  ∀ c rest, text = c :: rest → isDigit c = false ∧ c ≠ 46 ∧ c ≠ 101 ∧ c ≠ 69

lemma numberEnds_nil : NumberEnds [] := fun _ _ h => nomatch h

lemma numberEnds_cons (h : isDigit c = false ∧ c ≠ 46 ∧ c ≠ 101 ∧ c ≠ 69) (text : Bytes) :
    NumberEnds (c :: text) := by
  intro d rest he
  cases he
  exact h

variable {rest : Bytes}

lemma readDigits_decimal (n : Nat) (h : NumberEnds rest) :
    readDigits (decimal n ++ rest) = some (decimal n, rest) := by
  have ht : digitsOf (decimal n ++ rest) = decimal n := by
    rw [digitsOf, takeWhile_append_of_pos fun b hb => isDigit_of_mem_decimal hb]
    cases rest with
    | nil => rw [takeWhile_nil, append_nil]
    | cons c rest =>
      rw [takeWhile_cons_of_neg (by rw [(h c rest rfl).1]; decide), append_nil]
  have hdr : behindDigits (decimal n ++ rest) = rest := by
    rw [behindDigits, dropWhile_append_of_pos fun b hb => isDigit_of_mem_decimal hb]
    cases rest with
    | nil => rfl
    | cons c rest => rw [dropWhile_cons_of_neg (by rw [(h c rest rfl).1]; decide)]
  by_cases hz : n = 0
  · rw [hz]
    rfl
  · obtain ⟨c, ds, hd⟩ := exists_cons_of_ne_nil (decimal_ne_nil n)
    have hn : c ≠ 48 := by
      have := head?_decimal_ne hz
      rw [hd] at this
      exact fun he => this (by rw [he]; rfl)
    have hdi : isDigit c := isDigit_of_mem_decimal (hd ▸ mem_cons_self)
    rw [hd, cons_append] at ht hdr ⊢
    rw [readDigits, if_neg hn, if_pos hdi, ht, hdr]

lemma readFraction_ends (h : NumberEnds rest) : readFraction rest = some ([], rest) := by
  unfold readFraction
  split
  next b => exact absurd rfl (h 46 b rfl).2.1
  · rfl

lemma readExponent_ends (h : NumberEnds rest) : readExponent rest = some ([], rest) := by
  cases rest with
  | nil => rfl
  | cons c rest =>
    obtain ⟨-, -, hl, hu⟩ := h c rest rfl
    rw [readExponent, if_neg (by simp [hl, hu])]

lemma readMinus_decimal (n : Nat) (rest : Bytes) :
    readMinus (decimal n ++ rest) = (false, decimal n ++ rest) := by
  obtain ⟨c, ds, hd⟩ := exists_cons_of_ne_nil (decimal_ne_nil n)
  have hdi : isDigit c := isDigit_of_mem_decimal (hd ▸ mem_cons_self)
  rw [hd, cons_append]
  unfold readMinus
  split
  next he =>
    cases he
    exact absurd hdi (by decide)
  · rfl

variable {strtod : Bytes → Option ℚ} {double : ℚ → Bytes}

lemma readNumber_dumpInt {i : Int} (hi : int64 i) (h : NumberEnds rest) :
    readNumber strtod (dumpInt i ++ rest) = some (.int i, rest) := by
  have hr (ne : Bool) (n : Nat) (text : Bytes) (hm : readMinus text = (ne, decimal n ++ rest))
      (hs : signed ne n = i) : readNumber strtod text = some (.int i, rest) := by
    simp [readNumber, hm, readDigits_decimal n h, readFraction_ends h, readExponent_ends h,
      value_decimal, hs, hi]
  cases i with
  | ofNat n => exact hr false n _ (readMinus_decimal n rest) rfl
  | negSucc n => exact hr true (n + 1) _ rfl (by simp [signed, Int.negSucc_eq])

structure Doubles (strtod : Bytes → Option ℚ) (double : ℚ → Bytes) (D : ℚ → Prop) : Prop where
  reads : ∀ d, D d → ∀ rest, NumberEnds rest →
    readNumber strtod (double d ++ rest) = some (.num d, rest)
  starts : ∀ d, D d → ∃ c text, double d = c :: text ∧ (c = 45 ∨ isDigit c = true)

lemma doubles_none : Doubles strtod double fun _ => False := ⟨nofun, nofun⟩

variable {D : ℚ → Prop}

lemma number_start (h : c = 45 ∨ isDigit c) : isWs c = false ∧ c ≠ 93 ∧ c ≠ 125 := by
  have hne {d : UInt8} (hd : ¬ (d = 45 ∨ isDigit d = true)) : c ≠ d := by
    rintro rfl
    exact hd h
  refine ⟨?_, hne (by decide), hne (by decide)⟩
  simp only [isWs, Bool.or_eq_false_iff, beq_eq_false_iff_ne]
  exact ⟨⟨⟨hne (by decide), hne (by decide)⟩, hne (by decide)⟩, hne (by decide)⟩

lemma dumps_cons (hdoubles : Doubles strtod double D) (hv : Regular D v) :
    ∃ c text, dumps double v = c :: text ∧ isWs c = false ∧ c ≠ 93 ∧ c ≠ 125 := by
  cases v with
  | null => exact ⟨110, ascii "ull", by rw [dumps]; rfl, by decide⟩
  | bool b =>
    cases b with
    | false => exact ⟨102, ascii "alse", by rw [dumps]; rfl, by decide⟩
    | true => exact ⟨116, ascii "rue", by rw [dumps]; rfl, by decide⟩
  | int i =>
    cases i with
    | ofNat n =>
      obtain ⟨c, digits, hdig⟩ := exists_cons_of_ne_nil (decimal_ne_nil n)
      have hdi : isDigit c := isDigit_of_mem_decimal (hdig ▸ mem_cons_self)
      exact ⟨c, digits, by rw [dumps, dumpInt, hdig], number_start (.inr hdi)⟩
    | negSucc n => exact ⟨45, decimal (n + 1), by rw [dumps, dumpInt], by decide⟩
  | num d =>
    rw [Regular] at hv
    obtain ⟨c, text, ht, hc⟩ := hdoubles.starts d hv
    exact ⟨c, text, by rw [dumps, ht], number_start hc⟩
  | str s => exact ⟨34, s.flatMap dumpByte ++ [34], by rw [dumps, dumpString], by decide⟩
  | arr items =>
    cases items with
    | nil => exact ⟨91, [93], by rw [dumps]; rfl, by decide⟩
    | cons w items => exact ⟨91, _, by rw [dumps], by decide⟩
  | obj members =>
    cases members with
    | nil => exact ⟨123, [125], by rw [dumps]; rfl, by decide⟩
    | cons m members =>
      obtain ⟨key, w⟩ := m
      exact ⟨123, _, by rw [dumps], by decide⟩

lemma numberEnds_dumpItems (items : List Ajson) (rest : Bytes) :
    NumberEnds (dumpItems double items ++ rest) := by
  cases items with
  | nil =>
    rw [dumpItems]
    exact numberEnds_cons (by decide) _
  | cons v items =>
    rw [dumpItems]
    exact numberEnds_cons (by decide) _

lemma numberEnds_dumpMembers (members : List (Bytes × Ajson)) (rest : Bytes) :
    NumberEnds (dumpMembers double members ++ rest) := by
  cases members with
  | nil =>
    rw [dumpMembers]
    exact numberEnds_cons (by decide) _
  | cons m members =>
    obtain ⟨key, v⟩ := m
    rw [dumpMembers]
    exact numberEnds_cons (by decide) _

def ReadsBack (double : ℚ → Bytes) (read : Bytes → Option (Ajson × Bytes)) (v : Ajson) : Prop :=
  ∀ rest, NumberEnds rest → read (dumps double v ++ rest) = some (v, rest)

variable {read : Bytes → Option (Ajson × Bytes)}

lemma readItems_dumpItems (v : Ajson) (items out : List Ajson) (rest : Bytes) (f : Nat)
    (hr : ∀ w ∈ v :: items, ReadsBack double read w) (hf : items.length < f) :
    readItems read f out (dumps double v ++ (dumpItems double items ++ rest)) =
    some (.arr (out ++ v :: items), rest) := by
  induction items generalizing v out f with
  | nil =>
    obtain ⟨f, rfl⟩ := exists_eq_succ_of_ne_zero (ne_of_gt hf)
    rw [readItems, hr v mem_cons_self _ (numberEnds_dumpItems [] rest), dumpItems]
    rfl
  | cons w items ih =>
    obtain ⟨f, rfl⟩ := exists_eq_succ_of_ne_zero (ne_of_gt (zero_lt_of_lt hf))
    rw [readItems, hr v mem_cons_self _ (numberEnds_dumpItems (w :: items) rest), dumpItems]
    change readItems read f (out ++ [v]) ((dumps double w ++ dumpItems double items) ++ rest) = _
    rw [append_assoc, ih w (out ++ [v]) f
      (fun u hu => hr u (mem_cons_of_mem _ hu)) (lt_of_succ_lt_succ hf),
      append_assoc]
    rfl

lemma setMember_of_not_mem (h : key ∉ members.map Prod.fst) :
    setMember key v members = members ++ [(key, v)] := by
  induction members with
  | nil => rfl
  | cons m members ih =>
    obtain ⟨n, w⟩ := m
    rw [map_cons, mem_cons, not_or] at h
    rw [setMember, if_neg (Ne.symm h.1), ih h.2]
    rfl

lemma fresh_of_nodup {out : List (Bytes × Ajson)}
    (h : ((out ++ (key, v) :: members).map Prod.fst).Nodup) : key ∉ out.map Prod.fst := by
  rw [map_append, map_cons] at h
  intro hm
  exact (nodup_append.1 h).2.2 key hm key mem_cons_self rfl

lemma readMembers_round (hr : ReadsBack double read v) (out : Ajson) {text : Bytes}
    (ht : NumberEnds text) (f : Nat) :
    readMembers read (f + 1) out (dumpString key ++ 58 :: (dumps double v ++ text)) =
      match skipWs text with
      | 44 :: rest => readMembers read f (out.set key v) rest
      | 125 :: rest => some (out.set key v, rest)
      | _ => none := by
  have hs (ta : Bytes) : dumpString key ++ ta = 34 :: (key.flatMap dumpByte ++ 34 :: ta) := by
    rw [dumpString, cons_append, append_assoc]
    rfl
  rw [hs, readMembers, skipWs_of_not (by decide)]
  simp only [readString_length, skipWs_of_not (show isWs 58 = false by decide), hr text ht]

lemma readMembers_dumpMembers (key : Bytes) (v : Ajson) (members out : List (Bytes × Ajson))
    (rest : Bytes) (f : Nat) (hr : ∀ m ∈ (key, v) :: members, ReadsBack double read m.2)
    (hn : ((out ++ (key, v) :: members).map Prod.fst).Nodup) (hf : members.length < f) :
    readMembers read f (.obj out)
    (dumpString key ++ 58 :: (dumps double v ++ (dumpMembers double members ++ rest))) =
    some (.obj (out ++ (key, v) :: members), rest) := by
  induction members generalizing key v out f with
  | nil =>
    obtain ⟨f, rfl⟩ := exists_eq_succ_of_ne_zero (ne_of_gt hf)
    have hset := congrArg Ajson.obj (setMember_of_not_mem (v := v) (fresh_of_nodup hn))
    rw [readMembers_round (hr _ mem_cons_self) _ (numberEnds_dumpMembers [] rest), dumpMembers]
    exact congrArg (fun w => some (w, rest)) hset
  | cons m members ih =>
    obtain ⟨key', w⟩ := m
    obtain ⟨f, rfl⟩ := exists_eq_succ_of_ne_zero (ne_of_gt (zero_lt_of_lt hf))
    have hset : (Ajson.obj out).set key v = .obj (out ++ [(key, v)]) :=
      congrArg Ajson.obj (setMember_of_not_mem (fresh_of_nodup hn))
    have hs : out ++ (key, v) :: (key', w) :: members =
        (out ++ [(key, v)]) ++ (key', w) :: members := by
      rw [append_assoc]
      rfl
    rw [readMembers_round (hr _ mem_cons_self) _ (numberEnds_dumpMembers _ rest),
      dumpMembers, hset, hs]
    rw [hs] at hn
    rw [← ih key' w (out ++ [(key, v)]) f (fun u hu => hr u (mem_cons_of_mem _ hu))
      hn (lt_of_succ_lt_succ hf)]
    simp only [cons_append, append_assoc]
    rfl

lemma length_le_dumpItems (items : List Ajson) :
    items.length < (dumpItems double items).length := by
  induction items with
  | nil =>
    rw [dumpItems]
    exact zero_lt_one
  | cons v items ih =>
    rw [dumpItems, length_cons, length_cons, length_append]
    omega

lemma length_le_dumpMembers (members : List (Bytes × Ajson)) :
    members.length < (dumpMembers double members).length := by
  induction members with
  | nil =>
    rw [dumpMembers]
    exact zero_lt_one
  | cons m members ih =>
    obtain ⟨key, v⟩ := m
    rw [dumpMembers, length_cons, length_cons, length_append, length_cons, length_append]
    omega

variable (levels : Nat)

lemma parseValue_number (h : c = 45 ∨ isDigit c) (text : Bytes) :
    parseValue strtod (levels + 1) (c :: text) = readNumber strtod (c :: text) := by
  have hne {d : UInt8} (hd : ¬ (d = 45 ∨ isDigit d = true)) : c ≠ d := by
    rintro rfl
    exact hd h
  rw [parseValue, skipWs_of_not (number_start h).1]
  dsimp only
  rw [if_neg (hne (by decide)), if_neg (hne (by decide)), if_neg (hne (by decide)),
    if_neg (hne (by decide)), if_neg (hne (by decide)), if_neg (hne (by decide)), if_pos h]

variable {w : Ajson}

lemma parseValue_items (hdoubles : Doubles strtod double D) (hw : Regular D w)
    (hr : ∀ u ∈ w :: items, ReadsBack double (parseValue strtod levels) u) :
    parseValue strtod (levels + 1) (91 :: (dumps double w ++ (dumpItems double items ++ rest))) =
    some (.arr (w :: items), rest) := by
  obtain ⟨c, text, hd, hws, hc, -⟩ : ∃ c text, dumps double w = c :: text ∧
      isWs c = false ∧ c ≠ 93 ∧ c ≠ 125 := dumps_cons hdoubles hw
  have hf : items.length < (dumps double w ++ (dumpItems double items ++ rest)).length := by
    have hl : items.length < (dumpItems double items).length := length_le_dumpItems items
    rw [length_append, length_append]
    omega
  have hit := readItems_dumpItems w items [] rest _ hr hf
  rw [parseValue, skipWs_of_not (by decide)]
  dsimp only
  rw [if_neg (by decide), if_pos rfl]
  rw [hd, cons_append] at hit ⊢
  rw [skipWs_of_not hws]
  split
  next he =>
    cases he
    exact absurd rfl hc
  · exact hit

lemma parseValue_members (hn : (((key, w) :: members).map Prod.fst).Nodup)
    (hr : ∀ m ∈ (key, w) :: members, ReadsBack double (parseValue strtod levels) m.2) :
    parseValue strtod (levels + 1) (123 :: (dumpString key ++ 58 ::
    (dumps double w ++ (dumpMembers double members ++ rest)))) =
    some (.obj ((key, w) :: members), rest) := by
  have hf : members.length < (dumpString key ++
      58 :: (dumps double w ++ (dumpMembers double members ++ rest))).length := by
    have hl : members.length < (dumpMembers double members).length := length_le_dumpMembers members
    rw [length_append, length_cons, length_append, length_append]
    omega
  have hmb := readMembers_dumpMembers key w members [] rest _ hr hn hf
  rw [parseValue, skipWs_of_not (by decide)]
  dsimp only
  rw [if_pos rfl]
  rw [dumpString, cons_append] at hmb ⊢
  rw [skipWs_of_not (by decide)]
  exact hmb

section
variable (hdoubles : Doubles strtod double D)
include hdoubles

lemma parseValue_dumps (levels : Nat) (hv : Regular D v) (hlev : height v ≤ levels) :
    ReadsBack double (parseValue strtod levels) v := by
  induction levels generalizing v with
  | zero =>
    cases v <;> rw [height] at hlev <;> first | omega | nofun
  | succ levels ih =>
    intro rest hre
    cases v with
    | null =>
      rw [dumps]
      rfl
    | bool b =>
      rw [dumps]
      cases b with
      | false => rfl
      | true => rfl
    | int i =>
      rw [Regular] at hv
      rw [dumps]
      have hnum : readNumber strtod (dumpInt i ++ rest) = some (.int i, rest) :=
        readNumber_dumpInt hv hre
      cases i with
      | ofNat n =>
        obtain ⟨c, digits, hdig⟩ := exists_cons_of_ne_nil (decimal_ne_nil n)
        rw [dumpInt, hdig, cons_append] at hnum ⊢
        rw [parseValue_number levels (.inr (isDigit_of_mem_decimal (hdig ▸ mem_cons_self))), hnum]
      | negSucc n =>
        rw [dumpInt, cons_append] at hnum ⊢
        rw [parseValue_number levels (.inl rfl), hnum]
    | num d =>
      rw [Regular] at hv
      have hnum := hdoubles.reads d hv rest hre
      obtain ⟨c, text, ht, hc⟩ := hdoubles.starts d hv
      rw [dumps]
      rw [ht, cons_append] at hnum ⊢
      rw [parseValue_number levels hc, hnum]
    | str s =>
      rw [dumps, dumpString, cons_append, append_assoc, parseValue, skipWs_of_not (by decide)]
      dsimp only
      rw [if_neg (by decide), if_neg (by decide), if_pos rfl]
      exact congrArg (Option.map _) (readString_length s rest)
    | arr items =>
      rw [Regular] at hv
      rw [height] at hlev
      have hrd (u : Ajson) (hu : u ∈ items) : ReadsBack double (parseValue strtod levels) u :=
        ih (regularItems_iff.1 hv u hu) ((height_le_of_mem hu).trans (le_of_succ_le_succ hlev))
      cases items with
      | nil =>
        rw [dumps]
        rfl
      | cons w items =>
        rw [dumps, cons_append, append_assoc]
        exact parseValue_items levels hdoubles (regularItems_iff.1 hv w mem_cons_self) hrd
    | obj members =>
      rw [Regular] at hv
      rw [height] at hlev
      have hrd (m : Bytes × Ajson) (hm : m ∈ members) :
          ReadsBack double (parseValue strtod levels) m.2 :=
        ih (regularMembers_iff.1 hv.2 m hm)
          ((height_le_of_mem_members hm).trans (le_of_succ_le_succ hlev))
      cases members with
      | nil =>
        rw [dumps]
        rfl
      | cons m members =>
        obtain ⟨key, w⟩ := m
        rw [dumps, cons_append, append_assoc, cons_append, append_assoc]
        exact parseValue_members levels hv.1 hrd

lemma parse_dumps (hv : Regular D v) (hh : height v ≤ 65) :
    parse strtod (dumps double v) = some v := by
  have hrd := parseValue_dumps hdoubles 65 hv hh [] numberEnds_nil
  rw [append_nil] at hrd
  rw [parse, hrd]
  rfl

lemma dumps_injective (hv : Regular D v) (hw : Regular D w) (h : dumps double v = dumps double w) :
    v = w := by
  have hrd := parseValue_dumps hdoubles (max (height v) (height w)) hv (le_max_left _ _) []
    numberEnds_nil
  have hrd' := parseValue_dumps hdoubles (max (height v) (height w)) hw (le_max_right _ _) []
    numberEnds_nil
  rw [h, hrd'] at hrd
  cases hrd
  rfl

end

end AxiomKernel.Ajson
