import Mathlib.Data.List.TakeWhile
import Mathlib.Logic.Function.Basic
import AxiomKernel.Lib.Guard
import AxiomKernel.Lib.Machine
import AxiomKernel.Lib.Text

/-!
# Wire names of Codex tools

`tools/axiom_codex_provider.h` gives every tool identity a name that the native validator takes:
the name itself, a length-delimited escape of name and namespace, or a digest. The digest function
is a parameter.
-/
namespace AxiomKernel.Codex

open Guard Image Text Machine Function Nat
open List hiding Vector

/-- A tool identity: its name, its namespace and, for a branch of a lowered schema, that schema. -/
structure Identity where
  name : Bytes
  scope : Bytes
  variant : Bytes
  deriving DecidableEq, Repr

variable (byte : UInt8)

def isLower : Bool := 97 ≤ byte && byte ≤ 122

def isWordByte : Bool := isLower byte || isDigit byte

/-- The loop of `canonical`: words of small letters and digits between single underscores. -/
def separated : Bool → Bytes → Bool
  | _, [] => true
  | separator, c :: rest =>
    if isWordByte c then separated false rest
    else if c = 95 && !separator then separated true rest
    else false

def canonical (s : Bytes) : Bool :=
  !s.isEmpty && s.length ≤ 64 && (s.head?.map isLower).getD false && s.getLast? ≠ some 95 &&
    separated false s

variable (previous : Option UInt8)

def interior (rest : Bytes) : Bool :=
  previous.isSome && !rest.isEmpty && previous ≠ some 95 && rest.head? ≠ some 95

variable (c : UInt8)

def escapeByte (rest : Bytes) : Bytes :=
  if c = 122 then [122, 122]
  else if (97 ≤ c && c ≤ 121) || isDigit c || (c = 95 && interior previous rest) then [c]
  else 122 :: hex 2 c.toNat

def escapeFrom (previous : Option UInt8) : Bytes → Bytes
  | [] => []
  | c :: rest => escapeByte previous c rest ++ escapeFrom (some c) rest

variable (value : Bytes)

def wireComponent : Bytes := escapeFrom none value

def hexValue (byte : UInt8) : Nat :=
  if isDigit byte then byte.toNat - 48 else byte.toNat - 87

def unescape : Bytes → Bytes
  | [] => []
  | [c] => [c]
  | [c, d] => if c = 122 then [122] else c :: unescape [d]
  | c :: d :: e :: rest =>
    if c = 122 then
      if d = 122 then 122 :: unescape (e :: rest)
      else UInt8.ofNat (16 * hexValue d + hexValue e) :: unescape rest
    else c :: unescape (d :: e :: rest)

lemma unescape_word {c : UInt8} (h : c ≠ 122) (rest : Bytes) :
    unescape (c :: rest) = c :: unescape rest := by
  match rest with
  | [] => rfl
  | [d] => simp [unescape, h]
  | d :: e :: rest => simp [unescape, h]

variable (rest : Bytes)

lemma unescape_double : unescape (122 :: 122 :: rest) = 122 :: unescape rest := by
  match rest with
  | [] => rfl
  | e :: rest => simp [unescape]

lemma hex_two : hex 2 c.toNat = [hexDigit (c.toNat / 16 % 16), hexDigit (c.toNat % 16)] := rfl

variable {d : Nat}

lemma hexDigit_ne_z (h : d < 16) : hexDigit d ≠ 122 := by
  revert d
  decide

lemma hexValue_hexDigit (h : d < 16) : hexValue (hexDigit d) = d := by
  revert d
  decide

lemma unescape_hex : unescape (122 :: hex 2 c.toNat ++ rest) = c :: unescape rest := by
  have hlt := c.toNat_lt
  have hh : c.toNat / 16 % 16 < 16 := mod_lt _ (by decide)
  have hl : c.toNat % 16 < 16 := mod_lt _ (by decide)
  have hv : 16 * (c.toNat / 16 % 16) + c.toNat % 16 = c.toNat := by omega
  rw [hex_two]
  simp [unescape, if_neg (hexDigit_ne_z hh), hexValue_hexDigit hh, hexValue_hexDigit hl,
    hv, UInt8.ofNat_toNat]

lemma unescape_escapeFrom : unescape (escapeFrom previous value) = value := by
  induction value generalizing previous with
  | nil => rfl
  | cons c rest ih =>
    rw [escapeFrom]
    unfold escapeByte
    split
    next hz =>
      rw [hz]
      change unescape (122 :: 122 :: escapeFrom (some 122) rest) = _
      rw [unescape_double, ih]
    next hz =>
      split
      · change unescape (c :: escapeFrom (some c) rest) = _
        rw [unescape_word hz, ih]
      · rw [unescape_hex, ih]

lemma wireComponent_injective : Injective wireComponent := by
  intro v v' h
  rw [← unescape_escapeFrom none v, ← unescape_escapeFrom none v']
  exact congrArg unescape h

structure Clean (s : Bytes) : Prop where
  ne_nil : s ≠ []
  words : separated true s = true
  last : s.getLast? ≠ some 95

variable {s : Bytes}

lemma separated_of_true (h : separated true s) (separator : Bool) :
    separated separator s = true := by
  cases s with
  | nil => rfl
  | cons c rest =>
    unfold separated at h ⊢
    split at h
    · rw [if_pos ‹_›]
      exact h
    · simp at h

variable {a b : Bytes} {separator : Bool}

lemma separated_append (ha : separated separator a) (hn : a ≠ []) (hl : a.getLast? ≠ some 95)
    (hb : separated false b) :
    separated separator (a ++ b) = true := by
  induction a generalizing separator with
  | nil => exact absurd rfl hn
  | cons c rest ih =>
    rw [cons_append]
    unfold separated at ha ⊢
    cases rest with
    | nil =>
      split at ha
      · rw [if_pos ‹_›]
        exact hb
      · split at ha
        next hc =>
          simp only [Bool.and_eq_true, decide_eq_true_eq] at hc
          exact absurd (by simp [hc.1]) hl
        · cases ha
    | cons d rest =>
      have hl' : (d :: rest).getLast? ≠ some 95 := by
        rwa [getLast?_cons_cons] at hl
      split at ha
      · rw [if_pos ‹_›]
        exact ih ha (by simp) hl'
      · rw [if_neg ‹_›]
        split at ha
        · rw [if_pos ‹_›]
          exact ih ha (by simp) hl'
        · cases ha

lemma Clean.join (ha : Clean a) (hb : Clean b) : Clean (a ++ 95 :: b) := by
  have ht : separated false (95 :: b) := by
    unfold separated
    simpa [isWordByte, isLower, isDigit] using hb.words
  refine ⟨by simp, separated_append ha.words ha.ne_nil ha.last ht, ?_⟩
  rw [getLast?_append_of_ne_nil _ (by simp), getLast?_cons]
  have := hb.last
  cases hla : b.getLast? with
  | none => exact absurd (getLast?_eq_none_iff.1 hla) hb.ne_nil
  | some c =>
    rw [hla] at this
    simpa using this

lemma clean_of_words (hn : s ≠ []) (h : ∀ c ∈ s, isWordByte c) : Clean s := by
  have hs : ∀ (s : Bytes) (separator : Bool), (∀ c ∈ s, isWordByte c = true) →
      separated separator s := by
    intro s
    induction s with
    | nil => intros; rfl
    | cons c rest ih =>
      intro separator h
      unfold separated
      rw [if_pos (h c (by simp))]
      exact ih false fun d hd => h d (mem_cons_of_mem _ hd)
  refine ⟨hn, hs s true h, fun hl => ?_⟩
  have := h 95 (mem_of_getLast? hl)
  exact absurd this (by decide)

lemma clean_digits (l : UInt8) (hl : isWordByte l) (n : Nat) : Clean (l :: decimal n) := by
  refine clean_of_words (by simp) fun c hc => ?_
  rcases mem_cons.1 hc with rfl | hm
  · exact hl
  · rw [isWordByte, isDigit_of_mem_decimal hm, Bool.or_true]

lemma isWordByte_hexDigit (h : d < 16) : isWordByte (hexDigit d) = true := by
  revert d
  decide

lemma escapeByte_cases :
    (escapeByte previous c rest ≠ [] ∧ ∀ d ∈ escapeByte previous c rest, isWordByte d) ∨
    (escapeByte previous c rest = [95] ∧ c = 95 ∧ interior previous rest) := by
  unfold escapeByte
  split
  · exact .inl ⟨by simp, by simp [isWordByte, isLower]⟩
  next hz =>
    split
    next hk =>
      simp only [Bool.or_eq_true, Bool.and_eq_true, decide_eq_true_eq] at hk
      rcases hk with (⟨hg, hl⟩ | hdig) | ⟨rfl, hi⟩
      · refine .inl ⟨by simp, fun d hd => ?_⟩
        rw [mem_singleton.1 hd, isWordByte, isLower]
        have hl' : c ≤ 122 := UInt8.le_trans hl (by decide)
        simp [hg, hl']
      · refine .inl ⟨by simp, fun d hd => ?_⟩
        rw [mem_singleton.1 hd, isWordByte, hdig, Bool.or_true]
      · exact .inr ⟨rfl, rfl, hi⟩
    next =>
      refine .inl ⟨by simp, fun d hd => ?_⟩
      rw [hex_two] at hd
      simp only [mem_cons, not_mem_nil, or_false] at hd
      rcases hd with rfl | rfl | rfl
      · decide
      · exact isWordByte_hexDigit (mod_lt _ (by decide))
      · exact isWordByte_hexDigit (mod_lt _ (by decide))

lemma separated_words_append (hn : a ≠ []) (h : ∀ c ∈ a, isWordByte c)
    (hb : separated false b) (separator : Bool) : separated separator (a ++ b) = true :=
  have hcl := clean_of_words hn h
  separated_append (separated_of_true hcl.words separator) hn hcl.last hb

lemma separated_escapeFrom (previous : Option UInt8) (separator : Bool)
    (h : separator → previous = none ∨ value.head? ≠ some 95) :
    separated separator (escapeFrom previous value) = true := by
  induction value generalizing previous separator with
  | nil => rfl
  | cons c rest ih =>
    rw [escapeFrom]
    rcases escapeByte_cases previous c rest with ⟨hn, hw⟩ | ⟨he, rfl, hi⟩
    · exact separated_words_append hn hw (ih _ false nofun) separator
    · simp only [interior, Bool.and_eq_true, ne_eq, decide_eq_true_eq] at hi
      obtain ⟨⟨⟨hs, _⟩, _⟩, hnext⟩ := hi
      have hf : separator = false := by
        cases separator with
        | false => rfl
        | true =>
          rcases h rfl with hno | hh
          · rw [hno] at hs
            cases hs
          · exact absurd rfl hh
      rw [he, hf]
      change separated true (escapeFrom (some 95) rest) = true
      exact ih _ true fun _ => .inr hnext

lemma getLast?_escapeFrom (previous : Option UInt8) :
    (escapeFrom previous value).getLast? ≠ some 95 := by
  induction value generalizing previous with
  | nil => simp [escapeFrom]
  | cons c rest ih =>
    rw [escapeFrom]
    rcases eq_nil_or_concat (escapeFrom (some c) rest) with hn | ⟨f, l, hl⟩
    · rw [hn, append_nil]
      rcases escapeByte_cases previous c rest with ⟨hne, hw⟩ | ⟨he, rfl, hi⟩
      · exact (clean_of_words hne hw).last
      · -- an underscore that stays has a byte behind it
        cases rest with
        | nil => simp [interior] at hi
        | cons d rest =>
          rcases escapeByte_cases (some 95) d rest with ⟨hne, _⟩ | ⟨he', _, _⟩
          · rw [escapeFrom] at hn
            exact absurd (append_eq_nil_iff.1 hn).1 hne
          · rw [escapeFrom, he'] at hn
            cases hn
    · have hne : escapeFrom (some c) rest ≠ [] := by
        rw [hl]
        simp
      rw [getLast?_append_of_ne_nil _ hne]
      exact ih (some c)

lemma clean_wireComponent {value : Bytes} (h : value ≠ []) : Clean (wireComponent value) := by
  refine ⟨fun hn => h ?_, separated_escapeFrom value none true fun _ => .inl rfl,
    getLast?_escapeFrom value none⟩
  rw [← unescape_escapeFrom none value]
  change unescape (wireComponent value) = []
  rw [hn]
  rfl

def trimStem (stem : Bytes) : Bytes := (stem.reverse.dropWhile (· == 95)).reverse

variable (id : Identity)

def digestKey : Bytes :=
  decimal id.scope.length ++ ascii ":" ++ id.scope ++ decimal id.name.length ++ ascii ":" ++
    id.name ++ decimal id.variant.length ++ ascii ":" ++ id.variant

def plain : Bool := id.variant.isEmpty && id.scope.isEmpty && canonical id.name &&
    !(id.name.take 6 == ascii "codex_")

def escapedName : Bytes :=
  let n := wireComponent id.name
  let s := wireComponent id.scope
  ascii "codex_n" ++ decimal n.length ++ 95 :: n ++ ascii "_s" ++ decimal s.length ++
    (if s.isEmpty then [] else 95 :: s)

section
variable (sha256 : Bytes → Vector UInt8 32)

def digestedName (id : Identity) : Bytes :=
  ascii "codex_h_" ++ trimStem ((wireComponent id.name).take 22) ++
    95 :: ((sha256 (digestKey id)).toList.take 16).flatMap fun byte => hex 2 byte.toNat

def wireName (id : Identity) : Bytes :=
  if plain id then id.name
  else if !id.variant.isEmpty || 64 < (escapedName id).length then digestedName sha256 id
  else escapedName id

abbrev Reverse := Bytes → Option Identity

variable (reverse : Reverse)

def collides (wire : Bytes) (id : Identity) : Bool :=
  match reverse wire with
  | none => false
  | some other => other ≠ id

def bind (id : Identity) : Except String (Bytes × Reverse) := do
  refuse id.name.isEmpty "Codex tool name must be nonempty"
  let wire := wireName sha256 id
  refuse (!canonical wire) "Codex wire identity is not canonical"
  refuse (collides reverse wire id) "Codex tool wire-name collision"
  return (wire, update reverse wire (some id))

/-- One call of `bind` on the map of a request; a refused call leaves the map as it was. -/
def bindStep (id : Identity) : Reverse × Except String Bytes :=
  match bind sha256 reverse id with
  | .error e => (reverse, .error e)
  | .ok (wire, reverse') => (reverse', .ok wire)
end

lemma separated_take (h : separated separator s) (n : Nat) :
    separated separator (s.take n) = true := by
  induction s generalizing separator n with
  | nil =>
    rw [take_nil]
    rfl
  | cons c rest ih =>
    cases n with
    | zero => rfl
    | succ n =>
      rw [take_succ_cons]
      unfold separated at h ⊢
      split at h
      · rw [if_pos ‹_›]
        exact ih h n
      · rw [if_neg ‹_›]
        split at h
        · rw [if_pos ‹_›]
          exact ih h n
        · cases h

lemma trimStem_eq_take (s : Bytes) : ∃ n, trimStem s = s.take n := by
  have hsuff := dropWhile_suffix (· == 95) (l := s.reverse)
  have hp : trimStem s <+: s := by
    have := reverse_prefix.2 hsuff
    rwa [reverse_reverse] at this
  exact ⟨_, (prefix_iff_eq_take.1 hp)⟩

lemma getLast?_trimStem (s : Bytes) : (trimStem s).getLast? ≠ some 95 := by
  rw [trimStem, getLast?_reverse]
  intro h
  have := head?_dropWhile_not (· == 95) s.reverse
  rw [h] at this
  simp at this

lemma length_trimStem_le (s : Bytes) : (trimStem s).length ≤ s.length := by
  obtain ⟨n, hn⟩ := trimStem_eq_take s
  rw [hn, length_take]
  exact min_le_right _ _

lemma clean_stem {n : Bytes} (h : Clean n) : Clean (trimStem (n.take 22)) := by
  have hw : separated true (trimStem (n.take 22)) := by
    obtain ⟨k, hk⟩ := trimStem_eq_take (n.take 22)
    rw [hk]
    exact separated_take (separated_take h.words 22) k
  refine ⟨fun hn => ?_, hw, getLast?_trimStem _⟩
  -- the first byte of a clean text is no underscore, so it stays
  obtain ⟨c, rest, rfl⟩ := exists_cons_of_ne_nil h.ne_nil
  have hc : isWordByte c := by
    have := h.words
    unfold separated at this
    split at this
    · assumption
    · simp at this
  have ha : ∀ d ∈ ((c :: rest).take 22).reverse, (d == 95) :=
    dropWhile_eq_nil_iff.1 (reverse_eq_nil_iff.1 hn)
  have := ha c (by simp)
  rw [eq_of_beq this] at hc
  exact absurd hc (by decide)

lemma clean_codex : Clean (ascii "codex") :=
  clean_of_words (by decide) (all_eq_true.1 rfl)

lemma escapedName_eq (id : Identity) : escapedName id =
    (((ascii "codex" ++ 95 :: (110 :: decimal (wireComponent id.name).length)) ++
    95 :: wireComponent id.name) ++
    95 :: (115 :: decimal (wireComponent id.scope).length)) ++
    (if (wireComponent id.scope).isEmpty then [] else 95 :: wireComponent id.scope) := by
  have hn : ascii "codex_n" = ascii "codex" ++ [95, 110] := by decide
  have hs : ascii "_s" = [95, 115] := by decide
  simp [escapedName, hn, hs]

variable {id : Identity}

lemma clean_escapedName (h : id.name ≠ []) : Clean (escapedName id) := by
  have hn := clean_wireComponent h
  have hfr := ((clean_codex.join (clean_digits 110 (by decide)
    (wireComponent id.name).length)).join hn).join
    (clean_digits 115 (by decide) (wireComponent id.scope).length)
  rw [escapedName_eq]
  split
  · rw [append_nil]
    exact hfr
  next hne =>
    refine hfr.join (clean_wireComponent ?_)
    rintro hni
    rw [hni] at hne
    exact hne rfl

section
variable (sha256 : Bytes → Vector UInt8 32)

lemma length_hexBytes (bs : Bytes) :
    (bs.flatMap fun byt => hex 2 byt.toNat).length = 2 * bs.length := by
  induction bs with
  | nil => rfl
  | cons byt rest ih =>
    rw [flatMap_cons, length_append, ih, length_hex, length_cons]
    omega

lemma length_digest (id : Identity) :
    (((sha256 (digestKey id)).toList.take 16).flatMap fun byt => hex 2 byt.toNat).length = 32 := by
  rw [length_hexBytes, length_take, Vector.length_toList]
  rfl

lemma clean_digest (id : Identity) :
    Clean (((sha256 (digestKey id)).toList.take 16).flatMap fun byt => hex 2 byt.toNat) := by
  refine clean_of_words (fun hn => ?_) fun c hc => ?_
  · have := length_digest sha256 id
    rw [hn] at this
    cases this
  · obtain ⟨byt, _, hm⟩ := mem_flatMap.1 hc
    rw [hex_two] at hm
    simp only [mem_cons, not_mem_nil, or_false] at hm
    rcases hm with rfl | rfl
    · exact isWordByte_hexDigit (mod_lt _ (by decide))
    · exact isWordByte_hexDigit (mod_lt _ (by decide))

lemma digestedName_eq (id : Identity) : digestedName sha256 id =
      ((ascii "codex" ++ 95 :: ascii "h") ++ 95 :: trimStem ((wireComponent id.name).take 22)) ++
        95 :: ((sha256 (digestKey id)).toList.take 16).flatMap fun byt => hex 2 byt.toNat := by
  have hh : ascii "codex_h_" = ascii "codex" ++ 95 :: ascii "h" ++ [95] := by decide
  simp [digestedName, hh]

lemma clean_digestedName (h : id.name ≠ []) : Clean (digestedName sha256 id) := by
  rw [digestedName_eq]
  exact ((clean_codex.join (clean_of_words (by decide) (all_eq_true.1 rfl))).join
    (clean_stem (clean_wireComponent h))).join (clean_digest sha256 id)

lemma length_digestedName_le (id : Identity) : (digestedName sha256 id).length ≤ 63 := by
  have hs : (trimStem ((wireComponent id.name).take 22)).length ≤ 22 :=
    (length_trimStem_le _).trans (by rw [length_take]; exact min_le_left _ _)
  have hc : (ascii "codex").length = 5 := by decide
  have hh : (ascii "h").length = 1 := by decide
  rw [digestedName_eq]
  simp only [length_append, length_cons, length_digest, hc, hh]
  omega

lemma canonical_of_clean (h : Clean s) (hl : s.length ≤ 64) (hh : s.head? = some 99) :
    canonical s = true := by
  have hn : s.isEmpty = false := by
    cases s with
    | nil => exact absurd rfl h.ne_nil
    | cons => rfl
  simp only [canonical, hn, hh, separated_of_true h.words false, Bool.not_false,
    Bool.true_and, Bool.and_true, Bool.and_eq_true, decide_eq_true_eq]
  exact ⟨⟨hl, by decide⟩, h.last⟩

lemma head?_escapedName (id : Identity) : (escapedName id).head? = some 99 := by
  rw [escapedName_eq]
  rfl

lemma head?_digestedName (id : Identity) : (digestedName sha256 id).head? = some 99 := by
  rw [digestedName_eq]
  rfl

lemma canonical_wireName (h : id.name ≠ []) : canonical (wireName sha256 id) = true := by
  unfold wireName
  split
  next hp =>
    simp only [plain, Bool.and_eq_true] at hp
    exact hp.1.2
  next =>
    split
    · exact canonical_of_clean (clean_digestedName sha256 h)
        ((length_digestedName_le sha256 id).trans (by decide)) (head?_digestedName sha256 id)
    next hs =>
      simp only [Bool.or_eq_true, decide_eq_true_eq, not_or, not_lt] at hs
      exact canonical_of_clean (clean_escapedName h) hs.2 (head?_escapedName id)
end

lemma tail_injective {s' : Bytes} (h : decimal s.length ++ (if s.isEmpty then [] else 95 :: s) =
    decimal s'.length ++ (if s'.isEmpty then [] else 95 :: s')) : s = s' := by
  have hd : ∀ n : Nat, (95 : UInt8) ∉ decimal n := fun n hm =>
    absurd (isDigit_of_mem_decimal hm) (by decide)
  have hm (c : UInt8) (rest : Bytes) : 95 ∈ decimal (c :: rest).length ++ 95 :: c :: rest := by simp
  cases s with
  | nil =>
    cases s' with
    | nil => rfl
    | cons c rest =>
      simp only [isEmpty_nil, if_true, append_nil, isEmpty_cons] at h
      exact absurd (h ▸ hm c rest) (hd _)
  | cons c rest =>
    cases s' with
    | nil =>
      simp only [isEmpty_nil, if_true, append_nil, isEmpty_cons] at h
      exact absurd (h ▸ hm c rest) (hd _)
    | cons d r' =>
      rw [isEmpty_cons] at h
      exact (decimal_append_injective (by decide) h).2

variable {id' : Identity}

lemma escapedName_injective (h : escapedName id = escapedName id') :
    id.name = id'.name ∧ id.scope = id'.scope := by
  simp only [escapedName, append_assoc, cons_append] at h
  obtain ⟨hl, hr⟩ := decimal_append_injective (by decide) (append_cancel_left h)
  obtain ⟨hn, hs⟩ := append_inj hr hl
  exact ⟨wireComponent_injective hn,
    wireComponent_injective (tail_injective (append_cancel_left hs))⟩

lemma take_escapedName (id : Identity) : (escapedName id).take 7 = ascii "codex_n" := by
  have hl : (ascii "codex_n").length = 7 := by decide
  simp only [escapedName, append_assoc]
  rw [take_append_of_le_length (by rw [hl]), ← hl, take_length]

variable (sha256 : Bytes → Vector UInt8 32)

lemma take_digestedName (id : Identity) :
    (digestedName sha256 id).take 7 = ascii "codex_h" := by
  have hh : ascii "codex_h_" = ascii "codex_h" ++ [95] := by decide
  have hl : (ascii "codex_h").length = 7 := by decide
  simp only [digestedName, hh, append_assoc]
  rw [take_append_of_le_length (by rw [hl]), ← hl, take_length]

lemma plain_iff : plain id ↔ id.variant = [] ∧ id.scope = [] ∧ canonical id.name ∧
    id.name.take 6 ≠ ascii "codex_" := by
  simp only [plain, Bool.and_eq_true, List.isEmpty_iff, Bool.not_eq_true', beq_eq_false_iff_ne,
    and_assoc]

def Undigested (id : Identity) : Prop :=
  plain id = true ∨ (id.variant = [] ∧ (escapedName id).length ≤ 64)

lemma wireName_cases (h : Undigested id) : (plain id ∧ wireName sha256 id = id.name) ∨
    (id.variant = [] ∧ wireName sha256 id = escapedName id) := by
  unfold wireName
  rcases h with hp | ⟨hv, hl⟩
  · exact .inl ⟨hp, if_pos hp⟩
  · cases hp : plain id with
    | true => exact .inl ⟨rfl, if_pos rfl⟩
    | false =>
      refine .inr ⟨hv, ?_⟩
      have hk : (!id.variant.isEmpty || decide (64 < (escapedName id).length)) = false := by
        rw [hv]
        simpa using hl
      rw [if_neg (by decide), hk]
      rfl

lemma name_ne_escapedName (h : plain id) : id.name ≠ escapedName id' := by
  intro he
  refine (plain_iff.1 h).2.2.2 ?_
  have h7 := take_escapedName id'
  rw [← he] at h7
  have h6 : id.name.take 6 = (id.name.take 7).take 6 := by
    rw [take_take]
    rfl
  rw [h6, h7]
  decide

section
variable (sha256 : Bytes → Vector UInt8 32)

lemma wireName_digested (h : ¬ Undigested id) : wireName sha256 id = digestedName sha256 id := by
  simp only [Undigested, not_or, not_and, not_le] at h
  unfold wireName
  rw [if_neg h.1, if_pos]
  by_cases hv : id.variant = []
  · simp [h.2 hv]
  · simp [hv]

lemma wireName_ne_digestedName (h : Undigested id) :
    wireName sha256 id ≠ digestedName sha256 id' := by
  intro he
  have h7 := take_digestedName sha256 id'
  rw [← he] at h7
  rcases wireName_cases sha256 h with ⟨hp, hw⟩ | ⟨_, hw⟩
  · rw [hw] at h7
    refine (plain_iff.1 hp).2.2.2 ?_
    have h6 : id.name.take 6 = (id.name.take 7).take 6 := by
      rw [take_take]
      rfl
    rw [h6, h7]
    decide
  · rw [hw, take_escapedName] at h7
    exact absurd h7 (by decide)

lemma wireName_injective (h : Undigested id) (heq : wireName sha256 id = wireName sha256 id') :
    id = id' := by
  by_cases h' : Undigested id'
  case neg =>
    rw [wireName_digested sha256 h'] at heq
    exact absurd heq (wireName_ne_digestedName sha256 h)
  have he : ∀ {a b : Identity}, a.name = b.name → a.scope = b.scope → a.variant = b.variant →
      a = b := by
    rintro ⟨_, _, _⟩ ⟨_, _, _⟩ rfl rfl rfl
    rfl
  rcases wireName_cases sha256 h with ⟨hp, hw⟩ | ⟨hv, hw⟩ <;>
    rcases wireName_cases sha256 h' with ⟨hp', hw'⟩ | ⟨hv', hw'⟩ <;> rw [hw, hw'] at heq
  · obtain ⟨hv, hs, _⟩ := plain_iff.1 hp
    obtain ⟨hv', hs', _⟩ := plain_iff.1 hp'
    exact he heq (hs.trans hs'.symm) (hv.trans hv'.symm)
  · exact absurd heq (name_ne_escapedName hp)
  · exact absurd heq.symm (name_ne_escapedName hp')
  · obtain ⟨hn, hsc⟩ := escapedName_injective heq
    exact he hn hsc (hv.trans hv'.symm)

end

section
variable (sha256 : Bytes → Vector UInt8 32) {reverse : Reverse} {id : Identity}

lemma bind_eq_ok_iff {out : Bytes × Reverse} : bind sha256 reverse id = .ok out ↔
    id.name ≠ [] ∧ collides reverse (wireName sha256 id) id = false ∧
    out = (wireName sha256 id, update reverse (wireName sha256 id) (some id)) := by
  unfold bind
  rw [refuse_eq_ok, refuse_eq_ok, refuse_eq_ok, pure_eq_ok]
  constructor
  · rintro ⟨hn, _, hf, rfl⟩
    exact ⟨by simpa using hn, Bool.eq_false_iff.2 hf, rfl⟩
  · rintro ⟨hn, hf, rfl⟩
    exact ⟨by simpa using hn, by simpa using canonical_wireName sha256 hn,
      Bool.eq_false_iff.1 hf, rfl⟩

def Bound (reverse : Reverse) : Prop :=
  ∀ wire id, reverse wire = some id → id.name ≠ [] ∧ wireName sha256 id = wire

lemma bound_empty : Bound sha256 fun _ => none := nofun

lemma bound_bindStep (h : Bound sha256 reverse) (id : Identity) :
    Bound sha256 (bindStep sha256 reverse id).1 := by
  unfold bindStep
  split
  · exact h
  next wire r' hok =>
    obtain ⟨hn, _, ho⟩ := (bind_eq_ok_iff sha256).1 hok
    cases ho
    intro w' id' hf
    change update reverse (wireName sha256 id) (some id) w' = some id' at hf
    by_cases hw : w' = wireName sha256 id
    · rw [hw, update_self] at hf
      cases hf
      exact ⟨hn, hw.symm⟩
    · rw [update_of_ne hw] at hf
      exact h w' id' hf

variable {wire : Bytes}

lemma bindStep_keeps (h : reverse wire = some id) (other : Identity) :
    (bindStep sha256 reverse other).1 wire = some id := by
  unfold bindStep
  split
  · exact h
  next w' r' hok =>
    obtain ⟨_, hf, ho⟩ := (bind_eq_ok_iff sha256).1 hok
    cases ho
    change update reverse (wireName sha256 other) (some other) wire = some id
    by_cases hw : wire = wireName sha256 other
    · rw [hw] at h
      rw [hw, update_self]
      rw [collides, h] at hf
      simp only [ne_eq, decide_not, Bool.not_eq_false', decide_eq_true_eq] at hf
      rw [hf]
    · rw [update_of_ne hw]
      exact h

lemma bind_error {e : String} (hn : id.name ≠ []) (h : bind sha256 reverse id = .error e) :
    e = "Codex tool wire-name collision" ∧
    ∃ other, reverse (wireName sha256 id) = some other ∧ other ≠ id := by
  cases hcoll : collides reverse (wireName sha256 id) id with
  | false =>
    rw [(bind_eq_ok_iff sha256).2 ⟨hn, hcoll, rfl⟩] at h
    cases h
  | true =>
    have hno : id.name.isEmpty = false := by simpa using hn
    unfold bind at h
    simp only [refuse, hno, canonical_wireName sha256 hn, hcoll, Bool.not_true,
      if_true, Bool.false_eq_true, if_false] at h
    refine ⟨(Except.error.inj h).symm, ?_⟩
    unfold collides at hcoll
    split at hcoll
    · cases hcoll
    next other ho => exact ⟨other, ho, by simpa using hcoll⟩

def boundAll (ids : List Identity) : Reverse := run (bindStep sha256) (fun _ => none) ids

variable {other : Identity}

lemma bindStep_mem (h : (bindStep sha256 reverse id).1 wire = some other) :
    other = id ∨ reverse wire = some other := by
  unfold bindStep at h
  split at h
  · exact .inr h
  next w' r' hok =>
    obtain ⟨_, _, ho⟩ := (bind_eq_ok_iff sha256).1 hok
    cases ho
    change update reverse (wireName sha256 id) (some id) wire = some other at h
    by_cases hw : wire = wireName sha256 id
    · rw [hw, update_self] at h
      exact .inl (Option.some.inj h).symm
    · rw [update_of_ne hw] at h
      exact .inr h

section
variable (ids : List Identity)

lemma run_bindStep_mem (h : run (bindStep sha256) reverse ids wire = some other) :
    other ∈ ids ∨ reverse wire = some other := by
  induction ids generalizing reverse with
  | nil => exact .inr h
  | cons id ids ih =>
    rcases ih h with hm | hst
    · exact .inl (mem_cons_of_mem _ hm)
    · rcases bindStep_mem sha256 hst with rfl | hold
      · exact .inl mem_cons_self
      · exact .inr hold

lemma run_bindStep_keeps (h : reverse wire = some id) :
    run (bindStep sha256) reverse ids wire = some id := by
  induction ids generalizing reverse with
  | nil => exact h
  | cons other ids ih => exact ih (bindStep_keeps sha256 h other)

lemma bound_run (h : Bound sha256 reverse) : Bound sha256 (run (bindStep sha256) reverse ids) :=
  run_preserves (P := Bound sha256) (fun _ id hr => bound_bindStep sha256 hr id) h ids

/-- What one call of `bind` in a run answered, against the whole run. -/
lemma run_bindStep_answer (h : Bound sha256 reverse) {an : Except String Bytes}
    (hm : (id, an) ∈ ids.zip (outputs (bindStep sha256) reverse ids)) (hn : id.name ≠ []) :
    (an = .ok (wireName sha256 id) ∧
    run (bindStep sha256) reverse ids (wireName sha256 id) = some id) ∨
    (an = .error "Codex tool wire-name collision" ∧
    ∃ other, run (bindStep sha256) reverse ids (wireName sha256 id) = some other ∧
    other ≠ id) := by
  induction ids generalizing reverse with
  | nil => cases hm
  | cons first ids ih =>
    rw [outputs_cons, zip_cons_cons, mem_cons] at hm
    rcases hm with he | hm
    case inr => exact ih (bound_bindStep sha256 h first) hm
    cases he
    rw [run_cons]
    cases hbind : bind sha256 reverse id with
    | error e =>
      obtain ⟨rfl, other, ho, hne⟩ := bind_error sha256 hn hbind
      have hs : bindStep sha256 reverse id =
          (reverse, .error "Codex tool wire-name collision") := by rw [bindStep, hbind]
      rw [hs]
      exact .inr ⟨rfl, other, run_bindStep_keeps sha256 ids ho, hne⟩
    | ok out =>
      obtain ⟨_, _, rfl⟩ := (bind_eq_ok_iff sha256).1 hbind
      have hs : bindStep sha256 reverse id = (update reverse (wireName sha256 id) (some id),
            .ok (wireName sha256 id)) := by rw [bindStep, hbind]
      rw [hs]
      exact .inl ⟨rfl, run_bindStep_keeps sha256 ids (update_self ..)⟩
end

end

end AxiomKernel.Codex
