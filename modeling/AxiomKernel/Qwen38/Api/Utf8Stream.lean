import Mathlib
import AxiomKernel.Lib.Incremental

/-!
# UTF-8 on the wire

Generated text arrives as bytes that may be cut anywhere, and may be malformed.
`drain_generation_utf8` sends what is decided so far and keeps an incomplete unit pending;
`normalize_final_utf8` cleans the whole text at the end. Both look at one unit at a time through
`inspect_utf8_unit`, whose verdicts do not change when more bytes arrive.
-/
namespace AxiomKernel.Qwen38.Api

open UInt8 List
open String (utf8EncodeChar)
open Option hiding all_eq_true

abbrev Utf8 := List UInt8

inductive Utf8UnitStatus where
  | complete (unitBytes : Nat)
  | incomplete
  | invalid
  deriving Repr, DecidableEq

def utf8Width (first : UInt8) : Option Nat :=
  if 0xc2 ≤ first ∧ first ≤ 0xdf then some 2
  else if 0xe0 ≤ first ∧ first ≤ 0xef then some 3
  else if 0xf0 ≤ first ∧ first ≤ 0xf4 then some 4
  else none

variable (byte : UInt8)

def isContinuation : Bool := byte &&& 0xc0 == 0x80

/-- The second bytes that make a unit overlong, a surrogate or too large. -/
def refusedSecond (first second : UInt8) : Bool :=
  (first == 0xe0 && second < 0xa0) || (first == 0xed && 0x9f < second)
    || (first == 0xf0 && second < 0x90) || (first == 0xf4 && 0x8f < second)

/-- The checks behind the leading byte, on as many bytes of the unit as there are. -/
def inspectTail (first : UInt8) (rest : Utf8) (width : Nat) : Utf8UnitStatus :=
  let inspected := rest.take (width - 1)
  if !inspected.all isContinuation then .invalid
  else if inspected.head?.any (refusedSecond first) then .invalid
  else if rest.length + 1 < width then .incomplete
  else .complete width

/-- `inspect_utf8_unit` on the bytes from its offset on. -/
def inspectUtf8Unit : Utf8 → Utf8UnitStatus
  | [] => .invalid
  | first :: rest =>
    if first ≤ 0x7f then .complete 1
    else
      match utf8Width first with
      | none => .invalid
      | some width => inspectTail first rest width

def replacement : Utf8 := [0xef, 0xbf, 0xbd]

def readUnit (bytes : Utf8) : Option (Utf8 × Utf8) :=
  if bytes.isEmpty then none
  else
    match inspectUtf8Unit bytes with
    | .incomplete => none
    | .invalid => some (replacement, bytes.drop 1)
    | .complete unitBytes => some (bytes.take unitBytes, bytes.drop unitBytes)

variable {bytes : Utf8} {width : Nat} {first : UInt8} {rest : Utf8}

lemma inspectUtf8Unit_append (mo : Utf8) (hn : bytes ≠ [])
    (h : inspectUtf8Unit bytes ≠ .incomplete) :
    inspectUtf8Unit (bytes ++ mo) = inspectUtf8Unit bytes := by
  cases bytes with
  | nil => exact absurd rfl hn
  | cons first rest =>
    simp only [inspectUtf8Unit, cons_append] at h ⊢
    split
    · rfl
    next has =>
      rw [if_neg has] at h
      cases hwi : utf8Width first with
      | none => rfl
      | some width =>
        simp only [hwi, inspectTail] at h ⊢
        by_cases hl : rest.length + 1 < width
        · -- the unit is short, so the verdict must have been that it is invalid
          have ht : rest.take (width - 1) = rest := take_of_length_le (by omega)
          have hm : (rest ++ mo).take (width - 1) = rest ++ mo.take (width - 1 - rest.length) := by
            rw [take_append, ht]
          rw [ht] at h ⊢
          rw [hm, all_append]
          by_cases ha : rest.all isContinuation = true
          · simp only [ha, Bool.not_true, Bool.false_eq_true, if_false] at h ⊢
            have hr : rest.head?.any (refusedSecond first) := by
              by_contra hno
              rw [if_neg hno, if_pos hl] at h
              exact h rfl
            have hh : (rest ++ mo.take (width - 1 - rest.length)).head? = rest.head? := by
              cases rest with
              | nil => simp at hr
              | cons se rest => rfl
            rw [hh, if_pos hr, if_pos hr]
            split <;> rfl
          · have ha : rest.all isContinuation = false := by simpa using ha
            simp [ha]
        · have ht : (rest ++ mo).take (width - 1) = rest.take (width - 1) :=
            take_append_of_le_length (by omega)
          have hl' : ¬ (rest ++ mo).length + 1 < width := by
            rw [length_append]
            omega
          rw [ht, if_neg hl, if_neg hl']

lemma inspectUtf8Unit_complete_le (h : inspectUtf8Unit bytes = .complete width) :
    1 ≤ width ∧ width ≤ bytes.length := by
  cases bytes with
  | nil => simp [inspectUtf8Unit] at h
  | cons first rest =>
    rw [inspectUtf8Unit] at h
    split at h
    · obtain rfl : 1 = width := by simpa using h
      simp
    · cases hwi : utf8Width first with
      | none => simp [hwi] at h
      | some w =>
        simp only [hwi, inspectTail] at h
        split at h
        · simp at h
        · split at h
          · simp at h
          · split at h
            · simp at h
            next hl =>
              obtain rfl : w = width := by simpa using h
              have hp : 1 ≤ w := by
                unfold utf8Width at hwi
                split_ifs at hwi <;> simp_all <;> omega
              rw [length_cons]
              omega

/-- The units of `inspect_utf8_unit` as a reader that may be fed in pieces. -/
def utf8Reader : Reader UInt8 UInt8 where
  read := readUnit
  shorter {input out rest} h := by
    unfold readUnit at h
    split at h
    · simp at h
    next hempty =>
      have hne : input ≠ [] := by simpa using hempty
      have hpos : 0 < input.length := length_pos_of_ne_nil hne
      split at h
      · simp at h
      · obtain ⟨_, rfl⟩ := Prod.mk.inj (some.inj h)
        simp only [length_drop]
        omega
      next width hcomplete =>
        obtain ⟨_, rfl⟩ := Prod.mk.inj (some.inj h)
        have := inspectUtf8Unit_complete_le hcomplete
        simp only [length_drop]
        omega
  stable {input out rest} more h := by
    unfold readUnit at h ⊢
    split at h
    · simp at h
    next hempty =>
      have hne : input ≠ [] := by simpa using hempty
      have hne' : (input ++ more).isEmpty = false := by simp [hne]
      rw [if_neg (by simp [hne'])]
      have hpos : 0 < input.length := length_pos_of_ne_nil hne
      split at h
      · simp at h
      next hinvalid =>
        cases h
        rw [inspectUtf8Unit_append more hne (by simp [hinvalid]), hinvalid]
        simp only [some.injEq, Prod.mk.injEq, true_and]
        rw [drop_append_of_le_length (by omega)]
      next width hcomplete =>
        cases h
        have hle := inspectUtf8Unit_complete_le hcomplete
        rw [inspectUtf8Unit_append more hne (by simp [hcomplete]), hcomplete]
        simp only [some.injEq, Prod.mk.injEq]
        exact ⟨take_append_of_le_length hle.2, drop_append_of_le_length hle.2⟩

def ValidUtf8 (bytes : Utf8) : Prop := ∃ chars : List Char, bytes = chars.flatMap utf8EncodeChar

lemma isContinuation_iff : isContinuation byte ↔ 128 ≤ byte.toNat ∧ byte.toNat < 192 := by
  have hb : ∀ n < 256, (n &&& 192 = 128 ↔ 128 ≤ n ∧ n < 192) := by decide +kernel
  have hby := hb byte.toNat byte.toNat_lt
  rw [← hby, isContinuation, beq_iff_eq, ← UInt8.toNat_inj, UInt8.toNat_and]
  rfl

lemma refusedSecond_eq_false_iff (first se : UInt8) : refusedSecond first se = false ↔
    (first.toNat = 224 → 160 ≤ se.toNat) ∧ (first.toNat = 237 → se.toNat ≤ 159) ∧
    (first.toNat = 240 → 144 ≤ se.toNat) ∧ (first.toNat = 244 → se.toNat ≤ 143) := by
  simp only [refusedSecond, Bool.or_eq_false_iff, Bool.and_eq_false_iff, beq_eq_false_iff_ne, ne_eq,
    decide_eq_false_iff_not, UInt8.lt_iff_toNat_lt, ← UInt8.toNat_inj]
  simp only [UInt8.reduceToNat]
  omega

lemma utf8Width_eq (first : UInt8) : utf8Width first =
    if 194 ≤ first.toNat ∧ first.toNat ≤ 223 then some 2
    else if 224 ≤ first.toNat ∧ first.toNat ≤ 239 then some 3
    else if 240 ≤ first.toNat ∧ first.toNat ≤ 244 then some 4
    else none := by
  simp only [utf8Width, le_iff_toNat_le, UInt8.reduceToNat]

lemma exists_char (v : Nat) (h : v < 0xd800 ∨ (0xdfff < v ∧ v < 0x110000)) :
    ∃ c : Char, c.val.toNat = v := by
  refine ⟨Char.ofNat v, ?_⟩
  have hv : v.isValidChar := h
  simp [Char.ofNat, hv, Char.ofNatAux]

lemma ofNat_eq {n : Nat} (h : n = byte.toNat) : UInt8.ofNat n = byte := by
  rw [h]
  exact UInt8.ofNat_toNat

lemma complete_checks {w : Nat} (h : inspectTail first rest w = .complete width) :
    w = width ∧ w ≤ rest.length + 1 ∧
    (∀ byte ∈ rest.take (w - 1), 128 ≤ byte.toNat ∧ byte.toNat < 192) ∧
    ∀ se ∈ (rest.take (w - 1)).head?, refusedSecond first se = false := by
  rw [inspectTail] at h
  split_ifs at h with ha hr hl
  refine ⟨by simpa using h, by omega, ?_, ?_⟩
  · intro byte hb
    rw [Bool.not_eq_true, Bool.not_eq_false', all_eq_true] at ha
    exact (isContinuation_iff byte).1 (ha byte hb)
  · intro se hs
    rw [mem_def] at hs
    simpa [hs] using hr

lemma encodes_two (hf : 194 ≤ first.toNat ∧ first.toNat ≤ 223)
    (h : inspectTail first rest 2 = .complete width) :
    ∃ c, (first :: rest).take width = utf8EncodeChar c := by
  obtain ⟨rfl, hl, ha, _⟩ := complete_checks h
  match rest, hl with
  | second :: tail, _ =>
    have hsec := ha second (by simp)
    obtain ⟨c, hc⟩ := exists_char ((first.toNat - 192) * 64 + (second.toNat - 128)) (by omega)
    refine ⟨c, ?_⟩
    have h1 : ¬ c.val.toNat ≤ 127 := by omega
    have h2 : c.val.toNat ≤ 2047 := by omega
    rw [utf8EncodeChar.eq_1, if_neg h1, if_pos h2,
      ofNat_eq first (by omega), ofNat_eq second (by omega)]
    rfl

lemma encodes_three (hf : 224 ≤ first.toNat ∧ first.toNat ≤ 239)
    (h : inspectTail first rest 3 = .complete width) :
    ∃ c, (first :: rest).take width = utf8EncodeChar c := by
  obtain ⟨rfl, hl, ha, hr⟩ := complete_checks h
  match rest, hl with
  | second :: th :: tail, _ =>
    have hsec := ha second (by simp)
    have hth := ha th (by simp)
    have hrang := (refusedSecond_eq_false_iff first second).1 (hr second (by simp))
    obtain ⟨c, hc⟩ := exists_char ((first.toNat - 224) * 4096 +
      (second.toNat - 128) * 64 + (th.toNat - 128)) (by omega)
    refine ⟨c, ?_⟩
    have h1 : ¬ c.val.toNat ≤ 127 := by omega
    have h2 : ¬ c.val.toNat ≤ 2047 := by omega
    have h3 : c.val.toNat ≤ 65535 := by omega
    rw [utf8EncodeChar.eq_1, if_neg h1, if_neg h2, if_pos h3,
      ofNat_eq first (by omega), ofNat_eq second (by omega),
      ofNat_eq th (by omega)]
    rfl

lemma encodes_four (hf : 240 ≤ first.toNat ∧ first.toNat ≤ 244)
    (h : inspectTail first rest 4 = .complete width) :
    ∃ c, (first :: rest).take width = utf8EncodeChar c := by
  obtain ⟨rfl, hl, ha, hr⟩ := complete_checks h
  match rest, hl with
  | second :: th :: f :: tail, _ =>
    have hsec := ha second (by simp)
    have hth := ha th (by simp)
    have hfour := ha f (by simp)
    have hrang := (refusedSecond_eq_false_iff first second).1 (hr second (by simp))
    obtain ⟨c, hc⟩ := exists_char ((first.toNat - 240) * 262144 +
      (second.toNat - 128) * 4096 + (th.toNat - 128) * 64 + (f.toNat - 128)) (by omega)
    refine ⟨c, ?_⟩
    have h1 : ¬ c.val.toNat ≤ 127 := by omega
    have h2 : ¬ c.val.toNat ≤ 2047 := by omega
    have h3 : ¬ c.val.toNat ≤ 65535 := by omega
    rw [utf8EncodeChar.eq_1, if_neg h1, if_neg h2, if_neg h3,
      ofNat_eq first (by omega), ofNat_eq second (by omega),
      ofNat_eq th (by omega), ofNat_eq f (by omega)]
    rfl

lemma encodes_of_complete (h : inspectUtf8Unit bytes = .complete width) :
    ∃ c, bytes.take width = utf8EncodeChar c := by
  cases bytes with
  | nil => simp [inspectUtf8Unit] at h
  | cons first rest =>
    have hfi := first.toNat_lt
    rw [inspectUtf8Unit] at h
    split at h
    next ha =>
      obtain rfl : 1 = width := by simpa using h
      have ha : first.toNat ≤ 127 := ha
      obtain ⟨c, hc⟩ := exists_char first.toNat (by omega)
      refine ⟨c, ?_⟩
      simp [utf8EncodeChar, hc, ha]
    next =>
      rw [utf8Width_eq] at h
      split_ifs at h with h2 h3 h4
      · exact encodes_two h2 h
      · exact encodes_three h3 h
      · exact encodes_four h4 h

lemma inspectUtf8Unit_complete (f : Nat) (i : List Nat) (rest : Utf8)
    (hw : 194 ≤ f ∧ f ≤ 223 ∧ i.length = 1 ∨ 224 ≤ f ∧ f ≤ 239 ∧ i.length = 2 ∨
    240 ≤ f ∧ f ≤ 244 ∧ i.length = 3)
    (ha : ∀ n ∈ i, 128 ≤ n ∧ n < 192)
    (hr : ∀ n ∈ i.head?, (f = 224 → 160 ≤ n) ∧ (f = 237 → n ≤ 159) ∧
    (f = 240 → 144 ≤ n) ∧ (f = 244 → n ≤ 143)) :
    inspectUtf8Unit (UInt8.ofNat f :: (i.map UInt8.ofNat ++ rest)) = .complete (i.length + 1) := by
  have hb : ∀ n, n < 256 → (UInt8.ofNat n).toNat = n := fun n hn => toNat_ofNat_of_lt hn
  have hf := hb f (by omega)
  have has : ¬ UInt8.ofNat f ≤ 0x7f := by
    rw [le_iff_toNat_le, hf]
    simp
    omega
  have hw' : utf8Width (UInt8.ofNat f) = some (i.length + 1) := by
    rw [utf8Width_eq, hf]
    split_ifs <;> grind
  have ha' : (i.map UInt8.ofNat).all isContinuation = true := by
    simp only [all_eq_true, List.mem_map, isContinuation_iff]
    rintro _ ⟨n, hn, rfl⟩
    rw [hb n (by have := ha n hn; omega)]
    exact ha n hn
  have hh : (i.head?.map UInt8.ofNat).any (refusedSecond (UInt8.ofNat f)) = false := by
    cases i with
    | nil => rfl
    | cons n _ =>
      have hn := hb n (by have := ha n (by simp); omega)
      exact (refusedSecond_eq_false_iff _ _).2 (by rw [hf, hn]; exact hr n rfl)
  simp [inspectUtf8Unit, if_neg has, hw', inspectTail, ha', hh]

lemma complete_of_encodes (c : Char) (rest : Utf8) : inspectUtf8Unit (utf8EncodeChar c ++ rest) =
    .complete (utf8EncodeChar c).length := by
  have hvl : c.val.toNat < 0xd800 ∨ (0xdfff < c.val.toNat ∧ c.val.toNat < 0x110000) := c.valid
  generalize hv : c.val.toNat = v at hvl
  rw [utf8EncodeChar.eq_1, hv]
  by_cases h1 : v ≤ 127
  · have ha : UInt8.ofNat v ≤ 0x7f := by
      rw [le_iff_toNat_le, UInt8.toNat_ofNat']
      exact (Nat.mod_le v _).trans h1
    rw [if_pos h1]
    simp [inspectUtf8Unit, ha]
  rw [if_neg h1]
  by_cases h2 : v ≤ 2047
  · rw [if_pos h2]
    exact inspectUtf8Unit_complete (v / 64 % 32 + 192) [v % 64 + 128] rest
      (by simp; omega) (by simp; omega) (by simp; omega)
  rw [if_neg h2]
  by_cases h3 : v ≤ 65535
  · rw [if_pos h3]
    exact inspectUtf8Unit_complete (v / 4096 % 16 + 224) [v / 64 % 64 + 128, v % 64 + 128] rest
      (by simp; omega) (by simp; omega) (by simp; omega)
  rw [if_neg h3]
  exact inspectUtf8Unit_complete (v / 262144 % 8 + 240)
    [v / 4096 % 64 + 128, v / 64 % 64 + 128, v % 64 + 128] rest
    (by simp; omega) (by simp; omega) (by simp; omega)

/-- `normalize_final_utf8`: malformed bytes are replaced one by one, a cut unit at the end by one
replacement. -/
def normalizeFinalUtf8 (text : Utf8) : Utf8 :=
  let (normalized, left) := utf8Reader.scan text
  if left.isEmpty then normalized else normalized ++ replacement

lemma ValidUtf8.append {a b : Utf8} (ha : ValidUtf8 a) (hb : ValidUtf8 b) : ValidUtf8 (a ++ b) := by
  obtain ⟨cs, rfl⟩ := ha
  obtain ⟨ds, rfl⟩ := hb
  exact ⟨cs ++ ds, by simp⟩

lemma validUtf8_nil : ValidUtf8 [] := ⟨[], rfl⟩

lemma validUtf8_replacement : ValidUtf8 replacement := ⟨['\uFFFD'], by decide⟩

lemma validUtf8_scan (text : Utf8) : ValidUtf8 (utf8Reader.scan text).1 := by
  refine utf8Reader.scan_out validUtf8_nil ?_ text
  intro i out rest mo h hm
  refine ValidUtf8.append ?_ hm
  change readUnit i = some (out, rest) at h
  unfold readUnit at h
  split at h
  · simp at h
  · split at h
    · simp at h
    · obtain ⟨rfl, _⟩ := Prod.mk.inj (some.inj h)
      exact validUtf8_replacement
    next hco =>
      obtain ⟨rfl, _⟩ := Prod.mk.inj (some.inj h)
      obtain ⟨c, hc⟩ := encodes_of_complete hco
      exact ⟨[c], by simpa using hc⟩

lemma readUnit_encodes (c : Char) (rest : Utf8) :
    readUnit (utf8EncodeChar c ++ rest) = some (utf8EncodeChar c, rest) := by
  have hn : (utf8EncodeChar c ++ rest).isEmpty = false := by
    simp [String.utf8EncodeChar_ne_nil]
  unfold readUnit
  rw [if_neg (by simp [hn]), complete_of_encodes]
  simp

variable {text : Utf8}

lemma scan_of_validUtf8 (h : ValidUtf8 text) : utf8Reader.scan text = (text, []) := by
  obtain ⟨cs, rfl⟩ := h
  induction cs with
  | nil => exact utf8Reader.scan_nil
  | cons c cs ih =>
    have hr : utf8Reader.read (utf8EncodeChar c ++ cs.flatMap utf8EncodeChar) =
        some (utf8EncodeChar c, cs.flatMap utf8EncodeChar) := readUnit_encodes c _
    rw [flatMap_cons, utf8Reader.scan_some hr, ih]

lemma normalizeFinalUtf8_of_validUtf8 (h : ValidUtf8 text) : normalizeFinalUtf8 text = text := by
  simp [normalizeFinalUtf8, scan_of_validUtf8 h]

lemma validUtf8_normalizeFinalUtf8 (text : Utf8) : ValidUtf8 (normalizeFinalUtf8 text) := by
  unfold normalizeFinalUtf8
  simp only
  split
  · exact validUtf8_scan text
  · exact (validUtf8_scan text).append validUtf8_replacement

/-- The part of `generation_stream_sink` that `drain_generation_utf8` uses. -/
structure StreamSink where
  utf8Pending : Utf8 := []
  reasoningSeparatorPending : Bool := false
  deriving Repr, DecidableEq

/-- The two newlines the template puts behind a natural end of the reasoning. -/
def stripSeparator (text : Utf8) : Utf8 := if text.take 2 = [10, 10] then text.drop 2 else text

variable (pending : Utf8) (sink : StreamSink) (ready : Utf8) (ps : List Utf8)

/-- The loop of `drain_generation_utf8`, with the bytes that are ready to be sent. -/
def drainUnits (final : Bool) : Utf8 × Utf8 :=
  let (ready, left) := utf8Reader.scan pending
  if final && !left.isEmpty then ([], ready ++ replacement) else (left, ready)

def drainGenerationUtf8 (final : Bool) : StreamSink × Utf8 :=
  if sink.reasoningSeparatorPending
      && (!final && (sink.utf8Pending == [] || sink.utf8Pending == [10])) then
    (sink, [])
  else
    let pending :=
      if sink.reasoningSeparatorPending then stripSeparator sink.utf8Pending else sink.utf8Pending
    let (left, ready) := drainUnits pending final
    ({ utf8Pending := left, reasoningSeparatorPending := false }, ready)

def emitted : List Utf8 := if ready.isEmpty then [] else [ready]

def streamed (sink : StreamSink) : List Utf8 → List Utf8
  | [] => emitted (drainGenerationUtf8 sink true).2
  | piece :: pieces =>
    let (sink, ready) :=
      drainGenerationUtf8 { sink with utf8Pending := sink.utf8Pending ++ piece } false
    emitted ready ++ streamed sink pieces

@[simp] lemma flatten_emitted : (emitted ready).flatten = ready := by
  unfold emitted
  split
  next h => simpa using (isEmpty_iff.1 h).symm
  · simp

lemma drainUnits_final : (drainUnits pending true).2 = normalizeFinalUtf8 pending := by
  simp only [drainUnits, normalizeFinalUtf8, Bool.true_and]
  cases hle : (utf8Reader.scan pending).2.isEmpty <;> simp

lemma normalizeFinalUtf8_append (text mo : Utf8) : normalizeFinalUtf8 (text ++ mo) =
    (utf8Reader.scan text).1 ++ normalizeFinalUtf8 ((utf8Reader.scan text).2 ++ mo) := by
  simp only [normalizeFinalUtf8, utf8Reader.scan_append text mo]
  split <;> simp

lemma drainGenerationUtf8_open : drainGenerationUtf8 { utf8Pending := pending } false =
      ({ utf8Pending := (utf8Reader.scan pending).2 }, (utf8Reader.scan pending).1) := by
  simp [drainGenerationUtf8, drainUnits]

lemma flatten_streamed_open : (streamed { utf8Pending := pending } ps).flatten =
      normalizeFinalUtf8 (pending ++ ps.flatten) := by
  induction ps generalizing pending with
  | nil => simp [streamed, drainGenerationUtf8, drainUnits_final]
  | cons p ps ih =>
    simp only [streamed, drainGenerationUtf8_open, flatten_append, flatten_emitted, ih]
    rw [flatten_cons, ← append_assoc, normalizeFinalUtf8_append (pending ++ p)]

lemma stripSeparator_append (more : Utf8) (h : text ≠ []) (h' : text ≠ [10]) :
    stripSeparator (text ++ more) = stripSeparator text ++ more := by
  match text with
  | [] => exact absurd rfl h
  | [byte] =>
    have hb : byte ≠ 10 := fun he => h' (by rw [he])
    simp [stripSeparator, hb]
  | first :: se :: rest =>
    simp only [stripSeparator, cons_append, take_succ_cons, take_zero, drop_succ_cons, drop_zero]
    split <;> rfl

lemma flatten_streamed_separator {pending : Utf8} (hp : pending = [] ∨ pending = [10])
    (ps : List Utf8) :
    (streamed { utf8Pending := pending, reasoningSeparatorPending := true } ps).flatten =
      normalizeFinalUtf8 (stripSeparator (pending ++ ps.flatten)) := by
  induction ps generalizing pending with
  | nil => simp [streamed, drainGenerationUtf8, drainUnits_final]
  | cons p ps ih =>
    by_cases hw : pending ++ p = [] ∨ pending ++ p = [10]
    · have hd : drainGenerationUtf8
          { utf8Pending := pending ++ p, reasoningSeparatorPending := true } false =
          ({ utf8Pending := pending ++ p, reasoningSeparatorPending := true }, []) := by
        unfold drainGenerationUtf8
        rw [if_pos (by simpa using hw)]
      simp only [streamed, hd, flatten_append, flatten_emitted, nil_append, ih hw]
      rw [flatten_cons, append_assoc]
    · rw [not_or] at hw
      have hd : drainGenerationUtf8
          { utf8Pending := pending ++ p, reasoningSeparatorPending := true } false =
          ({ utf8Pending := (utf8Reader.scan (stripSeparator (pending ++ p))).2 },
            (utf8Reader.scan (stripSeparator (pending ++ p))).1) := by
        unfold drainGenerationUtf8
        rw [if_neg (by simpa using hw)]
        simp [drainUnits]
      simp only [streamed, hd, flatten_append, flatten_emitted, flatten_streamed_open]
      rw [flatten_cons, ← append_assoc, stripSeparator_append ps.flatten hw.1 hw.2,
        normalizeFinalUtf8_append (stripSeparator (pending ++ p))]

lemma validUtf8_drain (f : Bool) : ValidUtf8 (drainGenerationUtf8 sink f).2 := by
  unfold drainGenerationUtf8
  split
  · exact validUtf8_nil
  · simp only [drainUnits]
    generalize (if sink.reasoningSeparatorPending then stripSeparator sink.utf8Pending
      else sink.utf8Pending) = pending
    split
    · exact (validUtf8_scan pending).append validUtf8_replacement
    · exact validUtf8_scan pending

lemma validUtf8_streamed : ∀ chunk ∈ streamed sink ps, ValidUtf8 chunk := by
  have he : ∀ re chunk, ValidUtf8 re → chunk ∈ emitted re → ValidUtf8 chunk := by
    intro re chunk hr hc
    unfold emitted at hc
    split at hc
    · simp at hc
    · rw [mem_singleton.1 hc]
      exact hr
  induction ps generalizing sink with
  | nil =>
    intro chunk hc
    exact he _ chunk (validUtf8_drain sink true) hc
  | cons p ps ih =>
    intro chunk hc
    rcases mem_append.1 hc with hc | hc
    · exact he _ chunk (validUtf8_drain _ false) hc
    · exact ih _ chunk hc

lemma validUtf8_stripSeparator (h : ValidUtf8 text) : ValidUtf8 (stripSeparator text) := by
  have hd : ∀ rest, ValidUtf8 (10 :: rest) → ValidUtf8 rest := by
    rintro rest ⟨cs, hc⟩
    cases cs with
    | nil => simp at hc
    | cons c cs =>
      rw [flatMap_cons] at hc
      have hrd := readUnit_encodes c (cs.flatMap utf8EncodeChar)
      rw [← hc] at hrd
      have hn : readUnit (10 :: rest) = some ([10], rest) := by
        simp [readUnit, inspectUtf8Unit]
      rw [hn, some.injEq, Prod.mk.injEq] at hrd
      exact ⟨cs, hrd.2⟩
  unfold stripSeparator
  split
  next ht =>
    match text, ht with
    | first :: se :: rest, ht =>
      simp only [take_succ_cons, take_zero, cons.injEq, and_true] at ht
      obtain ⟨rfl, rfl⟩ := ht
      exact hd rest (hd (10 :: rest) h)
  · exact h

/-- However the text is cut into pieces, the chunks sent make up the final text, each of them is
well formed, a well-formed text is sent as it is, and normalising twice changes nothing. -/
theorem streamed_text_eq_final (separator : Bool) (pieces : List Utf8) :
    (streamed { reasoningSeparatorPending := separator } pieces).flatten =
      normalizeFinalUtf8
        (if separator then stripSeparator pieces.flatten else pieces.flatten) ∧
    (∀ chunk ∈ streamed { reasoningSeparatorPending := separator } pieces, ValidUtf8 chunk) ∧
    (ValidUtf8 pieces.flatten →
      (streamed { reasoningSeparatorPending := separator } pieces).flatten =
        if separator then stripSeparator pieces.flatten else pieces.flatten) ∧
    ∀ text, (ValidUtf8 text → normalizeFinalUtf8 text = text) ∧
      normalizeFinalUtf8 (normalizeFinalUtf8 text) = normalizeFinalUtf8 text := by
  have hs : (streamed { reasoningSeparatorPending := separator } pieces).flatten =
      normalizeFinalUtf8 (if separator then stripSeparator pieces.flatten else pieces.flatten) := by
    cases separator with
    | false => exact flatten_streamed_open [] pieces
    | true => exact flatten_streamed_separator (.inl rfl) pieces
  refine ⟨hs, validUtf8_streamed _ pieces, ?_, ?_⟩
  · intro hv
    rw [hs]
    refine normalizeFinalUtf8_of_validUtf8 ?_
    split
    · exact validUtf8_stripSeparator hv
    · exact hv
  · intro text
    exact ⟨normalizeFinalUtf8_of_validUtf8,
      normalizeFinalUtf8_of_validUtf8 (validUtf8_normalizeFinalUtf8 text)⟩

end AxiomKernel.Qwen38.Api
