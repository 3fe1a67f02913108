import AxiomKernel.Qwen38.SessionStore.Key

/-!
The names that the garbage collection of sessions reads and writes: the files of a session and the
tombstones of namespaces that are being deleted. The name under which a namespace is deleted is one
that the reader of tombstones takes for that namespace.
-/
namespace AxiomKernel.Qwen38.SessionStore

open Image Text List Nat

def dot : UInt8 := 0x2e
def zero : UInt8 := 0x30

variable (text : Bytes)

def isLowerHex32 : Bool := text.length = 32 && text.all isLowerHex

def kU64Max : Nat := 2 ^ 64 - 1

def digitValue (character : UInt8) : Nat := character.toNat - 48

/-- The loop of `exact_positive_decimal_components`. -/
def decimalComponents (expected : Nat) : Bytes → Nat → Nat → Bool → Bool
  | [], components, value, haveDigit => components = expected && haveDigit && value ≠ 0
  | character :: text, components, value, haveDigit =>
    if isDigit character then
      if !haveDigit && character = zero then false
      else if (kU64Max - digitValue character) / 10 < value then false
      else decimalComponents expected text components (value * 10 + digitValue character) true
    else if character ≠ dot || !haveDigit || value = 0 || expected ≤ components then false
    else decimalComponents expected text (components + 1) 0 false

def exactPositiveDecimalComponents (expected : Nat) : Bool :=
  if text = [] || expected = 0 || text.head? = some dot || text.getLast? = some dot then false
  else decimalComponents expected text 1 0 false

def generationValue : Bytes → Nat → Option Nat
  | [], value => some value
  | character :: digits, value =>
    if !isDigit character then none
    else if (kU64Max - digitValue character) / 10 < value then none
    else generationValue digits (value * 10 + digitValue character)

def generationSuffixes : List Bytes := [ascii ".kv", ascii ".kv.txn", ascii ".kv.txn.tmp"]

def parseGenerationFilename (name sessionStem : Bytes) : Option Nat :=
  let start := sessionStem ++ ascii ".g"
  match generationSuffixes.find? fun suffix => suffix.length < name.length && suffix <:+ name with
  | none => none
  | some suffix =>
    if name.length ≤ start.length + suffix.length ∨ name.take start.length ≠ start ∨
        name[start.length]? = some zero then none
    else
      match generationValue ((name.take (name.length - suffix.length)).drop start.length) 0 with
      | none => none
      | some value => if value = 0 then none else some value

def parseSessionArtifact (name : Bytes) : Option Bytes :=
  let stem := name.take 32
  let suffix := name.drop 32
  let temporary := ascii ".manifest.tmp."
  if name.length ≤ 32 ∨ !isLowerHex32 stem then none
  else if suffix = ascii ".manifest" ∨ (parseGenerationFilename name stem).isSome ∨
      (suffix.take temporary.length = temporary ∧
        exactPositiveDecimalComponents (suffix.drop temporary.length) 2) then some stem
  else none

def parseGcTombstone (name : Bytes) : Option Bytes :=
  let candidate := (name.drop 4).take 32
  if name.length ≤ 4 + 32 + 1 ∨ name.take 4 ≠ ascii ".gc." then none
  else if !isLowerHex32 candidate ∨ name[36]? ≠ some dot ∨
      !exactPositiveDecimalComponents (name.drop 37) 3 then none
  else some candidate

/-- The name that `prune_stale_sessions` gives a namespace. -/
def tombstoneName (namespaceId : Bytes) (pid now sequence : Nat) : Bytes :=
  ascii ".gc." ++ namespaceId ++ ascii "." ++ decimal pid ++ ascii "." ++ decimal now ++
    ascii "." ++ decimal sequence

lemma length_of_isLowerHex32 {te : Bytes} (h : isLowerHex32 te) : te.length = 32 := by
  rw [isLowerHex32, Bool.and_eq_true, decide_eq_true_eq] at h
  exact h.1

variable {name id : Bytes} {expected components value : Nat}

lemma parseSessionArtifact_ne_nil {st : Bytes} (h : parseSessionArtifact name = some st) :
    st ≠ [] := by
  unfold parseSessionArtifact at h
  dsimp only at h
  split at h
  · cases h
  · rename_i hn
    split at h
    · rw [← Option.some.inj h]
      intro hni
      have hl := congrArg length hni
      rw [length_take, length_nil] at hl
      omega
    · cases h

lemma parseGcTombstone_spec (h : parseGcTombstone name = some id) :
    isLowerHex32 id ∧ isLowerHex32 name = false := by
  unfold parseGcTombstone at h
  dsimp only at h
  split at h
  · cases h
  · rename_i hl
    split at h
    · cases h
    · rename_i hi
      cases h
      simp only [not_or, Bool.not_eq_true', Bool.not_eq_false] at hi
      refine ⟨hi.1, ?_⟩
      by_contra hlive
      have := length_of_isLowerHex32 (Bool.not_eq_false _ ▸ hlive)
      omega

lemma isLowerHex32_tombstoneName (id : Bytes) (pid now sequence : Nat) :
    isLowerHex32 (tombstoneName id pid now sequence) = false := by
  have hf : isLowerHex dot = false := by decide
  refine Bool.eq_false_iff.2 fun h => ?_
  rw [isLowerHex32, Bool.and_eq_true, all_eq_true] at h
  have hm : dot ∈ tombstoneName id pid now sequence := by
    simp only [tombstoneName, append_assoc]
    exact mem_append_left _ (by decide)
  rw [h.2 dot hm] at hf
  cases hf

lemma le_foldl_digits (ds : Bytes) (value : Nat) :
    value ≤ ds.foldl (fun v b => v * 10 + (b.toNat - 48)) value := by
  induction ds generalizing value with
  | nil => exact le_refl _
  | cons b ds ih =>
    have hst := ih (value * 10 + (b.toNat - 48))
    rw [foldl_cons]
    omega

/-- Digits behind a digit go into the value, as long as it does not overflow. -/
lemma decimalComponents_digits {ds : Bytes} (re : Bytes) (hd : ∀ byt ∈ ds, isDigit byt)
    (hv : ds.foldl (fun v byt => v * 10 + (byt.toNat - 48)) value ≤ kU64Max) :
    decimalComponents expected (ds ++ re) components value true =
      decimalComponents expected re components
        (ds.foldl (fun v byt => v * 10 + (byt.toNat - 48)) value) true := by
  induction ds generalizing value with
  | nil => rfl
  | cons byt ds ih =>
    have hby := hd byt mem_cons_self
    have hle := le_foldl_digits ds (value * 10 + (byt.toNat - 48))
    rw [foldl_cons] at hv ⊢
    have hf : ¬ (kU64Max - digitValue byt) / 10 < value := by
      rw [digitValue]
      omega
    rw [cons_append, decimalComponents]
    simp only [hby, if_true, Bool.not_true, Bool.false_and, Bool.false_eq_true, if_false, hf]
    exact ih (fun b hb => hd b (mem_cons_of_mem byt hb)) hv

lemma decimalComponents_decimal {n : Nat} (re : Bytes) (hp : n ≠ 0) (hn : n ≤ kU64Max) :
    decimalComponents expected (decimal n ++ re) components 0 false =
    decimalComponents expected re components n true := by
  have hvl := value_decimal n
  have hh := head?_decimal_ne hp
  have ha := fun byt (h : byt ∈ decimal n) => isDigit_of_mem_decimal h
  rw [value] at hvl
  revert hvl hh ha
  cases decimal n with
  | nil =>
    intro hvl
    exact absurd hvl.symm hp
  | cons byt ds =>
    intro hvl hh ha
    have hby := ha byt mem_cons_self
    have hz : byt ≠ zero := fun h => hh (congrArg some h)
    have hf : ¬ (kU64Max - digitValue byt) / 10 < 0 := not_lt_zero _
    rw [cons_append, decimalComponents]
    simp only [hby, if_true, Bool.not_false, Bool.true_and, decide_eq_true_eq, hz, if_false, hf]
    rw [foldl_cons, zero_mul, zero_add] at hvl
    rw [zero_mul, zero_add, digitValue, decimalComponents_digits re
      (fun b hb => ha b (mem_cons_of_mem byt hb)) (by rw [hvl]; exact hn), hvl]

lemma decimalComponents_dot (re : Bytes) (hv : value ≠ 0) (hr : components < expected) :
    decimalComponents expected (dot :: re) components value true =
    decimalComponents expected re (components + 1) 0 false := by
  have hd : isDigit dot = false := by decide
  rw [decimalComponents]
  simp [hd, hv, not_le.2 hr]

lemma head?_decimal_ne_dot (n : Nat) (re : Bytes) : (decimal n ++ re).head? ≠ some dot := by
  have ha := fun b (h : b ∈ decimal n) => isDigit_of_mem_decimal h
  revert ha
  cases hn : decimal n with
  | nil => exact fun _ => absurd hn (decimal_ne_nil n)
  | cons b ds =>
    intro ha hd
    have hby := ha b mem_cons_self
    rw [Option.some.inj hd] at hby
    exact absurd hby (by decide)

lemma getLast?_decimal_ne_dot (st : Bytes) (n : Nat) : (st ++ decimal n).getLast? ≠ some dot := by
  intro hd
  rw [getLast?_append_of_ne_nil _ (decimal_ne_nil n)] at hd
  have hdig := isDigit_of_mem_decimal (mem_of_getLast? hd)
  exact absurd hdig (by decide)

lemma exactPositiveDecimalComponents_three {a b c : Nat} (ha : a ≠ 0 ∧ a ≤ kU64Max)
    (hb : b ≠ 0 ∧ b ≤ kU64Max) (hc : c ≠ 0 ∧ c ≤ kU64Max) : exactPositiveDecimalComponents
    (decimal a ++ dot :: (decimal b ++ dot :: decimal c)) 3 = true := by
  have hn : decimal a ++ dot :: (decimal b ++ dot :: decimal c) ≠ [] := by simp
  have hfi := head?_decimal_ne_dot a (dot :: (decimal b ++ dot :: decimal c))
  have hl : (decimal a ++ dot :: (decimal b ++ dot :: decimal c)).getLast? ≠ some dot := by
    have h := getLast?_decimal_ne_dot (decimal a ++ dot :: (decimal b ++ [dot])) c
    simpa using h
  rw [exactPositiveDecimalComponents]
  simp only [hn, hfi, hl, decide_false, Bool.or_false, reduceEqDiff, Bool.false_eq_true, if_false]
  have he : decimalComponents 3 [] 3 c true := by
    rw [decimalComponents]
    simp [hc.1]
  rw [decimalComponents_decimal _ ha.1 ha.2, decimalComponents_dot _ ha.1 (by decide),
    decimalComponents_decimal _ hb.1 hb.2, decimalComponents_dot _ hb.1 (by decide),
    ← append_nil (decimal c), decimalComponents_decimal [] hc.1 hc.2]
  exact he

lemma parseGcTombstone_tombstoneName (hi : isLowerHex32 id) {pid now se : Nat}
    (hp : pid ≠ 0 ∧ pid ≤ kU64Max) (hno : now ≠ 0 ∧ now ≤ kU64Max)
    (hs : se ≠ 0 ∧ se ≤ kU64Max) :
    parseGcTombstone (tombstoneName id pid now se) = some id := by
  have hl := length_of_isLowerHex32 hi
  have hcomp := exactPositiveDecimalComponents_three hp hno hs
  have hne := decimal_ne_nil pid
  generalize hr : decimal pid ++ dot :: (decimal now ++ dot :: decimal se) = rest at *
  have hn : tombstoneName id pid now se = ascii ".gc." ++ (id ++ dot :: rest) := by
    rw [← hr, tombstoneName]
    simp only [append_assoc]
    rfl
  have hf : (ascii ".gc.").length = 4 := by decide
  have hta : (ascii ".gc." ++ (id ++ dot :: rest)).take 4 = ascii ".gc." :=
    take_left' hf
  have hdr : (ascii ".gc." ++ (id ++ dot :: rest)).drop 4 = id ++ dot :: rest :=
    drop_left' hf
  have hc : (id ++ dot :: rest).take 32 = id := take_left' hl
  have hd : (ascii ".gc." ++ (id ++ dot :: rest))[36]? = some dot := by
    rw [getElem?_append_right (by omega), hf, getElem?_append_right (by omega), hl]
    rfl
  have ht : (ascii ".gc." ++ (id ++ dot :: rest)).drop 37 = rest := by
    rw [show 37 = 4 + 33 from rfl, ← drop_drop, hdr, show 33 = 32 + 1 from rfl,
      ← drop_drop, drop_left' hl]
    rfl
  have hlo : ¬ (ascii ".gc." ++ (id ++ dot :: rest)).length ≤ 4 + 32 + 1 := by
    have hpo : 0 < rest.length := by
      rw [← hr, length_append]
      have := length_pos_iff.2 hne
      omega
    simp only [length_append, hf, hl, length_cons]
    omega
  rw [hn, parseGcTombstone]
  simp only [hlo, hta, hdr, hc, hi, hd, ht, hcomp, ne_eq, not_true_eq_false,
    Bool.not_true, Bool.false_eq_true, or_self, if_false]

example : parseGcTombstone (ascii ".gc.00112233445566778899aabbccddeeff.123.1000.1") =
    some (ascii "00112233445566778899aabbccddeeff") := by decide +kernel

example : parseSessionArtifact (ascii "00112233445566778899aabbccddeeff.g01.kv") = none := by
  decide +kernel

end AxiomKernel.Qwen38.SessionStore
