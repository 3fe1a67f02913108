import Mathlib.Data.Nat.Digits.Lemmas
import AxiomKernel.Lib.Image

/-!
# Texts of bytes

Decimal numbers without leading zeros, and netstrings: a text behind its length. Decimal numbers
are read back by the digits in front of the first other character, so no netstring is the start
of another one.
-/
namespace Text

open Image List Nat

def ascii (text : String) : Bytes := text.toList.map Char.toUInt8

def isDigit (byte : UInt8) : Bool := 48 ≤ byte && byte ≤ 57

def digit (d : Nat) : UInt8 := UInt8.ofNat (48 + d)

def decimal (n : Nat) : Bytes :=
  if n = 0 then [48] else (Nat.digits 10 n).reverse.map digit

def value (digits : Bytes) : Nat := digits.foldl (fun v byte => v * 10 + (byte.toNat - 48)) 0

variable {d n : Nat} {byte : UInt8} {xs ys : Bytes}

lemma toNat_digit (h : d < 10) : (digit d).toNat = 48 + d := by
  rw [digit, UInt8.toNat_ofNat']
  omega

lemma isDigit_digit (h : d < 10) : isDigit (digit d) = true := by
  rw [isDigit, Bool.and_eq_true, decide_eq_true_eq, decide_eq_true_eq, UInt8.le_iff_toNat_le,
    UInt8.le_iff_toNat_le, toNat_digit h]
  exact ⟨le_add_right 48 d, by change 48 + d ≤ 57; omega⟩

lemma isDigit_of_mem_decimal (h : byte ∈ decimal n) : isDigit byte = true := by
  rw [decimal] at h
  split at h
  · rw [mem_singleton.1 h]
    decide
  · obtain ⟨d, hd, rfl⟩ := mem_map.1 h
    exact isDigit_digit (digits_lt_base (by decide) (mem_reverse.1 hd))

lemma value_map_digit {ds : List Nat} (h : ∀ d ∈ ds, d < 10) :
    value (ds.reverse.map digit) = ofDigits 10 ds := by
  induction ds with
  | nil => rfl
  | cons d ds ih =>
    have hd := h d mem_cons_self
    have ih := ih fun e he => h e (mem_cons_of_mem d he)
    rw [value] at ih
    rw [value, reverse_cons, map_append, foldl_append, ih, map_singleton,
      foldl_cons, foldl_nil, toNat_digit hd, ofDigits_cons]
    omega

@[simp] lemma value_decimal (n : Nat) : value (decimal n) = n := by
  rw [decimal]
  split
  · rename_i hz
    rw [hz]
    decide
  · rw [value_map_digit fun d hd => digits_lt_base (by decide) hd, ofDigits_digits]

lemma decimal_injective : Function.Injective decimal := by
  intro m n h
  rw [← value_decimal m, h, value_decimal]

lemma decimal_ne_nil (n : Nat) : decimal n ≠ [] := by
  rw [decimal]
  split
  · simp
  · rename_i hz
    simpa [digits_eq_nil_iff_eq_zero] using hz

lemma head?_decimal_ne (h : n ≠ 0) : (decimal n).head? ≠ some 48 := by
  have hn : digits 10 n ≠ [] := digits_ne_nil_iff_ne_zero.2 h
  have hla := getLast_digit_ne_zero 10 h
  have hl : (digits 10 n).getLast hn < 10 := digits_lt_base (by decide) (getLast_mem hn)
  rw [decimal, if_neg h, head?_map, head?_reverse, getLast?_eq_some_getLast hn, Option.map_some]
  intro hz
  have := congrArg UInt8.toNat (Option.some.inj hz)
  rw [toNat_digit hl] at this
  change 48 + _ = 48 at this
  omega

lemma decimal_append_injective {m : Nat} (hby : isDigit byte = false)
    (h : decimal m ++ byte :: xs = decimal n ++ byte :: ys) : m = n ∧ xs = ys := by
  have hs : ∀ (n : Nat) (xs : Bytes), (decimal n ++ byte :: xs).takeWhile isDigit = decimal n := by
    intro n xs
    rw [takeWhile_append_of_pos fun b hb => isDigit_of_mem_decimal hb,
      takeWhile_cons_of_neg (by rw [hby]; decide), append_nil]
  have hd : decimal m = decimal n := by rw [← hs m xs, h, hs]
  rw [hd] at h
  have hre := append_cancel_left h
  exact ⟨decimal_injective hd, (cons.inj hre).2⟩

def netstring (text : Bytes) : Bytes := decimal text.length ++ 58 :: (text ++ [59])

lemma netstring_append_injective {x y : Bytes} (h : netstring x ++ xs = netstring y ++ ys) :
    x = y ∧ xs = ys := by
  rw [netstring, netstring, append_assoc, append_assoc, cons_append,
    cons_append, append_assoc, append_assoc] at h
  obtain ⟨hl, hta⟩ := decimal_append_injective (by decide) h
  obtain ⟨ht, hr⟩ := append_inj hta hl
  exact ⟨ht, (cons.inj hr).2⟩

lemma flatMap_netstring_append_injective {ts ts' : List Bytes} (hl : ts.length = ts'.length)
    (h : ts.flatMap netstring ++ xs = ts'.flatMap netstring ++ ys) :
    ts = ts' ∧ xs = ys := by
  induction ts generalizing ts' with
  | nil =>
    rw [eq_nil_of_length_eq_zero hl.symm] at h ⊢
    exact ⟨rfl, h⟩
  | cons te ts ih =>
    cases ts' with
    | nil => cases hl
    | cons te' ts' =>
      rw [flatMap_cons, flatMap_cons, append_assoc, append_assoc] at h
      obtain ⟨rfl, ht⟩ := netstring_append_injective h
      obtain ⟨rfl, hr⟩ := ih (succ.inj hl) ht
      exact ⟨rfl, hr⟩

def hexDigit (d : Nat) : UInt8 := if d < 10 then UInt8.ofNat (48 + d) else UInt8.ofNat (87 + d)

/-- The last `width` digits, lower case, padded with zeros. -/
def hex : Nat → Nat → Bytes
  | 0, _ => []
  | width + 1, n => hex width (n / 16) ++ [hexDigit (n % 16)]

def isLowerHex (byte : UInt8) : Bool := isDigit byte || (97 ≤ byte && byte ≤ 102)

lemma isLowerHex_hexDigit (h : d < 16) : isLowerHex (hexDigit d) = true := by
  revert d
  decide

@[simp] lemma length_hex (width n : Nat) : (hex width n).length = width := by
  induction width generalizing n with
  | zero => rfl
  | succ width ih => rw [hex, length_append, ih, length_singleton]

lemma isLowerHex_of_mem_hex {wi : Nat} (h : byte ∈ hex wi n) : isLowerHex byte = true := by
  induction wi generalizing n with
  | zero => cases h
  | succ wi ih =>
    rw [hex, mem_append, mem_singleton] at h
    obtain h | rfl := h
    · exact ih h
    · exact isLowerHex_hexDigit (mod_lt n (by decide))

example : decimal 4096 = ascii "4096" := by decide
example : netstring (ascii "a;2:") = ascii "4:a;2:;" := by decide
example : hex 4 0x2af = ascii "02af" := by decide

end Text
