import Mathlib.Data.List.Basic
import Mathlib.Data.List.Infix

/-!
# Greedy decoding and draft acceptance

A next-token function reads a token history and returns one token. Its greedy output from a
history asks it again and again, feeding every answer back. A verifier that is given a block
`anchor :: draft` answers each row of the block at once; this file says which rows are greedy
output, whatever the draft holds, and how partial outputs compose. It is used with a stop
predicate, after which the output ends.
-/
namespace Greedy

open List Nat

variable {τ : Type*}

/-- The first `n` tokens of the greedy output of `f` from the history `h`. -/
def greedy (f : List τ → τ) : List τ → Nat → List τ
  | _, 0 => []
  | h, n + 1 => f h :: greedy f (h ++ [f h]) n

variable (f : List τ → τ) (h : List τ)

@[simp] lemma greedy_zero : greedy f h 0 = [] := rfl

@[simp] lemma length_greedy (n : Nat) : (greedy f h n).length = n := by
  induction n generalizing h with
  | zero => rfl
  | succ n ih => simp [greedy, ih]

lemma greedy_add (m n : Nat) :
    greedy f h (m + n) = greedy f h m ++ greedy f (h ++ greedy f h m) n := by
  induction m generalizing h with
  | zero => simp
  | succ m ih => rw [Nat.add_right_comm]; simp [greedy, ih]

lemma greedy_succ_last (n : Nat) :
    greedy f h (n + 1) = greedy f h n ++ [f (h ++ greedy f h n)] := by
  rw [greedy_add]; rfl

lemma greedy_isPrefix {m n : Nat} (hm : m ≤ n) : greedy f h m <+: greedy f h n := by
  obtain ⟨k, rfl⟩ := Nat.exists_eq_add_of_le hm
  exact ⟨_, (greedy_add f h m k).symm⟩

/-- A list up to and including its first element that satisfies `p`. -/
def takeThrough (p : τ → Bool) : List τ → List τ
  | [] => []
  | x :: xs => if p x then [x] else x :: takeThrough p xs

variable (p : τ → Bool)

lemma takeThrough_isPrefix (xs : List τ) : takeThrough p xs <+: xs := by
  induction xs with
  | nil => exact prefix_rfl
  | cons x xs ih =>
    unfold takeThrough
    split
    · exact ⟨xs, rfl⟩
    · exact (prefix_cons_inj x).2 ih

lemma takeThrough_dropLast (xs : List τ) : ∀ x ∈ (takeThrough p xs).dropLast, p x = false := by
  induction xs with
  | nil => simp [takeThrough]
  | cons y ys ih =>
    intro x hx
    unfold takeThrough at hx
    split at hx
    · simp at hx
    · rename_i hy
      cases hc : takeThrough p ys with
      | nil => rw [hc] at hx; simp at hx
      | cons z zs =>
        rw [hc, dropLast_cons_cons, mem_cons] at hx
        rcases hx with rfl | hx
        · simpa using hy
        · exact ih x (by rw [hc]; exact hx)

lemma takeThrough_eq_self (xs : List τ)
    (h : ∀ x ∈ xs.dropLast, p x = false) : takeThrough p xs = xs := by
  induction xs with
  | nil => rfl
  | cons x xs ih =>
    cases xs with
    | nil => unfold takeThrough; split <;> simp [takeThrough]
    | cons y ys =>
      have hx : p x = false := h x (by simp)
      rw [takeThrough, if_neg (by simp [hx]), ih]
      intro z hz
      exact h z (by simp [hz])

/-- `out` is an initial part of the greedy output of `f` from `h`, cut right after the first
token that `stop` holds of. -/
def CutGreedy (f : List τ → τ) (stop : τ → Bool) (h out : List τ) : Prop :=
  ∃ n, out <+: takeThrough stop (greedy f h n)

lemma dropLast_prefix_mem {a b : List τ} (ha : a <+: b) {x : τ} (hx : x ∈ a.dropLast) :
    x ∈ b.dropLast := by
  obtain ⟨c, rfl⟩ := ha
  cases c with
  | nil => simpa using hx
  | cons y ys =>
    rw [dropLast_append_of_ne_nil (by simp)]
    exact mem_append_left _ (mem_of_mem_dropLast hx)

lemma cutGreedy_iff (st : τ → Bool) (h out : List τ) : CutGreedy f st h out ↔
    out = greedy f h out.length ∧ ∀ x ∈ out.dropLast, st x = false := by
  constructor
  · rintro ⟨n, hn⟩
    have ho : out <+: greedy f h n := hn.trans (takeThrough_isPrefix st _)
    have hl : out.length ≤ n := by simpa using ho.length_le
    refine ⟨?_, fun x hx => takeThrough_dropLast st _ x (dropLast_prefix_mem hn hx)⟩
    exact (prefix_of_prefix_length_le ho (greedy_isPrefix f h hl) (by simp)).eq_of_length (by simp)
  · rintro ⟨hg, hs⟩
    exact ⟨out.length, by rw [← hg, takeThrough_eq_self st out hs]⟩

/-- The verifier's answer to every row of a block: row `i` sees the rows up to `i`. -/
def blockRows (f : List τ → τ) : List τ → List τ → List τ
  | _, [] => []
  | h, x :: xs => f (h ++ [x]) :: blockRows f (h ++ [x]) xs

@[simp] lemma length_blockRows (h xs : List τ) : (blockRows f h xs).length = xs.length := by
  induction xs generalizing h with
  | nil => rfl
  | cons x xs ih => simp [blockRows, ih]

lemma getElem?_blockRows (h xs : List τ) (i : Nat) (hi : i < xs.length) :
    (blockRows f h xs)[i]? = some (f (h ++ xs.take (i + 1))) := by
  induction xs generalizing h i with
  | nil => simp at hi
  | cons x xs ih =>
    cases i with
    | zero => simp [blockRows]
    | succ i =>
      have hi' : i < xs.length := by simpa using hi
      simp [blockRows, ih (h ++ [x]) i hi']

def matchLength [DecidableEq τ] : List τ → List τ → Nat
  | x :: xs, y :: ys => if x = y then matchLength xs ys + 1 else 0
  | _, _ => 0

lemma matchLength_le_left [DecidableEq τ] (xs ys : List τ) : matchLength xs ys ≤ xs.length := by
  induction xs generalizing ys with
  | nil => simp [matchLength]
  | cons x xs ih =>
    cases ys with
    | nil => simp [matchLength]
    | cons y ys =>
      have := ih ys
      unfold matchLength
      split
      · simp only [length_cons]; omega
      · exact zero_le _

variable {k : Nat} {xs ys h : List τ} {sel : List τ → τ → Prop}

lemma take_matchLength [DecidableEq τ] (xs ys : List τ) (hk : k ≤ matchLength xs ys) :
    xs.take k = ys.take k := by
  induction xs generalizing ys k with
  | nil =>
    have : k = 0 := by simpa [matchLength] using hk
    simp [this]
  | cons x xs ih =>
    cases ys with
    | nil =>
      have : k = 0 := by simpa [matchLength] using hk
      simp [this]
    | cons y ys =>
      unfold matchLength at hk
      split at hk
      · rename_i hx
        cases k with
        | zero => simp
        | succ k => simp [hx, ih ys (le_of_succ_le_succ hk)]
      · have : k = 0 := by omega
        simp [this]

lemma getElem?_of_lt_matchLength [DecidableEq τ] {i : Nat} (hi : i < matchLength xs ys) :
    xs[i]? = ys[i]? := by
  have h := take_matchLength xs ys (succ_le_of_lt hi)
  have hx := getElem?_take_of_lt (l := xs) (lt_succ_self i)
  have hy := getElem?_take_of_lt (l := ys) (lt_succ_self i)
  rw [← hx, ← hy, h]

/-- A block `a :: ds` verified from `h`: as long as the draft agrees with the verifier's rows,
the draft is greedy output from `h ++ [a]`. -/
theorem draft_take_eq_greedy [DecidableEq τ] (h : List τ) (a : τ) (ds : List τ)
    (hk : k ≤ matchLength ds (blockRows f h (a :: ds))) :
    ds.take k = greedy f (h ++ [a]) k := by
  induction ds generalizing h a k with
  | nil =>
    have : k = 0 := by simpa [matchLength] using hk
    simp [this]
  | cons d ds ih =>
    cases k with
    | zero => simp
    | succ k =>
      rw [blockRows, matchLength] at hk
      split at hk
      · rename_i hd
        have hre := ih (h ++ [a]) d (le_of_succ_le_succ hk)
        rw [take_succ_cons, greedy, hre, ← hd]
      · omega

/-- The accepted draft and the verifier's row after it are greedy output from `h ++ [a]`. -/
theorem accepted_eq_greedy [DecidableEq τ] (h : List τ) (a : τ) (ds : List τ)
    (hk : k ≤ matchLength ds (blockRows f h (a :: ds))) {t : τ}
    (ht : (blockRows f h (a :: ds))[k]? = some t) :
    ds.take k ++ [t] = greedy f (h ++ [a]) (k + 1) := by
  have hl : k ≤ ds.length := hk.trans (matchLength_le_left _ _)
  have hrow := getElem?_blockRows f h (a :: ds) k (by simpa using lt_succ_of_le hl)
  have hta := draft_take_eq_greedy f h a ds hk
  rw [ht, take_succ_cons, hta] at hrow
  rw [greedy_succ_last, hta, Option.some.inj hrow]
  simp

/-- Each of `ys` is an answer, in the sense of `sel`, to the history through its place in `xs`. -/
def Answers (sel : List τ → τ → Prop) : List τ → List τ → List τ → Prop
  | _, [], [] => True
  | h, x :: xs, y :: ys => sel (h ++ [x]) y ∧ Answers sel (h ++ [x]) xs ys
  | _, _, _ => False

lemma Answers.mono {sel' : List τ → τ → Prop} (ha : Answers sel h xs ys)
    (hs : ∀ h y, sel h y → sel' h y) : Answers sel' h xs ys := by
  induction xs generalizing h ys with
  | nil =>
    cases ys with
    | nil => trivial
    | cons y ys => exact ha.elim
  | cons x xs ih =>
    cases ys with
    | nil => exact ha.elim
    | cons y ys => exact ⟨hs _ _ ha.1, ih ha.2⟩

lemma Answers.take (ha : Answers sel h xs ys) (k : Nat) :
    Answers sel h (xs.take k) (ys.take k) := by
  induction xs generalizing h ys k with
  | nil =>
    cases ys with
    | nil => simpa using ha
    | cons y ys => exact ha.elim
  | cons x xs ih =>
    cases ys with
    | nil => exact ha.elim
    | cons y ys =>
      cases k with
      | zero => simp [Answers]
      | succ k => exact ⟨ha.1, ih ha.2 k⟩

/-- Up to its first difference, a draft that was verified on itself is what was fed back. -/
theorem take_verified [DecidableEq τ] {a : τ} {ds : List τ} (hl : ys.length = ds.length)
    (hk : k ≤ matchLength ds ys) (hkn : k < ds.length) :
    (a :: ds.dropLast).take (k + 1) = a :: (ys.take (k + 1)).dropLast := by
  have hd : ds.dropLast.take k = ds.take k := by
    rw [dropLast_eq_take, take_take, min_eq_left (by omega)]
  have hy : (ys.take (k + 1)).dropLast = ys.take k := by
    rw [dropLast_eq_take, take_take, length_take]
    congr 1
    omega
  rw [take_succ_cons, hd, hy, take_matchLength ds ys hk]

end Greedy
