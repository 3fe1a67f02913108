import AxiomKernel.Lib.Text

/-! The step engine of `axiom_engine.cpp`: sequences are admitted with their prompt, take a token
each in every step and are retired. What the family chooses and where blocks come from are inputs of
each call. An admission that is refused leaves the others as they are; a step that fails has no
state behind it. -/
namespace AxiomKernel.StepEngine

open List Image Option Nat

structure Family where
  kvBt : Nat
  kvBt_pos : 0 < kvBt
  vocab : Nat
  eosIds : List UInt32
  /-- The text of a token; a reset marker has none. -/
  detok : UInt32 → Option Bytes
  streamAfterResetMarker : Bool

/-- What `axiom_engine_admit` is given. The sum it makes of the limits is an `int`, and the blocks
that the prefix cache hands over are blocks of the prompt. -/
structure Request (f : Family) where
  sid : Nat
  nIn : Nat
  maxNew : Nat
  outCap : Nat
  useEos : Bool
  onPiece : Bool
  reused : List Nat
  fits : nIn + maxNew + 4 < 2 ^ 31
  isPrefix : reused.length * f.kvBt ≤ nIn

/-- A sequence. The tokens behind the prompt are as many as `n_out` and `generated` count. -/
structure Sequence where
  sid : Nat
  nIn : Nat
  maxNew : Nat
  outCap : Nat
  useEos : Bool
  onPiece : Bool
  idsCap : Nat
  blocksCap : Nat
  blockTable : List Nat := []
  pos : Nat := 0
  out : List UInt32 := []
  done : Bool
  streamAfterReset : Bool := false
  pieces : List Bytes := []
  deriving DecidableEq

variable (f : Family)

/-- `engine_seq_ensure_block`; `alloc` is what `engine_block_alloc` returns for each entry. -/
def ensureBlock (alloc : Nat → Option Nat) (s : Sequence) (lb : Nat) : Option Sequence :=
  if s.blockTable.length ≤ lb then
    if s.blocksCap ≤ s.blockTable.length then none
    else do
      let pb ← alloc s.blockTable.length
      ensureBlock alloc { s with blockTable := s.blockTable ++ [pb] } lb
  else some s
termination_by lb + 1 - s.blockTable.length

/-- `axiom_engine_admit`: the sequence that joins the others. -/
def admitSequence (r : Request f) (alloc : Nat → Option Nat) : Option Sequence :=
  let maxseq := r.nIn + r.maxNew + 4
  let s : Sequence := { r with
    idsCap := maxseq, blocksCap := max 1 ((maxseq + f.kvBt - 1) / f.kvBt), done := r.nIn = 0 }
  if r.nIn = 0 then some s
  else do
    let s ← (range' (r.reused.length * f.kvBt) (r.nIn - r.reused.length * f.kvBt)).foldlM
      (fun s i => ensureBlock alloc s (i / f.kvBt)) { s with blockTable := r.reused }
    some { s with pos := r.nIn }

def emitPiece (s : Sequence) (id : UInt32) (isEos : Bool) : Sequence :=
  if ¬ s.onPiece ∨ isEos ∨ f.vocab ≤ id.toNat then s
  else
    match f.detok id with
    | none => { s with streamAfterReset := true }
    | some piece =>
      if piece = [] then s
      else if f.streamAfterResetMarker ∧ ¬ s.streamAfterReset then s
      else { s with pieces := s.pieces ++ [piece] }

/-- What a sequence takes, and whether it is active behind that. -/
def select (s : Sequence) (best : UInt32) : Sequence × Bool :=
  if s.done then (s, false)
  else if s.outCap ≤ s.out.length then ({ s with done := true }, false)
  else
    let isEos := s.useEos && f.eosIds.contains best
    let s := emitPiece f { s with out := s.out ++ [best] } best isEos
    if isEos then ({ s with done := true }, false)
    else if s.maxNew ≤ s.out.length then ({ s with done := true }, false)
    else (s, true)

/-- What a step does to one sequence; `none` is a step that fails. -/
def turn (best : UInt32) (alloc : Nat → Option Nat) (s : Sequence) : Option Sequence := do
  let (s, active) := select f s best
  if active then
    let s ← ensureBlock alloc s (s.pos / f.kvBt)
    some { s with pos := s.pos + 1 }
  else some s

/-- The calls; `ok` says that what an admission asks of the device succeeds, and a step is given
what is chosen and allocated for each place among the running. -/
inductive Call where
  | admission (r : Request f) (alloc : Nat → Option Nat) (ok : Bool)
  | step (best : Nat → UInt32) (alloc : Nat → Nat → Option Nat)
  | retire (sid : Nat)

variable {f} in
def Call.retires (sid : Nat) : Call f → Bool
  | .retire id => id = sid
  | _ => false

def stepFrom (best : Nat → UInt32) (alloc : Nat → Nat → Option Nat) :
    Nat → List Sequence → Option (List Sequence)
  | _, [] => some []
  | i, s :: running => do
    let s ← turn f (best i) (alloc i) s
    let running ← stepFrom best alloc (i + 1) running
    some (s :: running)

def call (running : List Sequence) : Call f → Option (List Sequence)
  | .admission r alloc ok =>
    if ok then some (running ++ (admitSequence f r alloc).toList) else some running
  | .step best alloc => stepFrom f best alloc 0 running
  | .retire sid => some (running.eraseP (·.sid = sid))

/-- What holds of a sequence in every state. -/
structure Bounded (s : Sequence) : Prop where
  out_le : s.out.length ≤ s.outCap ∧ s.out.length ≤ max 1 s.maxNew
  empty : s.nIn = 0 → s.done = true ∧ s.out = []
  ids : s.nIn + s.maxNew + 4 = s.idsCap
  table : s.blockTable.length ≤ s.blocksCap
  live : s.done = false → s.pos = s.nIn + s.out.length ∧ s.out.length < max 1 s.maxNew ∧
    s.pos ≤ s.blockTable.length * f.kvBt

variable {f} {s s' : Sequence} {alloc : Nat → Option Nat}

/-- Only the table is written, and it covers the block. -/
lemma ensureBlock_spec {lb : Nat} (h : ensureBlock alloc s lb = some s') :
    ∃ more, s' = { s with blockTable := s.blockTable ++ more } ∧ lb < s'.blockTable.length ∧
      (s.blockTable.length ≤ s.blocksCap → s'.blockTable.length ≤ s.blocksCap) := by
  induction s using ensureBlock.induct lb with
  | case1 s hle hc => simp [ensureBlock, hle, hc] at h
  | case2 s hle hc ih =>
    rw [ensureBlock, if_pos hle, if_neg hc] at h
    obtain ⟨pb, -, h⟩ := bind_eq_some_iff.1 h
    obtain ⟨more, rfl, hlb, hc'⟩ := ih pb h
    refine ⟨pb :: more, by simp, hlb, fun _ => hc' ?_⟩
    simp only [length_append, length_singleton]
    omega
  | case3 s hle =>
    rw [ensureBlock, if_neg hle] at h
    cases h
    exact ⟨[], by simp, by omega, id⟩

lemma prefill_spec {is : List Nat}
    (h : is.foldlM (fun s i => ensureBlock alloc s (i / f.kvBt)) s = some s') :
    ∃ more, s' = { s with blockTable := s.blockTable ++ more } ∧
      (∀ i ∈ is, i < s'.blockTable.length * f.kvBt) ∧
      (s.blockTable.length ≤ s.blocksCap → s'.blockTable.length ≤ s.blocksCap) := by
  induction is generalizing s with
  | nil =>
    cases h
    exact ⟨[], by simp, nofun, id⟩
  | cons i is ih =>
    rw [foldlM_cons] at h
    obtain ⟨t, ht, h⟩ := bind_eq_some_iff.1 h
    obtain ⟨more, rfl, hlb, hc⟩ := ensureBlock_spec ht
    obtain ⟨more', rfl, ha, hc'⟩ := ih h
    refine ⟨more ++ more', by simp, forall_mem_cons.2 ⟨?_, ha⟩, fun h => hc' (hc h)⟩
    have hi := (div_lt_iff_lt_mul f.kvBt_pos).1 hlb
    refine hi.trans_le (mul_le_mul_right _ ?_)
    simp only [length_append]
    omega

lemma admitSequence_bounded {r : Request f} (h : admitSequence f r alloc = some s) :
    Bounded f s := by
  unfold admitSequence at h
  split_ifs at h with h0
  · cases h
    exact ⟨by simp, fun _ => ⟨by simp [h0], rfl⟩, rfl, by simp, by simp [h0]⟩
  · obtain ⟨t, ht, h⟩ := bind_eq_some_iff.1 h
    cases h
    obtain ⟨more, rfl, ha, hc⟩ := prefill_spec ht
    refine ⟨by simp, fun h => absurd h h0, rfl, hc ?_, fun _ => ⟨rfl, by simp, ?_⟩⟩
    · have hpre := r.isPrefix
      have hle : r.reused.length * f.kvBt ≤ r.nIn + r.maxNew + 4 + f.kvBt - 1 := by omega
      exact ((le_div_iff_mul_le f.kvBt_pos).2 hle).trans (le_max_right _ _)
    · by_cases hlt : r.reused.length * f.kvBt < r.nIn
      · have := ha (r.nIn - 1) (by rw [mem_range'_1]; omega)
        dsimp only at this ⊢
        omega
      · refine (not_lt.1 hlt).trans (mul_le_mul_right _ ?_)
        simp

lemma emitPiece_eq (s : Sequence) (id : UInt32) (ie : Bool) : ∃ streamAfterReset pieces,
    emitPiece f s id ie = { s with streamAfterReset, pieces } := by
  unfold emitPiece
  split
  · exact ⟨_, _, rfl⟩
  · split
    · exact ⟨_, _, rfl⟩
    · split_ifs <;> exact ⟨_, _, rfl⟩

/-- A sequence that stays active has taken a token below both of its limits. -/
lemma select_spec (hs : Bounded f s) (best : UInt32) :
    ((select f s best).2 = false → Bounded f (select f s best).1) ∧
    ((select f s best).2 = true → s.done = false ∧ s.out.length < s.outCap ∧
    s.out.length + 1 < s.maxNew ∧ ∃ streamAfterReset pieces, (select f s best).1 =
    { s with out := s.out ++ [best], streamAfterReset, pieces }) := by
  obtain ⟨a, ps, he⟩ := emitPiece_eq (f := f) { s with out := s.out ++ [best] } best
    (s.useEos && f.eosIds.contains best)
  rw [select]
  by_cases hd : s.done = true
  · rw [if_pos hd]
    exact ⟨fun _ => hs, nofun⟩
  by_cases hc : s.outCap ≤ s.out.length
  · rw [if_neg hd, if_pos hc]
    exact ⟨fun _ => ⟨hs.out_le, fun h => ⟨rfl, (hs.empty h).2⟩, hs.ids, hs.table, nofun⟩, nofun⟩
  have hlive := hs.live (by simpa using hd)
  have hin : s.nIn ≠ 0 := fun h => hd (hs.empty h).1
  have ho : (s.out ++ [best]).length ≤ s.outCap ∧ (s.out ++ [best]).length ≤ max 1 s.maxNew := by
    rw [length_append, length_singleton]
    omega
  rw [if_neg hd, if_neg hc]
  dsimp only
  rw [he]
  split_ifs with _ hm
  · exact ⟨fun _ => ⟨ho, fun h => absurd h hin, hs.ids, hs.table, nofun⟩, nofun⟩
  · exact ⟨fun _ => ⟨ho, fun h => absurd h hin, hs.ids, hs.table, nofun⟩, nofun⟩
  · dsimp only at hm
    rw [length_append, length_singleton] at hm
    exact ⟨nofun, fun _ => ⟨by simpa using hd, by omega, by omega, a, ps, rfl⟩⟩

lemma turn_bounded {best : UInt32} (hs : Bounded f s) (h : turn f best alloc s = some s') :
    Bounded f s' := by
  obtain ⟨hst, hgo⟩ := select_spec hs best
  rw [turn] at h
  generalize select f s best = g at h hst hgo
  obtain ⟨t, _ | _⟩ := g
  · cases h
    exact hst rfl
  · obtain ⟨hd, hc, hm, a, ps, rfl⟩ := hgo rfl
    obtain ⟨t, ht, h⟩ := bind_eq_some_iff.1 h
    cases h
    obtain ⟨more, rfl, hlb, hta⟩ := ensureBlock_spec ht
    have hlive := hs.live hd
    have hlt := (div_lt_iff_lt_mul f.kvBt_pos).1 hlb
    have hin : s.nIn ≠ 0 := fun h => absurd (hs.empty h).1 (by simp [hd])
    refine ⟨?_, fun h => absurd h hin, hs.ids, hta hs.table, fun _ => ⟨?_, ?_, hlt⟩⟩ <;>
      simp only [length_append, length_singleton] <;> omega

/-- A turn that is taken, with whatever is chosen and allocated. -/
def Turns (f : Family) (s s' : Sequence) : Prop := ∃ best alloc, turn f best alloc s = some s'

lemma step_turns {best : Nat → UInt32} {alloc : Nat → Nat → Option Nat} {i : Nat}
    {running next : List Sequence} (h : stepFrom f best alloc i running = some next) :
    Forall₂ (Turns f) running next := by
  induction running generalizing i next with
  | nil =>
    cases h
    exact .nil
  | cons s running ih =>
    obtain ⟨s', hs', h⟩ := bind_eq_some_iff.1 h
    obtain ⟨rest, hr, h⟩ := bind_eq_some_iff.1 h
    cases h
    exact .cons ⟨_, _, hs'⟩ (ih hr)

lemma mem_admitted {running next : List Sequence} {r : Request f} {ok : Bool}
    (h : call f running (.admission r alloc ok) = some next) :
    ∃ more, next = running ++ more ∧ ∀ s ∈ more, admitSequence f r alloc = some s := by
  rw [call] at h
  split_ifs at h
  · cases h
    exact ⟨_, rfl, fun s hs => by simpa using hs⟩
  · cases h
    exact ⟨[], (append_nil _).symm, fun s hs => absurd hs not_mem_nil⟩

/-- What every admitted sequence has and every turn keeps, all sequences have. -/
lemma run_all {P : Sequence → Prop} (hst : ∀ r alloc s, admitSequence f r alloc = some s → P s)
    (ht : ∀ best alloc s s', P s → turn f best alloc s = some s' → P s') {calls : List (Call f)}
    {running next : List Sequence} (hr : ∀ s ∈ running, P s)
    (h : calls.foldlM (call f) running = some next) : ∀ s ∈ next, P s := by
  induction calls generalizing running with
  | nil =>
    cases h
    exact hr
  | cons k calls ih =>
    rw [foldlM_cons] at h
    obtain ⟨mid, hk, h⟩ := bind_eq_some_iff.1 h
    refine ih ?_ h
    cases k with
    | admission r alloc ok =>
      obtain ⟨more, rfl, hm⟩ := mem_admitted hk
      exact forall_mem_append.2 ⟨hr, fun s hs => hst r alloc s (hm s hs)⟩
    | step best alloc =>
      intro s' hs'
      obtain ⟨i, hi, rfl⟩ := getElem_of_mem hs'
      have hall := forall₂_iff_get.1 (step_turns hk)
      obtain ⟨b, a, hturn⟩ := hall.2 i (by rw [hall.1]; exact hi) hi
      exact ht _ _ _ _ (hr _ (get_mem _ _)) hturn
    | retire sid =>
      cases hk
      exact fun s hs => hr s (eraseP_subset hs)

/-- The finished sequences that none of the calls retires. -/
def finished (running : List Sequence) (later : List (Call f)) : List Sequence :=
  running.filter fun s => s.done && !later.any (·.retires s.sid)

lemma turn_done (h : Turns f s s') (hd : s.done = true) : s' = s := by
  obtain ⟨best, alloc, h⟩ := h
  rw [turn, select, if_pos hd] at h
  cases h
  rfl

lemma filter_call {running next : List Sequence} {k : Call f} {keep : Sequence → Bool}
    (hk : ∀ s, keep s = true → s.done = true ∧ k.retires s.sid = false)
    (h : call f running k = some next) : running.filter keep <+ next.filter keep := by
  cases k with
  | admission r alloc ok =>
    obtain ⟨more, rfl, -⟩ := mem_admitted h
    exact (sublist_append_left _ _).filter keep
  | step best alloc =>
    have hall := step_turns h
    clear h
    induction hall with
    | nil => exact .slnil
    | @cons s s' _ _ hs _ ih =>
      by_cases hd : keep s = true
      · rw [turn_done hs (hk s hd).1, filter_cons_of_pos hd, filter_cons_of_pos hd]
        exact ih.cons_cons s
      · rw [filter_cons_of_neg hd]
        exact ih.trans ((sublist_cons_self _ _).filter keep)
  | retire sid =>
    cases h
    induction running with
    | nil => exact .slnil
    | cons s running ih =>
      by_cases hs : s.sid = sid
      · have hn : ¬ keep s = true := fun h => by simpa [Call.retires, hs] using (hk s h).2
        rw [eraseP_cons_of_pos (by simpa using hs), filter_cons_of_neg hn]
      · rw [eraseP_cons_of_neg (by simpa using hs), filter_cons, filter_cons]
        split
        · exact ih.cons_cons s
        · exact ih

/-- A sequence that is done stays as it is, whatever is called, until it is retired. -/
lemma finished_run {running next : List Sequence} {later : List (Call f)}
    (h : later.foldlM (call f) running = some next) : finished running later <+ next := by
  suffices ∀ keep : Sequence → Bool, (∀ s, keep s = true → s.done = true ∧
      ∀ k ∈ later, k.retires s.sid = false) → running.filter keep <+ next from
    this _ fun s hs => by simpa using hs
  intro keep hkeep
  induction later generalizing running with
  | nil =>
    cases h
    exact filter_sublist
  | cons k later ih =>
    rw [foldlM_cons] at h
    obtain ⟨mid, hk, h⟩ := bind_eq_some_iff.1 h
    have hfirst := filter_call (fun s hs => ⟨(hkeep s hs).1, (hkeep s hs).2 k mem_cons_self⟩) hk
    exact hfirst.trans (ih h fun s hs =>
      ⟨(hkeep s hs).1, fun k' h' => (hkeep s hs).2 k' (mem_cons_of_mem _ h')⟩)

/-- Tokens of four letters; the third starts the text anew and the last one ends it. -/
def letters : Family where
  kvBt := 1
  kvBt_pos := Nat.one_pos
  vocab := 4
  eosIds := [3]
  detok id := if id = 2 then none else some [id.toUInt8 + 97]
  streamAfterResetMarker := true

/-- A prompt of one token. -/
def prompt (sid maxNew : Nat) (useEos : Bool) (h : maxNew < 9) : Request letters :=
  ⟨sid, 1, maxNew, 9, useEos, true, [], by omega, Nat.zero_le 1⟩

/-- Two prompts, the second of which is refused, and a step for each of the tokens. -/
def generating (maxNew : Nat) (useEos : Bool) (h : maxNew < 9) (ids : List UInt32) :
    List (Call letters) :=
  .admission (prompt 7 maxNew useEos h) some true ::
    .admission (prompt 8 maxNew useEos h) (fun _ => none) true ::
      ids.map fun id => .step (fun _ => id) fun _ => some

/-- The sequence behind the steps. -/
def generated (maxNew : Nat) (useEos done : Bool) (table : List Nat) (pos : Nat)
    (out : List UInt32) (after : Bool) (pieces : List Bytes) : Sequence :=
  ⟨7, 1, maxNew, 9, useEos, true, maxNew + 5, maxNew + 5, table, pos, out, done, after, pieces⟩

section
variable (f) (heeded : Bool) (out : List UInt32)

/-- Tokens that have no text; `heeded` says that the ends of texts are among them, as they always
are for `axiom_engine_collect`. -/
def skips (id : UInt32) : Bool := f.vocab ≤ id.toNat || heeded && f.eosIds.contains id

/-- The text of `axiom_engine_collect`; the buffer is large enough. -/
def collectText : Bytes := out.foldl (fun text id =>
    if skips f true id then text
    else
      match f.detok id with
      | none => []
      | some piece => text ++ piece) []

def marks (id : UInt32) : Bool := !skips f heeded id && (f.detok id).isNone

def textOf (id : UInt32) : Bytes := if skips f heeded id then [] else (f.detok id).getD []

/-- The tokens whose texts may be handed on. -/
def heard : List UInt32 :=
  if f.streamAfterResetMarker then out.dropWhile (!marks f heeded ·) else out

end

/-- What has been handed on. -/
def Streams (f : Family) (s : Sequence) : Prop :=
  s.onPiece = true → s.streamAfterReset = s.out.any (marks f s.useEos) ∧
    s.pieces.flatten = (heard f s.useEos s.out).flatMap (textOf f s.useEos)

lemma dropWhile_concat {α : Type} (p : α → Bool) (xs : List α) (x : α) :
    (xs ++ [x]).dropWhile (!p ·) = xs.dropWhile (!p ·) ++ if xs.any p || p x then [x] else [] := by
  induction xs with
  | nil => cases h : p x <;> simp [h]
  | cons y xs ih => cases h : p y <;> simp [h, ih]

lemma dropWhile_of_none {α : Type} {p : α → Bool} {xs : List α} (h : xs.any p = false) :
    xs.dropWhile (!p ·) = [] := by
  induction xs with
  | nil => rfl
  | cons x xs ih =>
    obtain ⟨hx, hxs⟩ := Bool.or_eq_false_iff.1 h
    rw [dropWhile_cons_of_pos (by rw [hx]; rfl), ih hxs]

lemma streams_emitPiece (hs : Streams f s) (id : UInt32) : Streams f
    (emitPiece f { s with out := s.out ++ [id] } id (s.useEos && f.eosIds.contains id)) := by
  intro hon
  obtain ⟨a, ps, he⟩ := emitPiece_eq (f := f) { s with out := s.out ++ [id] } id
    (s.useEos && f.eosIds.contains id)
  have hon : s.onPiece = true := by rwa [he] at hon
  obtain ⟨hreset, htext⟩ := hs hon
  have hskip : (¬ s.onPiece = true ∨ (s.useEos && f.eosIds.contains id) = true ∨
      f.vocab ≤ id.toNat) ↔ skips f s.useEos id = true := by
    simp [skips, hon, or_comm]
  have hheard : heard f s.useEos (s.out ++ [id]) = heard f s.useEos s.out ++
      if f.streamAfterResetMarker && !(s.streamAfterReset || marks f s.useEos id) then []
      else [id] := by
    unfold heard
    rw [dropWhile_concat, hreset]
    cases f.streamAfterResetMarker <;> cases s.out.any _ <;> cases marks f s.useEos id <;> rfl
  rw [emitPiece]
  dsimp only
  rw [if_congr hskip rfl rfl]
  clear he hs
  cases hsk : skips f s.useEos id <;> cases hd : f.detok id
  case true.none | true.some =>
    rw [if_pos rfl]
    dsimp only
    rw [hheard, flatMap_append, ← htext, any_append, ← hreset]
    simp [marks, textOf, hsk, apply_ite (flatMap _)]
  case false.none =>
    rw [if_neg Bool.false_ne_true]
    dsimp only
    rw [hheard, flatMap_append, ← htext, any_append]
    simp [marks, textOf, hsk, hd]
  case false.some piece =>
    have hmark : marks f s.useEos id = false := by simp [marks, hd]
    have htextOf : textOf f s.useEos id = piece := by simp [textOf, hsk, hd]
    rw [if_neg Bool.false_ne_true]
    dsimp only
    split_ifs with hp hm
    all_goals
      dsimp only
      rw [hheard, flatMap_append, ← htext, any_append, ← hreset]
      grind

lemma turn_streams {best : UInt32} (hs : Streams f s) (h : turn f best alloc s = some s') :
    Streams f s' := by
  have hse : Streams f (select f s best).1 := by
    have hemit := streams_emitPiece hs best
    unfold select
    split_ifs
    · exact hs
    · exact hs
    · dsimp only
      split_ifs <;> exact hemit
  rw [turn] at h
  generalize select f s best = g at h hse
  obtain ⟨t, _ | _⟩ := g
  · cases h
    exact hse
  · obtain ⟨u, hu, h⟩ := bind_eq_some_iff.1 h
    cases h
    obtain ⟨more, rfl, -⟩ := ensureBlock_spec hu
    exact hse

lemma admitSequence_streams {r : Request f} (h : admitSequence f r alloc = some s) :
    Streams f s := by
  have hnone {t : Sequence} (h1 : t.out = []) (h2 : t.pieces = [])
      (h3 : t.streamAfterReset = false) : Streams f t := by
    intro _
    rw [h1, h2, h3]
    simp [heard]
  unfold admitSequence at h
  split_ifs at h with h0
  · cases h
    exact hnone rfl rfl rfl
  · obtain ⟨t, ht, h⟩ := bind_eq_some_iff.1 h
    cases h
    obtain ⟨more, rfl, -⟩ := prefill_spec ht
    exact hnone rfl rfl rfl

/-- How often the text of the tokens is started anew. -/
def resets (f : Family) (heeded : Bool) (out : List UInt32) : Nat := out.countP (marks f heeded)

lemma collectText_spec (out : List UInt32) :
    (resets f true out = 0 → collectText f out = out.flatMap (textOf f true)) ∧
    (resets f true out = 1 →
      collectText f out = (out.dropWhile (!marks f true ·)).flatMap (textOf f true)) := by
  induction out using List.reverseRecOn with
  | nil => exact ⟨fun _ => rfl, fun h => by cases h⟩
  | append_singleton out id ih =>
    have hc : collectText f (out ++ [id]) = if skips f true id then collectText f out
        else
          match f.detok id with
          | none => []
          | some piece => collectText f out ++ piece := by
      rw [collectText, foldl_append]
      rfl
    have hany : resets f true out = 0 ↔ out.any (marks f true) = false := by
      simp [resets, countP_eq_zero]
    have hdrop (h : resets f true out = 0) := dropWhile_of_none (hany.1 h)
    have hr : resets f true (out ++ [id]) = resets f true out +
        if marks f true id then 1 else 0 := by
      rw [resets, countP_append, countP_singleton]
      rfl
    rw [hr, hc, dropWhile_concat, flatMap_append, flatMap_append, flatMap_singleton]
    cases hsk : skips f true id <;> cases hd : f.detok id
    case true.none | true.some =>
      have hm : marks f true id = false := by simp [marks, hsk]
      have ht : textOf f true id = [] := by simp [textOf, hsk]
      grind
    case false.none =>
      have hm : marks f true id = true := by simp [marks, hsk, hd]
      have ht : textOf f true id = [] := by simp [textOf, hsk, hd]
      grind
    case false.some piece =>
      have hm : marks f true id = false := by simp [marks, hd]
      have ht : textOf f true id = piece := by simp [textOf, hsk, hd]
      grind

/-- Where both loops start anew equally often they do so at the same tokens. -/
lemma heard_eq {out : List UInt32} {heeded : Bool}
    (h : resets f true out = resets f heeded out) : heard f true out = heard f heeded out := by
  have himp : ∀ id, marks f true id = true → marks f heeded id = true := by
    intro id
    cases heeded <;> simp +contextual [marks, skips]
  have heq : ∀ id ∈ out, marks f true id = marks f heeded id := by
    unfold resets at h
    induction out with
    | nil => exact fun _ h => absurd h not_mem_nil
    | cons x out ih =>
      have hle : out.countP (marks f true) ≤ out.countP (marks f heeded) :=
        countP_mono_left fun id _ => himp id
      have hx := himp x
      rw [countP_cons, countP_cons] at h
      refine forall_mem_cons.2 ⟨?_, ih ?_⟩ <;> grind
  unfold heard
  split_ifs
  · clear h
    induction out with
    | nil => rfl
    | cons x out ih =>
      rw [dropWhile_cons, dropWhile_cons, heq x mem_cons_self,
        ih fun id h => heq id (mem_cons_of_mem _ h)]
  · rfl

/-- Leaving some texts out changes nothing exactly when they are empty. -/
lemma flatMap_eq_iff {α : Type} {g h : α → Bytes} {p : α → Bool} (xs : List α)
    (hg : ∀ x, h x = if p x then [] else g x) :
    xs.flatMap g = xs.flatMap h ↔ ∀ x ∈ xs, p x = true → g x = [] := by
  have hle (ys : List α) : (ys.flatMap h).length ≤ (ys.flatMap g).length := by
    induction ys with
    | nil => exact le_rfl
    | cons y ys ih =>
      rw [flatMap_cons, flatMap_cons, length_append, length_append, hg y]
      split_ifs
      · exact ih.trans (Nat.le_add_left _ _) |>.trans' (by simp)
      · exact Nat.add_le_add_left ih _
  induction xs with
  | nil => simp
  | cons x xs ih =>
    refine Iff.trans ?_ (forall_mem_cons.trans (and_congr_right' ih.symm)).symm
    rw [flatMap_cons, flatMap_cons, hg x]
    cases hp : p x with
    | false => simp
    | true =>
      have hxs := hle xs
      constructor
      · intro heq
        have hlen := congrArg length heq
        have hnil : g x = [] := by
          rw [← length_eq_zero_iff]
          simp only [length_append, if_true, length_nil] at hlen
          omega
        rw [hnil] at heq
        exact ⟨fun _ => hnil, heq⟩
      · rintro ⟨hnil, heq⟩
        rw [hnil rfl, heq]
        rfl

end AxiomKernel.StepEngine
