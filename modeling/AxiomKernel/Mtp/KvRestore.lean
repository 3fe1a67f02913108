import AxiomKernel.Lib.Text

/-! The cache of the MTP compute object: pages that are imported, rows that transactions and device
sessions write, and the position that is restored over imported pages. -/
namespace AxiomKernel.Mtp.KvRestore

open List

variable {Row : Type}

inductive TransactionState where
  | idle | opened | failed
  deriving DecidableEq

structure Compute (Row : Type) where
  maxContext : Nat
  cache : Nat → Row
  committed : Nat := 0
  anchor : Nat := 0
  stagedEnd : Nat := 0
  transaction : TransactionState := .idle
  stream : Nat := 0
  capture : Bool := false
  session : Bool := false
  sessionAnchor : Nat := 0
  enqueueStream : Nat := 0
  imported : Nat → Bool := fun _ => false

/-- What the device makes of a call that writes rows: it fails before the first one, it fails and
leaves any rows, or it has written them. -/
inductive Outcome (Row : Type) where
  | unwritten
  | torn (rows : Nat → Row)
  | written (rows : Nat → Row)

namespace Outcome

def ok : Outcome Row → Bool
  | written _ => true
  | _ => false

def rows : Outcome Row → Option (Nat → Row)
  | unwritten => none
  | torn rows | written rows => some rows

end Outcome

/-- The calls. The record of a page is given by its rows and by whether `e4m3_record_finite` holds
of it. -/
inductive Call (Row : Type) where
  | reset
  | kvPageImport (page : Nat) (finite : Bool) (device : Outcome Row)
  | restorePosition (position : Nat)
  | captureBegin
  | captureEnd
  | sessionBegin (expected : Nat)
  | sessionEnd (materialized : Nat)
  | sessionAbort
  | deviceEnqueue (base columns stream : Nat) (device : Outcome Row)
  | transactionBegin (first stream : Nat)
  | forward (first columns stream : Nat) (device : Outcome Row)
  | commitPrefix (consumed stream : Nat)
  | abort (stream : Nat)

def kMaxColumns : Nat := 8

def pages (tokens : Nat) : Nat := tokens / 256 + if tokens % 256 ≠ 0 then 1 else 0

namespace Compute

variable (c : Compute Row)

def quiet : Bool := c.transaction = .idle && !c.capture && !c.session

def importedPrefixCovers (position : Nat) : Bool :=
  position ≤ c.maxContext && (range (pages position)).all c.imported

/-- The checks that stand before the first write of a call. -/
def accepts : Call Row → Bool
  | .reset => ¬ (c.transaction = .opened ∨ c.capture ∨ c.session)
  | .kvPageImport page finite _ => ¬ (¬ c.quiet ∨ c.enqueueStream ≠ 0 ∨
      pages c.maxContext ≤ page ∨ page * 256 < c.committed ∨ ¬ finite)
  | .restorePosition position => ¬ (¬ c.quiet ∨ c.maxContext < position ∨
      c.committed < position ∧ ¬ c.importedPrefixCovers position)
  | .captureBegin => c.quiet
  | .captureEnd => ¬ (c.transaction ≠ .idle ∨ c.session ∨ ¬ c.capture)
  | .sessionBegin expected =>
    ¬ (¬ c.quiet ∨ expected ≠ c.committed ∨ c.maxContext < expected)
  | .sessionEnd materialized => ¬ (c.transaction ≠ .idle ∨ c.capture ∨ ¬ c.session ∨
      materialized < c.sessionAnchor ∨ c.maxContext < materialized)
  | .sessionAbort => ¬ (c.transaction ≠ .idle ∨ c.capture ∨ ¬ c.session)
  | .deviceEnqueue _ columns stream _ => ¬ (c.transaction ≠ .idle ∨ ¬ c.capture ∧ ¬ c.session ∨
      stream = 0 ∨ columns = 0 ∨ kMaxColumns < columns ∨
      c.enqueueStream ≠ 0 ∧ c.enqueueStream ≠ stream)
  | .transactionBegin first _ => ¬ (¬ c.quiet ∨ first ≠ c.committed ∨ c.maxContext ≤ first)
  | .forward first columns stream _ => ¬ (c.transaction ≠ .opened ∨ columns = 0 ∨
      kMaxColumns < columns ∨ first ≠ c.stagedEnd ∨ stream ≠ c.stream ∨
      c.maxContext < first + columns)
  | .commitPrefix consumed stream => ¬ (c.transaction ≠ .opened ∨ stream ≠ c.stream ∨
      c.stagedEnd - c.anchor < consumed)
  | .abort stream => ¬ (c.transaction = .idle ∨ stream ≠ c.stream)

def write (first count : Nat) (device : Outcome Row) : Compute Row :=
  { c with cache := fun r =>
      match device.rows with
      | some rows => if first ≤ r ∧ r < first + count then rows r else c.cache r
      | none => c.cache r }

/-- The rows of a page that the context has. -/
def pageRows (page : Nat) : Nat := min 256 (c.maxContext - page * 256)

def moved (position : Nat) : Compute Row :=
  { c with committed := position, anchor := position, stagedEnd := position, stream := 0 }

def fail : Compute Row := if c.transaction = .opened then { c with transaction := .failed } else c

/-- A call whose checks hold, and whether it returns OK. -/
def run : Call Row → Bool × Compute Row
  | .reset => (true, { c.moved 0 with
      transaction := .idle, sessionAnchor := 0, enqueueStream := 0, imported := fun _ => false })
  | .kvPageImport page _ device =>
    let c := c.write (page * 256) (c.pageRows page) device
    (device.ok, { c with imported := fun p => c.imported p || device.ok && p == page })
  | .restorePosition position => (true, { c.moved position with
      sessionAnchor := position, enqueueStream := 0,
      imported := fun page => c.imported page && position ≤ c.committed })
  | .captureBegin => (true, { c with capture := true, enqueueStream := 0 })
  | .captureEnd => (true, { c with capture := false, enqueueStream := 0 })
  | .sessionBegin expected =>
    (true, { c with sessionAnchor := expected, session := true, enqueueStream := 0 })
  | .sessionEnd materialized => (true, { c.moved materialized with
      sessionAnchor := materialized, session := false, enqueueStream := 0 })
  | .sessionAbort =>
    (true, { c.moved c.sessionAnchor with session := false, enqueueStream := 0 })
  | .deviceEnqueue base columns stream device =>
    (device.ok, { c.write base columns device with enqueueStream := stream })
  | .transactionBegin first stream =>
    (true, { c with anchor := first, stagedEnd := first, transaction := .opened, stream })
  | .forward first columns _ device =>
    let c := c.write first columns device
    if device.ok then (true, { c with stagedEnd := c.stagedEnd + columns })
    else (false, { c with transaction := .failed })
  | .commitPrefix consumed _ =>
    (true, { c.moved (c.anchor + consumed) with transaction := .idle })
  | .abort _ => (true, { c.moved c.anchor with transaction := .idle })

def call (k : Call Row) : Bool × Compute Row :=
  if c.accepts k then c.run k
  else
    match k with
    | .forward .. | .commitPrefix .. => (false, c.fail)
    | _ => (false, c)

/-- The row a call leaves at `r`, if it writes there. -/
def writes (k : Call Row) (r : Nat) : Option Row :=
  let landing (first count : Nat) (device : Outcome Row) : Option Row :=
    if c.accepts k ∧ first ≤ r ∧ r < first + count then device.rows.map (· r) else none
  match k with
  | .kvPageImport page _ device => landing (page * 256) (c.pageRows page) device
  | .deviceEnqueue base columns _ device => landing base columns device
  | .forward first columns _ device => landing first columns device
  | _ => none

/-- The page and the rows of an import that succeeds. -/
def imports : Call Row → Option (Nat × (Nat → Row))
  | .kvPageImport page finite (.written rows) =>
    if c.accepts (.kvPageImport page finite (.written rows)) then some (page, rows) else none
  | _ => none

end Compute

/-- The object with its history: the last import of each page, and what was written to each row
after it. -/
structure World (Row : Type) where
  compute : Compute Row
  record : Nat → Option (Nat → Row) := fun _ => none
  later : Nat → Option Row := fun _ => none

def next (w : World Row) (k : Call Row) : World Row where
  compute := (w.compute.call k).2
  record page :=
    match w.compute.imports k with
    | some (p, rows) => if page = p then some rows else w.record page
    | none => w.record page
  later r :=
    if (w.compute.imports k).any (·.1 = r / 256) then none
    else (w.compute.writes k r).or (w.later r)

variable {c : Compute Row} {w : World Row}

lemma maxContext_call (k : Call Row) : (c.call k).2.maxContext = c.maxContext := by
  unfold Compute.call
  cases k <;> simp only [Compute.run, Compute.fail, Compute.moved, Compute.write] <;>
    split_ifs <;> rfl

lemma cache_call (k : Call Row) (r : Nat) :
    (c.call k).2.cache r = (c.writes k r).getD (c.cache r) := by
  unfold Compute.call Compute.writes
  cases k with
  | kvPageImport page finite device | deviceEnqueue base columns stream device
  | forward first columns stream device =>
    cases device <;> simp only [Compute.run, Compute.fail, Compute.write, Outcome.rows] <;> grind
  | _ =>
    simp only [Compute.run, Compute.fail, Compute.moved]
    split_ifs <;> rfl

/-- A mark is set by an import only. -/
lemma imported_call {k : Call Row} {page : Nat} (h : (c.call k).2.imported page = true) :
    c.imported page = true ∨ ∃ rows, c.imports k = some (page, rows) := by
  unfold Compute.call at h
  cases k with
  | kvPageImport p finite device =>
    split_ifs at h with ha
    · rcases Bool.or_eq_true_iff.1 h with h | h
      · exact .inl h
      · obtain ⟨hok, hp⟩ := Bool.and_eq_true_iff.1 h
        cases device with
        | unwritten | torn => cases hok
        | written rows => exact .inr ⟨rows, by rw [Compute.imports, if_pos ha, beq_iff_eq.1 hp]⟩
    · exact .inl h
  | _ =>
    simp only [Compute.run, Compute.fail, Compute.moved, Compute.write] at h
    left
    split_ifs at h <;> grind

lemma writes_of_imports {k : Call Row} {page : Nat} {rows : Nat → Row}
    (h : c.imports k = some (page, rows)) {r : Nat} (hr : r < c.maxContext) :
    c.writes k r = if r / 256 = page then some (rows r) else none := by
  unfold Compute.imports at h
  split at h
  next p finite rows' =>
    split_ifs at h with ha
    cases h
    have hmem : page * 256 ≤ r ∧ r < page * 256 + c.pageRows page ↔ r / 256 = page := by
      unfold Compute.pageRows
      omega
    simp only [Compute.writes, ha, true_and, hmem, Outcome.rows, Option.map_some]
  next => cases h

/-- A marked page has a last import, and holds it but where it was written later. -/
def Holds (w : World Row) : Prop :=
  ∀ r < w.compute.maxContext, w.compute.imported (r / 256) = true →
    ∃ rows, w.record (r / 256) = some rows ∧ w.compute.cache r = (w.later r).getD (rows r)

lemma Holds.next (h : Holds w) (k : Call Row) : Holds (next w k) := by
  intro r hr hi
  have hr : r < w.compute.maxContext := by
    rwa [KvRestore.next, maxContext_call] at hr
  have hi := imported_call hi
  have hold := h r hr
  simp only [KvRestore.next, cache_call]
  rcases hk : w.compute.imports k with _ | ⟨page, rows⟩
  · obtain ⟨rows, hrec, hrow⟩ := hold (by simpa [hk] using hi)
    refine ⟨rows, hrec, ?_⟩
    rw [hrow]
    cases w.compute.writes k r <;> simp
  · rw [writes_of_imports hk hr]
    by_cases hp : r / 256 = page
    · exact ⟨rows, by simp [hp], by simp [hp]⟩
    · obtain ⟨rows', hrec, hrow⟩ := hold (by simpa [hk, Ne.symm hp] using hi)
      exact ⟨rows', by simp [hp, hrec], by simp [hp, Ne.symm hp, hrow]⟩

lemma Holds.run (h : Holds w) (calls : List (Call Row)) : Holds (calls.foldl KvRestore.next w) := by
  induction calls generalizing w with
  | nil => exact h
  | cons k calls ih => exact ih (h.next k)

def pageOf (page value : Nat) : Call Nat := .kvPageImport page true (.written fun _ => value)

end AxiomKernel.Mtp.KvRestore
