import AxiomKernel.Lib.Text

/-! The rows of the n-gram table as `gather_f32` reads them, with a cache of four ways a set before
the checkpoint. The checkpoint does not change, and any of the reads may fail. A message of the
catalog is left out, and so are counters that nothing reads. -/
namespace AxiomKernel.Qwen4exp.PleCache

open List

variable {F : Type}

/-- The bytes of each row of each shard, and a finite byte decoded and scaled. -/
structure Checkpoint (F : Type) where
  bytes : UInt64 → UInt64 → List UInt8
  scaled : UInt8 → F

inductive StatusCode where
  | invalidArgument | outOfRange | io | nonFinite

abbrev Status := StatusCode × String

def kPleEmbeddingRows : UInt64 := 128 * 2500012

/-- `read_row_f32`; `fails` says that the catalog could not read. -/
def Checkpoint.readRow (p : Checkpoint F) (fails : Bool) (rowId : UInt64) :
    Except Status (List F) :=
  if kPleEmbeddingRows ≤ rowId then .error (.outOfRange, "PLE embedding row id is out of range")
  else if fails then .error (.io, "could not read PLE embedding row: ")
  else
    let encoded := p.bytes (rowId / 2500012) (rowId % 2500012 * 160)
    -- all ones but for the sign are the one encoding that is not finite
    if encoded.any (· &&& 0x7f == 0x7f) then
      .error (.nonFinite, "PLE embedding contains an E4M3FN NaN encoding")
    else .ok (encoded.map p.scaled)

structure Entry (F : Type) where
  rowId : UInt64 := 0
  stamp : UInt64 := 0
  valid : Bool := false
  values : List F := []

structure RowCache (F : Type) where
  entries : List (Entry F) := []
  clock : UInt64 := 0

def cacheSet (rowId : UInt64) (slots : Nat) : Nat :=
  let rowId := (rowId ^^^ rowId >>> 30) * 0xbf58476d1ce4e5b9
  let rowId := (rowId ^^^ rowId >>> 27) * 0x94d049bb133111eb
  (rowId ^^^ rowId >>> 31).toNat % (slots / 4)

namespace RowCache

variable (c : RowCache F)

variable (rowId : UInt64)

def ways : List Nat := (range 4).map (cacheSet rowId c.entries.length * 4 + ·)

def entry (i : Nat) : Entry F := c.entries.getD i {}

def find (rowId : UInt64) : Option Nat :=
  (c.ways rowId).find? fun i => (c.entry i).valid && (c.entry i).rowId == rowId

def lookup : Option (List F × RowCache F) :=
  if c.entries = [] then none
  else (c.find rowId).map fun i => ((c.entry i).values,
    { entries := c.entries.set i { c.entry i with stamp := c.clock + 1 }, clock := c.clock + 1 })

/-- The loop of `insert`: the first free way, or the one with the oldest stamp. -/
def victim : List Nat → Nat → Nat
  | [], v => v
  | i :: is, v =>
    if (c.entry i).valid = false then i
    else if (c.entry i).stamp < (c.entry v).stamp then victim is i
    else victim is v

def insert (row : List F) : Except Status (RowCache F) :=
  if c.entries = [] then .error (.invalidArgument, "invalid PLE row cache insertion")
  else
    let item := c.victim (c.ways rowId) (cacheSet rowId c.entries.length * 4)
    .ok ⟨c.entries.set item ⟨rowId, c.clock + 1, true, row⟩, c.clock + 1⟩

end RowCache

/-- The cache, if there is one, and what has been read, the last row first. -/
structure World (F : Type) where
  cache : Option (RowCache F)
  reads : List (UInt64 × Bool) := []

section

variable (p : Checkpoint F) (fails : Nat → Bool)

variable (w : World F)

/-- A turn of the loop of `gather_f32`. -/
def gatherRow (id : Int) : Except Status (List F) × World F :=
  if id < 0 ∨ kPleEmbeddingRows.toNat ≤ id then
    (.error (.outOfRange, "PLE embedding gather row id is out of range"), w)
  else
    let rowId := UInt64.ofInt id
    match w.cache.bind (·.lookup rowId) with
    | some (row, c) => (.ok row, { w with cache := some c })
    | none =>
      match p.readRow (fails w.reads.length) rowId with
      | .error e => (.error e, { w with reads := (rowId, false) :: w.reads })
      | .ok row =>
        let w := { w with reads := (rowId, true) :: w.reads }
        match w.cache with
        | none => (.ok row, w)
        | some c =>
          match c.insert rowId row with
          | .error e => (.error e, w)
          | .ok c => (.ok row, { w with cache := some c })

/-- `gather_f32`; the rows lie one behind the other in its output. -/
def gather (w : World F) : List Int → Except Status (List (List F)) × World F
  | [] => (.ok [], w)
  | id :: ids =>
    match gatherRow p fails w id with
    | (.error e, w) => (.error e, w)
    | (.ok row, w) =>
      let (rows, w) := gather w ids
      (rows.map (row :: ·), w)

inductive Call where
  | configure (slots : Nat)
  | clear
  | gather (rowIds : List Int)

def call : Call → World F
  | .configure slots =>
    if slots < 4 ∨ slots % 4 ≠ 0 then w
    else { w with cache := w.cache.map fun _ => ⟨replicate slots {}, 0⟩ }
  | .clear =>
    { w with cache := w.cache.map fun c => ⟨c.entries.map ({ · with valid := false }), 0⟩ }
  | .gather rowIds => (gather p fails w rowIds).2

/-- No two entries are of one row. -/
def RowCache.Single (c : RowCache F) : Prop := ∀ (i j : Nat) (e e' : Entry F),
  c.entries[i]? = some e → c.entries[j]? = some e' → e.valid = true → e'.valid = true →
    e.rowId = e'.rowId → i = j

/-- `e` lies in its set and is the row as it was read when it was read last; it is the only one of
its row. -/
structure Coherent : Prop where
  held : ∀ c ∈ w.cache, ∀ i e, c.entries[i]? = some e → e.valid = true →
    i / 4 = cacheSet e.rowId c.entries.length ∧ p.readRow false e.rowId = .ok e.values ∧
      w.reads.lookup e.rowId = some true
  single : ∀ c ∈ w.cache, c.Single

end

variable {p : Checkpoint F} {fails : Nat → Bool} {w : World F} {c : RowCache F} {rowId : UInt64}

lemma mem_ways {i : Nat} : i ∈ c.ways rowId ↔ i / 4 = cacheSet rowId c.entries.length := by
  simp only [RowCache.ways, mem_map, mem_range]
  exact ⟨fun ⟨k, hk, h⟩ => by omega, fun h => ⟨i % 4, by omega, by omega⟩⟩

lemma victim_mem {is : List Nat} {v : Nat} : c.victim is v ∈ v :: is := by
  induction is generalizing v with
  | nil => simp [RowCache.victim]
  | cons i is ih =>
    unfold RowCache.victim
    have hi := ih (v := i)
    have hv := ih (v := v)
    split_ifs <;> grind

lemma entry_eq {i : Nat} {e : Entry F} (h : c.entries[i]? = some e) : c.entry i = e := by
  rw [RowCache.entry, getD_eq_getElem?_getD, h, Option.getD_some]

/-- Behind a miss the cache holds no entry of the row, in whatever set. -/
lemma Coherent.miss (hw : Coherent p w) (hc : w.cache = some c) (h : c.lookup rowId = none)
    {i : Nat} {e : Entry F} (hi : c.entries[i]? = some e) (hv : e.valid = true) :
    e.rowId ≠ rowId := by
  rintro rfl
  have hne : c.entries ≠ [] := by
    rintro h0
    simp [h0] at hi
  rw [RowCache.lookup, if_neg hne, Option.map_eq_none_iff, RowCache.find, find?_eq_none] at h
  have hm : i ∈ c.ways e.rowId := mem_ways.2 (hw.held c hc i e hi hv).1
  exact h i hm (by simp [entry_eq hi, hv])

/-- An entry is written where its row belongs, in the place of the row's entry if there is one. -/
lemma Coherent.set (hw : Coherent p w) (hc : w.cache = some c) {v : Nat} {new : Entry F}
    {cl : UInt64} {rs : List (UInt64 × Bool)}
    (hn : v / 4 = cacheSet new.rowId c.entries.length ∧
    p.readRow false new.rowId = .ok new.values ∧ rs.lookup new.rowId = some true)
    (hr : ∀ i e, c.entries[i]? = some e → e.valid = true → i ≠ v → e.rowId ≠ new.rowId ∧
    rs.lookup e.rowId = some true) :
    Coherent p ⟨some ⟨c.entries.set v new, cl⟩, rs⟩ := by
  have hat {i : Nat} {e : Entry F} (h : (c.entries.set v new)[i]? = some e) :
      i = v ∧ e = new ∨ i ≠ v ∧ c.entries[i]? = some e := by
    rw [getElem?_set] at h
    grind
  refine ⟨fun c' hc' i e hi hv => ?_, fun c' hc' i j e e' hi hj hv hv' heq => ?_⟩
  · cases hc'
    rw [length_set]
    rcases hat hi with ⟨rfl, rfl⟩ | ⟨hne, hi⟩
    · exact hn
    · have hh := hw.held c hc i e hi hv
      exact ⟨hh.1, hh.2.1, (hr i e hi hv hne).2⟩
  · cases hc'
    rcases hat hi with ⟨rfl, rfl⟩ | ⟨hne, hi'⟩ <;> rcases hat hj with ⟨rfl, rfl⟩ | ⟨hne', hj'⟩
    · rfl
    · exact absurd heq.symm (hr j e' hj' hv' hne').1
    · exact absurd heq (hr i e hi' hv hne).1
    · exact hw.single c hc i j e e' hi' hj' hv hv' heq

lemma held_of_lookup {row : List F} {c' : RowCache F} (h : c.lookup rowId = some (row, c')) :
    ∃ e i, c.entries[i]? = some e ∧ e.valid = true ∧ e.rowId = rowId ∧ row = e.values ∧
    c' = ⟨c.entries.set i { e with stamp := c.clock + 1 }, c.clock + 1⟩ := by
  unfold RowCache.lookup at h
  split_ifs at h
  obtain ⟨i, hi, h⟩ := Option.map_eq_some_iff.1 h
  cases h
  have hfound := find?_some hi
  simp only [Bool.and_eq_true, beq_iff_eq] at hfound
  obtain ⟨hv, hid⟩ := hfound
  obtain ⟨e, he⟩ : ∃ e, c.entries[i]? = some e := by
    by_contra hnone
    rw [not_exists] at hnone
    rw [RowCache.entry, getD_eq_getElem?_getD, Option.eq_none_iff_forall_ne_some.2 hnone] at hv
    cases hv
  rw [entry_eq he] at hv hid ⊢
  exact ⟨e, i, he, hv, hid, rfl, rfl⟩

variable (hw : Coherent p w)
include hw

lemma Coherent.hit (hc : w.cache = some c) {row : List F} {c' : RowCache F}
    (h : c.lookup rowId = some (row, c')) :
    p.readRow false rowId = .ok row ∧ Coherent p { w with cache := some c' } := by
  obtain ⟨e, i, hi, hv, rfl, rfl, rfl⟩ := held_of_lookup h
  have hh := hw.held c hc i e hi hv
  refine ⟨hh.2.1, hw.set hc hh fun j e' hj hv' hne => ⟨fun heq => ?_, ?_⟩⟩
  · exact hne (hw.single c hc j i e' e hj hi hv' hv heq)
  · exact (hw.held c hc j e' hj hv').2.2

/-- A row that is read behind a miss, with what became of the read. -/
lemma Coherent.read (hm : w.cache.bind (·.lookup rowId) = none) (ok : Bool) :
    Coherent p { w with reads := (rowId, ok) :: w.reads } := by
  refine ⟨fun c hc i e hi hv => ?_, hw.single⟩
  have hh := hw.held c hc i e hi hv
  have hne := hw.miss hc (Option.bind_eq_none_iff.1 hm c hc) hi hv
  refine ⟨hh.1, hh.2.1, ?_⟩
  rw [lookup_cons, beq_eq_false_iff_ne.2 hne]
  exact hh.2.2

lemma Coherent.insert (hc : w.cache = some c) (hm : c.lookup rowId = none)
    {row : List F} (hr : p.readRow false rowId = .ok row) {c' : RowCache F}
    (h : c.insert rowId row = .ok c') :
    Coherent p ⟨some c', (rowId, true) :: w.reads⟩ := by
  unfold RowCache.insert at h
  split_ifs at h
  cases h
  have hme : c.victim (c.ways rowId) (cacheSet rowId c.entries.length * 4) ∈ c.ways rowId := by
    rcases mem_cons.1 (victim_mem (c := c)) with h | h
    · rw [h]
      exact mem_ways.2 (by omega)
    · exact h
  refine hw.set hc ⟨mem_ways.1 hme, hr, by simp⟩ fun i e hi hv _ => ?_
  have hne := hw.miss hc hm hi hv
  refine ⟨hne, ?_⟩
  rw [lookup_cons, beq_eq_false_iff_ne.2 hne]
  exact (hw.held c hc i e hi hv).2.2

/-- A turn keeps what the cache holds, and its row is the one the checkpoint has. -/
lemma gatherRow_spec (id : Int) : Coherent p (gatherRow p fails w id).2 ∧
    ∀ row, (gatherRow p fails w id).1 = .ok row → ¬ (id < 0 ∨ kPleEmbeddingRows.toNat ≤ id) ∧
    p.readRow false (UInt64.ofInt id) = .ok row := by
  unfold gatherRow
  split_ifs with hid
  · exact ⟨hw, nofun⟩
  dsimp only
  split
  next row c hl =>
    obtain ⟨c₀, hc₀, hl⟩ := Option.bind_eq_some_iff.1 hl
    obtain ⟨hro, hw'⟩ := hw.hit hc₀ hl
    exact ⟨hw', fun row' h => ⟨hid, by cases h; exact hro⟩⟩
  next hm =>
    split
    · exact ⟨hw.read hm false, nofun⟩
    next row hr =>
      have hro : p.readRow false (UInt64.ofInt id) = .ok row := by
        unfold Checkpoint.readRow at hr ⊢
        grind
      have hw' := hw.read hm true
      split
      · exact ⟨hw', fun row' h => ⟨hid, by cases h; exact hro⟩⟩
      next c hc =>
        split
        · exact ⟨hw', nofun⟩
        next c' hi =>
          exact ⟨hw.insert hc (Option.bind_eq_none_iff.1 hm c hc) hro hi,
            fun row' h => ⟨hid, by cases h; exact hro⟩⟩

/-- Rows are returned for ids in the range only, one for each. -/
lemma gather_spec (ids : List Int) : Coherent p (gather p fails w ids).2 ∧
    ∀ rows, (gather p fails w ids).1 = .ok rows →
      (∀ id ∈ ids, 0 ≤ id ∧ id < kPleEmbeddingRows.toNat) ∧
      ids.mapM (fun id => p.readRow false (UInt64.ofInt id)) = .ok rows := by
  induction ids generalizing w with
  | nil => exact ⟨hw, fun rows h => ⟨fun _ h => absurd h not_mem_nil, h⟩⟩
  | cons id ids ih =>
    obtain ⟨hw', hr⟩ := @gatherRow_spec F p fails w hw id
    unfold gather
    generalize gatherRow p fails w id = g at hw' hr ⊢
    rcases g with ⟨_ | row, w'⟩
    · exact ⟨hw', nofun⟩
    obtain ⟨hw'', hro⟩ := ih hw'
    refine ⟨hw'', fun rows h => ?_⟩
    obtain ⟨hid, hr⟩ := hr row rfl
    dsimp only at h
    cases hg : (gather p fails w' ids).1 with
    | error e =>
      rw [hg] at h
      cases h
    | ok rest =>
      rw [hg] at h
      cases h
      obtain ⟨hall, hrest⟩ := hro rest hg
      refine ⟨forall_mem_cons.2 ⟨by omega, hall⟩, ?_⟩
      rw [mapM_cons, hr, hrest]
      rfl

omit hw

lemma coherent_of_invalid (h : ∀ c ∈ w.cache, ∀ e ∈ c.entries, e.valid = false) : Coherent p w := by
  have hno {c : RowCache F} (hc : c ∈ w.cache) {i : Nat} {e : Entry F}
      (hi : c.entries[i]? = some e) : e.valid ≠ true := by
    rw [h c hc e (mem_of_getElem? hi)]
    exact Bool.false_ne_true
  exact ⟨fun c hc i e hi hv => absurd hv (hno hc hi),
    fun c hc i j e e' hi _ hv => absurd hv (hno hc hi)⟩

lemma call_coherent (hw : Coherent p w) (k : Call) : Coherent p (call p fails w k) := by
  cases k with
  | configure ss =>
    rw [call]
    split_ifs
    · exact hw
    · refine coherent_of_invalid fun c hc e he => ?_
      obtain ⟨c₀, -, rfl⟩ := Option.map_eq_some_iff.1 hc
      rw [eq_of_mem_replicate he]
  | clear =>
    refine coherent_of_invalid fun c hc e he => ?_
    obtain ⟨c₀, -, rfl⟩ := Option.map_eq_some_iff.1 hc
    obtain ⟨e₀, -, rfl⟩ := mem_map.1 he
    rfl
  | gather ri => exact (gather_spec hw ri).1

lemma run_coherent (ca : Bool) (cs : List Call) :
    Coherent p (cs.foldl (call p fails) ⟨if ca then some {} else none, []⟩) := by
  have hs : Coherent p (⟨if ca then some {} else none, []⟩ : World F) := by
    refine coherent_of_invalid fun c hc e he => ?_
    cases ca <;> cases hc
    cases he
  generalize (⟨if ca then some {} else none, []⟩ : World F) = w at hs
  induction cs generalizing w with
  | nil => exact hs
  | cons k cs ih => exact ih _ (call_coherent hs k)

/-- A gather that returns rows returns one for each id, and it is the row that a read without a
cache gives, in every state that calls lead to, whichever reads fail. A row whose last read failed
is not in the cache, and no row is there twice. -/
theorem cache_transparent (p : Checkpoint F) (fails : Nat → Bool) (cached : Bool)
    (calls : List Call) :
    let w := calls.foldl (call p fails) ⟨if cached then some {} else none, []⟩
    (∀ ids rows, (gather p fails w ids).1 = .ok rows →
      (∀ id ∈ ids, 0 ≤ id ∧ id < kPleEmbeddingRows.toNat) ∧
      ids.mapM (fun id => p.readRow false (UInt64.ofInt id)) = .ok rows) ∧
    ∀ c ∈ w.cache,
      (∀ rowId, w.reads.lookup rowId = some false → c.lookup rowId = none) ∧ c.Single := by
  intro w
  have hw : Coherent p w := run_coherent cached calls
  refine ⟨(gather_spec hw · |>.2), fun c hc => ⟨fun rowId hr => ?_, hw.single c hc⟩⟩
  rcases hl : c.lookup rowId with _ | ⟨row, c'⟩
  · rfl
  obtain ⟨e, i, hi, hv, rfl, -⟩ := held_of_lookup hl
  rw [(hw.held c hc i e hi hv).2.2] at hr
  cases hr

/-- Every row has the low byte of its place. -/
def oneByte : Checkpoint UInt8 := ⟨fun _ i => [(i / 160).toUInt8], id⟩

/-- Row 5 is read, row 6 could not be read; the next gather finds row 5 in the cache and reads row
6. -/
theorem cache_transparent_hit :
    let fails i := i = 1
    let calls := [.configure 4, .gather [5, 6]]
    let w := calls.foldl (call oneByte fails) ⟨some {}, []⟩
    (gather oneByte fails w [5, 6]).1.toOption = some [[5], [6]] ∧
      (gather oneByte fails w [5, 6]).2.reads = [(6, true), (6, false), (5, true)] ∧
      [5, 6].mapM (fun id => oneByte.readRow false (UInt64.ofInt id)) = .ok [[5], [6]] ∧
      ∀ c ∈ w.cache, c.lookup 6 = none := by
  intro fails calls w
  obtain ⟨hrows, hc⟩ := cache_transparent oneByte fails true calls
  exact ⟨by decide +kernel, by decide +kernel, (hrows [5, 6] [[5], [6]] rfl).2,
    fun c h => (hc c h).1 6 (by decide +kernel)⟩

end AxiomKernel.Qwen4exp.PleCache
