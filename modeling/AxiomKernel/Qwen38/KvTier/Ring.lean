import AxiomKernel.Lib.Machine
import AxiomKernel.Qwen38.KvTier.Plan

/-!
Requests of a KV tier: `axiom_qwen38_kv_tier_submit` and `axiom_qwen38_kv_tier_wait` over both
backends. The two rings of io_uring are queues. The kernel takes entries from the head of the
submission queue when it is entered, executes what it took in any order and leaves completions.
Every `submit` call has a number; queue entries, slots and completions carry the number of the call
they come from, which the code does not see.
-/
namespace AxiomKernel.Qwen38.KvTier

open List

def kRead : UInt32 := 1
def kWrite : UInt32 := 2

inductive Backend where
  | syncDirect
  | ioUringDirect
  deriving DecidableEq, Repr

structure Request where
  abiVersion : UInt32
  operation : UInt32
  family : UInt32
  layer : UInt32
  logicalPage : UInt32
  hostPage : UInt64
  hostPageBytes : UInt64
  userData : UInt64
  deriving DecidableEq, Repr

structure Slot where
  active : Bool := false
  operation : UInt32 := 0
  expectedBytes : UInt64 := 0
  userData : UInt64 := 0
  call : Nat := 0
  deriving DecidableEq, Repr

inductive Opcode where
  | read
  | write
  deriving DecidableEq, Repr

structure Sqe where
  opcode : Opcode
  off : UInt64
  addr : UInt64
  len : UInt32
  userData : UInt64
  call : Nat
  deriving DecidableEq, Repr

structure Cqe where
  userData : UInt64
  res : Int
  call : Nat
  deriving DecidableEq, Repr

structure SyncCompletion where
  operation : UInt32
  result : Status
  bytes : UInt64
  userData : UInt64
  call : Nat
  deriving DecidableEq, Repr

structure Completion where
  abiVersion : UInt32
  operation : UInt32
  result : Status
  transferredBytes : UInt64
  userData : UInt64
  deriving DecidableEq, Repr

/-- A completion handed out, with the call whose slot it was made from and the call whose entry was
executed. -/
structure Report where
  completion : Completion
  owner : Nat
  performed : Nat
  deriving DecidableEq, Repr

/-- `axiom_qwen38_kv_tier` with what the kernel holds of its ring. -/
structure Tier where
  plan : Plan
  backend : Backend
  outstanding : Nat
  submittedReads : UInt64
  submittedWrites : UInt64
  completedBytes : UInt64
  ioErrors : UInt64
  slots : List Slot
  syncCompletions : List SyncCompletion
  sqEntries : Nat
  sq : List Sqe
  inflight : List Sqe
  cq : List Cqe
  calls : Nat
  deriving DecidableEq

def Tier.queueDepth (tier : Tier) : Nat := tier.slots.length

/-- A tier as `axiom_qwen38_kv_tier_create` leaves it. -/
def Tier.create (plan : Plan) (backend : Backend) (queueDepth sqEntries : Nat) : Tier :=
  { plan := plan, backend := backend, outstanding := 0, submittedReads := 0, submittedWrites := 0
    completedBytes := 0, ioErrors := 0, slots := List.replicate queueDepth {}
    syncCompletions := [], sqEntries := sqEntries, sq := [], inflight := [], cq := [], calls := 0 }

def aligned4096 (pointer : UInt64) : Bool := pointer ≠ 0 && pointer % 4096 = 0

/-- The checks of `submit` in front of the lock; the offset of the page. -/
def checkRequest (plan : Plan) (request : Request) : Except Status UInt64 :=
  if request.abiVersion ≠ kAbi ∨ (request.operation ≠ kRead ∧ request.operation ≠ kWrite) ∨
      !aligned4096 request.hostPage then .error .invalidArgument
  else if familyPageBytes request.family = 0 ∨
      request.hostPageBytes ≠ familyPageBytes request.family ∨
      0xffffffff < familyPageBytes request.family then .error .invalidArgument
  else pageOffset plan request.family request.layer request.logicalPage

/-- What `io_uring_enter` with one entry to submit answers: it took one, or it took none (it
submitted nothing or failed). -/
inductive Enter where
  | submitted
  | none
  deriving DecidableEq, Repr

/-- What happened in a call: the number of a `submit`, its request's user data, its status and the
call whose entry the kernel took; or the status of a `wait` and what it handed out. -/
inductive Outcome where
  | submitted (call : Nat) (userData : UInt64) (status : Status) (taken : Option Nat)
  | completed
  | waited (status : Status) (reports : List Report)
  deriving DecidableEq, Repr

def firstFree (slots : List Slot) : Option Nat := slots.findIdx? (!·.active)

def sqeOf (request : Request) (offset : UInt64) (slot call : Nat) : Sqe :=
  { opcode := if request.operation = kRead then .read else .write
    off := offset, addr := request.hostPage
    len := (familyPageBytes request.family).toUInt32
    userData := UInt64.ofNat slot + 1, call := call }

def slotOf (request : Request) (call : Nat) : Slot :=
  { active := true, operation := request.operation
    expectedBytes := familyPageBytes request.family, userData := request.userData, call := call }

/-- The io_uring part of `submit`. The entry is published before the kernel is entered; when the
kernel takes nothing, the slot is freed and the entry stays. -/
def submitRing (tier : Tier) (request : Request) (offset : UInt64) (call : Nat) (enter : Enter) :
    Tier × Status × Option Nat :=
  match firstFree tier.slots with
  | none => (tier, .budget, none)
  | some slot =>
    if tier.sqEntries ≤ tier.sq.length then (tier, .budget, none)
    else
      let sq := tier.sq ++ [sqeOf request offset slot call]
      match enter, sq with
      | .submitted, first :: rest =>
        ({ tier with
            slots := tier.slots.set slot (slotOf request call), sq := rest
            inflight := tier.inflight ++ [first], outstanding := tier.outstanding + 1 },
          .ok, some first.call)
      | _, _ => ({ tier with slots := tier.slots.set slot {}, sq := sq }, .io, none)

/-- The part of `submit` that reads or writes the page at once; `transferred` says whether all of it
was. -/
def submitSync (tier : Tier) (request : Request) (call : Nat) (transferred : Bool) :
    Tier × Status × Option Nat :=
  let completion : SyncCompletion :=
    { operation := request.operation, result := if transferred then .ok else .io
      bytes := if transferred then familyPageBytes request.family else 0
      userData := request.userData, call := call }
  ({ tier with
      syncCompletions := tier.syncCompletions ++ [completion]
      outstanding := tier.outstanding + 1 }, .ok, some call)

def submit (tier : Tier) (request : Request) (enter : Enter) (transferred : Bool) :
    Tier × Outcome :=
  let call := tier.calls
  let tier := { tier with calls := call + 1 }
  let (tier, status, taken) : Tier × Status × Option Nat :=
    match checkRequest tier.plan request with
    | .error status => (tier, status, none)
    | .ok offset =>
      if tier.queueDepth ≤ tier.outstanding then (tier, .budget, none)
      else
        let tier :=
          if request.operation = kRead then
            { tier with submittedReads := tier.submittedReads + 1 }
          else { tier with submittedWrites := tier.submittedWrites + 1 }
        match tier.backend with
        | .ioUringDirect => submitRing tier request offset call enter
        | .syncDirect => submitSync tier request call transferred
  (tier, .submitted call request.userData status taken)

def complete (tier : Tier) (index : Nat) (res : Int) : Tier :=
  match tier.inflight[index]? with
  | none => tier
  | some sqe =>
    { tier with
      inflight := tier.inflight.eraseIdx index
      cq := tier.cq ++ [{ userData := sqe.userData, res := res, call := sqe.call }] }

def namedSlot (slots : List Slot) (cqe : Cqe) : Option Slot :=
  if cqe.userData = 0 then none
  else
    match slots[cqe.userData.toNat - 1]? with
    | none => none
    | some slot => if slot.active then some slot else none

/-- One turn of the loop of `wait` over the completion queue. -/
def claim (tier : Tier) (cqe : Cqe) : Option (Tier × Report) :=
  match namedSlot tier.slots cqe with
  | none => none
  | some slot =>
    let exact : Bool := 0 ≤ cqe.res && cqe.res = slot.expectedBytes.toNat
    let transferred : UInt64 := UInt64.ofNat cqe.res.toNat
    let completion : Completion :=
      { abiVersion := kAbi, operation := slot.operation, result := if exact then .ok else .io
        transferredBytes := transferred, userData := slot.userData }
    some ({ tier with
        slots := tier.slots.set (cqe.userData.toNat - 1) {}
        outstanding := tier.outstanding - 1
        completedBytes := if exact then tier.completedBytes + transferred
          else tier.completedBytes
        ioErrors := if exact then tier.ioErrors else tier.ioErrors + 1 },
      { completion := completion, owner := slot.call, performed := cqe.call })

/-- The loop of `wait`: the tier after it, the completions made, and whether it came to its end. -/
def drain (tier : Tier) : List Cqe → Tier × List Report × Bool
  | [] => (tier, [], true)
  | cqe :: ready =>
    match claim tier cqe with
    | none => (tier, [], false)
    | some (claimed, report) =>
      let (drained, reports, whole) := drain claimed ready
      (drained, report :: reports, whole)

/-- The loop of `wait` over the requests done at once. -/
def drainSync (tier : Tier) : List SyncCompletion → Tier × List Report
  | [] => (tier, [])
  | ready :: rest =>
    let completion : Completion :=
      { abiVersion := kAbi, operation := ready.operation, result := ready.result
        transferredBytes := ready.bytes, userData := ready.userData }
    let tier :=
      if ready.result = .ok then
        { tier with
          completedBytes := tier.completedBytes + ready.bytes
          outstanding := tier.outstanding - 1 }
      else
        { tier with ioErrors := tier.ioErrors + 1, outstanding := tier.outstanding - 1 }
    let (drained, reports) := drainSync tier rest
    let report : Report :=
      { completion := completion, owner := ready.call, performed := ready.call }
    (drained, report :: reports)

/-- What the blocking `io_uring_enter` of `wait` answers: it came back, with or without a signal, or
it failed otherwise. -/
inductive WaitEnter where
  | returned
  | interrupted
  | failed
  deriving DecidableEq, Repr

/-- `axiom_qwen38_kv_tier_wait`. The head of the completion queue is stored only when the loop came
to its end; an error hands out nothing, `out_count` stays zero. -/
def wait (tier : Tier) (minComplete capacity : Nat) (enter : WaitEnter) : Tier × Outcome :=
  if capacity < minComplete ∨ tier.outstanding < minComplete then
    (tier, .waited .invalidArgument [])
  else
    match tier.backend with
    | .ioUringDirect =>
      if minComplete ≠ 0 ∧ enter = .failed then (tier, .waited .io [])
      else
        match drain tier (tier.cq.take capacity) with
        | (drained, _, false) => (drained, .waited .runtime [])
        | (drained, reports, true) =>
          let drained := { drained with cq := tier.cq.drop capacity }
          if reports.length < minComplete then (drained, .waited .io [])
          else (drained, .waited .ok reports)
    | .syncDirect =>
      let (drained, reports) := drainSync tier (tier.syncCompletions.take capacity)
      let drained := { drained with syncCompletions := tier.syncCompletions.drop capacity }
      if reports.length < minComplete then (drained, .waited .io [])
      else (drained, .waited .ok reports)

/-- A call of the caller, with what the kernel answers it, or a step of the kernel on its own. -/
inductive Action where
  | submit (request : Request) (enter : Enter) (transferred : Bool)
  | complete (index : Nat) (res : Int)
  | wait (minComplete capacity : Nat) (enter : WaitEnter)
  deriving DecidableEq, Repr

def step (tier : Tier) : Action → Tier × Outcome
  | .submit request enter transferred => submit tier request enter transferred
  | .complete index res => (complete tier index res, .completed)
  | .wait minComplete capacity enter => wait tier minComplete capacity enter

def reachesEnter (tier : Tier) (request : Request) : Bool :=
  (checkRequest tier.plan request).isOk && tier.outstanding < tier.queueDepth &&
    tier.backend = .ioUringDirect && (firstFree tier.slots).isSome &&
    tier.sq.length < tier.sqEntries

def counted (tier : Tier) (reads writes : UInt64) : Tier :=
  { tier with calls := tier.calls + 1, submittedReads := reads, submittedWrites := writes }

variable {request : Request} {slots : List Slot} {tier : Tier} {cqe : Cqe}

lemma checkRequest_error_ne {p : Plan} {st : Status}
    (h : checkRequest p request = .error st) : st ≠ .ok := by
  unfold checkRequest at h
  split at h
  · cases h
    decide
  split at h
  · cases h
    decide
  unfold pageOffset at h
  split at h
  · cases h
    decide
  · dsimp only at h
    generalize (if request.family = kTarget then _ else _ : Option UInt64) = o at h
    cases o with
    | none =>
      cases h
      decide
    | some o => cases h

lemma firstFree_some {i : Nat} (h : firstFree slots = some i) :
    ∃ sl, slots[i]? = some sl ∧ sl.active = false := by
  obtain ⟨hl, hf, -⟩ := findIdx?_eq_some_iff_getElem.1 h
  exact ⟨slots[i], getElem?_eq_getElem hl, by simpa using hf⟩

/-- A `submit` refuses its request and changes only the counters; or it publishes an entry that the
kernel does not take; or the kernel takes the entry at the head of the queue; or the page is read or
written at once. -/
inductive SubmitCase (tier : Tier) (request : Request) (enter : Enter) :
    Tier → Outcome → Prop where
  | refused (reads writes : UInt64) (status : Status) (hstatus : status ≠ .ok)
      (henter : reachesEnter tier request = false) :
      SubmitCase tier request enter (counted tier reads writes)
        (.submitted tier.calls request.userData status none)
  | published (reads writes offset : UInt64) (slot : Nat)
      (henter : reachesEnter tier request = true) (hring : tier.backend = .ioUringDirect)
      (hfree : firstFree tier.slots = some slot) (hnone : enter = .none) :
      SubmitCase tier request enter
        { counted tier reads writes with
          slots := tier.slots.set slot {}
          sq := tier.sq ++ [sqeOf request offset slot tier.calls] }
        (.submitted tier.calls request.userData .io none)
  | taken (reads writes offset : UInt64) (slot : Nat) (first : Sqe) (rest : List Sqe)
      (henter : reachesEnter tier request = true) (hring : tier.backend = .ioUringDirect)
      (hfree : firstFree tier.slots = some slot) (htaken : enter = .submitted)
      (hsq : tier.sq ++ [sqeOf request offset slot tier.calls] = first :: rest) :
      SubmitCase tier request enter
        { counted tier reads writes with
          slots := tier.slots.set slot (slotOf request tier.calls), sq := rest
          inflight := tier.inflight ++ [first], outstanding := tier.outstanding + 1 }
        (.submitted tier.calls request.userData .ok (some first.call))
  | synchronous (reads writes : UInt64) (completion : SyncCompletion)
      (henter : reachesEnter tier request = false) (hsync : tier.backend = .syncDirect)
      (hcall : completion.call = tier.calls) (hdata : completion.userData = request.userData) :
      SubmitCase tier request enter
        { counted tier reads writes with
          syncCompletions := tier.syncCompletions ++ [completion]
          outstanding := tier.outstanding + 1 }
        (.submitted tier.calls request.userData .ok (some tier.calls))

lemma submitRing_cases {enter : Enter} {o : UInt64} (hc : checkRequest tier.plan request = .ok o)
    (hro : tier.outstanding < tier.queueDepth) (hr : tier.backend = .ioUringDirect)
    (rs ws : UInt64) : SubmitCase tier request enter
    (submitRing (counted tier rs ws) request o tier.calls enter).1
    (.submitted tier.calls request.userData
    (submitRing (counted tier rs ws) request o tier.calls enter).2.1
    (submitRing (counted tier rs ws) request o tier.calls enter).2.2) := by
  unfold submitRing
  cases hfr : firstFree tier.slots with
  | none =>
    simp only [counted, hfr]
    exact .refused rs ws .budget (by decide) (by simp [reachesEnter, hfr])
  | some sl =>
    simp only [counted, hfr]
    by_cases hf : tier.sqEntries ≤ tier.sq.length
    · simp only [hf, if_true]
      exact .refused rs ws .budget (by decide) (by simp [reachesEnter, not_lt.2 hf])
    · simp only [hf, if_false]
      have he : reachesEnter tier request := by
        simp [reachesEnter, hc, hro, hr, hfr, not_le.1 hf, Except.isOk, Except.toBool]
      cases enter with
      | none => exact .published rs ws o sl he hr hfr rfl
      | submitted =>
        cases hsq : tier.sq ++ [sqeOf request o sl tier.calls] with
        | nil => simp at hsq
        | cons first re =>
          exact .taken rs ws o sl first re he hr hfr rfl hsq

lemma submit_cases (tier : Tier) (request : Request) (enter : Enter) (tr : Bool) :
    SubmitCase tier request enter (submit tier request enter tr).1
    (submit tier request enter tr).2 := by
  unfold submit
  dsimp only
  cases hch : checkRequest tier.plan request with
  | error st =>
    exact .refused _ _ st (checkRequest_error_ne hch)
      (by simp [reachesEnter, hch, Except.isOk, Except.toBool])
  | ok o =>
    dsimp only
    split
    · rename_i hd
      exact .refused _ _ .budget (by decide) (by
          have : tier.queueDepth ≤ tier.outstanding := hd
          simp [reachesEnter, not_lt.2 this])
    rename_i hd
    have hr : tier.outstanding < tier.queueDepth := not_le.1 hd
    obtain ⟨rs, writes, hc⟩ : ∃ rs writes, (if request.operation = kRead then
            { tier with calls := tier.calls + 1, submittedReads := tier.submittedReads + 1 }
          else { tier with
            calls := tier.calls + 1, submittedWrites := tier.submittedWrites + 1 }) =
          counted tier rs writes := by
      split
      · exact ⟨_, _, rfl⟩
      · exact ⟨_, _, rfl⟩
    rw [hc]
    cases hbk : tier.backend with
    | syncDirect =>
      have : (counted tier rs writes).backend = .syncDirect := hbk
      rw [this]
      exact .synchronous rs writes _ (by simp [reachesEnter, hbk]) hbk rfl rfl
    | ioUringDirect =>
      have : (counted tier rs writes).backend = .ioUringDirect := hbk
      rw [this]
      exact submitRing_cases hch hr hbk rs writes

def SameQueues (tier tier' : Tier) : Prop :=
  tier'.plan = tier.plan ∧ tier'.backend = tier.backend ∧ tier'.sqEntries = tier.sqEntries ∧
    tier'.sq = tier.sq ∧ tier'.inflight = tier.inflight ∧ tier'.cq = tier.cq ∧
    tier'.syncCompletions = tier.syncCompletions ∧ tier'.calls = tier.calls ∧
    tier'.slots.length = tier.slots.length

lemma namedSlot_eq_some {sl : Slot} : namedSlot slots cqe = some sl ↔
    0 < cqe.userData.toNat ∧ slots[cqe.userData.toNat - 1]? = some sl ∧ sl.active = true := by
  have hz : cqe.userData = 0 ↔ cqe.userData.toNat = 0 := UInt64.toNat_inj.symm
  rw [namedSlot]
  split
  · rename_i h
    have := hz.1 h
    simp [this]
  · rename_i h
    have hp : 0 < cqe.userData.toNat := Nat.pos_of_ne_zero fun h' => h (hz.2 h')
    cases hslot : slots[cqe.userData.toNat - 1]? with
    | none => simp
    | some f =>
      dsimp only
      split <;> rename_i ha
      · constructor
        · intro h
          cases h
          exact ⟨hp, rfl, ha⟩
        · exact fun h => h.2.1
      · constructor
        · nofun
        · rintro ⟨-, hf, hs⟩
          rw [Option.some.inj hf] at ha
          exact absurd hs ha

lemma claim_eq_some {cl : Tier} {re : Report} (h : claim tier cqe = some (cl, re)) :
    ∃ sl, namedSlot tier.slots cqe = some sl ∧
    cl.slots = tier.slots.set (cqe.userData.toNat - 1) {} ∧
    cl.outstanding = tier.outstanding - 1 ∧ SameQueues tier cl ∧
    re.owner = sl.call ∧ re.performed = cqe.call ∧
    re.completion.userData = sl.userData := by
  rw [claim] at h
  split at h
  · cases h
  · rename_i sl hs
    cases h
    exact ⟨sl, hs, rfl, rfl, ⟨rfl, rfl, rfl, rfl, rfl, rfl, rfl, rfl, length_set⟩, rfl, rfl, rfl⟩

lemma claim_eq_none : claim tier cqe = none ↔ namedSlot tier.slots cqe = none := by
  rw [claim]
  split <;> simp [*]

lemma SameQueues.refl (tier : Tier) : SameQueues tier tier :=
  ⟨rfl, rfl, rfl, rfl, rfl, rfl, rfl, rfl, rfl⟩

lemma SameQueues.trans {a b c : Tier} (h : SameQueues a b) (h' : SameQueues b c) :
    SameQueues a c := by
  obtain ⟨h1, h2, h3, h4, h5, h6, h7, h8, h9⟩ := h
  obtain ⟨k1, k2, k3, k4, k5, k6, k7, k8, k9⟩ := h'
  exact ⟨k1.trans h1, k2.trans h2, k3.trans h3, k4.trans h4, k5.trans h5, k6.trans h6,
    k7.trans h7, k8.trans h8, k9.trans h9⟩

lemma drain_sameQueues (tier : Tier) (re : List Cqe) : SameQueues tier (drain tier re).1 := by
  induction re generalizing tier with
  | nil => exact .refl tier
  | cons cqe re ih =>
    rw [drain]
    split
    · exact .refl tier
    · rename_i cl rp hc
      obtain ⟨sl, -, -, -, hs, -⟩ := claim_eq_some hc
      exact hs.trans (ih cl)

lemma drainSync_spec (tier : Tier) (re : List SyncCompletion) :
    (drainSync tier re).1.slots = tier.slots ∧ SameQueues tier (drainSync tier re).1 ∧
    (drainSync tier re).1.outstanding = tier.outstanding - re.length ∧
    (drainSync tier re).2.length = re.length ∧
    (drainSync tier re).2.map Report.owner = re.map SyncCompletion.call ∧
    ∀ rp ∈ (drainSync tier re).2, rp.owner = rp.performed ∧
    ∃ co ∈ re, co.call = rp.owner ∧
    co.userData = rp.completion.userData := by
  induction re generalizing tier with
  | nil => exact ⟨rfl, .refl tier, rfl, rfl, rfl, nofun⟩
  | cons co re ih =>
    rw [drainSync]
    dsimp only
    generalize hn : (if co.result = .ok then _ else _ : Tier) = next
    have hs : SameQueues tier next ∧ next.slots = tier.slots ∧
        next.outstanding = tier.outstanding - 1 := by
      rw [← hn]
      split <;> exact ⟨.refl tier, rfl, rfl⟩
    obtain ⟨hsl, hq, hou, hl, ho, hr⟩ := ih next
    refine ⟨hsl.trans hs.2.1, hs.1.trans hq, ?_, by simp [hl],
      by simp [ho], ?_⟩
    · rw [hou, hs.2.2, length_cons]
      omega
    · rintro rp (_ | ⟨_, hm⟩)
      · exact ⟨rfl, co, mem_cons_self, rfl, rfl⟩
      · obtain ⟨how, c, hc, hca, hd⟩ := hr rp hm
        exact ⟨how, c, mem_cons_of_mem _ hc, hca, hd⟩

def reachesDrain (tier : Tier) (minComplete capacity : Nat) (enter : WaitEnter) : Bool :=
  minComplete ≤ capacity && minComplete ≤ tier.outstanding && tier.backend = .ioUringDirect &&
    (minComplete = 0 || enter ≠ .failed)

/-- A `wait` refuses and changes nothing; or it reads the completion queue, and then it stops at an
entry that names no slot in use, or it finds fewer completions than asked for, or it hands out what
it read; or it hands out requests done at once. -/
inductive WaitCase (tier : Tier) (minComplete capacity : Nat) (enter : WaitEnter) :
    Tier → Outcome → Prop where
  | refused (status : Status) (hstatus : status ≠ .ok)
      (hdrain : reachesDrain tier minComplete capacity enter = false) :
      WaitCase tier minComplete capacity enter tier (.waited status [])
  | stopped (hdrain : reachesDrain tier minComplete capacity enter = true)
      (hring : tier.backend = .ioUringDirect)
      (hstop : (drain tier (tier.cq.take capacity)).2.2 = false) :
      WaitCase tier minComplete capacity enter (drain tier (tier.cq.take capacity)).1
        (.waited .runtime [])
  | short (hdrain : reachesDrain tier minComplete capacity enter = true)
      (hring : tier.backend = .ioUringDirect)
      (hwhole : (drain tier (tier.cq.take capacity)).2.2 = true)
      (hshort : (drain tier (tier.cq.take capacity)).2.1.length < minComplete) :
      WaitCase tier minComplete capacity enter
        { (drain tier (tier.cq.take capacity)).1 with cq := tier.cq.drop capacity }
        (.waited .io [])
  | served (hdrain : reachesDrain tier minComplete capacity enter = true)
      (hring : tier.backend = .ioUringDirect)
      (hwhole : (drain tier (tier.cq.take capacity)).2.2 = true)
      (henough : minComplete ≤ (drain tier (tier.cq.take capacity)).2.1.length) :
      WaitCase tier minComplete capacity enter
        { (drain tier (tier.cq.take capacity)).1 with cq := tier.cq.drop capacity }
        (.waited .ok (drain tier (tier.cq.take capacity)).2.1)
  | synchronous (hdrain : reachesDrain tier minComplete capacity enter = false)
      (hsync : tier.backend = .syncDirect) (hcapacity : minComplete ≤ capacity)
      (houtstanding : minComplete ≤ tier.outstanding) (status : Status) (reports : List Report)
      (hserved : minComplete ≤ (drainSync tier (tier.syncCompletions.take capacity)).2.length →
        status = .ok ∧ reports = (drainSync tier (tier.syncCompletions.take capacity)).2)
      (hshort : (drainSync tier (tier.syncCompletions.take capacity)).2.length < minComplete →
        status = .io ∧ reports = []) :
      WaitCase tier minComplete capacity enter
        { (drainSync tier (tier.syncCompletions.take capacity)).1 with
          syncCompletions := tier.syncCompletions.drop capacity }
        (.waited status reports)

lemma wait_cases (tier : Tier) (mc ca : Nat) (enter : WaitEnter) :
    WaitCase tier mc ca enter (wait tier mc ca enter).1
    (wait tier mc ca enter).2 := by
  unfold wait
  by_cases ha : ca < mc ∨ tier.outstanding < mc
  · simp only [ha, if_true]
    refine .refused _ (by decide) ?_
    rw [reachesDrain]
    obtain h | h := ha
    · simp [not_le.2 h]
    · simp [not_le.2 h]
  simp only [ha, if_false]
  obtain ⟨hc, ho⟩ := not_or.1 ha
  rw [not_lt] at hc ho
  cases hbk : tier.backend with
  | syncDirect =>
    have hdr : reachesDrain tier mc ca enter = false := by
      simp [reachesDrain, hbk]
    dsimp only
    by_cases hs :
        (drainSync tier (tier.syncCompletions.take ca)).2.length < mc
    · simp only [hs, if_true]
      exact .synchronous hdr hbk hc ho _ _ (fun h => absurd hs (not_lt.2 h)) fun _ => ⟨rfl, rfl⟩
    · simp only [hs, if_false]
      exact .synchronous hdr hbk hc ho _ _ (fun _ => ⟨rfl, rfl⟩)
        fun h => absurd h hs
  | ioUringDirect =>
    dsimp only
    by_cases hf : mc ≠ 0 ∧ enter = .failed
    · simp only [hf, if_true, ne_eq, not_false_eq_true, and_self]
      refine .refused _ (by decide) ?_
      simp [reachesDrain, hf]
    · have hdr : reachesDrain tier mc ca enter := by
        rw [not_and_or, not_not] at hf
        simp [reachesDrain, hc, ho, hbk, hf]
      rw [if_neg hf]
      generalize hd : drain tier (tier.cq.take ca) = drained
      obtain ⟨af, rs, wh⟩ := drained
      cases wh with
      | false =>
        have := WaitCase.stopped hdr hbk (by rw [hd])
        rwa [hd] at this
      | true =>
        dsimp only
        by_cases hs : rs.length < mc
        · rw [if_pos hs]
          have := WaitCase.short hdr hbk (by rw [hd]) (by rw [hd]; exact hs)
          rwa [hd] at this
        · rw [if_neg hs]
          have := WaitCase.served hdr hbk (by rw [hd]) (by rw [hd]; exact not_lt.1 hs)
          rwa [hd] at this

def onePagePlan : Plan :=
  { abiVersion := 1, maxContext := 256, pageTokens := 256, logicalPages := 1, hotPages := 0
    hotTokens := 0, targetLayers := 16, dsparkLayers := 5, targetBytesPerToken := 32768
    dsparkBytesPerToken := 10240, combinedBytesPerToken := 43008, targetPageBytes := 524288
    dsparkPageBytes := 524288, combinedPageBytes := 11010048, targetPayloadBytes := 8388608
    dsparkPayloadBytes := 2621440, payloadBytes := 11010048, fileBytes := 11014144
    hotDeviceBytes := 0 }

example : (planGet kAbi 256 0).toOption = some onePagePlan := by decide +kernel

def pageRead (userData : UInt64) : Request :=
  { abiVersion := 1, operation := kRead, family := kTarget, layer := 0, logicalPage := 0
    hostPage := 4096, hostPageBytes := 524288, userData := userData }

def onePageTier (backend : Backend) : Tier := Tier.create onePagePlan backend 2 2

end AxiomKernel.Qwen38.KvTier
