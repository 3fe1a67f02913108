import AxiomKernel.Codex.Restore

/-!
# What `restore` leaves alone

`restore` rewrites the fields it knows and follows three kinds of children. Every other field of an
object is handed on as it came, whatever the rest of the response looks like.
-/
namespace AxiomKernel.Codex

open Ajson Image Text List Option Except

/-- The fields `restore` may write or erase on an object itself. -/
def headFields : List Bytes :=
  ["type", "execution", "arguments", "name", "namespace", "codex_tool_errors"].map ascii ++
    responseKeys

def touchedFields : List Bytes := headFields ++ childKeys

lemma childKeys_notMem_headFields : ∀ key ∈ childKeys, key ∉ headFields := by
  decide

lemma member_erase_ne {members : List (Bytes × Ajson)} {v : Ajson} (hv : v = .obj members)
    {key other : Bytes} (h : other ≠ key) :
    (∃ ms', v.erase key = .obj ms') ∧ (v.erase key).member other = v.member other := by
  rw [hv]
  exact ⟨⟨_, rfl⟩, lookup_eraseMember_of_ne h members⟩

section
variable {m : Restorer} {members : List (Bytes × Ajson)} {v : Ajson}

lemma restoreToolSearch_spec {v' : Ajson} (hv : v = .obj members)
    (h : restoreToolSearch m v = .ok v') : (∃ ms', v' = .obj ms') ∧
    v'.member (ascii "type") = some (.str (ascii "tool_search_call")) ∧
    ∀ key, key ∉ headFields → v'.member key = v.member key := by
  unfold restoreToolSearch at h
  dsimp only at h
  split at h
  next ar _ =>
    obtain rfl := (ok.inj h).symm
    obtain ⟨ms₁, h₁⟩ := isObj_set v (ascii "type") (.str (ascii "tool_search_call"))
    obtain ⟨ms₂, h₂⟩ := isObj_set (v.set (ascii "type") (.str (ascii "tool_search_call")))
      (ascii "execution") (.str (ascii "client"))
    obtain ⟨ms₃, h₃⟩ := isObj_set
      ((v.set (ascii "type") (.str (ascii "tool_search_call"))).set (ascii "execution")
        (.str (ascii "client"))) (ascii "arguments") (.obj ar)
    have hkp : ∀ key, key ≠ ascii "execution" → key ≠ ascii "arguments" → key ≠ ascii "name" →
        key ≠ ascii "namespace" →
        (((((v.set (ascii "type") (.str (ascii "tool_search_call"))).set (ascii "execution")
          (.str (ascii "client"))).set (ascii "arguments") (.obj ar)).erase
          (ascii "name")).erase (ascii "namespace")).member key =
        (v.set (ascii "type") (.str (ascii "tool_search_call"))).member key := by
      intro key he ha hn hns
      obtain ⟨⟨ms₄, h₄⟩, hfi⟩ := member_erase_ne h₃ hn
      rw [(member_erase_ne h₄ hns).2, hfi, member_set_ne h₂ ha, member_set_ne h₁ he]
    obtain ⟨ms₄, h₄⟩ := (member_erase_ne h₃ (by decide : ascii "type" ≠ ascii "name")).1
    refine ⟨(member_erase_ne h₄ (by decide : ascii "type" ≠ ascii "namespace")).1, ?_, ?_⟩
    · rw [hkp _ (by decide) (by decide) (by decide) (by decide), member_set_self]
    · intro key hk
      have hne : ∀ other ∈ headFields, key ≠ other := fun other ho heq => hk (heq ▸ ho)
      rw [hkp key (hne _ (by decide)) (hne _ (by decide)) (hne _ (by decide))
        (hne _ (by decide)), member_set_ne hv (hne _ (by decide))]
  · cases h
  · cases h

/-- The object itself keeps every field that `restore` does not know. -/
lemma restoreHead_spec {re : Bool} (h : restoreHead m (.obj members) = .ok (v, re)) :
    (∃ ms', v = .obj ms') ∧
    (∀ key, key ∉ headFields → v.member key = member (.obj members) key) ∧
    v.member (ascii "type") =
    if re then some (.str (ascii "tool_search_call"))
    else member (.obj members) (ascii "type") := by
  obtain ⟨⟨ms₁, h₁⟩, hh⟩ := restoreHeader_spec m (@rfl _ (Ajson.obj members))
  have hu : ∀ key, key ∉ headFields → key ∉ headerKeys m (.obj members) := by
    intro key hk hm
    refine hk (mem_append.2 ?_)
    rcases mem_cons.1 (headerKeys_known hm) with rfl | hm
    · exact .inl (by decide)
    · exact .inr hm
  have ht : ascii "type" ∉ headerKeys m (.obj members) := fun hm =>
    absurd (headerKeys_known hm) (by decide)
  unfold restoreHead at h
  dsimp only at h
  split at h
  · split at h
    · cases hsear : restoreToolSearch m (restoreHeader m (.obj members)) with
      | error e =>
        rw [hsear] at h
        cases h
      | ok v' =>
        rw [hsear] at h
        cases h
        obtain ⟨ho, hs, hkp⟩ := restoreToolSearch_spec h₁ hsear
        refine ⟨ho, fun key hk => ?_, by simpa using hs⟩
        rw [hkp key hk, hh key (hu key hk)]
    · split at h
      next id _ =>
        cases h
        obtain ⟨ho, _, _, hkp⟩ := restoreIdentity_spec id h₁
        refine ⟨ho, fun key hk => ?_, ?_⟩
        · rw [hkp key (fun he => hk (he ▸ by decide)) (fun he => hk (he ▸ by decide)),
            hh key (hu key hk)]
        · rw [hkp _ (by decide) (by decide), hh _ ht]
          rfl
      · cases h
        exact ⟨⟨ms₁, h₁⟩, fun key hk => hh key (hu key hk), hh _ ht⟩
  · cases h
    exact ⟨⟨ms₁, h₁⟩, fun key hk => hh key (hu key hk), hh _ ht⟩

lemma restoreHead_not_returned (hc : isCall (.obj members) = false) :
    ∃ v, restoreHead m (.obj members) = .ok (v, false) := by
  unfold restoreHead
  simp only [hc, Bool.false_eq_true, if_false]
  exact ⟨_, rfl⟩

variable {key : Bytes} {f : Ajson → Except String Ajson}

lemma rewrittenBy_some {ch co : Ajson} (hch : v.member key = some ch)
    (hc : f ch = .ok co) : rewrittenBy f v key = .ok [(key, co)] := by
  simp only [rewrittenBy, hch, hc, Except.map]

lemma member_setAll (v : Ajson) (b after : List (Bytes × Ajson)) (child : Ajson)
    (hk : key ∉ after.map Prod.fst) :
    (setAll v (b ++ (key, child) :: after)).member key = some child := by
  have hs : setAll v (b ++ (key, child) :: after) = setAll ((setAll v b).set key child) after := by
    simp [setAll]
  obtain ⟨ms', h'⟩ := isObj_set (setAll v b) key child
  rw [hs, (setAll_spec after h').2 key hk, member_set_self]

section
variable {fields : List (Bytes × Ajson)} (hf : rewrittenBy f v key = .ok fields)
include hf

lemma notMem_rewritten {other : Bytes} (hne : other ≠ key) : other ∉ fields.map Prod.fst := by
  intro hm
  obtain ⟨fi, hfi, rfl⟩ := mem_map.1 hm
  exact hne (rewrittenBy_keys hf fi hfi).1

lemma member_rewritten (b after : List (Bytes × Ajson)) {ch : Ajson}
    (hch : v.member key = some ch) (hk : key ∉ after.map Prod.fst) :
    ∃ co, f ch = .ok co ∧ (setAll v (b ++ fields ++ after)).member key = some co := by
  rcases rewrittenBy_ok hf with ⟨hno, _⟩ | ⟨ch', co, hch', hco, rfl⟩
  · cases hch.symm.trans hno
  · cases hch.symm.trans hch'
    refine ⟨co, hco, ?_⟩
    rw [append_assoc]
    exact member_setAll v b after co hk

end

structure Kept (m : Restorer) (members : List (Bytes × Ajson)) (v : Ajson) : Prop where
  isObj : ∃ members', v = .obj members'
  fields : ∀ key, key ∉ touchedFields → v.member key = member (.obj members) key
  type : v.member (ascii "type") = member (.obj members) (ascii "type") ∨
    isCall (.obj members) = true ∧
      v.member (ascii "type") = some (.str (ascii "tool_search_call"))
  /-- The items of the output are restored or, in a tool search, as they came. -/
  output : ∀ items, member (.obj members) (ascii "output") = some (.arr items) →
    ∃ items', v.member (ascii "output") = some (.arr items') ∧
      (items' = items ∨ items.mapM (restore m) = .ok items')
  /-- An object that is no call has its item and its response restored. -/
  child : isCall (.obj members) = false → ∀ key ∈ [ascii "item", ascii "response"],
    ∀ child, member (.obj members) key = some child →
      ∃ child', restore m child = .ok child' ∧ v.member key = some child'

lemma kept_of_restore (h : restore m (.obj members) = .ok v) : Kept m members v := by
  cases hh : restoreHead m (.obj members) with
  | error e =>
    rw [restore] at h
    split at h
    · cases h
    next hh' => rw [hh] at hh'; cases hh'
    next hh' => rw [hh] at hh'; cases hh'
  | ok he =>
    obtain ⟨w, rt⟩ := he
    obtain ⟨⟨ms₁, h₁⟩, hkp, hty⟩ := restoreHead_spec hh
    cases rt with
    | true =>
      rw [restore_returned hh] at h
      cases h
      have hc : isCall (.obj members) := by
        by_contra hc
        obtain ⟨w', hw'⟩ := restoreHead_not_returned (m := m) (Bool.not_eq_true _ ▸ hc)
        rw [hh] at hw'
        cases hw'
      refine ⟨⟨ms₁, h₁⟩, fun key hk => ?_, .inr ⟨hc, by simpa using hty⟩, ?_, ?_⟩
      · exact hkp key fun hm => hk (mem_append_left _ hm)
      · intro ite hit
        exact ⟨ite, by rw [hkp _ (by decide), hit], .inl rfl⟩
      · intro hnt
        rw [hc] at hnt
        cases hnt
    | false =>
      obtain ⟨fields, hf, hfc⟩ := restore_ok hh h
      obtain ⟨hob, hs⟩ := setAll_spec fields h₁
      have hot : ∀ key, key ∉ childKeys → key ∉ fields.map Prod.fst := by
        intro key hk hm
        obtain ⟨fi, hfi, rfl⟩ := mem_map.1 hm
        exact hk (hfc fi hfi).1
      rw [restore_eq hh] at h
      obtain ⟨i, hi, h⟩ := Guard.bind_eq_ok.1 h
      obtain ⟨re, hr, h⟩ := Guard.bind_eq_ok.1 h
      obtain ⟨o, ho, h⟩ := Guard.bind_eq_ok.1 h
      have hset : setAll w (i ++ re ++ o) = v := ok.inj h
      refine ⟨hf ▸ hob, fun key hk => ?_, .inl ?_, ?_, ?_⟩
      · rw [hf, hs key (hot key fun hm => hk (mem_append_right _ hm))]
        exact hkp key fun hm => hk (mem_append_left _ hm)
      · rw [hf, hs _ (hot _ (by decide))]
        exact hty
      · intro ite hit
        obtain ⟨co, hco, hm⟩ :=
          member_rewritten ho (i ++ re) [] ((hkp _ (by decide)).trans hit) not_mem_nil
        rw [append_nil, hset] at hm
        cases hmap : ite.mapM (restore m) with
        | error e =>
          simp only [restoreOutput, hmap] at hco
          cases hco
        | ok is' =>
          simp only [restoreOutput, hmap] at hco
          cases hco
          exact ⟨is', hm, .inr rfl⟩
      · intro _ key hk child hch
        have hmb : w.member key = some child := by
          rw [hkp key, hch]
          exact childKeys_notMem_headFields key (mem_append_left [ascii "output"] hk)
        rw [← hset]
        rcases mem_cons.1 hk with rfl | hk
        · rw [append_assoc]
          refine member_rewritten hi [] (re ++ o) hmb ?_
          rw [map_append, mem_append, not_or]
          exact ⟨notMem_rewritten hr (by decide), notMem_rewritten ho (by decide)⟩
        · obtain rfl := mem_singleton.1 hk
          exact member_rewritten hr i o hmb (notMem_rewritten ho (by decide))

lemma restore_isOk (hc : isCall (.obj members) = false)
    (hch : ∀ key ∈ [ascii "item", ascii "response"], ∀ ch,
    member (.obj members) key = some ch → ∃ copy, restore m ch = .ok copy)
    (ho : ∀ i, member (.obj members) (ascii "output") = some (.arr i) →
    ∃ is', i.mapM (restore m) = .ok is') : ∃ v, restore m (.obj members) = .ok v := by
  obtain ⟨w, hh⟩ := restoreHead_not_returned (m := m) hc
  obtain ⟨_, hkp, _⟩ := restoreHead_spec hh
  have hr : ∀ key ∈ [ascii "item", ascii "response"],
      ∃ fields, rewrittenBy (restore m) w key = .ok fields := by
    intro key hk
    have hmb : w.member key = member (.obj members) key :=
      hkp key (childKeys_notMem_headFields key (mem_append_left [ascii "output"] hk))
    cases hfo : member (.obj members) key with
    | none => exact ⟨_, rewrittenBy_none (hmb.trans hfo)⟩
    | some ch =>
      obtain ⟨copy, hco⟩ := hch key hk ch hfo
      exact ⟨_, rewrittenBy_some (hmb.trans hfo) hco⟩
  have hl : ∃ fields, rewrittenBy (restoreOutput m) w (ascii "output") = .ok fields := by
    have hmb := hkp (ascii "output") (by decide)
    cases hfo : member (.obj members) (ascii "output") with
    | none => exact ⟨_, rewrittenBy_none (hmb.trans hfo)⟩
    | some ch =>
      have hco : ∃ copy, restoreOutput m ch = .ok copy := by
        cases ch with
        | arr i =>
          obtain ⟨is', hit⟩ := ho i hfo
          exact ⟨.arr is', by simp only [restoreOutput, hit, Except.map]⟩
        | _ => exact ⟨_, rfl⟩
      obtain ⟨copy, hco⟩ := hco
      exact ⟨_, rewrittenBy_some (hmb.trans hfo) hco⟩
  obtain ⟨ite, hi⟩ := hr (ascii "item") (by decide)
  obtain ⟨re, hre⟩ := hr (ascii "response") (by decide)
  obtain ⟨o, ho⟩ := hl
  exact ⟨_, by rw [restore_eq hh, hi, hre, ho]; rfl⟩

end

end AxiomKernel.Codex
