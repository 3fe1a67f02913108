import AxiomKernel.Status
import AxiomKernel.Lib.Tiling

/-! The plan of a KV tier file and the offsets of its pages: `axiom_qwen38_kv_tier_plan_get` and the
two offset computations, one for the tier's own requests and one for its journal. -/
namespace AxiomKernel.Qwen38.KvTier

open UInt32 Tiling Option Nat

def kAbi : UInt32 := 1
def kPageTokens : UInt32 := 256
def kTargetLayers : UInt32 := 16
def kDsparkLayers : UInt32 := 5
def kTargetPageBytes : UInt64 := 524288
def kDsparkPageBytes : UInt64 := 524288
def kCombinedPageBytes : UInt64 := 11010048
def kHeaderBytes : UInt64 := 4096
def kTargetBytesPerToken : UInt64 := 32768
def kDsparkBytesPerToken : UInt64 := 10240
def kCombinedBytesPerToken : UInt64 := 43008

/-- `AXIOM_QWEN38_KV_TIER_TARGET` and `AXIOM_QWEN38_KV_TIER_DSPARK`. -/
def kTarget : UInt32 := 1
def kDspark : UInt32 := 2

def kMax64 : UInt64 := 18446744073709551615

def checkedAdd (a b : UInt64) : Option UInt64 :=
  if kMax64 - a < b then none else some (a + b)

def checkedMul (a b : UInt64) : Option UInt64 :=
  if a ≠ 0 ∧ kMax64 / a < b then none else some (a * b)

structure Plan where
  abiVersion : UInt32
  maxContext : UInt32
  pageTokens : UInt32
  logicalPages : UInt32
  hotPages : UInt32
  hotTokens : UInt32
  targetLayers : UInt32
  dsparkLayers : UInt32
  targetBytesPerToken : UInt64
  dsparkBytesPerToken : UInt64
  combinedBytesPerToken : UInt64
  targetPageBytes : UInt64
  dsparkPageBytes : UInt64
  combinedPageBytes : UInt64
  targetPayloadBytes : UInt64
  dsparkPayloadBytes : UInt64
  payloadBytes : UInt64
  fileBytes : UInt64
  hotDeviceBytes : UInt64
  deriving DecidableEq, Repr

def logicalPagesFor (maxContext : UInt32) : UInt32 :=
  ((maxContext.toUInt64 + kPageTokens.toUInt64 - 1) / kPageTokens.toUInt64).toUInt32

def planSizes (abiVersion maxContext logicalPages hotPages : UInt32) : Option Plan := do
  let targetLayerBytes ← checkedMul logicalPages.toUInt64 kTargetPageBytes
  let targetPayloadBytes ← checkedMul targetLayerBytes kTargetLayers.toUInt64
  let dsparkLayerBytes ← checkedMul logicalPages.toUInt64 kDsparkPageBytes
  let dsparkPayloadBytes ← checkedMul dsparkLayerBytes kDsparkLayers.toUInt64
  let payloadBytes ← checkedAdd targetPayloadBytes dsparkPayloadBytes
  let fileBytes ← checkedAdd kHeaderBytes payloadBytes
  let hotDeviceBytes ← checkedMul hotPages.toUInt64 kCombinedPageBytes
  some {
    abiVersion := abiVersion, maxContext := maxContext, pageTokens := kPageTokens
    logicalPages := logicalPages, hotPages := hotPages, hotTokens := hotPages * kPageTokens
    targetLayers := kTargetLayers, dsparkLayers := kDsparkLayers
    targetBytesPerToken := kTargetBytesPerToken, dsparkBytesPerToken := kDsparkBytesPerToken
    combinedBytesPerToken := kCombinedBytesPerToken
    targetPageBytes := kTargetPageBytes, dsparkPageBytes := kDsparkPageBytes
    combinedPageBytes := kCombinedPageBytes
    targetPayloadBytes := targetPayloadBytes, dsparkPayloadBytes := dsparkPayloadBytes
    payloadBytes := payloadBytes, fileBytes := fileBytes, hotDeviceBytes := hotDeviceBytes }

/-- `axiom_qwen38_kv_tier_plan_get`; the version is the one the caller left in the output. -/
def planGet (abiVersion maxContext hotPages : UInt32) : Except Status Plan :=
  if abiVersion ≠ kAbi ∨ maxContext = 0 then .error .invalidArgument
  else if logicalPagesFor maxContext < hotPages then .error .invalidArgument
  else
    match planSizes abiVersion maxContext (logicalPagesFor maxContext) hotPages with
    | none => .error .budget
    | some plan => .ok plan

def familyPageBytes (family : UInt32) : UInt64 :=
  if family = kTarget then kTargetPageBytes
  else if family = kDspark then kDsparkPageBytes
  else 0

/-- `axiom_qwen38_kv_tier_page_offset`, which reads only the tier's plan. -/
def pageOffset (plan : Plan) (family layer logicalPage : UInt32) : Except Status UInt64 :=
  if plan.logicalPages ≤ logicalPage then .error .invalidArgument
  else
    let offset : Option UInt64 :=
      if family = kTarget then
        if plan.targetLayers ≤ layer then none
        else do
          let layerSpan ← checkedMul plan.logicalPages.toUInt64 plan.targetPageBytes
          let within ← checkedMul layer.toUInt64 layerSpan
          let offset ← checkedAdd kHeaderBytes within
          let within ← checkedMul logicalPage.toUInt64 plan.targetPageBytes
          checkedAdd offset within
      else if family = kDspark then
        if plan.dsparkLayers ≤ layer then none
        else do
          let offset ← checkedAdd kHeaderBytes plan.targetPayloadBytes
          let layerSpan ← checkedMul plan.logicalPages.toUInt64 plan.dsparkPageBytes
          let within ← checkedMul layer.toUInt64 layerSpan
          let offset ← checkedAdd offset within
          let within ← checkedMul logicalPage.toUInt64 plan.dsparkPageBytes
          checkedAdd offset within
      else none
    match offset with
    | none => .error .invalidArgument
    | some offset => .ok offset

/-- `page_offset_for_plan`, the copy that the journal uses. -/
def pageOffsetForPlan (plan : Plan) (family layer logicalPage : UInt32) : Except Status UInt64 :=
  if plan.logicalPages ≤ logicalPage then .error .invalidArgument
  else
    let offset : Option UInt64 :=
      if family = kTarget then
        if plan.targetLayers ≤ layer then none
        else do
          let layerSpan ← checkedMul plan.logicalPages.toUInt64 plan.targetPageBytes
          let within ← checkedMul layer.toUInt64 layerSpan
          let offset ← checkedAdd kHeaderBytes within
          let within ← checkedMul logicalPage.toUInt64 plan.targetPageBytes
          checkedAdd offset within
      else if family = kDspark then
        if plan.dsparkLayers ≤ layer then none
        else do
          let offset ← checkedAdd kHeaderBytes plan.targetPayloadBytes
          let layerSpan ← checkedMul plan.logicalPages.toUInt64 plan.dsparkPageBytes
          let within ← checkedMul layer.toUInt64 layerSpan
          let offset ← checkedAdd offset within
          let within ← checkedMul logicalPage.toUInt64 plan.dsparkPageBytes
          checkedAdd offset within
      else none
    match offset with
    | none => .error .invalidArgument
    | some offset => .ok offset

lemma toNat_kMax64 : kMax64.toNat = 2 ^ 64 - 1 := by decide
lemma toNat_kHeaderBytes : kHeaderBytes.toNat = 4096 := by decide
lemma toNat_kTargetPageBytes : kTargetPageBytes.toNat = 524288 := by decide
lemma toNat_kDsparkPageBytes : kDsparkPageBytes.toNat = 524288 := by decide
lemma toNat_kTargetLayers : kTargetLayers.toNat = 16 := by decide
lemma toNat_kDsparkLayers : kDsparkLayers.toNat = 5 := by decide

variable {a b bytes : UInt64} {pages abiVersion maxContext hotPages : UInt32}

lemma sub_lt_iff_overflows : kMax64 - a < b ↔ 2 ^ 64 ≤ a.toNat + b.toNat := by
  have := a.toNat_lt
  have ha : a ≤ kMax64 := by
    rw [UInt64.le_iff_toNat_le, toNat_kMax64]
    omega
  rw [UInt64.lt_iff_toNat_lt, UInt64.toNat_sub_of_le _ _ ha, toNat_kMax64]
  omega

lemma checkedAdd_some (h : a.toNat + b.toNat < 2 ^ 64) :
    ∃ c, checkedAdd a b = some c ∧ c.toNat = a.toNat + b.toNat := by
  have hl : ¬ kMax64 - a < b := fun hlt => absurd h (sub_lt_iff_overflows.1 hlt).not_gt
  refine ⟨a + b, by rw [checkedAdd, if_neg hl], ?_⟩
  rw [UInt64.toNat_add, mod_eq_of_lt h]

lemma checkedMul_some (h : a.toNat * b.toNat < 2 ^ 64) :
    ∃ c, checkedMul a b = some c ∧ c.toNat = a.toNat * b.toNat := by
  have hl : ¬ (a ≠ 0 ∧ kMax64 / a < b) := by
    rintro ⟨ha, hlt⟩
    have hp : 0 < a.toNat := by
      rw [pos_iff_ne_zero]
      intro h0
      exact ha (UInt64.toNat_inj.1 h0)
    rw [UInt64.lt_iff_toNat_lt, UInt64.toNat_div, div_lt_iff_lt_mul hp, toNat_kMax64,
      mul_comm] at hlt
    omega
  refine ⟨a * b, by rw [checkedMul, if_neg hl], ?_⟩
  rw [UInt64.toNat_mul, mod_eq_of_lt h]

structure Planned (plan : Plan) : Prop where
  abiVersion : plan.abiVersion = kAbi
  pages : plan.logicalPages = logicalPagesFor plan.maxContext
  pages_le : plan.logicalPages.toNat ≤ 2 ^ 24
  pageTokens : plan.pageTokens = kPageTokens
  targetLayers : plan.targetLayers = kTargetLayers
  dsparkLayers : plan.dsparkLayers = kDsparkLayers
  targetPageBytes : plan.targetPageBytes = kTargetPageBytes
  dsparkPageBytes : plan.dsparkPageBytes = kDsparkPageBytes
  targetPayload : plan.targetPayloadBytes.toNat = 16 * plan.logicalPages.toNat * 524288
  dsparkPayload : plan.dsparkPayloadBytes.toNat = 5 * plan.logicalPages.toNat * 524288
  fileBytes : plan.fileBytes.toNat =
    4096 + plan.targetPayloadBytes.toNat + plan.dsparkPayloadBytes.toNat

lemma toNat_logicalPagesFor (maxContext : UInt32) :
    (logicalPagesFor maxContext).toNat = (maxContext.toNat + 255) / 256 := by
  have hlt := maxContext.toNat_lt
  have ht : kPageTokens.toUInt64.toNat = 256 := by decide
  have ho : (1 : UInt64).toNat = 1 := by decide
  have ha : (maxContext.toUInt64 + kPageTokens.toUInt64).toNat = maxContext.toNat + 256 := by
    rw [UInt64.toNat_add, ht, toNat_toUInt64]
    omega
  have hs : (maxContext.toUInt64 + kPageTokens.toUInt64 - 1).toNat = maxContext.toNat + 255 := by
    rw [UInt64.toNat_sub_of_le _ _ (by rw [UInt64.le_iff_toNat_le, ha, ho]; omega), ha, ho]
    omega
  rw [logicalPagesFor, UInt64.toNat_toUInt32, UInt64.toNat_div, hs, ht]
  omega

lemma logicalPagesFor_le (maxContext : UInt32) : (logicalPagesFor maxContext).toNat ≤ 2 ^ 24 := by
  have := maxContext.toNat_lt
  rw [toNat_logicalPagesFor]
  omega

lemma payload_some {ls : UInt32} (hp : pages.toNat ≤ 2 ^ 24) (hb : bytes.toNat = 524288)
    (hl : ls.toNat ≤ 16) :
    ∃ sp p, checkedMul pages.toUInt64 bytes = some sp ∧
    checkedMul sp ls.toUInt64 = some p ∧
    p.toNat = ls.toNat * pages.toNat * 524288 := by
  obtain ⟨sp, hs, hs'⟩ := checkedMul_some (a := pages.toUInt64) (b := bytes)
    (by rw [toNat_toUInt64, hb]; omega)
  rw [toNat_toUInt64, hb] at hs'
  have hle : sp.toNat * ls.toNat ≤ 2 ^ 24 * 524288 * 16 := by
    rw [hs']
    exact Nat.mul_le_mul (Nat.mul_le_mul_right _ hp) hl
  obtain ⟨p, hpa, hp'⟩ := checkedMul_some (a := sp) (b := ls.toUInt64)
    (by rw [toNat_toUInt64]; omega)
  refine ⟨sp, p, hs, hpa, ?_⟩
  rw [hp', toNat_toUInt64, hs']
  ring

variable {plan : Plan}

lemma planned_of_planSizes (ha : abiVersion = kAbi)
    (h : planSizes abiVersion maxContext (logicalPagesFor maxContext) hotPages = some plan) :
    Planned plan := by
  have hle := logicalPagesFor_le maxContext
  obtain ⟨t, tp, ht, htp, ht'⟩ := payload_some hle toNat_kTargetPageBytes toNat_kTargetLayers.le
  obtain ⟨d, dp, hd, hdp, hd'⟩ :=
    payload_some hle toNat_kDsparkPageBytes (toNat_kDsparkLayers.le.trans (by decide))
  rw [toNat_kTargetLayers] at ht'
  rw [toNat_kDsparkLayers] at hd'
  obtain ⟨p, hp, hp'⟩ := checkedAdd_some (a := tp) (b := dp) (by omega)
  obtain ⟨f, hf, hf'⟩ := checkedAdd_some (a := kHeaderBytes) (b := p)
    (by rw [toNat_kHeaderBytes]; omega)
  rw [planSizes, ht, bind_eq_bind, bind_some, htp, bind_some, hd,
    bind_some, hdp, bind_some, hp, bind_some, hf, bind_some] at h
  obtain ⟨g, -, h⟩ := bind_eq_some_iff.1 h
  rw [some.injEq] at h
  subst h
  refine ⟨ha, rfl, hle, rfl, rfl, rfl, rfl, rfl, ht', hd', ?_⟩
  change f.toNat = 4096 + tp.toNat + dp.toNat
  rw [hf', hp', toNat_kHeaderBytes, add_assoc]

lemma planned_of_planGet (h : planGet abiVersion maxContext hotPages = .ok plan) :
    Planned plan := by
  rw [planGet] at h
  split at h
  · cases h
  rename_i ha
  split at h
  · cases h
  split at h
  · cases h
  · rename_i p' hp
    rw [← Except.ok.inj h]
    exact planned_of_planSizes (not_not.1 (not_or.1 ha).1) hp

variable {layer page : UInt32}

lemma row_some (ba : UInt64) (hb : bytes.toNat = 524288) (hbs : ba.toNat ≤ 2 ^ 48)
    (hp : pages.toNat ≤ 2 ^ 24) (hl : layer.toNat < 16) (hpa : page.toNat < pages.toNat) :
    ∃ sp wi of w' o, checkedMul pages.toUInt64 bytes = some sp ∧
    checkedMul layer.toUInt64 sp = some wi ∧ checkedAdd ba wi = some of ∧
    checkedMul page.toUInt64 bytes = some w' ∧ checkedAdd of w' = some o ∧
    o.toNat = ba.toNat + (layer.toNat * pages.toNat + page.toNat) * 524288 := by
  obtain ⟨sp, hs, hs'⟩ := checkedMul_some (a := pages.toUInt64) (b := bytes)
    (by rw [toNat_toUInt64, hb]; omega)
  rw [toNat_toUInt64, hb] at hs'
  have hle : layer.toNat * sp.toNat ≤ 16 * (2 ^ 24 * 524288) := by
    rw [hs']
    exact Nat.mul_le_mul hl.le (Nat.mul_le_mul_right _ hp)
  obtain ⟨wi, hw, hw'⟩ := checkedMul_some (a := layer.toUInt64) (b := sp)
    (by rw [toNat_toUInt64]; omega)
  rw [toNat_toUInt64] at hw'
  obtain ⟨of, hof, hof'⟩ := checkedAdd_some (a := ba) (b := wi) (by omega)
  obtain ⟨w₂, hw₂, hw₂'⟩ := checkedMul_some (a := page.toUInt64) (b := bytes)
    (by rw [toNat_toUInt64, hb]; omega)
  rw [toNat_toUInt64, hb] at hw₂'
  obtain ⟨o, ho, ho'⟩ := checkedAdd_some (a := of) (b := w₂) (by omega)
  refine ⟨sp, wi, of, w₂, o, hs, hw, hof, hw₂, ho, ?_⟩
  rw [ho', hof', hw', hw₂', hs']
  ring

def ValidPage (plan : Plan) (family layer page : UInt32) : Prop :=
  (family = kTarget ∧ layer < plan.targetLayers ∨ family = kDspark ∧ layer < plan.dsparkLayers) ∧
    page < plan.logicalPages

def pageStart (plan : Plan) (family layer page : UInt32) : Nat :=
  (if family = kTarget then 4096 else 4096 + plan.targetPayloadBytes.toNat) +
    (layer.toNat * plan.logicalPages.toNat + page.toNat) * 524288

variable {family : UInt32}

lemma pageOffset_of_valid (hp : Planned plan) (hv : ValidPage plan family layer page) :
    ∃ o, pageOffset plan family layer page = .ok o ∧
    o.toNat = pageStart plan family layer page := by
  obtain ⟨hf, hpa⟩ := hv
  have hp' : page.toNat < plan.logicalPages.toNat := lt_iff_toNat_lt.1 hpa
  have hpayl := hp.targetPayload
  have hpag := hp.pages_le
  rcases hf with ⟨rfl, hl⟩ | ⟨rfl, hl⟩
  · have hl' : layer.toNat < 16 := by
      rw [hp.targetLayers, lt_iff_toNat_lt, toNat_kTargetLayers] at hl
      exact hl
    obtain ⟨sp, wi, of, w', o, h₁, h₂, h₃, h₄, h₅, ho⟩ :=
      row_some kHeaderBytes toNat_kTargetPageBytes (toNat_kHeaderBytes.le.trans (by decide)) hpag
        hl' hp'
    refine ⟨o, ?_, ?_⟩
    · rw [pageOffset, if_neg (UInt32.not_le.2 hpa), if_pos rfl,
        if_neg (UInt32.not_le.2 hl), hp.targetPageBytes, h₁, bind_eq_bind,
        bind_some, h₂, bind_some, h₃, bind_some, h₄, bind_some, h₅]
    · rw [ho, toNat_kHeaderBytes, pageStart, if_pos rfl]
  · have hl' : layer.toNat < 5 := by
      rw [hp.dsparkLayers, lt_iff_toNat_lt, toNat_kDsparkLayers] at hl
      exact hl
    obtain ⟨ba, hb, hb'⟩ := checkedAdd_some (a := kHeaderBytes)
      (b := plan.targetPayloadBytes) (by rw [toNat_kHeaderBytes]; omega)
    rw [toNat_kHeaderBytes] at hb'
    obtain ⟨sp, wi, of, w', o, h₁, h₂, h₃, h₄, h₅, ho⟩ :=
      row_some ba toNat_kDsparkPageBytes (by omega) hpag (hl'.trans (by decide)) hp'
    refine ⟨o, ?_, ?_⟩
    · rw [pageOffset, if_neg (UInt32.not_le.2 hpa), if_neg (by decide), if_pos rfl,
        if_neg (UInt32.not_le.2 hl), hb, hp.dsparkPageBytes, bind_eq_bind,
        bind_some, h₁, bind_some, h₂, bind_some, h₃, bind_some, h₄,
        bind_some, h₅]
    · rw [ho, hb', pageStart, if_neg (by decide)]

lemma valid_of_pageOffset {o : UInt64} (h : pageOffset plan family layer page = .ok o) :
    ValidPage plan family layer page := by
  rw [pageOffset] at h
  split at h
  · cases h
  rename_i hp
  refine ⟨?_, UInt32.not_le.1 hp⟩
  by_cases ht : family = kTarget
  · by_cases hl : plan.targetLayers ≤ layer
    · rw [if_pos ht, if_pos hl] at h
      cases h
    · exact .inl ⟨ht, UInt32.not_le.1 hl⟩
  · by_cases hd : family = kDspark
    · by_cases hl : plan.dsparkLayers ≤ layer
      · rw [if_neg ht, if_pos hd, if_pos hl] at h
        cases h
      · exact .inr ⟨hd, UInt32.not_le.1 hl⟩
    · rw [if_neg ht, if_neg hd] at h
      cases h

abbrev PageIndex (plan : Plan) : Type :=
  (Fin 16 × Fin plan.logicalPages.toNat) ⊕ (Fin 5 × Fin plan.logicalPages.toNat)

def PageIndex.arguments {plan : Plan} : PageIndex plan → UInt32 × UInt32 × UInt32
  | .inl (layer, page) => (kTarget, UInt32.ofNat layer, UInt32.ofNat page)
  | .inr (layer, page) => (kDspark, UInt32.ofNat layer, UInt32.ofNat page)

def PageIndex.start {plan : Plan} : PageIndex plan → Nat :=
  Sum.elim (fun i => 4096 + (i.1 * plan.logicalPages.toNat + i.2) * 524288)
    fun i => 4096 + plan.targetPayloadBytes.toNat + (i.1 * plan.logicalPages.toNat + i.2) * 524288

lemma pages_tile (hp : Planned plan) :
    Tiles (@PageIndex.start plan) (fun _ => 524288) 4096 plan.fileBytes.toNat := by
  have htarg := tiles_rows 4096 524288 16 plan.logicalPages.toNat
  have hdsp := tiles_rows (4096 + plan.targetPayloadBytes.toNat) 524288 5 plan.logicalPages.toNat
  rw [← hp.targetPayload] at htarg
  rw [← hp.dsparkPayload, ← hp.fileBytes] at hdsp
  have h := htarg.sum hdsp (le_add_right _ _) (by rw [hp.fileBytes]; omega)
  have hs : (fun _ : PageIndex plan => 524288) = Sum.elim (fun _ => 524288) fun _ => 524288 := by
    funext i
    cases i <;> rfl
  rw [hs]
  exact h

lemma toNat_ofNat_page (i : Fin plan.logicalPages.toNat) : (UInt32.ofNat i).toNat = i := by
  rw [toNat_ofNat_of_lt' (lt_trans i.isLt plan.logicalPages.toNat_lt)]

lemma toNat_ofNat_layer {n : Nat} (hn : n ≤ 16) (i : Fin n) : (UInt32.ofNat i).toNat = i := by
  rw [toNat_ofNat_of_lt' (i.isLt.trans_le (hn.trans (by decide)))]

variable (hp : Planned plan)
include hp

lemma valid_target (layer : Fin 16) (page : Fin plan.logicalPages.toNat) :
    ValidPage plan kTarget (UInt32.ofNat layer) (UInt32.ofNat page) := by
  refine ⟨.inl ⟨rfl, ?_⟩, ?_⟩
  · rw [lt_iff_toNat_lt, hp.targetLayers, toNat_kTargetLayers, toNat_ofNat_layer le_rfl]
    exact layer.isLt
  · rw [lt_iff_toNat_lt, toNat_ofNat_page]
    exact page.isLt

lemma valid_dspark (layer : Fin 5) (page : Fin plan.logicalPages.toNat) :
    ValidPage plan kDspark (UInt32.ofNat layer) (UInt32.ofNat page) := by
  refine ⟨.inr ⟨rfl, ?_⟩, ?_⟩
  · rw [lt_iff_toNat_lt, hp.dsparkLayers, toNat_kDsparkLayers, toNat_ofNat_layer (by decide)]
    exact layer.isLt
  · rw [lt_iff_toNat_lt, toNat_ofNat_page]
    exact page.isLt

lemma valid_arguments (i : PageIndex plan) :
    ValidPage plan i.arguments.1 i.arguments.2.1 i.arguments.2.2 := by
  rcases i with ⟨layer, page⟩ | ⟨layer, page⟩
  · exact valid_target hp layer page
  · exact valid_dspark hp layer page

omit hp

lemma pageStart_arguments (i : PageIndex plan) :
    pageStart plan i.arguments.1 i.arguments.2.1 i.arguments.2.2 = i.start := by
  rcases i with ⟨layer, page⟩ | ⟨layer, page⟩
  · rw [PageIndex.arguments, pageStart, if_pos rfl, toNat_ofNat_page, toNat_ofNat_layer le_rfl,
      PageIndex.start, Sum.elim_inl]
  · rw [PageIndex.arguments, pageStart, if_neg (show kDspark ≠ kTarget by decide),
      toNat_ofNat_page, toNat_ofNat_layer (by decide), PageIndex.start, Sum.elim_inr]

lemma index_of_valid (hp : Planned plan) (hv : ValidPage plan family layer page) :
    ∃ i : PageIndex plan, i.arguments = (family, layer, page) := by
  obtain ⟨hf, hpa⟩ := hv
  rw [lt_iff_toNat_lt] at hpa
  rcases hf with ⟨rfl, hl⟩ | ⟨rfl, hl⟩
  · rw [lt_iff_toNat_lt, hp.targetLayers, toNat_kTargetLayers] at hl
    exact ⟨.inl (⟨_, hl⟩, ⟨_, hpa⟩), by simp [PageIndex.arguments]⟩
  · rw [lt_iff_toNat_lt, hp.dsparkLayers, toNat_kDsparkLayers] at hl
    exact ⟨.inr (⟨_, hl⟩, ⟨_, hpa⟩), by simp [PageIndex.arguments]⟩

lemma toNat_familyPageBytes (hv : ValidPage plan family layer page) :
    (familyPageBytes family).toNat = 524288 := by
  rcases hv.1 with ⟨rfl, -⟩ | ⟨rfl, -⟩
  · rw [familyPageBytes, if_pos rfl, toNat_kTargetPageBytes]
  · rw [familyPageBytes, if_neg (by decide), if_pos rfl, toNat_kDsparkPageBytes]

def InPage (plan : Plan) (family layer page : UInt32) (x : Nat) : Prop :=
  ∃ o, pageOffset plan family layer page = .ok o ∧ o.toNat ≤ x ∧
    x < o.toNat + (familyPageBytes family).toNat

lemma inPage_iff (hp : Planned plan) (i : PageIndex plan) (x : Nat) :
    InPage plan i.arguments.1 i.arguments.2.1 i.arguments.2.2 x ↔
      In PageIndex.start (fun _ => 524288) i x := by
  have hv := valid_arguments hp i
  obtain ⟨o, ho, ho'⟩ := pageOffset_of_valid hp hv
  rw [pageStart_arguments] at ho'
  rw [InPage, In, toNat_familyPageBytes hv, ← ho']
  constructor
  · rintro ⟨o', hof, hx⟩
    rw [ho] at hof
    rw [Except.ok.inj hof]
    exact hx
  · intro hx
    exact ⟨o, ho, hx⟩

/-- The layout of a tier file: no check fails for a valid page and its offset is a multiple of
4096, no two pages share a byte, together they are all of the file behind its header, and the two
offset computations agree on every argument. -/
theorem page_layout (abiVersion maxContext hotPages : UInt32) (plan : Plan)
    (h : planGet abiVersion maxContext hotPages = .ok plan) :
    (∀ family layer page, ValidPage plan family layer page →
        ∃ o, pageOffset plan family layer page = .ok o ∧ o.toNat % 4096 = 0) ∧
      (∀ family layer page family' layer' page' x, InPage plan family layer page x →
        InPage plan family' layer' page' x → (family, layer, page) = (family', layer', page')) ∧
      (∀ x, 4096 ≤ x ∧ x < plan.fileBytes.toNat ↔
        ∃ family layer page, ValidPage plan family layer page ∧ InPage plan family layer page x) ∧
      ∀ family layer page,
        pageOffset plan family layer page = pageOffsetForPlan plan family layer page := by
  have hp := planned_of_planGet h
  have htil := pages_tile hp
  refine ⟨?_, ?_, ?_, fun _ _ _ => rfl⟩
  · intro family layer page hv
    obtain ⟨o, ho, ho'⟩ := pageOffset_of_valid hp hv
    have hpayl := hp.targetPayload
    refine ⟨o, ho, ?_⟩
    rw [ho', pageStart]
    split <;> omega
  · intro family layer page family' layer' page' x hx hx'
    obtain ⟨o, ho, -⟩ := id hx
    obtain ⟨o', ho', -⟩ := id hx'
    obtain ⟨i, hi⟩ := index_of_valid hp (valid_of_pageOffset ho)
    obtain ⟨j, hj⟩ := index_of_valid hp (valid_of_pageOffset ho')
    have hxi := (inPage_iff hp i x).1 (by rw [hi]; exact hx)
    have hxj := (inPage_iff hp j x).1 (by rw [hj]; exact hx')
    rw [← hi, ← hj, htil.disjoint i j x hxi hxj]
  · intro x
    rw [htil.covers x]
    constructor
    · rintro ⟨i, hi⟩
      exact ⟨_, _, _, valid_arguments hp i, (inPage_iff hp i x).2 hi⟩
    · rintro ⟨family, layer, page, hv, hx⟩
      obtain ⟨i, hi⟩ := index_of_valid hp hv
      exact ⟨i, (inPage_iff hp i x).1 (by rw [hi]; exact hx)⟩

theorem page_layout_native : ∃ plan, planGet kAbi 262144 0 = .ok plan ∧
      ∃ o, pageOffset plan kDspark 4 1023 = .ok o ∧ o.toNat % 4096 = 0 := by
  have ho : (planGet kAbi 262144 0).isOk := by decide +kernel
  rcases h : planGet kAbi 262144 0 with e | plan
  · rw [h] at ho
    cases ho
  · refine ⟨plan, rfl, (page_layout kAbi 262144 0 plan h).1 kDspark 4 1023 ⟨.inr ⟨rfl, ?_⟩, ?_⟩⟩
    · rw [(planned_of_planGet h).dsparkLayers]
      decide
    · have hm : (planGet kAbi 262144 0).toOption.map (·.logicalPages) = some 1024 := by
        decide +kernel
      rw [h] at hm
      have hp : plan.logicalPages = 1024 := some.inj hm
      rw [hp]
      decide

variable {c : UInt64}

lemma checkedAdd_eq (h : checkedAdd a b = some c) : c.toNat = a.toNat + b.toNat := by
  by_cases hlt : a.toNat + b.toNat < 2 ^ 64
  · obtain ⟨c', hc, hn⟩ := checkedAdd_some hlt
    rw [some.inj (h.symm.trans hc), hn]
  · rw [checkedAdd, if_pos (sub_lt_iff_overflows.2 (not_lt.1 hlt))] at h
    cases h

lemma checkedMul_eq (h : checkedMul a b = some c) : c.toNat = a.toNat * b.toNat := by
  by_cases hlt : a.toNat * b.toNat < 2 ^ 64
  · obtain ⟨c', hc, hn⟩ := checkedMul_some hlt
    rw [some.inj (h.symm.trans hc), hn]
  · have hpos : 0 < a.toNat := by
      rw [pos_iff_ne_zero]
      intro h0
      simp [h0] at hlt
    have hover : kMax64 / a < b := by
      rw [UInt64.lt_iff_toNat_lt, UInt64.toNat_div, div_lt_iff_lt_mul hpos, toNat_kMax64, mul_comm]
      omega
    have ha : a ≠ 0 := by
      rintro rfl
      simp at hpos
    rw [checkedMul, if_pos ⟨ha, hover⟩] at h
    cases h

/-- Every size of a plan is exact, and so is the number of hot tokens unless all `2 ^ 24` pages of
the largest contexts are hot. -/
theorem plan_exact_iff (h : planGet abiVersion maxContext hotPages = .ok plan) :
    plan.maxContext = maxContext ∧ plan.hotPages = hotPages ∧
    plan.logicalPages.toNat = (maxContext.toNat + 255) / 256 ∧
    plan.targetPayloadBytes.toNat = 16 * plan.logicalPages.toNat * 524288 ∧
    plan.dsparkPayloadBytes.toNat = 5 * plan.logicalPages.toNat * 524288 ∧
    plan.payloadBytes.toNat = 21 * plan.logicalPages.toNat * 524288 ∧
    plan.fileBytes.toNat = 4096 + 21 * plan.logicalPages.toNat * 524288 ∧
    plan.hotDeviceBytes.toNat = hotPages.toNat * 11010048 ∧
    (plan.hotTokens.toNat = hotPages.toNat * 256 ↔ hotPages.toNat < 2 ^ 24) := by
  have hp := planned_of_planGet h
  rw [planGet] at h
  split_ifs at h with habi hhot
  split at h
  · cases h
  rename_i plan' hpl
  cases h
  simp only [planSizes, Option.bind_eq_bind, bind_eq_some_iff] at hpl
  obtain ⟨-, -, tp, -, -, -, dp, -, p, hadd, f, -, g, hmul, hpl⟩ := hpl
  cases hpl
  have hpay := checkedAdd_eq hadd
  have hdev := checkedMul_eq hmul
  have htarg := hp.targetPayload
  have hds := hp.dsparkPayload
  have hfile := hp.fileBytes
  dsimp only at htarg hds hfile
  have htok : (hotPages * kPageTokens).toNat = hotPages.toNat * 256 % 2 ^ 32 := UInt32.toNat_mul ..
  have hle := UInt32.not_lt.1 hhot
  rw [le_iff_toNat_le] at hle
  have hpag := logicalPagesFor_le maxContext
  refine ⟨rfl, rfl, toNat_logicalPagesFor maxContext, htarg, hds, ?_, ?_, ?_, ?_⟩
  · change p.toNat = 21 * (logicalPagesFor maxContext).toNat * 524288
    omega
  · change f.toNat = 4096 + 21 * (logicalPagesFor maxContext).toNat * 524288
    omega
  · rw [hdev, toNat_toUInt64]
    rfl
  · rw [htok]
    omega

theorem plan_exact_iff_native : ∃ plan, planGet kAbi 262144 64 = .ok plan ∧
    plan.hotTokens.toNat = 64 * 256 := by
  have hok : (planGet kAbi 262144 64).isOk := by decide +kernel
  rcases h : planGet kAbi 262144 64 with e | plan
  · rw [h] at hok
    cases hok
  · exact ⟨plan, rfl, (plan_exact_iff h).2.2.2.2.2.2.2.2.2 (by decide)⟩

/-- With every page of the largest context hot there are no hot tokens. -/
theorem all_pages_hot_wraps :
    (planGet kAbi 4294967295 16777216).toOption.map (fun plan => (plan.hotPages, plan.hotTokens)) =
      some (16777216, 0) := by
  decide +kernel

end AxiomKernel.Qwen38.KvTier
