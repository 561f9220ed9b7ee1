import Rmnet.Qos.Event

/-!
# Activations that run out of memory

`qmi_rmnet_add_flow` allocates a flow and a bearer, and returns `-ENOMEM` when either is not to be had.  By then
it may have linked the flow, or released the bearer of the flow which it rebinds, or deleted the flow which it
moves to another queue; nothing of this is undone.

* `createFlow_failed`, `rebindFlow_failed`, `bearerPut_changes` — what each failure leaves behind.
* `rebindFlow_dangling` — a flow whose bearer pointer leads into freed memory.
* `failed_activation_iff` — when the tables are as before.
-/

namespace Rmnet

/-! ### Each failure on its own -/

/-- The tables are those from before the call, and every bearer pointer leads to a listed bearer. -/
structure TablesIntact (qos qos' : QosInfo) : Prop where
  flowHead : qos'.flowHead = qos.flowHead
  bearerHead : qos'.bearerHead = qos.bearerHead
  flowRef : ∀ a ∈ qos.bearerHead, (qos'.heap a).flowRef = (qos.heap a).flowRef
  mq : qos'.mq = qos.mq
  pointers : ∀ f ∈ qos'.flowHead, ∀ a, f.bearer = some a → a ∈ qos'.bearerHead

theorem TableInv.intact {qos : QosInfo} (h : TableInv qos) : TablesIntact qos qos where
  flowHead := rfl
  bearerHead := rfl
  flowRef := fun _ _ => rfl
  mq := rfl
  pointers := fun f hf a ha => h.inv.refs_mem a (List.mem_filterMap.mpr ⟨f, hf, ha⟩)

theorem bearerClean_bearerHead (qos : QosInfo) : (qmiRmnetBearerClean qos).bearerHead = qos.bearerHead := by
  rw [qmiRmnetBearerClean]
  split <;> rfl

theorem bearerClean_heap (qos : QosInfo) : (qmiRmnetBearerClean qos).heap = qos.heap := by
  rw [qmiRmnetBearerClean]
  split <;> rfl

/-- `__qmi_rmnet_bearer_get` without a bearer: nothing has changed. -/
theorem bearerGet_none {cfg : DfcConfig} {kzalloc : Bool} {qos qos' : QosInfo} {id : ℕ}
    (hget : qmiRmnetBearerGet cfg kzalloc qos id = (qos', none)) : qos' = qos := by
  rw [qmiRmnetBearerGet] at hget
  split at hget
  · cases hget
  · split at hget <;> cases hget
    rfl

/-- A failed creation changes nothing if there is no flow entry, and leaves the entry without a bearer if there
is one. -/
theorem createFlow_failed {cfg : DfcConfig} {kzFlow kzBearer : Bool} {qos : QosInfo} {tcm : FlowReq}
    (hrc : (createFlow cfg kzFlow kzBearer qos tcm).2 = -enomem) :
    (kzFlow = false ∧ (createFlow cfg kzFlow kzBearer qos tcm).1 = qos) ∨
    (kzFlow = true ∧ (createFlow cfg kzFlow kzBearer qos tcm).1.flowHead =
      ⟨tcm.bearerId, tcm.flowId, tcm.ipType, tcm.mqIdx, none⟩ :: qos.flowHead) := by
  cases kzFlow with
  | false => exact .inl ⟨rfl, rfl⟩
  | true =>
    refine .inr ⟨rfl, ?_⟩
    simp only [createFlow, if_true] at hrc ⊢
    cases hget : qmiRmnetBearerGet cfg kzBearer
        { qos with flowHead := ⟨tcm.bearerId, tcm.flowId, tcm.ipType, tcm.mqIdx, none⟩ :: qos.flowHead }
        tcm.bearerId with
    | mk qos' bearer =>
      cases bearer with
      | none =>
        simp only
        rw [bearerClean_flowHead, bearerGet_none hget]
      | some a =>
        rw [hget] at hrc
        have hzero : (0 : ℤ) = -enomem := hrc
        exact absurd hzero (by decide)

/-- A failed rebinding has released the old bearer, and the flow still points to it. -/
theorem rebindFlow_failed {cfg : DfcConfig} {kzalloc : Bool} {qos : QosInfo} {itm : RmnetFlowMap}
    {new : FlowReq} (hrc : (qmiRmnetRebindFlow cfg kzalloc qos itm new).2 = -enomem) :
    (qmiRmnetRebindFlow cfg kzalloc qos itm new).1 = qmiRmnetBearerPut cfg qos itm.bearer false := by
  rw [qmiRmnetRebindFlow] at hrc ⊢
  cases hget : qmiRmnetBearerGet cfg kzalloc (qmiRmnetBearerPut cfg qos itm.bearer false) new.bearerId with
  | mk qos' bearer =>
    cases bearer with
    | none => exact bearerGet_none hget
    | some a =>
      simp only [hget] at hrc
      have hzero : (0 : ℤ) = -enomem := hrc
      exact absurd hzero (by decide)

/-- Releasing a listed bearer takes it off the list, or takes a reference from it. -/
theorem bearerPut_changes (cfg : DfcConfig) {qos : QosInfo} {a : Addr} (reset : Bool)
    (ha : a ∈ qos.bearerHead) :
    (qmiRmnetBearerPut cfg qos (some a) reset).bearerHead ≠ qos.bearerHead ∨
      ((qmiRmnetBearerPut cfg qos (some a) reset).heap a).flowRef ≠ (qos.heap a).flowRef := by
  rw [qmiRmnetBearerPut]
  simp only [modifyBearer_heap_self]
  by_cases hz : (qos.heap a).flowRef - 1 = 0
  · rw [if_pos hz]
    obtain ⟨st, heq, -⟩ := unlinkBearer_eq cfg a reset
      (qos.modifyBearer a fun b => { b with flowRef := b.flowRef - 1 })
    rw [heq]
    refine .inl fun hsame => ?_
    have hlen := congrArg List.length hsame
    have hpos := List.length_pos_of_mem ha
    rw [show (qos.modifyBearer a fun b => { b with flowRef := b.flowRef - 1 }).bearerHead = qos.bearerHead
      from rfl, List.length_erase_of_mem ha] at hlen
    omega
  · rw [if_neg hz, modifyBearer_heap_self]
    refine .inr ?_
    show (qos.heap a).flowRef - 1 ≠ (qos.heap a).flowRef
    omega

/-- **The dangling pointer.**  When the flow was the last one of its bearer, a failed rebinding frees the bearer
and leaves the flow on the list, with its pointer. -/
theorem rebindFlow_dangling (cfg : DfcConfig) (kzalloc : Bool) {qos : QosInfo} (h : TableInv qos)
    {itm : RmnetFlowMap} {a : Addr} (new : FlowReq) (hitm : itm ∈ qos.flowHead) (ha : itm.bearer = some a)
    (hlast : (qos.heap a).flowRef = 1)
    (hrc : (qmiRmnetRebindFlow cfg kzalloc qos itm new).2 = -enomem) :
    let qos' := qmiRmnetBearerClean (qmiRmnetRebindFlow cfg kzalloc qos itm new).1
    itm ∈ qos'.flowHead ∧ a ∉ qos'.bearerHead ∧ a ∈ qos'.freed := by
  intro qos'
  have hput : ∃ st, (qmiRmnetRebindFlow cfg kzalloc qos itm new).1 =
      { (qos.modifyBearer a fun b => { b with flowRef := b.flowRef - 1 }) with
        mq := fun i => if i < maxMqNum ∧ qos.mq i = some a then none else qos.mq i
        stopped := st
        bearerHead := qos.bearerHead.erase a
        removedBearer := some a } := by
    obtain ⟨st, heq, -⟩ := unlinkBearer_eq cfg a false
      (qos.modifyBearer a fun b => { b with flowRef := b.flowRef - 1 })
    refine ⟨st, ?_⟩
    rw [rebindFlow_failed hrc, ha, qmiRmnetBearerPut]
    simp only [modifyBearer_heap_self, hlast, sub_self, if_true]
    exact heq
  obtain ⟨st, hput⟩ := hput
  simp only [qos', hput, qmiRmnetBearerClean]
  refine ⟨hitm, ?_, List.mem_append_right _ List.mem_cons_self⟩
  intro hmem
  exact (h.inv.nodup.mem_erase_iff.mp hmem).1 rfl

/-! ### The tables after a failure -/

/-- **Exactly when a failed activation leaves the tables intact**: there was no flow with the id and the IP type
of the request, and it is the allocation of the flow that failed. -/
theorem failed_activation_iff (cfg : DfcConfig) (kzFlow kzBearer : Bool) {qos qos' : QosInfo} {tcm : FlowReq}
    {k : ℕ} (h : TableInv qos)
    (hrc : qmiRmnetAddFlow cfg kzFlow kzBearer qos tcm = some (qos', -enomem, k)) :
    TablesIntact qos qos' ↔ qmiRmnetGetFlowMap qos tcm.flowId tcm.ipType = none ∧ kzFlow = false := by
  have hmq : tcm.mqIdx < maxMqNum := by
    by_contra hge
    rw [qmiRmnetAddFlow, if_pos (Nat.le_of_not_lt hge), Option.some.injEq, Prod.mk.injEq, Prod.mk.injEq] at hrc
    exact absurd hrc.2.1 (by decide)
  rcases addFlow_cases cfg kzFlow kzBearer h hmq with
    ⟨hg, hadd⟩ | ⟨itm, hg, ⟨-, hadd⟩ | ⟨-, -, hadd⟩ | ⟨-, -, hadd⟩⟩
  all_goals
    rw [hadd, Option.some.injEq, Prod.mk.injEq, Prod.mk.injEq] at hrc
    obtain ⟨rfl, hrc, -⟩ := hrc
  · -- a new flow
    rcases createFlow_failed hrc with ⟨hflow, heq⟩ | ⟨hflow, hhead⟩
    · rw [heq]
      exact ⟨fun _ => ⟨hg, hflow⟩, fun _ => h.intact⟩
    · constructor
      · intro hintact
        have hlen := congrArg List.length (hhead.symm.trans hintact.flowHead)
        rw [List.length_cons] at hlen
        omega
      · intro hcond
        rw [hflow] at hcond
        exact absurd hcond.2 (by decide)
  · -- a flow of another bearer, which has been released
    refine ⟨fun hintact => ?_, fun hcond => absurd (hg.symm.trans hcond.1) (Option.some_ne_none itm)⟩
    obtain ⟨a, ha, -⟩ := h.bearer itm (getFlowMap_some hg).1
    have hmem := h.intact.pointers itm (getFlowMap_some hg).1 a ha
    have hhead := hintact.bearerHead
    have href := hintact.flowRef a hmem
    rw [bearerClean_bearerHead, rebindFlow_failed hrc, ha] at hhead
    rw [bearerClean_heap, rebindFlow_failed hrc, ha] at href
    rcases bearerPut_changes cfg false hmem with hne | hne
    · exact absurd hhead hne
    · exact absurd href hne
  · -- a flow on another queue, which has been deleted
    refine ⟨fun hintact => ?_, fun hcond => absurd (hg.symm.trans hcond.1) (Option.some_ne_none itm)⟩
    have hdel := (delFlow_found cfg h hg).2
    rcases createFlow_failed hrc with ⟨-, heq⟩ | ⟨-, hhead⟩
    · have hhead := hintact.flowHead
      rw [heq, hdel] at hhead
      have hlen := (perm_cons_eraseP_find hg).length_eq
      rw [List.length_cons] at hlen
      have := congrArg List.length hhead
      omega
    · -- the tables had no flow without a bearer
      have hmem : ⟨tcm.bearerId, tcm.flowId, tcm.ipType, tcm.mqIdx, none⟩ ∈ qos.flowHead := by
        rw [← hintact.flowHead, hhead]
        exact List.mem_cons_self
      obtain ⟨a, ha, -⟩ := h.bearer _ hmem
      exact absurd ha.symm (Option.some_ne_none a)
  · have hzero : (0 : ℤ) = -enomem := hrc
    exact absurd hzero (by decide)

/-! ### Two failures -/

/-- The table with one flow on it. -/
def oneFlowTable : QosInfo := (createFlow qmapCfg true true emptyQos flowOfFive).1

theorem oneFlowTable_inv : TableInv oneFlowTable := by
  have hnone : qmiRmnetGetFlowMap emptyQos flowOfFive.flowId flowOfFive.ipType = none := rfl
  exact (createFlow_inv qmapCfg (tableInv_init 1 31 fun _ => false) hnone (by decide)).1

/-- A flow of bearer 6, on queue 2. -/
def flowOfSix : FlowReq := { bearerId := 6, flowId := 2, ipType := 4, mqIdx := 2 }

/-- The table with both flows on it. -/
def twoFlowTable : QosInfo := (createFlow qmapCfg true true oneFlowTable flowOfSix).1

theorem twoFlowTable_inv : TableInv twoFlowTable := by
  have hnone : qmiRmnetGetFlowMap oneFlowTable flowOfSix.flowId flowOfSix.ipType = none := rfl
  exact (createFlow_inv qmapCfg oneFlowTable_inv hnone (by decide)).1

/-- A second flow of bearer 5 is to go to queue 2, without memory for it: the two flows, their bearers and their
queues stay. -/
theorem failed_activation_first : ∃ qos', twoFlowTable.flowHead.map RmnetFlowMap.bearer = [some 1, some 0] ∧
    (∀ a ∈ [0, 1], a ∈ twoFlowTable.bearerHead ∧ (twoFlowTable.heap a).flowRef = 1) ∧
    qmiRmnetAddFlow qmapCfg false true twoFlowTable { flowOfFive with flowId := 3, mqIdx := 2 } =
      some (qos', -enomem, 0) ∧ TablesIntact twoFlowTable qos' := by
  have hrc : qmiRmnetAddFlow qmapCfg false true twoFlowTable { flowOfFive with flowId := 3, mqIdx := 2 } =
      some (twoFlowTable, -enomem, 0) := rfl
  have hnone : qmiRmnetGetFlowMap twoFlowTable 3 4 = none := rfl
  exact ⟨_, rfl, by decide, hrc, (failed_activation_iff qmapCfg false true twoFlowTable_inv hrc).mpr ⟨hnone, rfl⟩⟩

/-- **A failed rebinding.**  The only flow of a device moves to bearer 6, without memory for that bearer: bearer 5
is freed, and the flow points to it. -/
theorem failed_activation_dangles : ∃ qos', TableInv oneFlowTable ∧
    qmiRmnetAddFlow qmapCfg true false oneFlowTable { flowOfFive with bearerId := 6 } =
      some (qos', -enomem, 0) ∧ ¬ TablesIntact oneFlowTable qos' ∧
    ∃ f ∈ qos'.flowHead, ∃ a, f.bearer = some a ∧ a ∉ qos'.bearerHead ∧ a ∈ qos'.freed := by
  have hmem : (⟨5, 1, 4, 1, some 0⟩ : RmnetFlowMap) ∈ oneFlowTable.flowHead := List.mem_singleton.mpr rfl
  have hrc : (qmiRmnetRebindFlow qmapCfg false oneFlowTable ⟨5, 1, 4, 1, some 0⟩
      { flowOfFive with bearerId := 6 }).2 = -enomem := rfl
  obtain ⟨hkept, hout, hfreed⟩ := rebindFlow_dangling qmapCfg false oneFlowTable_inv
    { flowOfFive with bearerId := 6 } hmem rfl rfl hrc
  refine ⟨_, oneFlowTable_inv, rfl, fun h => ?_, _, hkept, 0, rfl, hout, hfreed⟩
  exact hout (h.pointers _ hkept 0 rfl)

end Rmnet
