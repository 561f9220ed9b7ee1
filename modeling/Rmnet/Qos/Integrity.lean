import Rmnet.Lib.Transition
import Rmnet.Qos.Table

/-!
# Integrity of the flow, bearer and queue tables

`BearerInv qos refs` is the invariant of the bearer side alone, relative to a multiset `refs` of
references held on bearers: it can be stated in the middle of an operation, where a flow has already
given up its reference or does not have it yet.  `__qmi_rmnet_bearer_get` adds a reference,
`__qmi_rmnet_bearer_put` takes one away, and freeing the removed bearer completes the ledger of
allocated, listed and freed addresses.  `TableInv` closes it: the references are those of the flow list.

* `bearerGet_inv`, `bearerPut_inv`, `updateMq_inv` — one lemma for each bearer operation;
* `delFlow_inv`, `addFlow_inv`, `getBearerNoref_inv` — the three operations of a run;
* `tables_integrity` — every run, and the bound on the `again` jumps.
-/

namespace Rmnet

open Word Transition

/-! ### The invariant -/

/-- The references that the flow list holds on bearers. -/
def QosInfo.refs (qos : QosInfo) : List Addr := qos.flowHead.filterMap RmnetFlowMap.bearer

/-- The bearer side of the tables, relative to the references held. -/
structure BearerInv (qos : QosInfo) (refs : List Addr) : Prop where
  ids : (qos.bearerHead.map fun a => (qos.heap a).bearerId).Nodup
  refs_mem : ∀ a ∈ refs, a ∈ qos.bearerHead
  flowRef : ∀ a ∈ qos.bearerHead, (qos.heap a).flowRef = refs.count a
  mq_mem : ∀ i a, qos.mq i = some a → a ∈ qos.bearerHead ∧ i < maxMqNum
  owned : (qos.bearerHead ++ (qos.removedBearer.toList ++ qos.freed)).Perm (List.range qos.nextAddr)

/-- The tables between operations. -/
structure TableInv (qos : QosInfo) : Prop where
  flows : (qos.flowHead.map RmnetFlowMap.key).Nodup
  bearer : ∀ f ∈ qos.flowHead, ∃ a, f.bearer = some a ∧ (qos.heap a).bearerId = f.bearerId
  inv : BearerInv qos qos.refs
  removed : qos.removedBearer = none

theorem BearerInv.nodup {qos : QosInfo} {refs : List Addr} (h : BearerInv qos refs) :
    qos.bearerHead.Nodup := by
  have hn := h.owned.nodup_iff.mpr List.nodup_range
  exact (List.nodup_append.mp hn).1

/-- Every address on the list has been allocated. -/
theorem BearerInv.lt {qos : QosInfo} {refs : List Addr} (h : BearerInv qos refs) {a : Addr}
    (ha : a ∈ qos.bearerHead) : a < qos.nextAddr := by
  have hm := h.owned.mem_iff.mp (List.mem_append_left _ ha)
  exact List.mem_range.mp hm

/-- Bearer ids are unique on the list, so an id names at most one address. -/
theorem BearerInv.id_inj {qos : QosInfo} {refs : List Addr} (h : BearerInv qos refs) {a b : Addr}
    (ha : a ∈ qos.bearerHead) (hb : b ∈ qos.bearerHead)
    (hid : (qos.heap a).bearerId = (qos.heap b).bearerId) : a = b :=
  List.inj_on_of_nodup_map h.ids ha hb hid

/-- The invariant only reads ids, references, the queue table and the lists. -/
theorem BearerInv.congr {qos qos' : QosInfo} {refs : List Addr} (h : BearerInv qos refs)
    (hhead : qos'.bearerHead = qos.bearerHead) (hmq : qos'.mq = qos.mq)
    (hrem : qos'.removedBearer = qos.removedBearer) (hfreed : qos'.freed = qos.freed)
    (hnext : qos'.nextAddr = qos.nextAddr)
    (hheap : ∀ a ∈ qos.bearerHead, (qos'.heap a).bearerId = (qos.heap a).bearerId ∧
      (qos'.heap a).flowRef = (qos.heap a).flowRef) : BearerInv qos' refs where
  ids := by
    rw [hhead, List.map_congr_left fun a ha => (hheap a ha).1]
    exact h.ids
  refs_mem := by rw [hhead]; exact h.refs_mem
  flowRef := by
    intro a ha
    rw [hhead] at ha
    rw [(hheap a ha).2]
    exact h.flowRef a ha
  mq_mem := by rw [hhead, hmq]; exact h.mq_mem
  owned := by rw [hhead, hrem, hfreed, hnext]; exact h.owned

/-! ### Small facts about the operations -/

@[simp] theorem modifyBearer_heap_self (qos : QosInfo) (a : Addr) (f : RmnetBearerMap → RmnetBearerMap) :
    (qos.modifyBearer a f).heap a = f (qos.heap a) := by simp [QosInfo.modifyBearer]

theorem modifyBearer_heap_ne (qos : QosInfo) {a b : Addr} (h : b ≠ a)
    (f : RmnetBearerMap → RmnetBearerMap) : (qos.modifyBearer a f).heap b = qos.heap b := by
  simp [QosInfo.modifyBearer, h]

@[simp] theorem linkBearer_heap_new (qos : QosInfo) (b : RmnetBearerMap) :
    (qos.linkBearer b).heap qos.nextAddr = b := by simp [QosInfo.linkBearer]

theorem linkBearer_heap_old (qos : QosInfo) (b : RmnetBearerMap) {a : Addr} (h : a ≠ qos.nextAddr) :
    (qos.linkBearer b).heap a = qos.heap a := by simp [QosInfo.linkBearer, h]

/-- What a write through a bearer pointer leaves alone. -/
theorem modifyBearer_field {α : Type} (qos : QosInfo) (a b : Addr) (f : RmnetBearerMap → RmnetBearerMap)
    (field : RmnetBearerMap → α) (h : field (f (qos.heap a)) = field (qos.heap a)) :
    field ((qos.modifyBearer a f).heap b) = field (qos.heap b) := by
  by_cases hb : b = a
  · subst hb
    rw [modifyBearer_heap_self]
    exact h
  · rw [modifyBearer_heap_ne qos hb]

/-- Flow control writes queue states only. -/
theorem flowControl_eq (qos : QosInfo) (i : ℕ) (e : Bool) :
    ∃ st, qmiRmnetFlowControl qos i e = { qos with stopped := st } ∧
      ∀ j, j ≠ i → st j = qos.stopped j := by
  unfold qmiRmnetFlowControl
  split
  · exact ⟨qos.stopped, rfl, fun _ _ => rfl⟩
  · refine ⟨_, rfl, fun j hj => ?_⟩
    simp [hj]

/-- A queue that the device does not have is never written. -/
theorem flowControl_beyond (qos : QosInfo) (i : ℕ) (e : Bool) {j : ℕ} (hj : qos.numTxQueues ≤ j) :
    (qmiRmnetFlowControl qos i e).stopped j = qos.stopped j := by
  unfold qmiRmnetFlowControl
  split
  · rfl
  · exact Function.update_of_ne (by omega) _ _

theorem getBearerMap_some {qos : QosInfo} {id : ℕ} {a : Addr}
    (h : qmiRmnetGetBearerMap qos id = some a) : a ∈ qos.bearerHead ∧ (qos.heap a).bearerId = id := by
  refine ⟨List.mem_of_find?_eq_some h, ?_⟩
  simpa using List.find?_some h

theorem getBearerMap_none {qos : QosInfo} {id : ℕ} (h : qmiRmnetGetBearerMap qos id = none) :
    ∀ a ∈ qos.bearerHead, (qos.heap a).bearerId ≠ id := by
  intro a ha
  simpa using List.find?_eq_none.mp h a ha

theorem getFlowMap_some {qos : QosInfo} {flowId : ℕ} {ipType : ℤ} {itm : RmnetFlowMap}
    (h : qmiRmnetGetFlowMap qos flowId ipType = some itm) :
    itm ∈ qos.flowHead ∧ itm.key = (flowId, ipType) := by
  refine ⟨List.mem_of_find?_eq_some h, ?_⟩
  simpa using List.find?_some h

theorem getFlowMap_none {qos : QosInfo} {flowId : ℕ} {ipType : ℤ}
    (h : qmiRmnetGetFlowMap qos flowId ipType = none) :
    (flowId, ipType) ∉ qos.flowHead.map RmnetFlowMap.key := by
  intro hm
  obtain ⟨f, hf, hk⟩ := List.mem_map.mp hm
  have := List.find?_eq_none.mp h f hf
  simp [hk] at this

/-! ### Getting and putting a bearer -/

/-- What `__qmi_rmnet_bearer_get` does when the allocation succeeds: the listed bearer with one more
reference, or a new one in front of the list. -/
theorem bearerGet_cases (cfg : DfcConfig) (qos : QosInfo) (id : ℕ) :
    (∃ a ∈ qos.bearerHead, (qos.heap a).bearerId = id ∧
      qmiRmnetBearerGet cfg true qos id
        = (qos.modifyBearer a fun b => { b with flowRef := b.flowRef + 1 }, some a)) ∨
    ((∀ a ∈ qos.bearerHead, (qos.heap a).bearerId ≠ id) ∧
      qmiRmnetBearerGet cfg true qos id
        = (qos.linkBearer (newBearer cfg id), some qos.nextAddr)) := by
  unfold qmiRmnetBearerGet
  cases hg : qmiRmnetGetBearerMap qos id with
  | some a =>
    obtain ⟨hmem, hid⟩ := getBearerMap_some hg
    exact .inl ⟨a, hmem, hid, rfl⟩
  | none => exact .inr ⟨getBearerMap_none hg, rfl⟩

/-- What the callers of `__qmi_rmnet_bearer_get` rely on. -/
structure GotBearer (qos qos' : QosInfo) (a : Addr) (id : ℕ) : Prop where
  head : qos'.bearerHead = qos.bearerHead ∨ qos'.bearerHead = qos.nextAddr :: qos.bearerHead
  mem : a ∈ qos'.bearerHead
  id_eq : (qos'.heap a).bearerId = id
  heap_id : ∀ b ∈ qos.bearerHead, (qos'.heap b).bearerId = (qos.heap b).bearerId
  flowHead : qos'.flowHead = qos.flowHead
  removed : qos'.removedBearer = qos.removedBearer

theorem bearerGet_inv (cfg : DfcConfig) {qos : QosInfo} {refs : List Addr} (h : BearerInv qos refs)
    (id : ℕ) : ∃ qos' a, qmiRmnetBearerGet cfg true qos id = (qos', some a) ∧
      GotBearer qos qos' a id ∧ BearerInv qos' (a :: refs) := by
  rcases bearerGet_cases cfg qos id with ⟨a, ha, hid, hget⟩ | ⟨hnew, hget⟩
  · have hids : ∀ b, ((qos.modifyBearer a fun b => { b with flowRef := b.flowRef + 1 }).heap b).bearerId
        = (qos.heap b).bearerId := fun b => modifyBearer_field qos a b _ RmnetBearerMap.bearerId rfl
    refine ⟨_, a, hget, ⟨.inl rfl, ha, (hids a).trans hid, fun b _ => hids b, rfl, rfl⟩, ?_⟩
    refine ⟨?_, ?_, ?_, h.mq_mem, h.owned⟩
    · exact (List.map_congr_left (fun b _ => hids b)).symm ▸ h.ids
    · intro b hb
      rcases List.mem_cons.mp hb with rfl | hb
      · exact ha
      · exact h.refs_mem b hb
    · intro b hb
      by_cases hba : b = a
      · subst hba
        rw [modifyBearer_heap_self, h.flowRef b hb, List.count_cons_self]
        push_cast
        ring
      · rw [modifyBearer_heap_ne qos hba, h.flowRef b hb, List.count_cons_of_ne (Ne.symm hba)]
  · have hfresh : ∀ b ∈ qos.bearerHead, b ≠ qos.nextAddr := fun b hb => Nat.ne_of_lt (h.lt hb)
    have hheap : ∀ b ∈ qos.bearerHead, (qos.linkBearer (newBearer cfg id)).heap b = qos.heap b :=
      fun b hb => linkBearer_heap_old qos _ (hfresh b hb)
    have hzero : refs.count qos.nextAddr = 0 :=
      List.count_eq_zero.mpr fun hm => hfresh _ (h.refs_mem _ hm) rfl
    refine ⟨_, qos.nextAddr, hget, ⟨.inr rfl, List.mem_cons_self, ?_, ?_, rfl, rfl⟩, ?_⟩
    · rw [linkBearer_heap_new]
      rfl
    · intro b hb
      rw [hheap b hb]
    · refine ⟨?_, ?_, ?_, ?_, ?_⟩
      · show ((qos.nextAddr :: qos.bearerHead).map _).Nodup
        rw [List.map_cons, List.nodup_cons]
        refine ⟨?_, ?_⟩
        · intro hm
          obtain ⟨b, hb, hbid⟩ := List.mem_map.mp hm
          rw [hheap b hb, linkBearer_heap_new] at hbid
          exact hnew b hb hbid
        · rw [List.map_congr_left fun b hb => congrArg RmnetBearerMap.bearerId (hheap b hb)]
          exact h.ids
      · intro b hb
        rcases List.mem_cons.mp hb with rfl | hb
        · exact List.mem_cons_self
        · exact List.mem_cons_of_mem _ (h.refs_mem b hb)
      · intro b hb
        rcases List.mem_cons.mp hb with rfl | hb
        · rw [linkBearer_heap_new, List.count_cons_self, hzero]
          rfl
        · rw [hheap b hb, h.flowRef b hb, List.count_cons_of_ne (Ne.symm (hfresh b hb))]
      · intro i b hi
        obtain ⟨hb, hlt⟩ := h.mq_mem i b hi
        exact ⟨List.mem_cons_of_mem _ hb, hlt⟩
      · show (qos.nextAddr :: qos.bearerHead ++ _).Perm (List.range (qos.nextAddr + 1))
        rw [List.range_succ, List.cons_append]
        exact (h.owned.cons _).trans (List.perm_append_singleton _ _).symm

/-- The loop over the queue table: exactly the entries of the bearer are cleared, and no other queue
than theirs (and their ACK queues) is touched. -/
theorem bearerPutMq_foldl (cfg : DfcConfig) (a : Addr) (reset : Bool) (l : List ℕ) :
    ∀ qos : QosInfo, ∃ st, l.foldl (bearerPutMq cfg a reset) qos
        = { qos with mq := fun i => if i ∈ l ∧ qos.mq i = some a then none else qos.mq i, stopped := st } ∧
      ∀ j, (∀ i ∈ l, qos.mq i = some a → j ≠ i ∧ j ≠ i + ackMqOffset) → st j = qos.stopped j := by
  induction l with
  | nil =>
    intro qos
    exact ⟨qos.stopped, by simp, fun _ _ => rfl⟩
  | cons i l ih =>
    intro qos
    -- one iteration clears entry `i` if it is the bearer's
    have hone : ∃ st, bearerPutMq cfg a reset qos i
          = { qos with mq := if qos.mq i = some a then Function.update qos.mq i none else qos.mq,
                       stopped := st } ∧
        ∀ j, (qos.mq i = some a → j ≠ i ∧ j ≠ i + ackMqOffset) → st j = qos.stopped j := by
      unfold bearerPutMq
      by_cases hi : qos.mq i = some a
      · simp only [if_pos hi]
        cases reset with
        | false => exact ⟨qos.stopped, rfl, fun _ _ => rfl⟩
        | true =>
          simp only [if_true]
          obtain ⟨st₁, heq₁, hst₁⟩ := flowControl_eq
            { qos with mq := Function.update qos.mq i none } i true
          rw [heq₁]
          by_cases hm : cfg.dfcMode = dfcModeSa
          · rw [if_pos hm]
            obtain ⟨st₂, heq₂, hst₂⟩ := flowControl_eq
              { qos with mq := Function.update qos.mq i none, stopped := st₁ } (i + ackMqOffset) true
            rw [heq₂]
            refine ⟨st₂, rfl, fun j hj => ?_⟩
            rw [hst₂ j (hj hi).2]
            exact hst₁ j (hj hi).1
          · rw [if_neg hm]
            exact ⟨st₁, rfl, fun j hj => hst₁ j (hj hi).1⟩
      · simp only [if_neg hi]
        exact ⟨qos.stopped, rfl, fun _ _ => rfl⟩
    obtain ⟨st₁, heq₁, hst₁⟩ := hone
    obtain ⟨st₂, heq₂, hst₂⟩ := ih (bearerPutMq cfg a reset qos i)
    have hmq : (bearerPutMq cfg a reset qos i).mq
        = if qos.mq i = some a then Function.update qos.mq i none else qos.mq := by rw [heq₁]
    have hstop : (bearerPutMq cfg a reset qos i).stopped = st₁ := by rw [heq₁]
    have hpoint : ∀ k, (bearerPutMq cfg a reset qos i).mq k
        = if k = i ∧ qos.mq i = some a then none else qos.mq k := by
      intro k
      rw [hmq]
      by_cases hi : qos.mq i = some a <;> by_cases hk : k = i <;> simp [hi, hk]
    refine ⟨st₂, ?_, ?_⟩
    · rw [List.foldl_cons, heq₂, heq₁]
      congr 1
      funext k
      have hk := hpoint k
      rw [heq₁] at hk
      simp only at hk ⊢
      rw [hk]
      by_cases hki : k = i
      · subst hki
        by_cases hi : qos.mq k = some a <;> simp [hi]
      · simp [hki]
    · intro j hj
      rw [hst₂ j ?_, hstop, hst₁ j (hj i (by simp))]
      intro k hk hmk
      rw [hpoint k] at hmk
      split at hmk
      · cases hmk
      · exact hj k (by simp [hk]) hmk

theorem unlinkBearer_eq (cfg : DfcConfig) (a : Addr) (reset : Bool) (qos : QosInfo) :
    ∃ st, unlinkBearer cfg a reset qos
        = { qos with
            mq := fun i => if i < maxMqNum ∧ qos.mq i = some a then none else qos.mq i
            stopped := st
            bearerHead := qos.bearerHead.erase a
            removedBearer := some a } ∧
      ∀ j, (∀ i, qos.mq i = some a → j ≠ i ∧ j ≠ i + ackMqOffset) → st j = qos.stopped j := by
  obtain ⟨st, heq, hst⟩ := bearerPutMq_foldl cfg a reset (List.range maxMqNum) qos
  refine ⟨st, ?_, fun j hj => hst j fun i _ => hj i⟩
  simp only [unlinkBearer, heq, List.mem_range]

/-- What the callers of `__qmi_rmnet_bearer_put` rely on. -/
structure PutBearer (qos qos' : QosInfo) : Prop where
  head : ∀ b ∈ qos'.bearerHead, b ∈ qos.bearerHead
  heap_id : ∀ b, (qos'.heap b).bearerId = (qos.heap b).bearerId
  flowHead : qos'.flowHead = qos.flowHead

theorem bearerPut_inv (cfg : DfcConfig) {qos : QosInfo} {refs : List Addr} {a : Addr} (reset : Bool)
    (h : BearerInv qos (a :: refs)) (hrem : qos.removedBearer = none) :
    PutBearer qos (qmiRmnetBearerPut cfg qos (some a) reset) ∧
      BearerInv (qmiRmnetBearerPut cfg qos (some a) reset) refs := by
  have ha : a ∈ qos.bearerHead := h.refs_mem a (by simp)
  have href : (qos.heap a).flowRef = refs.count a + 1 := by
    rw [h.flowRef a ha, List.count_cons_self]
    push_cast
    ring
  let dec := qos.modifyBearer a fun b => { b with flowRef := b.flowRef - 1 }
  have hids : ∀ b, (dec.heap b).bearerId = (qos.heap b).bearerId :=
    fun b => modifyBearer_field qos a b _ RmnetBearerMap.bearerId rfl
  have hdec : ∀ b ∈ qos.bearerHead, (dec.heap b).flowRef = refs.count b := by
    intro b hb
    by_cases hba : b = a
    · subst hba
      show ((qos.modifyBearer b _).heap b).flowRef = _
      rw [modifyBearer_heap_self]
      show (qos.heap b).flowRef - 1 = _
      rw [href]
      ring
    · show ((qos.modifyBearer a _).heap b).flowRef = _
      rw [modifyBearer_heap_ne qos hba, h.flowRef b hb, List.count_cons_of_ne (Ne.symm hba)]
  have hmap : (qos.bearerHead.map fun b => (dec.heap b).bearerId).Nodup := by
    rw [List.map_congr_left fun b _ => hids b]
    exact h.ids
  unfold qmiRmnetBearerPut
  simp only
  by_cases hz : (dec.heap a).flowRef = 0
  · -- the last reference: the bearer leaves the list and the queue table
    rw [if_pos hz]
    obtain ⟨st, heq, -⟩ := unlinkBearer_eq cfg a reset dec
    rw [heq]
    have hcnt : refs.count a = 0 := by
      have := hdec a ha
      rw [hz] at this
      exact_mod_cast this.symm
    refine ⟨⟨fun b hb => List.mem_of_mem_erase hb, hids, rfl⟩, ⟨?_, ?_, ?_, ?_, ?_⟩⟩
    · exact hmap.sublist ((List.erase_sublist).map _)
    · intro b hb
      have hba : b ≠ a := fun hba => List.count_eq_zero.mp hcnt (hba ▸ hb)
      exact (List.mem_erase_of_ne hba).mpr (h.refs_mem b (List.mem_cons_of_mem _ hb))
    · intro b hb
      exact hdec b (List.mem_of_mem_erase hb)
    · intro i b hi
      simp only at hi
      split at hi
      · cases hi
      · rename_i hnot
        obtain ⟨hb, hlt⟩ := h.mq_mem i b hi
        refine ⟨(List.mem_erase_of_ne ?_).mpr hb, hlt⟩
        rintro rfl
        exact hnot ⟨hlt, hi⟩
    · have hp : (qos.bearerHead.erase a ++ (a :: qos.freed)).Perm (List.range qos.nextAddr) := by
        have hown := h.owned
        rw [hrem] at hown
        refine List.Perm.trans ?_ hown
        exact List.perm_middle.trans
          ((List.perm_cons_erase ha).symm.append_right qos.freed)
      exact hp
  · rw [if_neg hz]
    refine ⟨⟨fun b hb => hb, hids, rfl⟩, ⟨hmap, ?_, hdec, h.mq_mem, h.owned⟩⟩
    intro b hb
    exact h.refs_mem b (List.mem_cons_of_mem _ hb)

/-! ### The queue table and the cleanup -/

theorem updateMq_frame (cfg : DfcConfig) (qos : QosInfo) (a : Addr) (i : ℕ) :
    let qos' := qmiRmnetUpdateMq cfg qos a i
    qos'.flowHead = qos.flowHead ∧ qos'.bearerHead = qos.bearerHead ∧
      qos'.removedBearer = qos.removedBearer ∧ qos'.freed = qos.freed ∧
      qos'.nextAddr = qos.nextAddr ∧
      (∀ b, (qos'.heap b).bearerId = (qos.heap b).bearerId ∧
        (qos'.heap b).flowRef = (qos.heap b).flowRef) ∧
      (qos'.mq = qos.mq ∨ qos'.mq = Function.update qos.mq i (some a)) := by
  intro qos'
  simp only [qos', qmiRmnetUpdateMq]
  split
  · exact ⟨rfl, rfl, rfl, rfl, rfl, fun _ => ⟨rfl, rfl⟩, .inl rfl⟩
  · split
    · -- the entry was free: it is bound, and the two queues follow the grant
      have key : ∀ (q : QosInfo) (j : ℕ) (e : Bool), ∃ st,
          qmiRmnetFlowControl q j e = { q with stopped := st } := fun q j e =>
        (flowControl_eq q j e).imp fun _ h => h.1
      set q₁ : QosInfo := ({ qos with mq := Function.update qos.mq i (some a) } : QosInfo).modifyBearer a
        (fun b => if cfg.dfcMode = dfcModeSa then { b with mqIdx := i, ackMqIdx := i + ackMqOffset }
          else { b with mqIdx := i }) with hq₁
      have hf : ∀ b, (q₁.heap b).bearerId = (qos.heap b).bearerId ∧
          (q₁.heap b).flowRef = (qos.heap b).flowRef := by
        intro b
        constructor
        · refine modifyBearer_field _ a b _ RmnetBearerMap.bearerId ?_
          split <;> rfl
        · refine modifyBearer_field _ a b _ RmnetBearerMap.flowRef ?_
          split <;> rfl
      obtain ⟨st₁, h₁⟩ := key q₁ i (0 < (q₁.heap a).grantSize)
      rw [h₁]
      split
      · obtain ⟨st₂, h₂⟩ := key { q₁ with stopped := st₁ }
          (({ q₁ with stopped := st₁ } : QosInfo).heap a).ackMqIdx
          (0 < (({ q₁ with stopped := st₁ } : QosInfo).heap a).grantSize)
        rw [h₂]
        exact ⟨rfl, rfl, rfl, rfl, rfl, hf, .inr rfl⟩
      · exact ⟨rfl, rfl, rfl, rfl, rfl, hf, .inr rfl⟩
    · exact ⟨rfl, rfl, rfl, rfl, rfl, fun _ => ⟨rfl, rfl⟩, .inl rfl⟩

theorem updateMq_inv (cfg : DfcConfig) {qos : QosInfo} {refs : List Addr} {a : Addr} {i : ℕ}
    (h : BearerInv qos refs) (ha : a ∈ qos.bearerHead) (hi : i < maxMqNum) :
    BearerInv (qmiRmnetUpdateMq cfg qos a i) refs := by
  obtain ⟨-, hhead, hrem, hfreed, hnext, hheap, hmq⟩ := updateMq_frame cfg qos a i
  refine ⟨?_, ?_, ?_, ?_, ?_⟩
  · rw [hhead, List.map_congr_left fun b _ => (hheap b).1]
    exact h.ids
  · rw [hhead]
    exact h.refs_mem
  · intro b hb
    rw [hhead] at hb
    rw [(hheap b).2]
    exact h.flowRef b hb
  · intro j b hj
    rw [hhead]
    rcases hmq with hmq | hmq
    · rw [hmq] at hj
      exact h.mq_mem j b hj
    · rw [hmq] at hj
      by_cases hji : j = i
      · subst hji
        rw [Function.update_self, Option.some.injEq] at hj
        exact ⟨hj ▸ ha, hi⟩
      · rw [Function.update_of_ne hji] at hj
        exact h.mq_mem j b hj
  · rw [hhead, hrem, hfreed, hnext]
    exact h.owned

/-- Freeing the removed bearer moves it from one part of the ledger to the other. -/
theorem bearerClean_inv {qos : QosInfo} {refs : List Addr} (h : BearerInv qos refs) :
    BearerInv (qmiRmnetBearerClean qos) refs ∧ (qmiRmnetBearerClean qos).removedBearer = none ∧
      (qmiRmnetBearerClean qos).flowHead = qos.flowHead ∧
      (qmiRmnetBearerClean qos).heap = qos.heap := by
  unfold qmiRmnetBearerClean
  cases hr : qos.removedBearer with
  | none => exact ⟨h, hr, rfl, rfl⟩
  | some a =>
    refine ⟨⟨h.ids, h.refs_mem, h.flowRef, h.mq_mem, ?_⟩, rfl, rfl, rfl⟩
    have hown := h.owned
    rw [hr] at hown
    refine List.Perm.trans ?_ hown
    refine List.Perm.append_left _ ?_
    simp

theorem bearerClean_of_none {qos : QosInfo} (h : qos.removedBearer = none) :
    qmiRmnetBearerClean qos = qos := by
  simp only [qmiRmnetBearerClean, h]

theorem bearerClean_flowHead (qos : QosInfo) : (qmiRmnetBearerClean qos).flowHead = qos.flowHead := by
  unfold qmiRmnetBearerClean
  split <;> rfl

/-! ### Flow entries -/

/-- Finding an entry and erasing it splits the list. -/
theorem perm_cons_eraseP_find {α : Type} {p : α → Bool} {l : List α} {x : α} (h : l.find? p = some x) :
    l.Perm (x :: l.eraseP p) := by
  induction l with
  | nil => cases h
  | cons y l ih =>
    by_cases hy : p y = true
    · rw [List.find?_cons_of_pos hy, Option.some.injEq] at h
      rw [List.eraseP_cons_of_pos hy, h]
    · rw [List.find?_cons_of_neg hy] at h
      rw [List.eraseP_cons_of_neg hy]
      exact ((ih h).cons y).trans (List.Perm.swap _ _ _)

/-- Writing a found entry is erasing it and adding the new one. -/
theorem updateFlowMap_perm {l : List RmnetFlowMap} {key : ℕ × ℤ} {itm : RmnetFlowMap}
    (new : RmnetFlowMap) (h : l.find? (fun f => f.key = key) = some itm) :
    (updateFlowMap key new l).Perm (new :: l.eraseP fun f => f.key = key) := by
  induction l with
  | nil => cases h
  | cons y l ih =>
    by_cases hy : y.key = key
    · rw [updateFlowMap, if_pos hy, List.eraseP_cons_of_pos (by simpa using hy)]
    · rw [List.find?_cons_of_neg (by simpa using hy)] at h
      rw [updateFlowMap, if_neg hy, List.eraseP_cons_of_neg (by simpa using hy)]
      exact ((ih h).cons y).trans (List.Perm.swap _ _ _)

/-- Writing an entry under its own key keeps the keys. -/
theorem updateFlowMap_keys {new : RmnetFlowMap} {key : ℕ × ℤ} (hk : new.key = key)
    (l : List RmnetFlowMap) :
    (updateFlowMap key new l).map RmnetFlowMap.key = l.map RmnetFlowMap.key := by
  induction l with
  | nil => rfl
  | cons y l ih =>
    rw [updateFlowMap]
    by_cases hy : y.key = key
    · rw [if_pos hy, List.map_cons, List.map_cons, hk, hy]
    · rw [if_neg hy, List.map_cons, List.map_cons, ih]

/-- With distinct keys, erasing the entry of a key leaves none under it. -/
theorem eraseP_key_notMem {l : List RmnetFlowMap} (hn : (l.map RmnetFlowMap.key).Nodup) {key : ℕ × ℤ}
    {itm : RmnetFlowMap} (h : l.find? (fun f => f.key = key) = some itm) :
    key ∉ (l.eraseP fun f => f.key = key).map RmnetFlowMap.key := by
  have hp := (perm_cons_eraseP_find h).map RmnetFlowMap.key
  have hnd := (hp.nodup_iff.mp hn)
  rw [List.map_cons, List.nodup_cons] at hnd
  have hk : itm.key = key := by simpa using List.find?_some h
  rw [← hk]
  exact hk ▸ hnd.1

theorem BearerInv.perm {qos : QosInfo} {refs refs' : List Addr} (h : BearerInv qos refs)
    (hp : refs.Perm refs') : BearerInv qos refs' where
  ids := h.ids
  refs_mem := fun a ha => h.refs_mem a (hp.mem_iff.mpr ha)
  flowRef := fun a ha => by rw [h.flowRef a ha, hp.count_eq]
  mq_mem := h.mq_mem
  owned := h.owned

/-- The references of the other flows, once the entry of a key is set apart. -/
def QosInfo.refsWithout (qos : QosInfo) (key : ℕ × ℤ) : List Addr :=
  (qos.flowHead.eraseP fun f => f.key = key).filterMap RmnetFlowMap.bearer

/-- A found flow holds one of the references. -/
theorem refs_perm_found {qos : QosInfo} {flowId : ℕ} {ipType : ℤ} {itm : RmnetFlowMap} {a : Addr}
    (h : qmiRmnetGetFlowMap qos flowId ipType = some itm) (ha : itm.bearer = some a) :
    qos.refs.Perm (a :: qos.refsWithout (flowId, ipType)) := by
  have hp := (perm_cons_eraseP_find h).filterMap RmnetFlowMap.bearer
  rw [List.filterMap_cons_some ha] at hp
  exact hp

/-! ### The operations of a run -/

/-- `qmi_rmnet_del_flow` up to its last two statements, for a flow that exists. -/
theorem delFlow_found (cfg : DfcConfig) {qos : QosInfo} (h : TableInv qos) {tcm : FlowReq}
    {itm : RmnetFlowMap} (hg : qmiRmnetGetFlowMap qos tcm.flowId tcm.ipType = some itm) :
    let qos' := qmiRmnetDelFlow cfg qos tcm
    TableInv qos' ∧ qos'.flowHead = qos.flowHead.eraseP fun f => f.key = (tcm.flowId, tcm.ipType) := by
  obtain ⟨hmem, hkey⟩ := getFlowMap_some hg
  obtain ⟨a, ha, hid⟩ := h.bearer itm hmem
  have hrefs := h.inv.perm (refs_perm_found hg ha)
  obtain ⟨hput, hinv⟩ := bearerPut_inv cfg true hrefs h.removed
  -- the entry leaves the list, the queues may all be woken, the removed bearer is freed
  intro qos'
  set put := qmiRmnetBearerPut cfg qos (some a) true with hputdef
  set erased : QosInfo := { put with flowHead := put.flowHead.eraseP fun f => f.key = itm.key } with her
  set woken := if erased.flowHead = [] then netifTxWakeAllQueues erased else erased with hw
  have hq : qos' = qmiRmnetBearerClean woken := by
    simp only [qos', qmiRmnetDelFlow, hg, ha, ← hputdef, ← her, ← hw]
  have hwoken : woken.flowHead = erased.flowHead ∧ woken.heap = erased.heap ∧
      BearerInv woken (qos.refsWithout (tcm.flowId, tcm.ipType)) := by
    rw [hw]
    split
    · exact ⟨rfl, rfl, hinv.congr rfl rfl rfl rfl rfl fun _ _ => ⟨rfl, rfl⟩⟩
    · exact ⟨rfl, rfl, hinv.congr rfl rfl rfl rfl rfl fun _ _ => ⟨rfl, rfl⟩⟩
  obtain ⟨hclean, hrem, hfl, hheap⟩ := bearerClean_inv hwoken.2.2
  have hflow : qos'.flowHead = qos.flowHead.eraseP fun f => f.key = (tcm.flowId, tcm.ipType) := by
    rw [hq, hfl, hwoken.1, her]
    simp only
    rw [hput.flowHead, hkey]
  refine ⟨⟨?_, ?_, ?_, hq ▸ hrem⟩, hflow⟩
  · rw [hflow]
    exact h.flows.sublist (List.eraseP_sublist.map _)
  · intro f hf
    rw [hflow] at hf
    obtain ⟨b, hb, hbid⟩ := h.bearer f (List.mem_of_mem_eraseP hf)
    refine ⟨b, hb, ?_⟩
    rw [hq, hheap, hwoken.2.1]
    exact (hput.heap_id b).trans hbid
  · have href : qos'.refs = qos.refsWithout (tcm.flowId, tcm.ipType) := by
      rw [QosInfo.refs, hflow]
      rfl
    rw [href, hq]
    exact hclean

theorem delFlow_inv (cfg : DfcConfig) {qos : QosInfo} (h : TableInv qos) (tcm : FlowReq) :
    TableInv (qmiRmnetDelFlow cfg qos tcm) := by
  cases hg : qmiRmnetGetFlowMap qos tcm.flowId tcm.ipType with
  | some itm => exact (delFlow_found cfg h hg).1
  | none =>
    have hq : ∃ st, qmiRmnetDelFlow cfg qos tcm = { qos with stopped := st } := by
      simp only [qmiRmnetDelFlow, hg]
      split
      · rw [bearerClean_of_none (show (netifTxWakeAllQueues qos).removedBearer = none from h.removed)]
        exact ⟨_, rfl⟩
      · rw [bearerClean_of_none h.removed]
        exact ⟨qos.stopped, rfl⟩
    obtain ⟨st, hq⟩ := hq
    rw [hq]
    exact ⟨h.flows, h.bearer, h.inv.congr rfl rfl rfl rfl rfl fun _ _ => ⟨rfl, rfl⟩, h.removed⟩

theorem getBearerNoref_inv (cfg : DfcConfig) {qos : QosInfo} (h : TableInv qos) (id : ℕ) :
    TableInv (qmiRmnetGetBearerNoref cfg true qos id).1 := by
  obtain ⟨qos', a, hget, hgot, hinv⟩ := bearerGet_inv cfg h.inv id
  simp only [qmiRmnetGetBearerNoref, hget]
  have hids : ∀ b, ((qos'.modifyBearer a fun b => { b with flowRef := b.flowRef - 1 }).heap b).bearerId
      = (qos'.heap b).bearerId := fun b => modifyBearer_field qos' a b _ RmnetBearerMap.bearerId rfl
  have hrefs : ∀ f ∈ qos.flowHead, ∀ b, f.bearer = some b → b ∈ qos.bearerHead := by
    intro f hf b hb
    exact h.inv.refs_mem b (List.mem_filterMap.mpr ⟨f, hf, hb⟩)
  refine ⟨?_, ?_, ?_, ?_⟩
  · show (qos'.flowHead.map _).Nodup
    rw [hgot.flowHead]
    exact h.flows
  · intro f hf
    have hf' : f ∈ qos.flowHead := by
      rw [← hgot.flowHead]
      exact hf
    obtain ⟨b, hb, hbid⟩ := h.bearer f hf'
    exact ⟨b, hb, (hids b).trans ((hgot.heap_id b (hrefs f hf' b hb)).trans hbid)⟩
  · have href : (qos'.modifyBearer a fun b => { b with flowRef := b.flowRef - 1 }).refs = qos.refs := by
      show qos'.refs = qos.refs
      rw [QosInfo.refs, hgot.flowHead]
      rfl
    rw [href]
    refine ⟨?_, ?_, ?_, hinv.mq_mem, hinv.owned⟩
    · exact (List.map_congr_left (fun b _ => hids b)).symm ▸ hinv.ids
    · intro b hb
      exact hinv.refs_mem b (List.mem_cons_of_mem _ hb)
    · intro b hb
      have hb' := hinv.flowRef b hb
      by_cases hba : b = a
      · subst hba
        rw [modifyBearer_heap_self]
        show (qos'.heap b).flowRef - 1 = _
        rw [hb', List.count_cons_self]
        push_cast
        ring
      · rw [modifyBearer_heap_ne qos' hba, hb', List.count_cons_of_ne (Ne.symm hba)]
  · show qos'.removedBearer = none
    rw [hgot.removed]
    exact h.removed

/-- The common end of a new and of a rebound flow: a flow with its own reference on the bearer it names,
in front of flows that were there before, then the queue table and the cleanup. -/
theorem bindFlow_inv (cfg : DfcConfig) {qos : QosInfo} (others : List RmnetFlowMap) (itm : RmnetFlowMap)
    {a : Addr} (hperm : qos.flowHead.Perm (itm :: others))
    (hflows : (qos.flowHead.map RmnetFlowMap.key).Nodup) (hitm : itm.bearer = some a)
    (hid : (qos.heap a).bearerId = itm.bearerId)
    (hothers : ∀ f ∈ others, ∃ b, f.bearer = some b ∧ (qos.heap b).bearerId = f.bearerId)
    (hinv : BearerInv qos (a :: others.filterMap RmnetFlowMap.bearer)) (hmq : itm.mqIdx < maxMqNum) :
    TableInv (qmiRmnetBearerClean (qmiRmnetUpdateMq cfg qos a itm.mqIdx)) := by
  obtain ⟨hfl, -, -, -, -, hheap, -⟩ := updateMq_frame cfg qos a itm.mqIdx
  have ha : a ∈ qos.bearerHead := hinv.refs_mem a (by simp)
  obtain ⟨hclean, hrem, hfl', hheap'⟩ := bearerClean_inv (updateMq_inv cfg hinv ha hmq)
  have hflow := hfl'.trans hfl
  refine ⟨?_, ?_, ?_, hrem⟩
  · rw [hflow]
    exact hflows
  · intro f hf
    rw [hflow] at hf
    rw [hheap']
    rcases List.mem_cons.mp (hperm.mem_iff.mp hf) with rfl | hf
    · exact ⟨a, hitm, ((hheap a).1).trans hid⟩
    · obtain ⟨b, hb, hbid⟩ := hothers f hf
      exact ⟨b, hb, ((hheap b).1).trans hbid⟩
  · refine hclean.perm ?_
    rw [QosInfo.refs, hflow]
    have hp := hperm.filterMap RmnetFlowMap.bearer
    rw [List.filterMap_cons_some hitm] at hp
    exact hp.symm

theorem rebindFlow_inv (cfg : DfcConfig) {qos : QosInfo} (h : TableInv qos) {tcm : FlowReq}
    {itm : RmnetFlowMap} (hg : qmiRmnetGetFlowMap qos tcm.flowId tcm.ipType = some itm)
    (hmq : tcm.mqIdx < maxMqNum) :
    TableInv (qmiRmnetBearerClean (qmiRmnetRebindFlow cfg true qos itm tcm).1) ∧
      (qmiRmnetRebindFlow cfg true qos itm tcm).2 = 0 := by
  obtain ⟨hmem, hkey⟩ := getFlowMap_some hg
  obtain ⟨a, ha, -⟩ := h.bearer itm hmem
  obtain ⟨hput, hinv⟩ := bearerPut_inv cfg false (h.inv.perm (refs_perm_found hg ha)) h.removed
  obtain ⟨qos₂, b, hget, hgot, hinv₂⟩ := bearerGet_inv cfg hinv tcm.bearerId
  simp only [qmiRmnetRebindFlow, ha, hget, and_true]
  have hfl : qos₂.flowHead = qos.flowHead := hgot.flowHead.trans hput.flowHead
  rw [hkey]
  refine bindFlow_inv cfg (qos.flowHead.eraseP fun f => f.key = (tcm.flowId, tcm.ipType))
    ⟨tcm.bearerId, tcm.flowId, tcm.ipType, tcm.mqIdx, some b⟩ ?_ ?_ rfl hgot.id_eq ?_ ?_ hmq
  · simp only [hfl]
    exact updateFlowMap_perm _ hg
  · simp only [hfl]
    rw [updateFlowMap_keys]
    · exact h.flows
    · rfl
  · intro f hf
    obtain ⟨c, hc, hcid⟩ := h.bearer f (List.mem_of_mem_eraseP hf)
    have hcmem := hinv.refs_mem c (List.mem_filterMap.mpr ⟨f, hf, hc⟩)
    exact ⟨c, hc, (hgot.heap_id c hcmem).trans ((hput.heap_id c).trans hcid)⟩
  · exact hinv₂.congr rfl rfl rfl rfl rfl fun _ _ => ⟨rfl, rfl⟩

theorem createFlow_inv (cfg : DfcConfig) {qos : QosInfo} (h : TableInv qos) {tcm : FlowReq}
    (hg : qmiRmnetGetFlowMap qos tcm.flowId tcm.ipType = none) (hmq : tcm.mqIdx < maxMqNum) :
    TableInv (createFlow cfg true true qos tcm).1 ∧ (createFlow cfg true true qos tcm).2 = 0 := by
  set itm : RmnetFlowMap := { bearerId := tcm.bearerId, flowId := tcm.flowId, ipType := tcm.ipType,
                              mqIdx := tcm.mqIdx, bearer := none } with hitm
  have hinv : BearerInv { qos with flowHead := itm :: qos.flowHead } qos.refs :=
    h.inv.congr rfl rfl rfl rfl rfl fun _ _ => ⟨rfl, rfl⟩
  obtain ⟨qos₂, b, hget, hgot, hinv₂⟩ := bearerGet_inv cfg hinv tcm.bearerId
  simp only [createFlow, if_true, ← hitm, hget, and_true]
  have hfl : qos₂.flowHead = itm :: qos.flowHead := hgot.flowHead
  refine bindFlow_inv cfg qos.flowHead { itm with bearer := some b } ?_ ?_ rfl hgot.id_eq ?_ ?_ hmq
  · simp only [hfl, updateFlowMap, if_true]
    exact List.Perm.refl _
  · simp only [hfl, updateFlowMap, if_true, List.map_cons, List.nodup_cons]
    exact ⟨getFlowMap_none hg, h.flows⟩
  · intro f hf
    obtain ⟨c, hc, hcid⟩ := h.bearer f hf
    have hcmem := h.inv.refs_mem c (List.mem_filterMap.mpr ⟨f, hf, hc⟩)
    exact ⟨c, hc, (hgot.heap_id c hcmem).trans hcid⟩
  · exact hinv₂.congr rfl rfl rfl rfl rfl fun _ _ => ⟨rfl, rfl⟩

/-- A deactivation reads the key of its request only. -/
theorem delFlow_congr (cfg : DfcConfig) (qos : QosInfo) {tcm tcm' : FlowReq}
    (hid : tcm'.flowId = tcm.flowId) (hip : tcm'.ipType = tcm.ipType) :
    qmiRmnetDelFlow cfg qos tcm' = qmiRmnetDelFlow cfg qos tcm := by
  unfold qmiRmnetDelFlow
  rw [hid, hip]

/-- After its deactivation a flow is not found. -/
theorem delFlow_notFound (cfg : DfcConfig) {qos : QosInfo} (h : TableInv qos) {tcm : FlowReq}
    {itm : RmnetFlowMap} (hg : qmiRmnetGetFlowMap qos tcm.flowId tcm.ipType = some itm) :
    qmiRmnetGetFlowMap (qmiRmnetDelFlow cfg qos tcm) tcm.flowId tcm.ipType = none := by
  rw [qmiRmnetGetFlowMap, (delFlow_found cfg h hg).2, List.find?_eq_none]
  intro f hf
  simp only [decide_eq_true_eq]
  intro hfk
  have hmem := List.mem_map_of_mem (f := RmnetFlowMap.key) hf
  rw [hfk] at hmem
  exact eraseP_key_notMem h.flows hg hmem

/-- **What `qmi_rmnet_add_flow` does**: a new flow is created, a flow of another bearer is rebound, a flow on
another queue is deleted and created again, and anything else is left alone. -/
theorem addFlow_cases (cfg : DfcConfig) (kzFlow kzBearer : Bool) {qos : QosInfo} (h : TableInv qos) {tcm : FlowReq}
    (hmq : tcm.mqIdx < maxMqNum) :
    (qmiRmnetGetFlowMap qos tcm.flowId tcm.ipType = none ∧
      qmiRmnetAddFlow cfg kzFlow kzBearer qos tcm
        = some ((createFlow cfg kzFlow kzBearer qos tcm).1, (createFlow cfg kzFlow kzBearer qos tcm).2, 0)) ∨
    ∃ itm, qmiRmnetGetFlowMap qos tcm.flowId tcm.ipType = some itm ∧
      ((itm.bearerId ≠ tcm.bearerId ∧
        qmiRmnetAddFlow cfg kzFlow kzBearer qos tcm
          = some (qmiRmnetBearerClean (qmiRmnetRebindFlow cfg kzBearer qos itm tcm).1,
              (qmiRmnetRebindFlow cfg kzBearer qos itm tcm).2, 0)) ∨
      (itm.bearerId = tcm.bearerId ∧ itm.mqIdx ≠ tcm.mqIdx ∧
        qmiRmnetAddFlow cfg kzFlow kzBearer qos tcm
          = some ((createFlow cfg kzFlow kzBearer (qmiRmnetDelFlow cfg qos tcm) tcm).1,
              (createFlow cfg kzFlow kzBearer (qmiRmnetDelFlow cfg qos tcm) tcm).2, 1)) ∨
      (itm.bearerId = tcm.bearerId ∧ itm.mqIdx = tcm.mqIdx ∧
        qmiRmnetAddFlow cfg kzFlow kzBearer qos tcm = some (qos, 0, 0))) := by
  rw [qmiRmnetAddFlow, if_neg (by omega), addFlowAgain]
  cases hg : qmiRmnetGetFlowMap qos tcm.flowId tcm.ipType with
  | none => exact .inl ⟨rfl, rfl⟩
  | some itm =>
    refine .inr ⟨itm, rfl, ?_⟩
    simp only
    by_cases hid : itm.bearerId = tcm.bearerId
    · rw [if_neg (not_not.mpr hid)]
      by_cases hidx : itm.mqIdx = tcm.mqIdx
      · rw [if_neg (not_not.mpr hidx), bearerClean_of_none h.removed]
        exact .inr (.inr ⟨hid, hidx, rfl⟩)
      · -- the flow is deleted; the second look finds nothing under its key
        rw [if_pos hidx]
        obtain ⟨hmem, hkey⟩ := getFlowMap_some hg
        have hkey' : itm.flowId = tcm.flowId ∧ itm.ipType = tcm.ipType := by
          simpa [RmnetFlowMap.key] using hkey
        have hlen : qos.flowHead.length = (qos.flowHead.length - 1) + 1 := by
          have := List.length_pos_of_mem hmem
          omega
        rw [delFlow_congr cfg qos hkey'.1 hkey'.2, hlen, addFlowAgain, delFlow_notFound cfg h hg]
        exact .inr (.inl ⟨hid, hidx, rfl⟩)
    · rw [if_pos hid]
      exact .inl ⟨hid, rfl⟩

/-- **One activation.**  With successful allocations the call returns 0 after at most one jump to `again`
and keeps the tables. -/
theorem addFlow_inv (cfg : DfcConfig) {qos : QosInfo} (h : TableInv qos) (tcm : FlowReq)
    (hmq : tcm.mqIdx < maxMqNum) :
    ∃ qos' k, qmiRmnetAddFlow cfg true true qos tcm = some (qos', 0, k) ∧ TableInv qos' ∧ k ≤ 1 := by
  rcases addFlow_cases cfg true true h hmq with ⟨hg, hadd⟩ | ⟨itm, hg, ⟨-, hadd⟩ | ⟨-, -, hadd⟩ | ⟨-, -, hadd⟩⟩
  · obtain ⟨hinv, hrc⟩ := createFlow_inv cfg h hg hmq
    rw [hrc] at hadd
    exact ⟨_, 0, hadd, hinv, by omega⟩
  · obtain ⟨hinv, hrc⟩ := rebindFlow_inv cfg h hg hmq
    rw [hrc] at hadd
    exact ⟨_, 0, hadd, hinv, by omega⟩
  · obtain ⟨hinv, hrc⟩ := createFlow_inv cfg (delFlow_found cfg h hg).1 (delFlow_notFound cfg h hg) hmq
    rw [hrc] at hadd
    exact ⟨_, 1, hadd, hinv, le_rfl⟩
  · exact ⟨qos, 0, hadd, h, by omega⟩

/-! ### Every run -/

/-- The operations on the tables. -/
inductive TableOp
  | addFlow (tcm : FlowReq)
  | delFlow (tcm : FlowReq)
  | getBearerNoref (bearerId : ℕ)

/-- One operation, with successful allocations. -/
def tableStep (cfg : DfcConfig) (qos : QosInfo) : TableOp → Option QosInfo
  | .addFlow tcm => (qmiRmnetAddFlow cfg true true qos tcm).map Prod.fst
  | .delFlow tcm => some (qmiRmnetDelFlow cfg qos tcm)
  | .getBearerNoref bearerId => some (qmiRmnetGetBearerNoref cfg true qos bearerId).1

theorem tableStep_inv (cfg : DfcConfig) {qos : QosInfo} (h : TableInv qos) (op : TableOp) :
    ∃ qos', tableStep cfg qos op = some qos' ∧ TableInv qos' := by
  cases op with
  | addFlow tcm =>
    by_cases hmq : tcm.mqIdx < maxMqNum
    · obtain ⟨qos', k, hadd, hinv, -⟩ := addFlow_inv cfg h tcm hmq
      exact ⟨qos', by simp [tableStep, hadd], hinv⟩
    · refine ⟨qos, ?_, h⟩
      simp [tableStep, qmiRmnetAddFlow, Nat.le_of_not_lt hmq]
  | delFlow tcm => exact ⟨_, rfl, delFlow_inv cfg h tcm⟩
  | getBearerNoref bearerId => exact ⟨_, rfl, getBearerNoref_inv cfg h bearerId⟩

theorem tableRun_inv (cfg : DfcConfig) (ops : List TableOp) :
    ∀ qos : QosInfo, TableInv qos → ∃ qos', runList (tableStep cfg) qos ops = some qos' ∧ TableInv qos' := by
  induction ops with
  | nil => intro qos h; exact ⟨qos, rfl, h⟩
  | cons op ops ih =>
    intro qos h
    obtain ⟨qos₁, hstep, h₁⟩ := tableStep_inv cfg h op
    obtain ⟨qos₂, hrun, h₂⟩ := ih qos₁ h₁
    exact ⟨qos₂, by rw [runList, hstep]; exact hrun, h₂⟩

theorem tableInv_init (muxId numTxQueues : ℕ) (stopped : ℕ → Bool) :
    TableInv (qmiRmnetQosInit muxId numTxQueues stopped) := by
  refine ⟨List.nodup_nil, by simp [qmiRmnetQosInit], ⟨List.nodup_nil, ?_, ?_, ?_, List.Perm.refl _⟩, rfl⟩
  · intro a ha
    cases ha
  · intro a ha
    cases ha
  · intro i a hi
    cases hi

/-- The integrity of the tables, field by field. -/
structure TableIntegrity (qos : QosInfo) : Prop where
  flows_distinct : (qos.flowHead.map fun f => (f.flowId, f.ipType)).Nodup
  bearers_distinct : (qos.bearerHead.map fun a => (qos.heap a).bearerId).Nodup
  flow_bearer : ∀ f ∈ qos.flowHead,
    ∃ a ∈ qos.bearerHead, f.bearer = some a ∧ (qos.heap a).bearerId = f.bearerId
  flow_ref : ∀ a ∈ qos.bearerHead, (qos.heap a).flowRef = qos.flowHead.countP fun f => f.bearer = some a
  mq_bearer : ∀ i a, qos.mq i = some a → a ∈ qos.bearerHead
  removed_null : qos.removedBearer = none
  /-- A listed bearer has not been freed, and every other allocated one has, once. -/
  freed_once : ∀ a < qos.nextAddr, qos.freed.count a = if a ∈ qos.bearerHead then 0 else 1

theorem count_filterMap_bearer (l : List RmnetFlowMap) (a : Addr) :
    (l.filterMap RmnetFlowMap.bearer).count a = l.countP fun f => f.bearer = some a := by
  induction l with
  | nil => rfl
  | cons f l ih =>
    cases hb : f.bearer with
    | none =>
      rw [List.filterMap_cons_none hb, List.countP_cons_of_neg (by simp [hb])]
      exact ih
    | some b =>
      rw [List.filterMap_cons_some hb]
      by_cases hba : b = a
      · subst hba
        rw [List.count_cons_self, List.countP_cons_of_pos (by simp [hb]), ih]
      · rw [List.count_cons_of_ne hba, List.countP_cons_of_neg (by simp [hb, hba]), ih]

theorem TableInv.integrity {qos : QosInfo} (h : TableInv qos) : TableIntegrity qos where
  flows_distinct := h.flows
  bearers_distinct := h.inv.ids
  flow_bearer := by
    intro f hf
    obtain ⟨a, ha, hid⟩ := h.bearer f hf
    exact ⟨a, h.inv.refs_mem a (List.mem_filterMap.mpr ⟨f, hf, ha⟩), ha, hid⟩
  flow_ref := by
    intro a ha
    rw [h.inv.flowRef a ha, QosInfo.refs, count_filterMap_bearer]
  mq_bearer := fun i a hi => (h.inv.mq_mem i a hi).1
  removed_null := h.removed
  freed_once := by
    intro a ha
    have hown := h.inv.owned
    rw [h.removed, Option.toList_none, List.nil_append] at hown
    have hcount : (qos.bearerHead ++ qos.freed).count a = 1 := by
      rw [hown.count_eq]
      exact List.count_eq_one_of_mem List.nodup_range (List.mem_range.mpr ha)
    rw [List.count_append] at hcount
    split
    · rename_i hmem
      have := List.count_pos_iff.mpr hmem
      omega
    · rename_i hmem
      rw [List.count_eq_zero_of_not_mem hmem] at hcount
      omega

/-- **The tables keep their integrity.**  Every run of activations, deactivations and no-reference
lookups completes, and leaves the tables intact; and from the state it reaches, any activation returns
after at most one jump to `again`. -/
theorem tables_integrity (cfg : DfcConfig) (muxId numTxQueues : ℕ) (stopped : ℕ → Bool)
    (ops : List TableOp) :
    ∃ qos, runList (tableStep cfg) (qmiRmnetQosInit muxId numTxQueues stopped) ops = some qos ∧
      TableIntegrity qos ∧
      ∀ tcm, ∃ qos' rc k, qmiRmnetAddFlow cfg true true qos tcm = some (qos', rc, k) ∧ k ≤ 1 := by
  obtain ⟨qos, hrun, hinv⟩ := tableRun_inv cfg ops _ (tableInv_init muxId numTxQueues stopped)
  refine ⟨qos, hrun, hinv.integrity, fun tcm => ?_⟩
  by_cases hmq : tcm.mqIdx < maxMqNum
  · obtain ⟨qos', k, hadd, -, hk⟩ := addFlow_inv cfg hinv tcm hmq
    exact ⟨qos', 0, k, hadd, hk⟩
  · refine ⟨qos, -einval, 0, ?_, by omega⟩
    simp [qmiRmnetAddFlow, Nat.le_of_not_lt hmq]

end Rmnet
