import Mathlib.Data.Set.Function
import Rmnet.Qos.Dfc
import Rmnet.Qos.Integrity

/-!
# TX queues follow the grant of their bearer

In SA mode every bearer id is activated on one queue index of its own, `m id`, and its ACK queue is the
one fifteen further up.  A bearer on the list is then in one of two states.  It is *idle* — created by an
indication, with no flow and no queue yet — or it is *bound*: its table entry, its two indices and the
state of its two queues are all determined by `m` and by its grant.

The two disjuncts are what every operation keeps:

* `Bound.touch` — rewriting the grant of a bearer is harmless as long as `dfc_bearer_flow_ctl` follows
  whenever the grant reaches or leaves zero; all of the flow-control events are instances of it;
* `bearerGet_queues`, `bearerPut_queues`, `updateMq_bound` — the bearer operations under a flow activation;
* `queue_follows_grant` — every run.
-/

namespace Rmnet

open Word Transition

/-! ### The invariant -/

/-- A bearer with queues: its entry, its indices and its queues agree with `m` and with its grant. -/
structure Bound (m : ℕ → ℕ) (ids : Set ℕ) (qos : QosInfo) (a : Addr) : Prop where
  id_mem : (qos.heap a).bearerId ∈ ids
  mq : qos.mq (m (qos.heap a).bearerId) = some a
  mqIdx : (qos.heap a).mqIdx = m (qos.heap a).bearerId
  ackMqIdx : (qos.heap a).ackMqIdx = m (qos.heap a).bearerId + ackMqOffset
  data : qos.stopped (m (qos.heap a).bearerId) = true ↔ (qos.heap a).grantSize = 0
  ack : qos.stopped (m (qos.heap a).bearerId + ackMqOffset) = true → (qos.heap a).grantSize = 0

/-- A bearer that has no queue yet. -/
def Idle (b : RmnetBearerMap) : Prop := b.mqIdx = invalidMq ∧ b.ackMqIdx = invalidMq

/-- The queue side of the tables, relative to the references held. -/
structure QueueInv (m : ℕ → ℕ) (ids : Set ℕ) (qos : QosInfo) (refs : List Addr) : Prop where
  queues : 31 ≤ qos.numTxQueues
  bearer : ∀ a ∈ qos.bearerHead, (Bound m ids qos a ∧ a ∈ refs) ∨ Idle (qos.heap a)
  owner : ∀ i a, qos.mq i = some a → i = m (qos.heap a).bearerId ∧ (qos.heap a).mqIdx = i

/-- The tables and the queues between operations. -/
structure QosInv (m : ℕ → ℕ) (ids : Set ℕ) (qos : QosInfo) : Prop where
  table : TableInv qos
  queue : QueueInv m ids qos qos.refs
  flowMq : ∀ f ∈ qos.flowHead, f.mqIdx = m f.bearerId
  bound : ∀ a ∈ qos.refs, Bound m ids qos a

/-- The activation map: injective on the activated bearer ids, into the data queues `1 .. 15`. -/
structure QueueMap (m : ℕ → ℕ) (ids : Set ℕ) : Prop where
  inj : Set.InjOn m ids
  range : ∀ id ∈ ids, 1 ≤ m id ∧ m id ≤ 15

/-- `Bound` reads only what is listed here. -/
theorem Bound.congr {m : ℕ → ℕ} {ids : Set ℕ} {qos qos' : QosInfo} {a : Addr} (h : Bound m ids qos a)
    (hid : (qos'.heap a).bearerId = (qos.heap a).bearerId)
    (hmq : qos'.mq (m (qos.heap a).bearerId) = qos.mq (m (qos.heap a).bearerId))
    (hidx : (qos'.heap a).mqIdx = (qos.heap a).mqIdx)
    (hack : (qos'.heap a).ackMqIdx = (qos.heap a).ackMqIdx)
    (hgrant : (qos'.heap a).grantSize = (qos.heap a).grantSize)
    (hdata : qos'.stopped (m (qos.heap a).bearerId) = qos.stopped (m (qos.heap a).bearerId))
    (hackq : qos'.stopped (m (qos.heap a).bearerId + ackMqOffset)
      = qos.stopped (m (qos.heap a).bearerId + ackMqOffset)) : Bound m ids qos' a where
  id_mem := by rw [hid]; exact h.id_mem
  mq := by rw [hid, hmq]; exact h.mq
  mqIdx := by rw [hid, hidx]; exact h.mqIdx
  ackMqIdx := by rw [hid, hack]; exact h.ackMqIdx
  data := by rw [hid, hgrant, hdata]; exact h.data
  ack := by rw [hid, hgrant, hackq]; exact h.ack

section

variable {m : ℕ → ℕ} {ids : Set ℕ}

/-- Two bound bearers have four different queues. -/
theorem Bound.queues_ne (hm : QueueMap m ids) {qos : QosInfo} {a b : Addr} (ha : Bound m ids qos a)
    (hb : Bound m ids qos b) (hab : b ≠ a) :
    m (qos.heap b).bearerId ≠ m (qos.heap a).bearerId ∧
      m (qos.heap b).bearerId ≠ m (qos.heap a).bearerId + ackMqOffset ∧
      m (qos.heap b).bearerId + ackMqOffset ≠ m (qos.heap a).bearerId ∧
      m (qos.heap b).bearerId + ackMqOffset ≠ m (qos.heap a).bearerId + ackMqOffset := by
  have hne : m (qos.heap b).bearerId ≠ m (qos.heap a).bearerId := by
    intro heq
    have hbq := hb.mq
    rw [heq, ha.mq, Option.some.injEq] at hbq
    exact hab hbq.symm
  have h₁ := hm.range _ ha.id_mem
  have h₂ := hm.range _ hb.id_mem
  simp only [ackMqOffset, maxMqNum]
  omega

/-! ### Queue control -/

/-- Sending an acknowledgement writes the message log and the transaction number only. -/
theorem dfcSendAck_eq (cfg : DfcConfig) (qos : QosInfo) (bearerId seq muxId type : ℕ) :
    ∃ s t, dfcSendAck cfg qos bearerId seq muxId type = { qos with sent := s, tranNum := t } := by
  unfold dfcSendAck dfcQmapSendAck dfcQmapSendEndMarkerCnf dfcQmapSendQuery
  repeat' split
  all_goals exact ⟨_, _, rfl⟩

theorem dfcQmapSendAck_eq (qos : QosInfo) (bearerId seq type : ℕ) :
    ∃ s, dfcQmapSendAck qos bearerId seq type = { qos with sent := s } := by
  unfold dfcQmapSendAck dfcQmapSendEndMarkerCnf dfcQmapSendQuery
  repeat' split
  all_goals exact ⟨_, rfl⟩

theorem flowControl_stopped (qos : QosInfo) {i : ℕ} (h : i < qos.numTxQueues) (e : Bool) :
    (qmiRmnetFlowControl qos i e).stopped i = !e := by
  unfold qmiRmnetFlowControl
  rw [if_neg (by omega)]
  simp

/-- **`dfc_bearer_flow_ctl`.**  It writes the two queues of the bearer and nothing else of the tables:
the data queue is stopped exactly when the grant is zero, and a positive grant wakes the ACK queue. -/
theorem dfcBearerFlowCtl_eq (cfg : DfcConfig) (qos : QosInfo) (a : Addr) :
    ∃ st s t, dfcBearerFlowCtl cfg qos a = { qos with stopped := st, sent := s, tranNum := t } ∧
      (∀ j, j ≠ (qos.heap a).mqIdx → j ≠ (qos.heap a).ackMqIdx → st j = qos.stopped j) ∧
      (∀ j, qos.numTxQueues ≤ j → st j = qos.stopped j) ∧
      ((qos.heap a).mqIdx < qos.numTxQueues → (qos.heap a).mqIdx ≠ (qos.heap a).ackMqIdx →
        (st (qos.heap a).mqIdx = true ↔ (qos.heap a).grantSize = 0)) ∧
      ((qos.heap a).ackMqIdx < qos.numTxQueues → (qos.heap a).ackMqIdx ≠ invalidMq →
        st (qos.heap a).ackMqIdx = true → (qos.heap a).grantSize = 0) := by
  unfold dfcBearerFlowCtl
  simp only
  set e : Bool := decide ((qos.heap a).grantSize ≠ 0) with he
  have hdata : (!e) = true ↔ (qos.heap a).grantSize = 0 := by simp [he]
  obtain ⟨st₁, h₁, hframe₁⟩ := flowControl_eq qos (qos.heap a).mqIdx e
  have hset₁ : (qos.heap a).mqIdx < qos.numTxQueues → st₁ (qos.heap a).mqIdx = !e := by
    intro hlt
    have := flowControl_stopped qos hlt e
    rwa [h₁] at this
  have hbeyond₁ : ∀ j, qos.numTxQueues ≤ j → st₁ j = qos.stopped j := by
    intro j hj
    have hb := flowControl_beyond qos (qos.heap a).mqIdx e hj
    rwa [h₁] at hb
  rw [h₁]
  -- the acknowledgement at the end does not change the queues
  have hsend : ∀ q : QosInfo, ∃ s t,
      (if (!e) = true ∧ (qos.heap a).ackReq ≠ 0 then
        dfcSendAck cfg q (qos.heap a).bearerId (qos.heap a).seq q.muxId dfcAckTypeDisable else q)
      = { q with sent := s, tranNum := t } := by
    intro q
    split
    · exact dfcSendAck_eq cfg q _ _ _ _
    · exact ⟨_, _, rfl⟩
  by_cases hack : (qos.heap a).ackMqIdx ≠ invalidMq ∧ (e || !(qos.heap a).tcpBidir) = true
  · rw [if_pos hack]
    obtain ⟨st₂, h₂, hframe₂⟩ := flowControl_eq { qos with stopped := st₁ } (qos.heap a).ackMqIdx e
    have hset₂ : (qos.heap a).ackMqIdx < qos.numTxQueues → st₂ (qos.heap a).ackMqIdx = !e := by
      intro hlt
      have := flowControl_stopped { qos with stopped := st₁ } hlt e
      rwa [h₂] at this
    rw [h₂]
    obtain ⟨s, t, hs⟩ := hsend { qos with stopped := st₂ }
    refine ⟨st₂, s, t, hs, ?_, ?_, ?_, ?_⟩
    · intro j hj hj'
      rw [hframe₂ j hj']
      exact hframe₁ j hj
    · intro j hj
      have hb := flowControl_beyond { qos with stopped := st₁ } (qos.heap a).ackMqIdx e hj
      rw [h₂] at hb
      exact hb.trans (hbeyond₁ j hj)
    · intro hlt hne
      rw [hframe₂ _ hne]
      show st₁ (qos.heap a).mqIdx = true ↔ _
      rw [hset₁ hlt]
      exact hdata
    · intro hlt _ hst
      rw [hset₂ hlt] at hst
      exact hdata.mp hst
  · rw [if_neg hack]
    obtain ⟨s, t, hs⟩ := hsend { qos with stopped := st₁ }
    refine ⟨st₁, s, t, hs, fun j hj _ => hframe₁ j hj, hbeyond₁, ?_, ?_⟩
    · intro hlt _
      rw [hset₁ hlt]
      exact hdata
    · -- the ACK queue was left out, so the data queue is being disabled
      intro _ hinv _
      by_contra hgrant
      exact hack ⟨hinv, by simp [he, hgrant]⟩

/-! ### Rewriting the grant of a bearer -/

/-- The fields of a bearer that only the table operations write. -/
def SameKeys (b b' : RmnetBearerMap) : Prop :=
  b'.bearerId = b.bearerId ∧ b'.flowRef = b.flowRef ∧ b'.mqIdx = b.mqIdx ∧ b'.ackMqIdx = b.ackMqIdx

/-- **What a flow-control event does to the device.**  It writes one bearer, keeping its keys, and if
that takes the grant to or from zero the queues of the bearer are set by `dfc_bearer_flow_ctl`. -/
structure Touched (qos qos' : QosInfo) (a : Addr) : Prop where
  flowHead : qos'.flowHead = qos.flowHead
  bearerHead : qos'.bearerHead = qos.bearerHead
  mq : qos'.mq = qos.mq
  removed : qos'.removedBearer = qos.removedBearer
  freed : qos'.freed = qos.freed
  nextAddr : qos'.nextAddr = qos.nextAddr
  numTxQueues : qos'.numTxQueues = qos.numTxQueues
  other : ∀ b, b ≠ a → qos'.heap b = qos.heap b
  keys : SameKeys (qos.heap a) (qos'.heap a)
  frame : ∀ j, j ≠ (qos.heap a).mqIdx → j ≠ (qos.heap a).ackMqIdx → qos'.stopped j = qos.stopped j
  beyond : ∀ j, qos.numTxQueues ≤ j → qos'.stopped j = qos.stopped j
  queues : (((qos'.heap a).grantSize = 0 ↔ (qos.heap a).grantSize = 0) ∧ qos'.stopped = qos.stopped) ∨
    ((qos.heap a).mqIdx < qos.numTxQueues → (qos.heap a).mqIdx ≠ (qos.heap a).ackMqIdx →
      (qos'.stopped (qos.heap a).mqIdx = true ↔ (qos'.heap a).grantSize = 0)) ∧
    ((qos.heap a).ackMqIdx < qos.numTxQueues → (qos.heap a).ackMqIdx ≠ invalidMq →
      qos'.stopped (qos.heap a).ackMqIdx = true → (qos'.heap a).grantSize = 0)

theorem Touched.refl (qos : QosInfo) (a : Addr) : Touched qos qos a :=
  ⟨rfl, rfl, rfl, rfl, rfl, rfl, rfl, fun _ _ => rfl, ⟨rfl, rfl, rfl, rfl⟩, fun _ _ _ => rfl,
    fun _ _ => rfl, .inl ⟨Iff.rfl, rfl⟩⟩

/-- A write that keeps the grant on its side of zero needs no queue control. -/
theorem Touched.modify {qos : QosInfo} {a : Addr} {f : RmnetBearerMap → RmnetBearerMap}
    (hk : SameKeys (qos.heap a) (f (qos.heap a)))
    (hg : (f (qos.heap a)).grantSize = 0 ↔ (qos.heap a).grantSize = 0) :
    Touched qos (qos.modifyBearer a f) a where
  flowHead := rfl
  bearerHead := rfl
  mq := rfl
  removed := rfl
  freed := rfl
  nextAddr := rfl
  numTxQueues := rfl
  other := fun _ hb => modifyBearer_heap_ne qos hb f
  keys := by rw [modifyBearer_heap_self]; exact hk
  frame := fun _ _ _ => rfl
  beyond := fun _ _ => rfl
  queues := .inl ⟨by rw [modifyBearer_heap_self]; exact hg, rfl⟩

/-- Any write of the grant followed by queue control, with messages sent in between. -/
theorem Touched.sent_flowCtl (cfg : DfcConfig) {qos : QosInfo} {a : Addr}
    {f : RmnetBearerMap → RmnetBearerMap} (s : List DfcMsg) (t : ℕ)
    (hk : SameKeys (qos.heap a) (f (qos.heap a))) :
    Touched qos (dfcBearerFlowCtl cfg { qos.modifyBearer a f with sent := s, tranNum := t } a) a := by
  obtain ⟨hid, href, hidx, hack⟩ := hk
  obtain ⟨st, s', t', heq, hframe, hbeyond, hdata, hackq⟩ :=
    dfcBearerFlowCtl_eq cfg { qos.modifyBearer a f with sent := s, tranNum := t } a
  have hheap : (qos.modifyBearer a f).heap a = f (qos.heap a) := modifyBearer_heap_self qos a f
  simp only [hheap, hidx, hack] at hframe hdata hackq
  rw [heq]
  refine ⟨rfl, rfl, rfl, rfl, rfl, rfl, rfl, fun b hb => modifyBearer_heap_ne qos hb f, ?_, ?_, ?_,
    .inr ⟨?_, ?_⟩⟩
  · show SameKeys _ ((qos.modifyBearer a f).heap a)
    rw [hheap]
    exact ⟨hid, href, hidx, hack⟩
  · exact hframe
  · exact hbeyond
  · intro hlt hne
    show st _ = true ↔ ((qos.modifyBearer a f).heap a).grantSize = 0
    rw [hheap]
    exact hdata hlt hne
  · intro hlt hinv
    show st _ = true → ((qos.modifyBearer a f).heap a).grantSize = 0
    rw [hheap]
    exact hackq hlt hinv

theorem Touched.flowCtl (cfg : DfcConfig) {qos : QosInfo} {a : Addr}
    {f : RmnetBearerMap → RmnetBearerMap} (hk : SameKeys (qos.heap a) (f (qos.heap a))) :
    Touched qos (dfcBearerFlowCtl cfg (qos.modifyBearer a f) a) a :=
  Touched.sent_flowCtl cfg qos.sent qos.tranNum hk

theorem Touched.trans {qos qos₁ qos₂ : QosInfo} {a : Addr} (h : Touched qos qos₁ a)
    (h' : Touched qos₁ qos₂ a) : Touched qos qos₂ a where
  flowHead := h'.flowHead.trans h.flowHead
  bearerHead := h'.bearerHead.trans h.bearerHead
  mq := h'.mq.trans h.mq
  removed := h'.removed.trans h.removed
  freed := h'.freed.trans h.freed
  nextAddr := h'.nextAddr.trans h.nextAddr
  numTxQueues := h'.numTxQueues.trans h.numTxQueues
  other := fun b hb => (h'.other b hb).trans (h.other b hb)
  keys := ⟨h'.keys.1.trans h.keys.1, h'.keys.2.1.trans h.keys.2.1,
    h'.keys.2.2.1.trans h.keys.2.2.1, h'.keys.2.2.2.trans h.keys.2.2.2⟩
  frame := by
    intro j hj hj'
    rw [h'.frame j (by rw [h.keys.2.2.1]; exact hj) (by rw [h.keys.2.2.2]; exact hj')]
    exact h.frame j hj hj'
  beyond := by
    intro j hj
    rw [h'.beyond j (by rw [h.numTxQueues]; exact hj)]
    exact h.beyond j hj
  queues := by
    rcases h'.queues with ⟨hg', hst'⟩ | hset'
    · rcases h.queues with ⟨hg, hst⟩ | hset
      · exact .inl ⟨hg'.trans hg, hst'.trans hst⟩
      · rw [hst', hg']
        exact .inr hset
    · rw [h.keys.2.2.1, h.keys.2.2.2, h.numTxQueues] at hset'
      exact .inr hset'

/-- Flow control reads the keys of the bearers, and writes none of them. -/
theorem Touched.keys_eq {qos qos' : QosInfo} {a : Addr} (ht : Touched qos qos' a) (b : Addr) :
    SameKeys (qos.heap b) (qos'.heap b) := by
  by_cases hb : b = a
  · rw [hb]
    exact ht.keys
  · rw [ht.other b hb]
    exact ⟨rfl, rfl, rfl, rfl⟩

theorem Touched.refs {qos qos' : QosInfo} {a : Addr} (ht : Touched qos qos' a) : qos'.refs = qos.refs := by
  rw [QosInfo.refs, ht.flowHead]
  rfl

/-- One event on one bearer keeps the tables. -/
theorem Touched.table {qos qos' : QosInfo} {a : Addr} (ht : Touched qos qos' a) (h : TableInv qos) :
    TableInv qos' where
  flows := by
    rw [ht.flowHead]
    exact h.flows
  bearer := by
    intro f hf
    rw [ht.flowHead] at hf
    obtain ⟨b, hb, hid⟩ := h.bearer f hf
    exact ⟨b, hb, (ht.keys_eq b).1.trans hid⟩
  inv := by
    rw [ht.refs]
    exact h.inv.congr ht.bearerHead ht.mq ht.removed ht.freed ht.nextAddr
      fun b _ => ⟨(ht.keys_eq b).1, (ht.keys_eq b).2.1⟩
  removed := by
    rw [ht.removed]
    exact h.removed

/-- **One event on one bearer keeps the invariant.**  The touched bearer is either idle, and then none of
its queue indices is one of the thirty, or bound, and then its two queues are no other bearer's. -/
theorem Touched.inv (hm : QueueMap m ids) {qos qos' : QosInfo} {a : Addr} (ht : Touched qos qos' a)
    (h : QosInv m ids qos) (ha : a ∈ qos.bearerHead) : QosInv m ids qos' := by
  have hkeys := ht.keys_eq
  have hrefs := ht.refs
  have hbound : ∀ b, Bound m ids qos b → Bound m ids qos' b := by
    intro b hb
    have hrb := hm.range _ hb.id_mem
    obtain ⟨hid, -, hidx, hack⟩ := hkeys b
    by_cases hba : b = a
    · subst hba
      rcases ht.queues with ⟨hg, hst⟩ | hset
      · exact ⟨by rw [hid]; exact hb.id_mem, by rw [hid, ht.mq]; exact hb.mq,
          by rw [hid, hidx]; exact hb.mqIdx, by rw [hid, hack]; exact hb.ackMqIdx,
          by rw [hid, hst, hg]; exact hb.data, by rw [hid, hst, hg]; exact hb.ack⟩
      · have hq := h.queue.queues
        rw [hb.mqIdx, hb.ackMqIdx] at hset
        simp only [ackMqOffset, maxMqNum, invalidMq] at hset
        have hdata := hset.1 (by omega) (by omega)
        have hackq := hset.2 (by omega) (by omega)
        exact ⟨by rw [hid]; exact hb.id_mem, by rw [hid, ht.mq]; exact hb.mq,
          by rw [hid, hidx]; exact hb.mqIdx, by rw [hid, hack]; exact hb.ackMqIdx,
          by rw [hid]; exact hdata, by rw [hid]; exact hackq⟩
    · have hframe : ∀ j, j = m (qos.heap b).bearerId ∨ j = m (qos.heap b).bearerId + ackMqOffset →
          qos'.stopped j = qos.stopped j := by
        intro j hj
        rcases h.queue.bearer a ha with ⟨hbd, -⟩ | hidle
        · have hne := Bound.queues_ne hm hbd hb hba
          apply ht.frame
          · rw [hbd.mqIdx]
            rcases hj with rfl | rfl
            · exact hne.1
            · exact hne.2.2.1
          · rw [hbd.ackMqIdx]
            rcases hj with rfl | rfl
            · exact hne.2.1
            · exact hne.2.2.2
        · simp only [ackMqOffset, maxMqNum] at hj
          apply ht.frame
          · rw [hidle.1, invalidMq]
            omega
          · rw [hidle.2, invalidMq]
            omega
      refine hb.congr hid (by rw [ht.mq]) hidx hack (by rw [ht.other b hba]) ?_ ?_
      · exact hframe _ (.inl rfl)
      · exact hframe _ (.inr rfl)
  refine ⟨ht.table h.table, ⟨?_, ?_, ?_⟩, ?_, ?_⟩
  · rw [ht.numTxQueues]
    exact h.queue.queues
  · intro b hb
    rw [ht.bearerHead] at hb
    rw [hrefs]
    rcases h.queue.bearer b hb with ⟨hbd, hmem⟩ | hidle
    · exact .inl ⟨hbound b hbd, hmem⟩
    · exact .inr ⟨(hkeys b).2.2.1.trans hidle.1, (hkeys b).2.2.2.trans hidle.2⟩
  · intro i b hi
    rw [ht.mq] at hi
    obtain ⟨h₁, h₂⟩ := h.queue.owner i b hi
    exact ⟨by rw [(hkeys b).1]; exact h₁, (hkeys b).2.2.1.trans h₂⟩
  · rw [ht.flowHead]
    exact h.flowMq
  · rw [hrefs]
    exact fun b hb => hbound b (h.bound b hb)

/-! ### The flow-control events -/

theorem watchdogAdd_keys (b : RmnetBearerMap) :
    SameKeys b (qmiRmnetWatchdogAdd b) ∧ (qmiRmnetWatchdogAdd b).grantSize = b.grantSize := by
  unfold qmiRmnetWatchdogAdd SameKeys
  simp only
  split <;> exact ⟨⟨rfl, rfl, rfl, rfl⟩, rfl⟩

theorem watchdogRemove_keys (b : RmnetBearerMap) :
    SameKeys b (qmiRmnetWatchdogRemove b) ∧ (qmiRmnetWatchdogRemove b).grantSize = b.grantSize := by
  unfold qmiRmnetWatchdogRemove SameKeys
  simp only
  split <;> exact ⟨⟨rfl, rfl, rfl, rfl⟩, rfl⟩

theorem watchdogFn_touched (cfg : DfcConfig) (qos : QosInfo) (a : Addr) :
    Touched qos (qmiRmnetWatchdogFn cfg qos a) a := by
  unfold qmiRmnetWatchdogFn
  simp only
  refine Touched.trans ?_ (Touched.modify ⟨rfl, rfl, rfl, rfl⟩ Iff.rfl)
  split
  · exact Touched.refl qos a
  · set q₁ := qos.modifyBearer a fun b =>
      { b with watchdogExpireCnt := u32 (b.watchdogExpireCnt + 1), bytesInFlight := 0 } with hq₁
    have h₁ : Touched qos q₁ a := Touched.modify ⟨rfl, rfl, rfl, rfl⟩ Iff.rfl
    refine h₁.trans ?_
    split
    · exact Touched.flowCtl cfg ⟨rfl, rfl, rfl, rfl⟩
    · exact Touched.modify ⟨rfl, rfl, rfl, rfl⟩ Iff.rfl

theorem fcMapGrant_keys (cfg : DfcConfig) (ackReq ancillary : ℕ) (fcInfo : FlowStatusInfo)
    (isQuery : Bool) (g : ℕ) (b : RmnetBearerMap) :
    SameKeys b (fcMapGrant cfg ackReq ancillary fcInfo isQuery g b) ∧
      (fcMapGrant cfg ackReq ancillary fcInfo isQuery g b).grantSize = g := by
  unfold fcMapGrant
  simp only
  split
  · obtain ⟨⟨h₁, h₂, h₃, h₄⟩, hg⟩ := watchdogAdd_keys { b with grantSize := g, grantThresh := g }
    exact ⟨⟨h₁, h₂, h₃, h₄⟩, hg⟩
  · obtain ⟨⟨h₁, h₂, h₃, h₄⟩, hg⟩ :=
      watchdogRemove_keys { b with grantSize := g, grantThresh := qmiRmnetGrantPer cfg g }
    exact ⟨⟨h₁, h₂, h₃, h₄⟩, hg⟩

theorem adjustGrant_keys (b : RmnetBearerMap) (fcInfo : FlowStatusInfo) :
    SameKeys b (dfcAdjustGrant b fcInfo).1 ∧ (dfcAdjustGrant b fcInfo).1.grantSize = b.grantSize := by
  unfold dfcAdjustGrant
  split <;> exact ⟨⟨rfl, rfl, rfl, rfl⟩, rfl⟩

/-- Messages are no part of the tables. -/
theorem Touched.send {qos : QosInfo} (a : Addr) (s : List DfcMsg) (t : ℕ) :
    Touched qos { qos with sent := s, tranNum := t } a :=
  ⟨rfl, rfl, rfl, rfl, rfl, rfl, rfl, fun _ _ => rfl, ⟨rfl, rfl, rfl, rfl⟩, fun _ _ _ => rfl,
    fun _ _ => rfl, .inl ⟨Iff.rfl, rfl⟩⟩

theorem applyFcMap_touched (cfg : DfcConfig) (qos : QosInfo) (a : Addr) (ackReq ancillary : ℕ)
    (fcInfo : FlowStatusInfo) (isQuery : Bool) :
    Touched qos (applyFcMap cfg qos a ackReq ancillary fcInfo isQuery) a := by
  unfold applyFcMap
  set p : RmnetBearerMap × ℕ :=
    if cfg.dfcQmap = true ∧ isQuery = true then dfcAdjustGrant (qos.heap a) fcInfo
    else ({ qos.heap a with bytesInFlight := 0 }, fcInfo.numBytes) with hp
  have hitm : SameKeys (qos.heap a) p.1 ∧ p.1.grantSize = (qos.heap a).grantSize := by
    rw [hp]
    split
    · exact adjustGrant_keys _ _
    · exact ⟨⟨rfl, rfl, rfl, rfl⟩, rfl⟩
  obtain ⟨itm, g⟩ := p
  simp only at hitm ⊢
  set q₁ := qos.modifyBearer a fun _ => itm with hq₁
  have h₁ : Touched qos q₁ a := Touched.modify hitm.1 (by rw [hitm.2])
  have hgrant₁ : (q₁.heap a).grantSize = itm.grantSize := by rw [hq₁, modifyBearer_heap_self]
  set q₂ := if cfg.dfcQmap = true ∧ itm.ackReq ≠ 0 ∧ ackReq = 0 ∧ itm.grantSize ≠ 0 then
      dfcQmapSendAck q₁ itm.bearerId itm.seq dfcAckTypeDisable else q₁ with hq₂
  obtain ⟨s, hs⟩ : ∃ s, q₂ = { q₁ with sent := s } := by
    rw [hq₂]
    split
    · exact dfcQmapSendAck_eq q₁ _ _ _
    · exact ⟨_, rfl⟩
  have h₂ : Touched qos q₂ a := h₁.trans (hs ▸ Touched.send a s q₁.tranNum)
  have hgrant₂ : (q₂.heap a).grantSize = itm.grantSize := by rw [hs]; exact hgrant₁
  obtain ⟨hk, hg⟩ := fcMapGrant_keys cfg ackReq ancillary fcInfo isQuery g (q₂.heap a)
  refine h₂.trans ?_
  split
  · exact Touched.flowCtl cfg hk
  · -- the grant stays on its side of zero
    rename_i hact
    refine Touched.modify hk ?_
    rw [hg, hgrant₂]
    omega

theorem updateFcMapBearer_touched (cfg : DfcConfig) (qos : QosInfo) (a : Addr) (ackReq ancillary : ℕ)
    (fcInfo : FlowStatusInfo) (isQuery : Bool) :
    Touched qos (updateFcMapBearer cfg qos a ackReq ancillary fcInfo isQuery) a := by
  unfold updateFcMapBearer
  simp only
  set q₁ := if dfcIsRatSwitch ancillary = true then
      qos.modifyBearer a fun b => { b with ratSwitch := fcInfo.numBytes = 0 } else qos with hq₁
  have h₁ : Touched qos q₁ a := by
    rw [hq₁]
    split
    · exact Touched.modify ⟨rfl, rfl, rfl, rfl⟩ Iff.rfl
    · exact Touched.refl qos a
  split
  · exact h₁
  · split
    · exact h₁
    · exact h₁.trans (applyFcMap_touched cfg q₁ a ackReq ancillary fcInfo isQuery)

theorem updateTxLinkStatus_touched (cfg : DfcConfig) (qos : QosInfo) (txStatus : Bool) {bearerId : ℕ}
    {a : Addr} (ha : qmiRmnetGetBearerMap qos bearerId = some a) :
    Touched qos (dfcUpdateTxLinkStatus cfg qos txStatus bearerId) a := by
  unfold dfcUpdateTxLinkStatus
  rw [ha]
  simp only
  split
  · exact Touched.refl qos a
  · refine Touched.trans ?_ (Touched.modify ⟨rfl, rfl, rfl, rfl⟩ Iff.rfl)
    split
    · obtain ⟨hk, -⟩ := watchdogRemove_keys
        { qos.heap a with grantSize := 0, tcpBidir := false, bytesInFlight := 0 }
      exact Touched.flowCtl cfg ⟨hk.1, hk.2⟩
    · split
      · exact Touched.flowCtl cfg ⟨rfl, rfl, rfl, rfl⟩
      · exact Touched.refl qos a

theorem burstCheck_touched (cfg : DfcConfig) (qos : QosInfo) (ipType : ℤ) (mark len : ℕ) {a : Addr}
    (ha : (qmiRmnetGetFlowMap qos mark ipType).bind RmnetFlowMap.bearer = some a) :
    Touched qos (dfcQmiBurstCheck cfg qos ipType mark len) a := by
  unfold dfcQmiBurstCheck
  rw [ha]
  simp only
  set q₁ := qos.modifyBearer a fun b => { b with bytesInFlight := u32 (b.bytesInFlight + len) } with hq₁
  have h₁ : Touched qos q₁ a := Touched.modify ⟨rfl, rfl, rfl, rfl⟩ Iff.rfl
  by_cases hz : (q₁.heap a).grantSize = 0
  · rw [if_pos hz]
    exact h₁
  · rw [if_neg hz]
    refine h₁.trans ?_
    set f : RmnetBearerMap → RmnetBearerMap :=
      fun b => { b with grantSize := if b.grantSize ≤ len then 0 else b.grantSize - len } with hf
    have hk : SameKeys (q₁.heap a) (f (q₁.heap a)) := ⟨rfl, rfl, rfl, rfl⟩
    set q₂ := q₁.modifyBearer a f with hq₂
    obtain ⟨s, t, hs⟩ : ∃ s t,
        (if (q₂.heap a).grantThresh < (q₁.heap a).grantSize ∧
            (q₂.heap a).grantSize ≤ (q₂.heap a).grantThresh then
          dfcSendAck cfg q₂ (q₂.heap a).bearerId (q₂.heap a).seq q₂.muxId dfcAckTypeThreshold
        else q₂) = { q₂ with sent := s, tranNum := t } := by
      split
      · exact dfcSendAck_eq cfg q₂ _ _ _ _
      · exact ⟨_, _, rfl⟩
    rw [hs]
    split
    · exact Touched.sent_flowCtl cfg s t hk
    · rename_i hne
      refine (Touched.modify hk ?_).trans (Touched.send a s t)
      rw [hq₂, modifyBearer_heap_self] at hne
      exact ⟨fun h => absurd h hne, fun h => absurd h hz⟩

theorem enableFlowsOf_touched (cfg : DfcConfig) (qos : QosInfo) (a : Addr) :
    Touched qos (enableFlowsOf cfg qos a) a := by
  unfold enableFlowsOf
  simp only
  set q₁ := qos.modifyBearer a fun b => qmiRmnetWatchdogRemove
    { b with seq := 0, ackReq := 0, bytesInFlight := 0, tcpBidir := false, ratSwitch := false } with hq₁
  have h₁ : Touched qos q₁ a := by
    obtain ⟨hk, hg⟩ := watchdogRemove_keys { qos.heap a with
      seq := 0, ackReq := 0, bytesInFlight := 0, tcpBidir := false, ratSwitch := false }
    exact Touched.modify hk (by rw [hg])
  split
  · exact h₁
  · refine h₁.trans ?_
    split
    · exact Touched.flowCtl cfg ⟨rfl, rfl, rfl, rfl⟩
    · rename_i hne
      refine Touched.modify ⟨rfl, rfl, rfl, rfl⟩ ?_
      simp only [defaultGrant]
      exact ⟨fun h => absurd h (by omega), fun h => absurd h hne⟩

/-- A loop over the bearer list, one event a bearer. -/
theorem foldl_touched_inv (hm : QueueMap m ids) (step : QosInfo → Addr → QosInfo)
    (hstep : ∀ qos a, Touched qos (step qos a) a) (l : List Addr) :
    ∀ qos, QosInv m ids qos → (∀ a ∈ l, a ∈ qos.bearerHead) → QosInv m ids (l.foldl step qos) := by
  induction l with
  | nil =>
    intro qos h _
    exact h
  | cons a l ih =>
    intro qos h hl
    rw [List.foldl_cons]
    refine ih _ ((hstep qos a).inv hm h (hl a (by simp))) ?_
    intro b hb
    rw [(hstep qos a).bearerHead]
    exact hl b (by simp [hb])

/-! ### The bearer operations of an activation -/

theorem QueueInv.congr {qos : QosInfo} {refs : List Addr} (h : QueueInv m ids qos refs) (qos' : QosInfo)
    (hnum : qos'.numTxQueues = qos.numTxQueues) (hhead : qos'.bearerHead = qos.bearerHead)
    (hheap : qos'.heap = qos.heap) (hmq : qos'.mq = qos.mq) (hst : qos'.stopped = qos.stopped) :
    QueueInv m ids qos' refs ∧ ∀ b, Bound m ids qos b → Bound m ids qos' b := by
  have hbound : ∀ b, Bound m ids qos b → Bound m ids qos' b := fun b hb =>
    hb.congr (by rw [hheap]) (by rw [hmq]) (by rw [hheap]) (by rw [hheap]) (by rw [hheap])
      (by rw [hst]) (by rw [hst])
  refine ⟨⟨by rw [hnum]; exact h.queues, ?_, by rw [hheap, hmq]; exact h.owner⟩, hbound⟩
  intro a ha
  rw [hhead] at ha
  rw [hheap]
  exact (h.bearer a ha).imp (fun hb => ⟨hbound a hb.1, hb.2⟩) id

theorem QueueInv.of_mem {qos : QosInfo} {refs refs' : List Addr} (h : QueueInv m ids qos refs)
    (hmem : ∀ a, a ∈ refs → a ∈ refs') : QueueInv m ids qos refs' :=
  ⟨h.queues, fun a ha => (h.bearer a ha).imp (fun hb => ⟨hb.1, hmem a hb.2⟩) id, h.owner⟩

/-- The owner of an entry of the queue table is bound. -/
theorem QueueInv.bound_of_mq {qos : QosInfo} {refs : List Addr}
    (h : QueueInv m ids qos refs) (hb : BearerInv qos refs) {i : ℕ} {a : Addr} (hi : qos.mq i = some a) :
    Bound m ids qos a := by
  obtain ⟨hmem, hlt⟩ := hb.mq_mem i a hi
  rcases h.bearer a hmem with ⟨hbd, -⟩ | hidle
  · exact hbd
  · have := (h.owner i a hi).2
    rw [hidle.1, invalidMq] at this
    rw [maxMqNum] at hlt
    omega

/-- A change of the reference count alone. -/
theorem QueueInv.modify_ref {qos : QosInfo} {refs : List Addr} (h : QueueInv m ids qos refs) (a : Addr)
    (g : ℤ → ℤ) :
    let qos' := qos.modifyBearer a fun b => { b with flowRef := g b.flowRef }
    QueueInv m ids qos' refs ∧ ∀ b, Bound m ids qos b → Bound m ids qos' b := by
  intro qos'
  have hfield : ∀ {α : Type} (field : RmnetBearerMap → α),
      (∀ x : RmnetBearerMap, field { x with flowRef := g x.flowRef } = field x) →
      ∀ b, field (qos'.heap b) = field (qos.heap b) := by
    intro α field hf b
    exact modifyBearer_field qos a b _ field (hf _)
  have hid := hfield RmnetBearerMap.bearerId fun _ => rfl
  have hidx := hfield RmnetBearerMap.mqIdx fun _ => rfl
  have hack := hfield RmnetBearerMap.ackMqIdx fun _ => rfl
  have hgrant := hfield RmnetBearerMap.grantSize fun _ => rfl
  have hbound : ∀ b, Bound m ids qos b → Bound m ids qos' b := fun b hb =>
    hb.congr (hid b) rfl (hidx b) (hack b) (hgrant b) rfl rfl
  refine ⟨⟨h.queues, ?_, ?_⟩, hbound⟩
  · intro b hb
    refine (h.bearer b hb).imp (fun hbd => ⟨hbound b hbd.1, hbd.2⟩) fun hidle => ?_
    exact ⟨(hidx b).trans hidle.1, (hack b).trans hidle.2⟩
  · intro i b hi
    rw [hid b, hidx b]
    exact h.owner i b hi

theorem bearerGet_queues (cfg : DfcConfig) {qos qos' : QosInfo} {refs : List Addr} {a : Addr} {id : ℕ}
    (hb : BearerInv qos refs) (h : QueueInv m ids qos refs)
    (hget : qmiRmnetBearerGet cfg true qos id = (qos', some a)) :
    QueueInv m ids qos' (a :: refs) ∧ ∀ b ∈ qos.bearerHead, Bound m ids qos b → Bound m ids qos' b := by
  rcases bearerGet_cases cfg qos id with ⟨c, -, -, hc⟩ | ⟨-, hc⟩
  · rw [hc] at hget
    obtain ⟨rfl, hca⟩ := Prod.mk.inj hget
    obtain ⟨hq, hbound⟩ := h.modify_ref c (· + 1)
    exact ⟨hq.of_mem fun b hb => List.mem_cons_of_mem _ hb, fun b _ => hbound b⟩
  · rw [hc] at hget
    obtain ⟨rfl, hca⟩ := Prod.mk.inj hget
    have hheap : ∀ b ∈ qos.bearerHead, (qos.linkBearer (newBearer cfg id)).heap b = qos.heap b :=
      fun b hmem => linkBearer_heap_old qos _ (Nat.ne_of_lt (hb.lt hmem))
    have hbound : ∀ b ∈ qos.bearerHead, Bound m ids qos b →
        Bound m ids (qos.linkBearer (newBearer cfg id)) b := fun b hmem hbd =>
      hbd.congr (by rw [hheap b hmem]) rfl (by rw [hheap b hmem]) (by rw [hheap b hmem])
        (by rw [hheap b hmem]) rfl rfl
    refine ⟨⟨h.queues, ?_, ?_⟩, hbound⟩
    · intro b hmem
      rcases List.mem_cons.mp hmem with rfl | hmem
      · right
        rw [linkBearer_heap_new]
        exact ⟨rfl, rfl⟩
      · rw [hheap b hmem]
        exact (h.bearer b hmem).imp (fun hbd => ⟨hbound b hmem hbd.1, List.mem_cons_of_mem _ hbd.2⟩) (·)
    · intro i b hi
      rw [hheap b (hb.mq_mem i b hi).1]
      exact h.owner i b hi

/-- Removing a bearer clears its own entry and may wake its own queues. -/
theorem bearerPut_queues (hm : QueueMap m ids) (cfg : DfcConfig) {qos : QosInfo} {refs : List Addr}
    {a : Addr} (reset : Bool) (hb : BearerInv qos (a :: refs)) (h : QueueInv m ids qos (a :: refs))
    (hrem : qos.removedBearer = none) :
    let qos' := qmiRmnetBearerPut cfg qos (some a) reset
    QueueInv m ids qos' refs ∧ ∀ b ∈ qos'.bearerHead, Bound m ids qos b → Bound m ids qos' b := by
  have hput := (bearerPut_inv cfg reset hb hrem).2
  simp only [qmiRmnetBearerPut] at hput ⊢
  set dec := qos.modifyBearer a fun b => { b with flowRef := b.flowRef - 1 } with hdec
  obtain ⟨hq, hbound⟩ := h.modify_ref a (· - 1)
  by_cases hz : (dec.heap a).flowRef = 0
  · rw [if_pos hz] at hput ⊢
    obtain ⟨st, heq, hst⟩ := unlinkBearer_eq cfg a reset dec
    rw [heq] at hput ⊢
    have hnd : qos.bearerHead.Nodup := hb.nodup
    have hne : ∀ b, b ∈ qos.bearerHead.erase a → b ≠ a := fun b hmem hba =>
      hnd.not_mem_erase (hba ▸ hmem)
    -- the queues of another bound bearer are not those of `a`
    have hkeep : ∀ b, b ≠ a → Bound m ids dec b → Bound m ids
        { dec with mq := fun i => if i < maxMqNum ∧ dec.mq i = some a then none else dec.mq i,
                   stopped := st, bearerHead := dec.bearerHead.erase a, removedBearer := some a } b := by
      intro b hba hbd
      have hframe : ∀ j, j = m (dec.heap b).bearerId ∨ j = m (dec.heap b).bearerId + ackMqOffset →
          st j = dec.stopped j := by
        intro j hj
        apply hst
        intro i hi
        have hba' : Bound m ids qos a := h.bound_of_mq hb hi
        have hbd' := hbound a hba'
        have hi' := (hq.owner i a hi).1
        have hqne := Bound.queues_ne hm hbd' hbd hba
        rw [hi']
        rcases hj with rfl | rfl
        · exact ⟨hqne.1, hqne.2.1⟩
        · exact ⟨hqne.2.2.1, hqne.2.2.2⟩
      refine hbd.congr rfl ?_ rfl rfl rfl (hframe _ (.inl rfl)) (hframe _ (.inr rfl))
      show (if _ ∧ dec.mq (m (dec.heap b).bearerId) = some a then none else _) = _
      rw [if_neg]
      rintro ⟨-, hmq⟩
      rw [hbd.mq, Option.some.injEq] at hmq
      exact hba hmq
    refine ⟨⟨h.queues, ?_, ?_⟩, ?_⟩
    · intro b hmem
      have hba := hne b hmem
      rcases hq.bearer b (List.mem_of_mem_erase hmem) with ⟨hbd, href⟩ | hidle
      · exact .inl ⟨hkeep b hba hbd, List.mem_of_ne_of_mem hba href⟩
      · exact .inr hidle
    · intro i b hi
      simp only at hi
      split at hi
      · cases hi
      · exact hq.owner i b hi
    · intro b hmem hbd
      exact hkeep b (hne b hmem) (hbound b hbd)
  · rw [if_neg hz] at hput ⊢
    refine ⟨⟨hq.queues, ?_, hq.owner⟩, fun b _ => hbound b⟩
    intro b hmem
    rcases hq.bearer b hmem with ⟨hbd, href⟩ | hidle
    · refine .inl ⟨hbd, ?_⟩
      rcases List.mem_cons.mp href with rfl | href
      · -- a reference of `b` is left
        have hcount := hput.flowRef b hmem
        rw [hcount] at hz
        exact List.count_pos_iff.mp (by omega)
      · exact href
    · exact .inr hidle

/-- **A free entry of the queue table, in SA mode.**  The bearer takes it and remembers the queue and its ACK
queue; both follow the grant. -/
theorem updateMq_free (cfg : DfcConfig) (hsa : cfg.dfcMode = dfcModeSa) (qos : QosInfo) (a : Addr) {i : ℕ}
    (hi : i ≠ defaultMqNum) (hmq : qos.mq i = none) :
    ∃ st, qmiRmnetUpdateMq cfg qos a i =
        { qos.modifyBearer a fun b => { b with mqIdx := i, ackMqIdx := i + ackMqOffset } with
          mq := Function.update qos.mq i (some a), stopped := st } ∧
      (∀ j, j ≠ i → j ≠ i + ackMqOffset → st j = qos.stopped j) ∧
      (∀ j, qos.numTxQueues ≤ j → st j = qos.stopped j) ∧
      (i < qos.numTxQueues → (st i = true ↔ (qos.heap a).grantSize = 0)) ∧
      (i + ackMqOffset < qos.numTxQueues → (st (i + ackMqOffset) = true ↔ (qos.heap a).grantSize = 0)) := by
  simp only [qmiRmnetUpdateMq, hsa, true_and, if_true]
  rw [if_neg hi, if_pos hmq]
  set q₁ : QosInfo := ({ qos with mq := Function.update qos.mq i (some a) } : QosInfo).modifyBearer a
    (fun b => { b with mqIdx := i, ackMqIdx := i + ackMqOffset }) with hq₁
  have hheap : q₁.heap a = { qos.heap a with mqIdx := i, ackMqIdx := i + ackMqOffset } :=
    modifyBearer_heap_self _ a _
  set e : Bool := decide (0 < (q₁.heap a).grantSize) with he
  have hgrant : (!e) = true ↔ (qos.heap a).grantSize = 0 := by
    rw [he, hheap]
    simp
  obtain ⟨st₁, h₁, hframe₁⟩ := flowControl_eq q₁ i e
  have hset₁ : i < qos.numTxQueues → st₁ i = !e := by
    intro hlt
    have hst := flowControl_stopped q₁ (i := i) hlt e
    rwa [h₁] at hst
  have hbeyond₁ : ∀ j, qos.numTxQueues ≤ j → st₁ j = qos.stopped j := by
    intro j hj
    have hst := flowControl_beyond q₁ i e (j := j) hj
    rwa [h₁] at hst
  rw [h₁]
  have hack : (({ q₁ with stopped := st₁ } : QosInfo).heap a).ackMqIdx = i + ackMqOffset := by
    show (q₁.heap a).ackMqIdx = _
    rw [hheap]
  obtain ⟨st₂, h₂, hframe₂⟩ := flowControl_eq { q₁ with stopped := st₁ } (i + ackMqOffset) e
  rw [hack]
  have hne : i ≠ i + ackMqOffset := by
    simp only [ackMqOffset, maxMqNum]
    omega
  refine ⟨st₂, h₂, fun j hj hj' => (hframe₂ j hj').trans (hframe₁ j hj), fun j hj => ?_, fun hlt => ?_,
    fun hlt => ?_⟩
  · have hst := flowControl_beyond { q₁ with stopped := st₁ } (i + ackMqOffset) e (j := j) hj
    rw [h₂] at hst
    exact hst.trans (hbeyond₁ j hj)
  · rw [hframe₂ i hne]
    show st₁ i = true ↔ _
    rw [hset₁ hlt]
    exact hgrant
  · have hst := flowControl_stopped { q₁ with stopped := st₁ } (i := i + ackMqOffset) hlt e
    rw [h₂] at hst
    have hset₂ : st₂ (i + ackMqOffset) = !e := hst
    rw [hset₂]
    exact hgrant

/-- An entry that is taken is left alone. -/
theorem updateMq_taken (cfg : DfcConfig) (hsa : cfg.dfcMode = dfcModeSa) (qos : QosInfo) (a : Addr) {i : ℕ}
    {c : Addr} (hmq : qos.mq i = some c) : qmiRmnetUpdateMq cfg qos a i = qos := by
  simp only [qmiRmnetUpdateMq, hsa, true_and, hmq, reduceCtorEq, if_false, ite_self]

/-- **Binding a bearer to its queue.**  A free entry is taken and both queues follow the grant; an entry
that is taken is the bearer's own. -/
theorem updateMq_bound (hm : QueueMap m ids) (cfg : DfcConfig) (hsa : cfg.dfcMode = dfcModeSa)
    {qos : QosInfo} {refs : List Addr} {a : Addr} (hb : BearerInv qos refs) (h : QueueInv m ids qos refs)
    (href : a ∈ refs) (hid : (qos.heap a).bearerId ∈ ids) :
    let qos' := qmiRmnetUpdateMq cfg qos a (m (qos.heap a).bearerId)
    QueueInv m ids qos' refs ∧ Bound m ids qos' a ∧ ∀ b, Bound m ids qos b → Bound m ids qos' b := by
  set i := m (qos.heap a).bearerId with hi
  have hr := hm.range _ hid
  rw [← hi] at hr
  have hamem := hb.refs_mem a href
  have hnum := h.queues
  intro qos'
  cases hmq : qos.mq i with
  | some b =>
    have hsame : qos' = qos := updateMq_taken cfg hsa qos a hmq
    have hbd := h.bound_of_mq hb hmq
    have hib := (h.owner i b hmq).1
    have hids : (qos.heap b).bearerId = (qos.heap a).bearerId := hm.inj hbd.id_mem hid (by rw [← hib, hi])
    have hba : b = a := hb.id_inj (hb.mq_mem i b hmq).1 hamem hids
    rw [hsame]
    exact ⟨h, hba ▸ hbd, fun _ hc => hc⟩
  | none =>
    obtain ⟨st, hup, hframe, -, hdata, hack⟩ := updateMq_free cfg hsa qos a
      (by rw [defaultMqNum]; omega) hmq
    set q₁ := qos.modifyBearer a fun b => { b with mqIdx := i, ackMqIdx := i + ackMqOffset } with hq₁
    have hheap : q₁.heap a = { qos.heap a with mqIdx := i, ackMqIdx := i + ackMqOffset } :=
      modifyBearer_heap_self _ a _
    have hother : ∀ b, b ≠ a → q₁.heap b = qos.heap b := fun b hba => modifyBearer_heap_ne _ hba _
    have hqos' : qos' = { q₁ with mq := Function.update qos.mq i (some a), stopped := st } := hup
    rw [hqos']
    have hkeep : ∀ b, Bound m ids qos b →
        Bound m ids { q₁ with mq := Function.update qos.mq i (some a), stopped := st } b := by
      intro b hbd
      have hbi : m (qos.heap b).bearerId ≠ i := by
        intro heq
        have := hbd.mq
        rw [heq, hmq] at this
        cases this
      have hba : b ≠ a := fun hba => hbi (by rw [hba])
      have hrb := hm.range _ hbd.id_mem
      refine hbd.congr (by rw [← hother b hba]) ?_ (by rw [← hother b hba]) (by rw [← hother b hba])
        (by rw [← hother b hba]) ?_ ?_
      · show Function.update qos.mq i (some a) _ = _
        rw [Function.update_of_ne hbi]
      · exact hframe _ hbi (by simp only [ackMqOffset, maxMqNum]; omega)
      · exact hframe _ (by simp only [ackMqOffset, maxMqNum]; omega)
          (by simp only [ackMqOffset, maxMqNum]; omega)
    have hnew : Bound m ids { q₁ with mq := Function.update qos.mq i (some a), stopped := st } a := by
      refine ⟨?_, ?_, ?_, ?_, ?_, ?_⟩
      all_goals simp only [hheap, ← hi]
      · exact hid
      · exact Function.update_self i (some a) qos.mq
      · exact hdata (by omega)
      · exact (hack (by simp only [ackMqOffset, maxMqNum]; omega)).mp
    refine ⟨⟨hnum, ?_, ?_⟩, hnew, hkeep⟩
    · intro b hmem
      by_cases hba : b = a
      · subst hba
        exact .inl ⟨hnew, href⟩
      · refine (h.bearer b hmem).imp (fun hbd => ⟨hkeep b hbd.1, hbd.2⟩) fun hidle => ?_
        show Idle (q₁.heap b)
        rw [hother b hba]
        exact hidle
    · intro j b hj
      change Function.update qos.mq i (some a) j = some b at hj
      show j = m (q₁.heap b).bearerId ∧ (q₁.heap b).mqIdx = j
      by_cases hji : j = i
      · subst hji
        rw [Function.update_self, Option.some.injEq] at hj
        subst hj
        rw [hheap]
        exact ⟨hi, rfl⟩
      · rw [Function.update_of_ne hji] at hj
        obtain ⟨ho₁, ho₂⟩ := h.owner j b hj
        have hba : b ≠ a := fun hba => hji (by rw [ho₁, hba])
        rw [hother b hba]
        exact ⟨ho₁, ho₂⟩

theorem bearerClean_queues {qos : QosInfo} {refs : List Addr} (h : QueueInv m ids qos refs) :
    QueueInv m ids (qmiRmnetBearerClean qos) refs ∧
      ∀ b, Bound m ids qos b → Bound m ids (qmiRmnetBearerClean qos) b := by
  unfold qmiRmnetBearerClean
  split
  · exact ⟨h, fun _ hb => hb⟩
  · exact h.congr _ rfl rfl rfl rfl rfl

/-- Without references no bearer is bound, and all queues may be woken. -/
theorem wakeAll_queues {qos : QosInfo} (h : QueueInv m ids qos []) :
    QueueInv m ids (netifTxWakeAllQueues qos) [] := by
  refine ⟨h.queues, ?_, h.owner⟩
  intro a ha
  rcases h.bearer a ha with ⟨-, hmem⟩ | hidle
  · cases hmem
  · exact .inr hidle

theorem QosInv.of_queue {qos : QosInfo} (htable : TableInv qos)
    (h : QueueInv m ids qos qos.refs ∧ (∀ f ∈ qos.flowHead, f.mqIdx = m f.bearerId) ∧
      ∀ a ∈ qos.refs, Bound m ids qos a) : QosInv m ids qos :=
  ⟨htable, h.1, h.2.1, h.2.2⟩

theorem delFlow_qosInv (hm : QueueMap m ids) (cfg : DfcConfig) {qos : QosInfo} (h : QosInv m ids qos)
    (tcm : FlowReq) : QosInv m ids (qmiRmnetDelFlow cfg qos tcm) := by
  cases hg : qmiRmnetGetFlowMap qos tcm.flowId tcm.ipType with
  | none =>
    refine QosInv.of_queue (delFlow_inv cfg h.table tcm) ?_
    simp only [qmiRmnetDelFlow, hg]
    split
    · rename_i hnil
      have hrefs : qos.refs = [] := by rw [QosInfo.refs, hnil]; rfl
      have hq := h.queue
      rw [hrefs] at hq
      rw [bearerClean_of_none (show (netifTxWakeAllQueues qos).removedBearer = none from h.table.removed)]
      have hrefs' : (netifTxWakeAllQueues qos).refs = [] := hrefs
      refine ⟨?_, h.flowMq, ?_⟩
      · rw [hrefs']
        exact wakeAll_queues hq
      · rw [hrefs']
        simp
    · rw [bearerClean_of_none h.table.removed]
      exact ⟨h.queue, h.flowMq, h.bound⟩
  | some itm =>
    obtain ⟨htable, hflow⟩ := delFlow_found cfg h.table hg
    obtain ⟨hmem, hkey⟩ := getFlowMap_some hg
    obtain ⟨a, ha, -⟩ := h.table.bearer itm hmem
    have hperm := refs_perm_found hg ha
    have hb := h.table.inv.perm hperm
    obtain ⟨hput, hpb⟩ := bearerPut_inv cfg true hb h.table.removed
    obtain ⟨hq, hbound⟩ := bearerPut_queues hm cfg true hb
      (h.queue.of_mem fun b hb => hperm.mem_iff.mp hb) h.table.removed
    have hrefs : (qmiRmnetDelFlow cfg qos tcm).refs = qos.refsWithout (tcm.flowId, tcm.ipType) := by
      rw [QosInfo.refs, hflow]
      rfl
    refine QosInv.of_queue htable ?_
    rw [hrefs]
    set put := qmiRmnetBearerPut cfg qos (some a) true with hputdef
    set erased : QosInfo := { put with flowHead := put.flowHead.eraseP fun f => f.key = itm.key } with her
    have hdel : qmiRmnetDelFlow cfg qos tcm
        = qmiRmnetBearerClean (if erased.flowHead = [] then netifTxWakeAllQueues erased else erased) := by
      simp only [qmiRmnetDelFlow, hg, ha, ← hputdef, ← her]
    have herflow : erased.flowHead = qos.flowHead.eraseP fun f => f.key = (tcm.flowId, tcm.ipType) := by
      rw [her]
      simp only
      rw [hput.flowHead, hkey]
    obtain ⟨hq', hbound'⟩ := hq.congr erased rfl rfl rfl rfl rfl
    have hothers : ∀ b ∈ qos.refsWithout (tcm.flowId, tcm.ipType), Bound m ids erased b := by
      intro b hbmem
      have hbq := h.bound b (hperm.mem_iff.mpr (List.mem_cons_of_mem _ hbmem))
      exact hbound' b (hbound b (hpb.refs_mem b hbmem) hbq)
    have hmqs : ∀ f ∈ (qmiRmnetDelFlow cfg qos tcm).flowHead, f.mqIdx = m f.bearerId := by
      intro f hf
      rw [hflow] at hf
      exact h.flowMq f (List.mem_of_mem_eraseP hf)
    rw [hdel] at hmqs ⊢
    split at hmqs
    · rename_i hnil
      have hnone : qos.refsWithout (tcm.flowId, tcm.ipType) = [] := by
        rw [QosInfo.refsWithout, ← herflow, hnil]
        rfl
      rw [if_pos hnil, hnone]
      rw [hnone] at hq'
      exact ⟨(bearerClean_queues (wakeAll_queues hq')).1, hmqs, by simp⟩
    · rename_i hnil
      rw [if_neg hnil]
      obtain ⟨hqc, hbc⟩ := bearerClean_queues hq'
      exact ⟨hqc, hmqs, fun b hbmem => hbc b (hothers b hbmem)⟩

/-- The common end of a new and of a rebound flow, on the queue side. -/
theorem bindFlow_qosInv (hm : QueueMap m ids) (cfg : DfcConfig) (hsa : cfg.dfcMode = dfcModeSa)
    {qos : QosInfo} (others : List RmnetFlowMap) (itm : RmnetFlowMap) {a : Addr}
    (htable : TableInv (qmiRmnetBearerClean (qmiRmnetUpdateMq cfg qos a itm.mqIdx)))
    (hperm : qos.flowHead.Perm (itm :: others)) (hitm : itm.bearer = some a)
    (hid : (qos.heap a).bearerId = itm.bearerId) (hmem : itm.bearerId ∈ ids)
    (hmq : itm.mqIdx = m itm.bearerId) (hothers : ∀ f ∈ others, f.mqIdx = m f.bearerId)
    (hb : BearerInv qos (a :: others.filterMap RmnetFlowMap.bearer))
    (hq : QueueInv m ids qos (a :: others.filterMap RmnetFlowMap.bearer))
    (hbound : ∀ b ∈ others.filterMap RmnetFlowMap.bearer, Bound m ids qos b) :
    QosInv m ids (qmiRmnetBearerClean (qmiRmnetUpdateMq cfg qos a itm.mqIdx)) := by
  obtain ⟨hfl, -⟩ := updateMq_frame cfg qos a itm.mqIdx
  have hidx : itm.mqIdx = m (qos.heap a).bearerId := by rw [hid]; exact hmq
  have hup := updateMq_bound hm cfg hsa hb hq List.mem_cons_self (by rw [hid]; exact hmem)
  rw [← hidx] at hup
  obtain ⟨hq₁, hnew, hkeep⟩ := hup
  obtain ⟨hq₂, hkeep₂⟩ := bearerClean_queues hq₁
  have hfl' : (qmiRmnetBearerClean (qmiRmnetUpdateMq cfg qos a itm.mqIdx)).flowHead = qos.flowHead :=
    (bearerClean_flowHead _).trans hfl
  have hrefs : (qmiRmnetBearerClean (qmiRmnetUpdateMq cfg qos a itm.mqIdx)).refs.Perm
      (a :: others.filterMap RmnetFlowMap.bearer) := by
    rw [QosInfo.refs, hfl']
    have hp := hperm.filterMap RmnetFlowMap.bearer
    rwa [List.filterMap_cons_some hitm] at hp
  refine ⟨htable, hq₂.of_mem fun b hbm => hrefs.mem_iff.mpr hbm, ?_, ?_⟩
  · intro f hf
    rw [hfl'] at hf
    rcases List.mem_cons.mp (hperm.mem_iff.mp hf) with rfl | hf
    · exact hmq
    · exact hothers f hf
  · intro b hbm
    rcases List.mem_cons.mp (hrefs.mem_iff.mp hbm) with rfl | hbm
    · exact hkeep₂ b hnew
    · exact hkeep₂ b (hkeep b (hbound b hbm))

theorem rebindFlow_qosInv (hm : QueueMap m ids) (cfg : DfcConfig) (hsa : cfg.dfcMode = dfcModeSa)
    {qos : QosInfo} (h : QosInv m ids qos) {tcm : FlowReq} {itm : RmnetFlowMap}
    (hg : qmiRmnetGetFlowMap qos tcm.flowId tcm.ipType = some itm) (hmem : tcm.bearerId ∈ ids)
    (hmq : tcm.mqIdx = m tcm.bearerId) (hlt : tcm.mqIdx < maxMqNum) :
    QosInv m ids (qmiRmnetBearerClean (qmiRmnetRebindFlow cfg true qos itm tcm).1) := by
  have htable := (rebindFlow_inv cfg h.table hg hlt).1
  obtain ⟨himem, hkey⟩ := getFlowMap_some hg
  obtain ⟨a, ha, -⟩ := h.table.bearer itm himem
  have hperm := refs_perm_found hg ha
  have hb := h.table.inv.perm hperm
  obtain ⟨hput, hpb⟩ := bearerPut_inv cfg false hb h.table.removed
  obtain ⟨hpq, hpbound⟩ := bearerPut_queues hm cfg false hb
    (h.queue.of_mem fun b hb => hperm.mem_iff.mp hb) h.table.removed
  obtain ⟨qos₂, b, hget, hgot, hb₂⟩ := bearerGet_inv cfg hpb tcm.bearerId
  obtain ⟨hq₂, hbound₂⟩ := bearerGet_queues cfg hpb hpq hget
  simp only [qmiRmnetRebindFlow, ha, hget] at htable ⊢
  have hfl : qos₂.flowHead = qos.flowHead := hgot.flowHead.trans hput.flowHead
  rw [hkey] at htable ⊢
  obtain ⟨hq₃, hbound₃⟩ := hq₂.congr ({ qos₂ with
    flowHead := updateFlowMap (tcm.flowId, tcm.ipType)
      ⟨tcm.bearerId, tcm.flowId, tcm.ipType, tcm.mqIdx, some b⟩ qos₂.flowHead }) rfl rfl rfl rfl rfl
  refine bindFlow_qosInv hm cfg hsa (qos.flowHead.eraseP fun f => f.key = (tcm.flowId, tcm.ipType))
    ⟨tcm.bearerId, tcm.flowId, tcm.ipType, tcm.mqIdx, some b⟩ htable ?_ rfl hgot.id_eq hmem hmq ?_
    (hb₂.congr rfl rfl rfl rfl rfl fun _ _ => ⟨rfl, rfl⟩) hq₃ ?_
  · simp only [hfl]
    exact updateFlowMap_perm _ hg
  · intro f hf
    exact h.flowMq f (List.mem_of_mem_eraseP hf)
  · intro c hc
    have hcq := h.bound c (hperm.mem_iff.mpr (List.mem_cons_of_mem _ hc))
    have hcput := hpb.refs_mem c hc
    exact hbound₃ c (hbound₂ c hcput (hpbound c hcput hcq))

theorem createFlow_qosInv (hm : QueueMap m ids) (cfg : DfcConfig) (hsa : cfg.dfcMode = dfcModeSa)
    {qos : QosInfo} (h : QosInv m ids qos) {tcm : FlowReq}
    (hg : qmiRmnetGetFlowMap qos tcm.flowId tcm.ipType = none) (hmem : tcm.bearerId ∈ ids)
    (hmq : tcm.mqIdx = m tcm.bearerId) (hlt : tcm.mqIdx < maxMqNum) :
    QosInv m ids (createFlow cfg true true qos tcm).1 := by
  have htable := (createFlow_inv cfg h.table hg hlt).1
  set itm : RmnetFlowMap := { bearerId := tcm.bearerId, flowId := tcm.flowId, ipType := tcm.ipType,
                              mqIdx := tcm.mqIdx, bearer := none } with hitm
  have hb₁ : BearerInv { qos with flowHead := itm :: qos.flowHead } qos.refs :=
    h.table.inv.congr rfl rfl rfl rfl rfl fun _ _ => ⟨rfl, rfl⟩
  obtain ⟨hq₁, hbound₁⟩ := h.queue.congr { qos with flowHead := itm :: qos.flowHead }
    rfl rfl rfl rfl rfl
  obtain ⟨qos₂, b, hget, hgot, hb₂⟩ := bearerGet_inv cfg hb₁ tcm.bearerId
  obtain ⟨hq₂, hbound₂⟩ := bearerGet_queues cfg hb₁ hq₁ hget
  simp only [createFlow, if_true, ← hitm, hget] at htable ⊢
  have hfl : qos₂.flowHead = itm :: qos.flowHead := hgot.flowHead
  obtain ⟨hq₃, hbound₃⟩ := hq₂.congr ({ qos₂ with
    flowHead := updateFlowMap itm.key { itm with bearer := some b } qos₂.flowHead }) rfl rfl rfl rfl rfl
  refine bindFlow_qosInv hm cfg hsa qos.flowHead { itm with bearer := some b } htable ?_ rfl hgot.id_eq
    hmem hmq h.flowMq (hb₂.congr rfl rfl rfl rfl rfl fun _ _ => ⟨rfl, rfl⟩) hq₃ ?_
  · simp only [hfl, updateFlowMap, if_true]
    exact List.Perm.refl _
  · intro c hc
    exact hbound₃ c (hbound₂ c (hb₁.refs_mem c hc) (hbound₁ c (h.bound c hc)))

/-- With the activation map the queue of a flow never changes, so the `again` jump is not taken. -/
theorem addFlow_qosInv (hm : QueueMap m ids) (cfg : DfcConfig) (hsa : cfg.dfcMode = dfcModeSa)
    {qos : QosInfo} (h : QosInv m ids qos) {tcm : FlowReq} (hmem : tcm.bearerId ∈ ids)
    (hmq : tcm.mqIdx = m tcm.bearerId) :
    ∃ qos', (qmiRmnetAddFlow cfg true true qos tcm).map Prod.fst = some qos' ∧ QosInv m ids qos' := by
  have hr := hm.range _ hmem
  have hlt : tcm.mqIdx < maxMqNum := by rw [hmq, maxMqNum]; omega
  rcases addFlow_cases cfg true true h.table hlt with
    ⟨hg, hadd⟩ | ⟨itm, hg, ⟨-, hadd⟩ | ⟨hid, hidx, -⟩ | ⟨-, -, hadd⟩⟩
  · exact ⟨_, by rw [hadd]; rfl, createFlow_qosInv hm cfg hsa h hg hmem hmq hlt⟩
  · exact ⟨_, by rw [hadd]; rfl, rebindFlow_qosInv hm cfg hsa h hg hmem hmq hlt⟩
  · have heq : itm.mqIdx = tcm.mqIdx := by
      rw [h.flowMq itm (getFlowMap_some hg).1, hmq, hid]
    exact absurd heq hidx
  · exact ⟨qos, by rw [hadd]; rfl, h⟩

/-- A bearer created without a flow is idle. -/
theorem getBearerNoref_qosInv (cfg : DfcConfig) {qos : QosInfo}
    (h : QosInv m ids qos) {id : ℕ} (hnone : qmiRmnetGetBearerMap qos id = none) :
    ∃ qos' a, qmiRmnetGetBearerNoref cfg true qos id = (qos', some a) ∧ a ∈ qos'.bearerHead ∧
      QosInv m ids qos' := by
  have htable := getBearerNoref_inv cfg h.table id
  have hget : qmiRmnetBearerGet cfg true qos id
      = (qos.linkBearer (newBearer cfg id), some qos.nextAddr) := by
    simp only [qmiRmnetBearerGet, hnone, if_true]
  obtain ⟨hq₁, hbound₁⟩ := bearerGet_queues cfg h.table.inv h.queue hget
  have hidle : Idle ((qos.linkBearer (newBearer cfg id)).heap qos.nextAddr) := by
    rw [linkBearer_heap_new]
    exact ⟨rfl, rfl⟩
  have hq₂ : QueueInv m ids (qos.linkBearer (newBearer cfg id)) qos.refs := by
    refine ⟨hq₁.queues, ?_, hq₁.owner⟩
    intro b hb
    rcases hq₁.bearer b hb with ⟨hbd, hmem⟩ | hidle'
    · rcases List.mem_cons.mp hmem with rfl | hmem
      · exact .inr hidle
      · exact .inl ⟨hbd, hmem⟩
    · exact .inr hidle'
  obtain ⟨hq₃, hbound₃⟩ := hq₂.modify_ref qos.nextAddr (· - 1)
  simp only [qmiRmnetGetBearerNoref, hget] at htable ⊢
  refine ⟨_, _, rfl, List.mem_cons_self, htable, hq₃, h.flowMq, ?_⟩
  intro b hb
  exact hbound₃ b (hbound₁ b (h.table.inv.refs_mem b hb) (h.bound b hb))

end

/-! ### Every run -/

/-- The operations that reach a device's flow-control state. -/
inductive DfcOp
  | addFlow (tcm : FlowReq)
  | delFlow (tcm : FlowReq)
  | flowStatus (ignoreGrant : Bool) (ackReq ancillary : ℕ) (fcInfo : FlowStatusInfo) (isQuery : Bool)
  | txLinkStatus (txStatus : Bool) (bearerId : ℕ)
  | burstCheck (ipType : ℤ) (mark len : ℕ)
  | watchdog (a : Addr)
  | enableAllFlows

/-- One operation, with successful allocations.  A watchdog may expire on any listed bearer, and its function
runs at once: whether its timer was armed, and how long the function waits, makes no difference below. -/
def dfcStep (cfg : DfcConfig) (qos : QosInfo) : DfcOp → Option QosInfo
  | .addFlow tcm => (qmiRmnetAddFlow cfg true true qos tcm).map Prod.fst
  | .delFlow tcm => some (qmiRmnetDelFlow cfg qos tcm)
  | .flowStatus ignoreGrant ackReq ancillary fcInfo isQuery =>
      some (dfcBurstFlowStatus cfg true ignoreGrant qos ackReq ancillary fcInfo isQuery)
  | .txLinkStatus txStatus bearerId => some (dfcUpdateTxLinkStatus cfg qos txStatus bearerId)
  | .burstCheck ipType mark len => some (dfcQmiBurstCheck cfg qos ipType mark len)
  | .watchdog a =>
      some (if a ∈ qos.bearerHead then qmiRmnetWatchdogFn cfg (qos.modifyBearer a watchdogExpires) a
        else qos)
  | .enableAllFlows => some (qmiRmnetEnableAllFlows cfg qos)

/-- Flow activations use the queue that `m` gives to their bearer. -/
def DfcOp.Uses (m : ℕ → ℕ) (ids : Set ℕ) : DfcOp → Prop
  | .addFlow tcm => tcm.bearerId ∈ ids ∧ tcm.mqIdx = m tcm.bearerId
  | _ => True

theorem flowStatus_qosInv {m : ℕ → ℕ} {ids : Set ℕ} (hm : QueueMap m ids) (cfg : DfcConfig)
    {qos : QosInfo} (h : QosInv m ids qos) (ignoreGrant : Bool) (ackReq ancillary : ℕ)
    (fcInfo : FlowStatusInfo) (isQuery : Bool) :
    QosInv m ids (dfcBurstFlowStatus cfg true ignoreGrant qos ackReq ancillary fcInfo isQuery) := by
  unfold dfcBurstFlowStatus
  split
  · exact h
  · split
    · refine foldl_touched_inv hm _ ?_ _ qos h fun a ha => ha
      intro q a
      exact Touched.flowCtl cfg ⟨rfl, rfl, rfl, rfl⟩
    · unfold dfcUpdateFcMap
      cases hg : qmiRmnetGetBearerMap qos fcInfo.bearerId with
      | some a =>
        exact (updateFcMapBearer_touched cfg qos a ackReq ancillary fcInfo isQuery).inv hm h
          (getBearerMap_some hg).1
      | none =>
        obtain ⟨qos₁, a, hget, ha, h₁⟩ := getBearerNoref_qosInv cfg h hg
        simp only [hget]
        exact (updateFcMapBearer_touched cfg qos₁ a ackReq ancillary fcInfo isQuery).inv hm h₁ ha

theorem dfcStep_qosInv {m : ℕ → ℕ} {ids : Set ℕ} (hm : QueueMap m ids) (cfg : DfcConfig)
    (hsa : cfg.dfcMode = dfcModeSa) {qos : QosInfo} (h : QosInv m ids qos) (op : DfcOp)
    (hop : op.Uses m ids) : ∃ qos', dfcStep cfg qos op = some qos' ∧ QosInv m ids qos' := by
  cases op with
  | addFlow tcm => exact addFlow_qosInv hm cfg hsa h hop.1 hop.2
  | delFlow tcm => exact ⟨_, rfl, delFlow_qosInv hm cfg h tcm⟩
  | flowStatus ignoreGrant ackReq ancillary fcInfo isQuery =>
    exact ⟨_, rfl, flowStatus_qosInv hm cfg h ignoreGrant ackReq ancillary fcInfo isQuery⟩
  | txLinkStatus txStatus bearerId =>
    refine ⟨_, rfl, ?_⟩
    cases hg : qmiRmnetGetBearerMap qos bearerId with
    | none =>
      simp only [dfcUpdateTxLinkStatus, hg]
      exact h
    | some a => exact (updateTxLinkStatus_touched cfg qos txStatus hg).inv hm h (getBearerMap_some hg).1
  | burstCheck ipType mark len =>
    refine ⟨_, rfl, ?_⟩
    cases hg : (qmiRmnetGetFlowMap qos mark ipType).bind RmnetFlowMap.bearer with
    | none =>
      simp only [dfcQmiBurstCheck, hg]
      exact h
    | some a =>
      obtain ⟨itm, hitm, hitma⟩ := Option.bind_eq_some_iff.mp hg
      have hmem : a ∈ qos.refs := List.mem_filterMap.mpr ⟨itm, (getFlowMap_some hitm).1, hitma⟩
      exact (burstCheck_touched cfg qos ipType mark len hg).inv hm h (h.table.inv.refs_mem a hmem)
  | watchdog a =>
    refine ⟨_, rfl, ?_⟩
    split
    · rename_i ha
      have hexp : Touched qos (qos.modifyBearer a watchdogExpires) a :=
        Touched.modify ⟨rfl, rfl, rfl, rfl⟩ Iff.rfl
      exact (hexp.trans (watchdogFn_touched cfg _ a)).inv hm h ha
    · exact h
  | enableAllFlows =>
    exact ⟨_, rfl, foldl_touched_inv hm _ (enableFlowsOf_touched cfg) _ qos h fun a ha => ha⟩

theorem dfcRun_qosInv {m : ℕ → ℕ} {ids : Set ℕ} (hm : QueueMap m ids) (cfg : DfcConfig)
    (hsa : cfg.dfcMode = dfcModeSa) (ops : List DfcOp) (hops : ∀ op ∈ ops, op.Uses m ids) :
    ∀ qos, QosInv m ids qos → ∃ qos', runList (dfcStep cfg) qos ops = some qos' ∧ QosInv m ids qos' := by
  induction ops with
  | nil =>
    intro qos h
    exact ⟨qos, rfl, h⟩
  | cons op ops ih =>
    intro qos h
    obtain ⟨qos₁, hstep, h₁⟩ := dfcStep_qosInv hm cfg hsa h op (hops op (by simp))
    obtain ⟨qos₂, hrun, h₂⟩ := ih (fun op' hop' => hops op' (by simp [hop'])) qos₁ h₁
    exact ⟨qos₂, by rw [runList, hstep]; exact hrun, h₂⟩

theorem qosInv_init (m : ℕ → ℕ) (ids : Set ℕ) (muxId : ℕ) {numTxQueues : ℕ} (hnum : 31 ≤ numTxQueues)
    (stopped : ℕ → Bool) : QosInv m ids (qmiRmnetQosInit muxId numTxQueues stopped) := by
  refine ⟨tableInv_init muxId numTxQueues stopped, ⟨hnum, ?_, ?_⟩, ?_, ?_⟩
  all_goals simp [qmiRmnetQosInit, QosInfo.refs]

/-- **TX queues follow the grant.**  In SA mode, on a device with at least 31 queues, every run whose
activations use one queue index per bearer completes, and in the state it reaches each listed bearer with
a flow holds its table entry and its two queue indices; its data queue is stopped exactly when its grant
is zero, and its ACK queue only then. -/
theorem queue_follows_grant (cfg : DfcConfig) (hsa : cfg.dfcMode = dfcModeSa) (m : ℕ → ℕ) (ids : Set ℕ)
    (hinj : Set.InjOn m ids) (hrange : ∀ id ∈ ids, 1 ≤ m id ∧ m id ≤ 15) (muxId numTxQueues : ℕ)
    (hnum : 31 ≤ numTxQueues) (stopped : ℕ → Bool) (ops : List DfcOp)
    (hops : ∀ op ∈ ops, op.Uses m ids) :
    ∃ qos, runList (dfcStep cfg) (qmiRmnetQosInit muxId numTxQueues stopped) ops = some qos ∧
      ∀ a ∈ qos.bearerHead, (∃ f ∈ qos.flowHead, f.bearer = some a) →
        let b := qos.heap a
        qos.mq (m b.bearerId) = some a ∧ b.mqIdx = m b.bearerId ∧ b.ackMqIdx = m b.bearerId + 15 ∧
          (qos.stopped (m b.bearerId) = true ↔ b.grantSize = 0) ∧
          (qos.stopped (m b.bearerId + 15) = true → b.grantSize = 0) := by
  obtain ⟨qos, hrun, hinv⟩ := dfcRun_qosInv ⟨hinj, hrange⟩ cfg hsa ops hops _
    (qosInv_init m ids muxId hnum stopped)
  refine ⟨qos, hrun, ?_⟩
  rintro a - ⟨f, hf, hfa⟩
  have hb := hinv.bound a (List.mem_filterMap.mpr ⟨f, hf, hfa⟩)
  exact ⟨hb.mq, hb.mqIdx, hb.ackMqIdx, hb.data, hb.ack⟩

/-- One bearer on queue 1, charged beyond its grant: both of its queues stop. -/
theorem queue_follows_grant_charged :
    let ops : List DfcOp := [.addFlow flowOfFive, .burstCheck 4 1 30000]
    let run := runList (dfcStep qmiCfg) emptyQos ops
    run.map (fun qos => (qos.bearerHead, qos.stopped 1, qos.stopped 16)) = some ([0], true, true) ∧
      ∃ qos, run = some qos ∧
        ∀ a ∈ qos.bearerHead, (∃ f ∈ qos.flowHead, f.bearer = some a) →
          qos.mq 1 = some a ∧ (qos.heap a).mqIdx = 1 ∧ (qos.heap a).ackMqIdx = 1 + 15 ∧
            (qos.stopped 1 = true ↔ (qos.heap a).grantSize = 0) ∧
            (qos.stopped (1 + 15) = true → (qos.heap a).grantSize = 0) := by
  refine ⟨rfl, queue_follows_grant _ rfl (fun _ => 1) {5} ?_ ?_ 1 31 le_rfl (fun _ => false) _ ?_⟩
  · exact Set.injOn_singleton _ _
  · intro id _
    exact ⟨le_rfl, by omega⟩
  · intro op hop
    rcases List.mem_cons.mp hop with rfl | hop
    · exact ⟨rfl, rfl⟩
    · rw [List.mem_singleton.mp hop]
      trivial

end Rmnet
