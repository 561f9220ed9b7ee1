import Rmnet.Qos.Event

/-!
# Does moving a flow to another queue strand its bearer?

In SA mode a flow may be activated again with another queue, or for another bearer.  Flows of two bearers never
use one queue at the same time; beyond that activations are free, and flow-control events come in any order.

A bearer controls one queue, the one that it remembers in `mq_idx`, however many queues its flows use.  What has
to hold of a stopped queue is that somebody will open it again: its owner in the queue table, and the bearer
of every flow that uses it, remember that queue and have no grant (`MoveInv`).  An activation breaks this in
two ways: it lets a bearer forget a queue that is stopped (`stranded_flow`), or it puts a flow on the queue that
another bearer remembers.  `granted_open` says that there is no third way.
-/

namespace Rmnet

open Word Transition

/-! ### Runs -/

/-- Flows of different bearers use different queues. -/
def QueuesApart (qos : QosInfo) : Prop :=
  ∀ f ∈ qos.flowHead, ∀ f' ∈ qos.flowHead, f.mqIdx = f'.mqIdx → f.bearer = f'.bearer

/-- Activations name one of the queues `1 .. 15`. -/
def DfcEvent.InRange : DfcEvent → Prop
  | .addFlow _ _ tcm => 1 ≤ tcm.mqIdx ∧ tcm.mqIdx ≤ 15
  | _ => True

/-- One event. -/
def MoveStep (cfg : DfcConfig) (d : DfcDevice) (e : DfcEvent) (d' : DfcDevice) : Prop :=
  e.InRange ∧ e.Allocated ∧ DfcStep cfg d e d' ∧ QueuesApart d'.qos

/-- A device as `qmi_rmnet_qos_init` leaves it, with all queues open. -/
def MoveInit (d : DfcDevice) : Prop :=
  (∃ muxId numTxQueues, d.qos = qmiRmnetQosInit muxId numTxQueues fun _ => false) ∧ d.inFlight = fun _ => 0

/-- The queue of a flow whose bearer has a grant is open. -/
def GrantedOpen (d : DfcDevice) : Prop :=
  ∀ f ∈ d.qos.flowHead, ∀ a, f.bearer = some a → 0 < (d.qos.heap a).grantSize →
    d.qos.stopped f.mqIdx = false

/-- The bearer at `b` has a flow other than the one with the given key. -/
def Keeps (qos : QosInfo) (key : ℕ × ℤ) (b : Addr) : Prop :=
  ∃ f ∈ qos.flowHead, f.key ≠ key ∧ f.bearer = some b

/-- The side condition on an activation.  No other bearer that keeps a flow remembers the requested queue; and
if the queue is free, or about to be, and the requested bearer keeps another flow, then the queue that this
bearer remembers is not stopped. -/
structure ActivationOk (qos : QosInfo) (tcm : FlowReq) : Prop where
  unclaimed : ∀ b, Keeps qos (tcm.flowId, tcm.ipType) b → (qos.heap b).bearerId ≠ tcm.bearerId →
    (qos.heap b).mqIdx ≠ tcm.mqIdx
  opened : ∀ a, Keeps qos (tcm.flowId, tcm.ipType) a → (qos.heap a).bearerId = tcm.bearerId →
    (∀ c, qos.mq tcm.mqIdx = some c → ¬ Keeps qos (tcm.flowId, tcm.ipType) c) →
    qos.stopped (qos.heap a).mqIdx = false

/-- The side condition on an event. -/
def MoveOk (d : DfcDevice) : DfcEvent → Prop
  | .addFlow _ _ tcm => ActivationOk d.qos tcm
  | _ => True

/-! ### The invariant -/

/-- A bearer that remembers a queue owns it. -/
structure HasQueue (qos : QosInfo) (a : Addr) : Prop where
  range : 1 ≤ (qos.heap a).mqIdx ∧ (qos.heap a).mqIdx ≤ 15
  ack : (qos.heap a).ackMqIdx = (qos.heap a).mqIdx + ackMqOffset
  mq : qos.mq (qos.heap a).mqIdx = some a
  ref : 0 < (qos.heap a).flowRef

theorem HasQueue.not_idle {qos : QosInfo} {a : Addr} (h : HasQueue qos a) : ¬ Idle (qos.heap a) := by
  intro hidle
  have hr := h.range
  rw [hidle.1, invalidMq] at hr
  omega

/-- The bearer remembers queue `i`, and its grant is used up. -/
def Closes (b : RmnetBearerMap) (i : ℕ) : Prop := b.mqIdx = i ∧ b.grantSize = 0

/-- The queue side of the tables, relative to the flows in place. -/
structure MoveInv (qos : QosInfo) (flows : List RmnetFlowMap) : Prop where
  beyond : ∀ j, qos.numTxQueues ≤ j → qos.stopped j = false
  bearer : ∀ a ∈ qos.bearerHead, Idle (qos.heap a) ∨ HasQueue qos a
  owner : ∀ i c, qos.mq i = some c → qos.stopped i = true → Closes (qos.heap c) i
  flow : ∀ f ∈ flows, ∀ c, f.bearer = some c → qos.stopped f.mqIdx = true → Closes (qos.heap c) f.mqIdx
  apart : ∀ f ∈ flows, ∀ b ∈ qos.bearerHead, f.bearer ≠ some b → (qos.heap b).mqIdx ≠ f.mqIdx
  range : ∀ f ∈ flows, 1 ≤ f.mqIdx ∧ f.mqIdx ≤ 15

/-- The invariant gives the property. -/
theorem MoveInv.grantedOpen {d : DfcDevice} (h : MoveInv d.qos d.qos.flowHead) : GrantedOpen d := by
  intro f hf a hfa hgrant
  by_contra hst
  have hclosed := h.flow f hf a hfa (by simpa using hst)
  have hz : (d.qos.heap a).grantSize = 0 := hclosed.2
  omega

theorem moveInv_init (muxId numTxQueues : ℕ) :
    MoveInv (qmiRmnetQosInit muxId numTxQueues fun _ => false) [] := by
  refine ⟨fun _ _ => rfl, ?_, ?_, ?_, ?_, ?_⟩
  all_goals simp [qmiRmnetQosInit]

/-! ### Giving up references -/

/-- From `qos` to `qos'` references have been given up or counted: bearers and their entries may be gone, queues
may have been opened, and nothing else happened to the bearers that are left. -/
structure Released (qos qos' : QosInfo) : Prop where
  num : qos'.numTxQueues = qos.numTxQueues
  head : ∀ b ∈ qos'.bearerHead, b ∈ qos.bearerHead
  id : ∀ b, (qos'.heap b).bearerId = (qos.heap b).bearerId
  mqIdx : ∀ b, (qos'.heap b).mqIdx = (qos.heap b).mqIdx
  ack : ∀ b, (qos'.heap b).ackMqIdx = (qos.heap b).ackMqIdx
  grant : ∀ b, (qos'.heap b).grantSize = (qos.heap b).grantSize
  ref : ∀ b ∈ qos'.bearerHead, ¬ Idle (qos.heap b) → 0 < (qos.heap b).flowRef → 0 < (qos'.heap b).flowRef
  mq : ∀ i c, qos'.mq i = some c → qos.mq i = some c
  mq_keep : ∀ i c, c ∈ qos'.bearerHead → qos.mq i = some c → qos'.mq i = some c
  opens : ∀ j, qos'.stopped j = true → qos.stopped j = true

/-- Neither flows nor freed bearers are read. -/
theorem Released.of_eq {qos qos' : QosInfo} (hnum : qos'.numTxQueues = qos.numTxQueues)
    (hhead : qos'.bearerHead = qos.bearerHead) (hheap : qos'.heap = qos.heap) (hmq : qos'.mq = qos.mq)
    (hopens : ∀ j, qos'.stopped j = true → qos.stopped j = true) : Released qos qos' where
  num := hnum
  head := fun b hb => hhead ▸ hb
  id := fun b => by rw [hheap]
  mqIdx := fun b => by rw [hheap]
  ack := fun b => by rw [hheap]
  grant := fun b => by rw [hheap]
  ref := fun b _ _ h => by rwa [hheap]
  mq := fun i c h => hmq ▸ h
  mq_keep := fun i c _ h => hmq ▸ h
  opens := hopens

theorem Released.refl (qos : QosInfo) : Released qos qos := .of_eq rfl rfl rfl rfl fun _ h => h

theorem Released.trans {qos qos₁ qos₂ : QosInfo} (h : Released qos qos₁) (h' : Released qos₁ qos₂) :
    Released qos qos₂ where
  num := h'.num.trans h.num
  head := fun b hb => h.head b (h'.head b hb)
  id := fun b => (h'.id b).trans (h.id b)
  mqIdx := fun b => (h'.mqIdx b).trans (h.mqIdx b)
  ack := fun b => (h'.ack b).trans (h.ack b)
  grant := fun b => (h'.grant b).trans (h.grant b)
  ref := fun b hb hid hpos => h'.ref b hb
    (fun hid' => hid ⟨(h.mqIdx b).symm.trans hid'.1, (h.ack b).symm.trans hid'.2⟩)
    (h.ref b (h'.head b hb) hid hpos)
  mq := fun i c hi => h.mq i c (h'.mq i c hi)
  mq_keep := fun i c hc hi => h'.mq_keep i c hc (h.mq_keep i c (h'.head c hc) hi)
  opens := fun j hj => h.opens j (h'.opens j hj)

theorem Released.closes {qos qos' : QosInfo} (h : Released qos qos') {c : Addr} {i : ℕ}
    (hc : Closes (qos.heap c) i) : Closes (qos'.heap c) i :=
  ⟨(h.mqIdx c).trans hc.1, (h.grant c).trans hc.2⟩

theorem MoveInv.released {qos qos' : QosInfo} {flows flows' : List RmnetFlowMap} (h : MoveInv qos flows)
    (hr : Released qos qos') (hsub : ∀ f ∈ flows', f ∈ flows) : MoveInv qos' flows' where
  beyond := by
    intro j hj
    rw [hr.num] at hj
    by_contra hst
    have hopen := hr.opens j (by simpa using hst)
    rw [h.beyond j hj] at hopen
    cases hopen
  bearer := by
    intro a ha
    rcases h.bearer a (hr.head a ha) with hidle | hq
    · exact .inl ⟨(hr.mqIdx a).trans hidle.1, (hr.ack a).trans hidle.2⟩
    · refine .inr ⟨?_, ?_, ?_, hr.ref a ha hq.not_idle hq.ref⟩
      · rw [hr.mqIdx]
        exact hq.range
      · rw [hr.ack, hr.mqIdx]
        exact hq.ack
      · rw [hr.mqIdx]
        exact hr.mq_keep _ a ha hq.mq
  owner := fun i c hi hst => hr.closes (h.owner i c (hr.mq i c hi) (hr.opens i hst))
  flow := fun f hf c hfc hst => hr.closes (h.flow f (hsub f hf) c hfc (hr.opens _ hst))
  apart := by
    intro f hf b hb hfb
    rw [hr.mqIdx]
    exact h.apart f (hsub f hf) b (hr.head b hb) hfb
  range := fun f hf => h.range f (hsub f hf)

/-- Enabling a queue opens it. -/
theorem flowControl_opens (qos : QosInfo) (i : ℕ) {j : ℕ}
    (hj : (qmiRmnetFlowControl qos i true).stopped j = true) : qos.stopped j = true := by
  unfold qmiRmnetFlowControl at hj
  split at hj
  · exact hj
  · by_cases hji : j = i
    · subst hji
      simp at hj
    · simpa [hji] using hj

/-- The loop over the queue table opens queues only. -/
theorem bearerPutMq_opens (cfg : DfcConfig) (a : Addr) (reset : Bool) (l : List ℕ) :
    ∀ qos : QosInfo, ∀ j, (l.foldl (bearerPutMq cfg a reset) qos).stopped j = true → qos.stopped j = true := by
  have hone : ∀ (qos : QosInfo) (i j : ℕ), (bearerPutMq cfg a reset qos i).stopped j = true →
      qos.stopped j = true := by
    intro qos i j hj
    unfold bearerPutMq at hj
    split at hj
    · simp only at hj
      split at hj
      · split at hj
        · have hopen := flowControl_opens _ _ (flowControl_opens _ _ hj)
          exact hopen
        · have hopen := flowControl_opens _ _ hj
          exact hopen
      · exact hj
    · exact hj
  induction l with
  | nil => exact fun _ _ hj => hj
  | cons i l ih => exact fun qos j hj => hone qos i j (ih _ j hj)

/-- A write of the reference count that keeps it positive, unless the bearer has no queue. -/
theorem released_ref (qos : QosInfo) (a : Addr) (g : ℤ → ℤ)
    (hg : ¬ Idle (qos.heap a) → 0 < (qos.heap a).flowRef → 0 < g (qos.heap a).flowRef) :
    Released qos (qos.modifyBearer a fun b => { b with flowRef := g b.flowRef }) where
  num := rfl
  head := fun _ hb => hb
  id := fun b => modifyBearer_field qos a b _ RmnetBearerMap.bearerId rfl
  mqIdx := fun b => modifyBearer_field qos a b _ RmnetBearerMap.mqIdx rfl
  ack := fun b => modifyBearer_field qos a b _ RmnetBearerMap.ackMqIdx rfl
  grant := fun b => modifyBearer_field qos a b _ RmnetBearerMap.grantSize rfl
  ref := by
    intro b _ hid hpos
    by_cases hb : b = a
    · subst hb
      rw [modifyBearer_heap_self]
      exact hg hid hpos
    · rwa [modifyBearer_heap_ne qos hb]
  mq := fun _ _ h => h
  mq_keep := fun _ _ _ h => h
  opens := fun _ h => h

/-- `__qmi_rmnet_bearer_put`: a bearer that is still listed has a reference left, and one that is not has left
the queue table. -/
theorem bearerPut_released (cfg : DfcConfig) {qos : QosInfo} (hnd : qos.bearerHead.Nodup)
    (bearer : Option Addr) (reset : Bool) : Released qos (qmiRmnetBearerPut cfg qos bearer reset) := by
  unfold qmiRmnetBearerPut
  cases bearer with
  | none => exact .refl qos
  | some a =>
    simp only
    set dec := qos.modifyBearer a fun b => { b with flowRef := b.flowRef - 1 } with hdec
    have hself : (dec.heap a).flowRef = (qos.heap a).flowRef - 1 := by
      rw [hdec, modifyBearer_heap_self]
    by_cases hz : (dec.heap a).flowRef = 0
    · rw [if_pos hz]
      obtain ⟨st, heq, -⟩ := unlinkBearer_eq cfg a reset dec
      have hopens : ∀ j, (unlinkBearer cfg a reset dec).stopped j = true → qos.stopped j = true :=
        fun j hj => bearerPutMq_opens cfg a reset (List.range maxMqNum) dec j hj
      rw [heq] at hopens ⊢
      have hne : ∀ b, b ∈ qos.bearerHead.erase a → b ≠ a := fun b hb hba => hnd.not_mem_erase (hba ▸ hb)
      have hid : ∀ b, (dec.heap b).bearerId = (qos.heap b).bearerId :=
        fun b => modifyBearer_field qos a b _ RmnetBearerMap.bearerId rfl
      have hidx : ∀ b, (dec.heap b).mqIdx = (qos.heap b).mqIdx :=
        fun b => modifyBearer_field qos a b _ RmnetBearerMap.mqIdx rfl
      have hack : ∀ b, (dec.heap b).ackMqIdx = (qos.heap b).ackMqIdx :=
        fun b => modifyBearer_field qos a b _ RmnetBearerMap.ackMqIdx rfl
      have hgrant : ∀ b, (dec.heap b).grantSize = (qos.heap b).grantSize :=
        fun b => modifyBearer_field qos a b _ RmnetBearerMap.grantSize rfl
      refine ⟨rfl, fun b hb => List.mem_of_mem_erase hb, hid, hidx, hack, hgrant, ?_, ?_, ?_, hopens⟩
      · intro b hb _ hpos
        show 0 < (dec.heap b).flowRef
        rwa [hdec, modifyBearer_heap_ne qos (hne b hb)]
      · intro i c hi
        simp only at hi
        split at hi
        · cases hi
        · exact hi
      · intro i c hc hi
        show (if i < maxMqNum ∧ dec.mq i = some a then none else dec.mq i) = some c
        rw [if_neg]
        · exact hi
        · rintro ⟨-, hia⟩
          have hca : some c = some a := hi.symm.trans hia
          exact hne c hc (Option.some.inj hca)
    · rw [if_neg hz]
      refine released_ref qos a (· - 1) fun _ hpos => ?_
      have hne : (qos.heap a).flowRef - 1 ≠ 0 := hself ▸ hz
      show 0 < (qos.heap a).flowRef - 1
      omega

theorem bearerClean_released (qos : QosInfo) : Released qos (qmiRmnetBearerClean qos) := by
  unfold qmiRmnetBearerClean
  split
  · exact .refl qos
  · exact .of_eq rfl rfl rfl rfl fun _ h => h

theorem wakeAll_released (qos : QosInfo) : Released qos (netifTxWakeAllQueues qos) := by
  refine .of_eq rfl rfl rfl rfl fun j hj => ?_
  unfold netifTxWakeAllQueues at hj
  simp only at hj
  split at hj
  · cases hj
  · exact hj

theorem delFlow_released (cfg : DfcConfig) {qos : QosInfo} (h : TableInv qos) (tcm : FlowReq) :
    Released qos (qmiRmnetDelFlow cfg qos tcm) := by
  have hwake : ∀ q : QosInfo, Released q
      (qmiRmnetBearerClean (if q.flowHead = [] then netifTxWakeAllQueues q else q)) := by
    intro q
    refine Released.trans ?_ (bearerClean_released _)
    split
    · exact wakeAll_released q
    · exact .refl q
  unfold qmiRmnetDelFlow
  simp only
  split
  · exact hwake qos
  · rename_i itm _
    refine Released.trans ?_ (hwake _)
    exact (bearerPut_released cfg h.inv.nodup itm.bearer true).trans (.of_eq rfl rfl rfl rfl fun _ h => h)

/-- A deactivation. -/
theorem delFlow_moveInv (cfg : DfcConfig) {qos : QosInfo} (ht : TableInv qos) (h : MoveInv qos qos.flowHead)
    (tcm : FlowReq) : MoveInv (qmiRmnetDelFlow cfg qos tcm) (qmiRmnetDelFlow cfg qos tcm).flowHead := by
  refine h.released (delFlow_released cfg ht tcm) fun f hf => ?_
  cases hg : qmiRmnetGetFlowMap qos tcm.flowId tcm.ipType with
  | some itm =>
    rw [(delFlow_found cfg ht hg).2] at hf
    exact List.mem_of_mem_eraseP hf
  | none =>
    have hsame : (qmiRmnetDelFlow cfg qos tcm).flowHead = qos.flowHead := by
      simp only [qmiRmnetDelFlow, hg, qmiRmnetBearerClean]
      split <;> split <;> rfl
    rwa [hsame] at hf

/-! ### Getting a bearer, and binding it -/

/-- `__qmi_rmnet_bearer_get`: the bearer that it returns was there, or has no queue yet. -/
theorem bearerGet_moveInv (cfg : DfcConfig) {qos qos' : QosInfo} {flows : List RmnetFlowMap} {a : Addr}
    {id : ℕ} (hb : BearerInv qos (flows.filterMap RmnetFlowMap.bearer)) (h : MoveInv qos flows)
    (hget : qmiRmnetBearerGet cfg true qos id = (qos', some a)) :
    MoveInv qos' flows ∧ (a ∈ qos.bearerHead ∨ Idle (qos'.heap a)) ∧ qos'.mq = qos.mq ∧
      qos'.stopped = qos.stopped ∧ (∀ b ∈ qos'.bearerHead, b ∈ qos.bearerHead ∨ b = a) ∧
      ∀ b ∈ qos.bearerHead, (qos'.heap b).mqIdx = (qos.heap b).mqIdx := by
  rcases bearerGet_cases cfg qos id with ⟨c, hc, -, hcget⟩ | ⟨-, hcget⟩
  · rw [hcget] at hget
    obtain ⟨rfl, hca⟩ := Prod.mk.inj hget
    have hr := released_ref qos c (· + 1) fun _ hpos => by
      show 0 < (qos.heap c).flowRef + 1
      omega
    exact ⟨h.released hr fun _ hf => hf, .inl (Option.some.inj hca ▸ hc), rfl, rfl, fun b hb => .inl hb,
      fun b _ => hr.mqIdx b⟩
  · rw [hcget] at hget
    obtain ⟨rfl, hca⟩ := Prod.mk.inj hget
    obtain rfl := Option.some.inj hca
    have hheap : ∀ b ∈ qos.bearerHead, (qos.linkBearer (newBearer cfg id)).heap b = qos.heap b :=
      fun b hmem => linkBearer_heap_old qos _ (Nat.ne_of_lt (hb.lt hmem))
    have hidle : Idle ((qos.linkBearer (newBearer cfg id)).heap qos.nextAddr) := by
      rw [linkBearer_heap_new]
      exact ⟨rfl, rfl⟩
    have hmem : ∀ f ∈ flows, ∀ c, f.bearer = some c → c ∈ qos.bearerHead := fun f hf c hfc =>
      hb.refs_mem c (List.mem_filterMap.mpr ⟨f, hf, hfc⟩)
    refine ⟨⟨h.beyond, ?_, ?_, ?_, ?_, h.range⟩, .inr hidle, rfl, rfl, ?_, ?_⟩
    · intro b hbm
      rcases List.mem_cons.mp hbm with rfl | hbm
      · exact .inl hidle
      · rcases h.bearer b hbm with hi | hq
        · rw [hheap b hbm]
          exact .inl hi
        · refine .inr ⟨?_, ?_, ?_, ?_⟩
          all_goals rw [hheap b hbm]
          · exact hq.range
          · exact hq.ack
          · exact hq.mq
          · exact hq.ref
    · intro i c hi hst
      rw [hheap c (hb.mq_mem i c hi).1]
      exact h.owner i c hi hst
    · intro f hf c hfc hst
      rw [hheap c (hmem f hf c hfc)]
      exact h.flow f hf c hfc hst
    · intro f hf b hbm hfb
      rcases List.mem_cons.mp hbm with rfl | hbm
      · have hr := h.range f hf
        rw [hidle.1, invalidMq]
        omega
      · rw [hheap b hbm]
        exact h.apart f hf b hbm hfb
    · intro b hbm
      rcases List.mem_cons.mp hbm with rfl | hbm
      · exact .inr rfl
      · exact .inl hbm
    · intro b hbm
      rw [hheap b hbm]

/-- A flow is bound to a queue that has an owner: the bearer itself, or one that does not remember it. -/
theorem MoveInv.taken {qos : QosInfo} {a : Addr} {others : List RmnetFlowMap} {itm : RmnetFlowMap}
    (h : MoveInv qos others) (hitm : itm.bearer = some a)
    (hb : BearerInv qos (a :: others.filterMap RmnetFlowMap.bearer)) (hrange : 1 ≤ itm.mqIdx ∧ itm.mqIdx ≤ 15)
    (hunclaimed : ∀ b ∈ qos.bearerHead, b ≠ a → (qos.heap b).mqIdx ≠ itm.mqIdx) {c : Addr}
    (hmq : qos.mq itm.mqIdx = some c) : MoveInv qos (itm :: others) := by
  refine ⟨h.beyond, h.bearer, h.owner, ?_, ?_, List.forall_mem_cons.mpr ⟨hrange, h.range⟩⟩
  · intro f hf b hfb hst
    rcases List.mem_cons.mp hf with rfl | hf
    · rw [hitm, Option.some.injEq] at hfb
      subst hfb
      have hclosed := h.owner f.mqIdx c hmq hst
      have hca : c = a := by
        by_contra hne
        exact hunclaimed c (hb.mq_mem f.mqIdx c hmq).1 hne hclosed.1
      rwa [hca] at hclosed
    · exact h.flow f hf b hfb hst
  · intro f hf b hbm hfb
    rcases List.mem_cons.mp hf with rfl | hf
    · exact hunclaimed b hbm fun hba => hfb (by rw [hitm, hba])
    · exact h.apart f hf b hbm hfb

/-- The bearer `a` has taken the queue `i`, from `qos` to `q`. -/
structure Claimed (qos q : QosInfo) (a : Addr) (i : ℕ) : Prop where
  head : q.bearerHead = qos.bearerHead
  numTxQueues : q.numTxQueues = qos.numTxQueues
  mq : q.mq = Function.update qos.mq i (some a)
  self : q.heap a = { qos.heap a with mqIdx := i, ackMqIdx := i + ackMqOffset }
  other : ∀ b, b ≠ a → q.heap b = qos.heap b
  beyond : ∀ j, qos.numTxQueues ≤ j → q.stopped j = false
  /-- Its queue is closed by the bearer only. -/
  closed : q.stopped i = true → Closes (q.heap a) i
  /-- Another queue is closed by somebody else. -/
  keep : ∀ j c, j ≤ 15 → j ≠ i → q.stopped j = true → (qos.stopped j = true → Closes (qos.heap c) j) →
    Closes (q.heap c) j

/-- A free queue is taken; the queue that the bearer forgets is open. -/
theorem updateMq_claimed (cfg : DfcConfig) (hsa : cfg.dfcMode = dfcModeSa) {qos : QosInfo} {a : Addr} {i : ℕ}
    (hbeyond : ∀ j, qos.numTxQueues ≤ j → qos.stopped j = false) (hrange : 1 ≤ i ∧ i ≤ 15)
    (hmq : qos.mq i = none) (hopened : (qos.heap a).mqIdx = invalidMq ∨ qos.stopped (qos.heap a).mqIdx = false) :
    Claimed qos (qmiRmnetUpdateMq cfg qos a i) a i := by
  obtain ⟨st, hup, hframe, hout, hdata, -⟩ := updateMq_free cfg hsa qos a (by rw [defaultMqNum]; omega) hmq
  rw [hup]
  set q := qos.modifyBearer a fun b => { b with mqIdx := i, ackMqIdx := i + ackMqOffset } with hq
  have hself : q.heap a = { qos.heap a with mqIdx := i, ackMqIdx := i + ackMqOffset } :=
    modifyBearer_heap_self _ a _
  have hother : ∀ b, b ≠ a → q.heap b = qos.heap b := fun b hba => modifyBearer_heap_ne _ hba _
  have hst_out : ∀ j, qos.numTxQueues ≤ j → st j = false := fun j hj => (hout j hj).trans (hbeyond j hj)
  refine ⟨rfl, rfl, rfl, hself, hother, hst_out, fun hst => ?_, fun j c hj hji hst hold => ?_⟩
  · change st i = true at hst
    simp only [hself]
    refine ⟨rfl, ?_⟩
    by_cases hlt : i < qos.numTxQueues
    · exact (hdata hlt).mp hst
    · have hfalse := hst_out i (by omega)
      rw [hst] at hfalse
      cases hfalse
  · -- the bearer's old queue is open, so `c` is another one
    have hsame : st j = qos.stopped j := by
      refine hframe j hji ?_
      simp only [ackMqOffset, maxMqNum]
      omega
    change st j = true at hst
    rw [hsame] at hst
    have hc := hold hst
    have hca : c ≠ a := by
      rintro rfl
      rcases hopened with hidle | hopen
      · have hidx := hc.1
        rw [hidle, invalidMq] at hidx
        omega
      · rw [hc.1, hst] at hopen
        cases hopen
    simp only [hother c hca]
    exact hc

/-- A flow is bound to the queue that its bearer has taken. -/
theorem Claimed.moveInv {qos q : QosInfo} {a : Addr} {others : List RmnetFlowMap} {itm : RmnetFlowMap}
    (hcl : Claimed qos q a itm.mqIdx) (h : MoveInv qos others) (hitm : itm.bearer = some a)
    (hb : BearerInv qos (a :: others.filterMap RmnetFlowMap.bearer)) (hrange : 1 ≤ itm.mqIdx ∧ itm.mqIdx ≤ 15)
    (hapart : ∀ f ∈ others, f.bearer ≠ some a → f.mqIdx ≠ itm.mqIdx)
    (hunclaimed : ∀ b ∈ qos.bearerHead, b ≠ a → (qos.heap b).mqIdx ≠ itm.mqIdx) : MoveInv q (itm :: others) := by
  have hself := hcl.self
  refine ⟨?_, ?_, ?_, ?_, ?_, List.forall_mem_cons.mpr ⟨hrange, h.range⟩⟩
  · rw [hcl.numTxQueues]
    exact hcl.beyond
  · rw [hcl.head]
    intro b hbm
    by_cases hba : b = a
    · subst hba
      have href : 0 < (q.heap b).flowRef := by
        rw [hself]
        show 0 < (qos.heap b).flowRef
        rw [hb.flowRef b hbm, List.count_cons_self]
        omega
      refine .inr ⟨?_, ?_, ?_, href⟩
      · rw [hself]
        exact hrange
      · rw [hself]
      · rw [hself, hcl.mq]
        exact Function.update_self itm.mqIdx (some b) qos.mq
    · have hother := hcl.other b hba
      rcases h.bearer b hbm with hidle | hown
      · refine .inl ?_
        rw [hother]
        exact hidle
      · refine .inr ⟨?_, ?_, ?_, ?_⟩
        · rw [hother]
          exact hown.range
        · rw [hother]
          exact hown.ack
        · rw [hother, hcl.mq, Function.update_of_ne (hunclaimed b hbm hba)]
          exact hown.mq
        · rw [hother]
          exact hown.ref
  · intro j c hj hst
    rw [hcl.mq] at hj
    by_cases hji : j = itm.mqIdx
    · subst hji
      rw [Function.update_self, Option.some.injEq] at hj
      exact hj ▸ hcl.closed hst
    · rw [Function.update_of_ne hji] at hj
      have hlt := (hb.mq_mem j c hj).2
      rw [maxMqNum] at hlt
      exact hcl.keep j c (by omega) hji hst (h.owner j c hj)
  · intro f hf c hfc hst
    rcases List.mem_cons.mp hf with rfl | hf
    · rw [hitm, Option.some.injEq] at hfc
      exact hfc ▸ hcl.closed hst
    · by_cases hfi : f.mqIdx = itm.mqIdx
      · have hfa : f.bearer = some a := by
          by_contra hne
          exact hapart f hf hne hfi
        rw [hfa, Option.some.injEq] at hfc
        rw [hfi] at hst ⊢
        exact hfc ▸ hcl.closed hst
      · exact hcl.keep f.mqIdx c (h.range f hf).2 hfi hst (h.flow f hf c hfc)
  · rw [hcl.head]
    intro f hf b hbm hfb
    by_cases hba : b = a
    · subst hba
      rw [hself]
      rcases List.mem_cons.mp hf with rfl | hf
      · exact absurd hitm hfb
      · exact (hapart f hf hfb).symm
    · rw [hcl.other b hba]
      rcases List.mem_cons.mp hf with rfl | hf
      · exact hunclaimed b hbm hba
      · exact h.apart f hf b hbm hfb

/-- **Binding a flow.**  Nobody else remembers the queue; and when it is free, the bearer forgets only a queue
that is open. -/
theorem updateMq_moveInv (cfg : DfcConfig) (hsa : cfg.dfcMode = dfcModeSa) {qos : QosInfo} {a : Addr}
    {others : List RmnetFlowMap} {itm : RmnetFlowMap} (hitm : itm.bearer = some a)
    (hb : BearerInv qos (a :: others.filterMap RmnetFlowMap.bearer)) (h : MoveInv qos others)
    (hrange : 1 ≤ itm.mqIdx ∧ itm.mqIdx ≤ 15)
    (hapart : ∀ f ∈ others, f.bearer ≠ some a → f.mqIdx ≠ itm.mqIdx)
    (hunclaimed : ∀ b ∈ qos.bearerHead, b ≠ a → (qos.heap b).mqIdx ≠ itm.mqIdx)
    (hopened : qos.mq itm.mqIdx = none →
      (qos.heap a).mqIdx = invalidMq ∨ qos.stopped (qos.heap a).mqIdx = false) :
    MoveInv (qmiRmnetUpdateMq cfg qos a itm.mqIdx) (itm :: others) := by
  cases hmq : qos.mq itm.mqIdx with
  | some c =>
    rw [updateMq_taken cfg hsa qos a hmq]
    exact h.taken hitm hb hrange hunclaimed hmq
  | none =>
    have hcl := updateMq_claimed cfg hsa h.beyond hrange hmq (hopened hmq)
    exact hcl.moveInv h hitm hb hrange hapart hunclaimed

/-! ### Activations -/

section

variable {cfg : DfcConfig} {qos qos₁ qos₂ : QosInfo} {others : List RmnetFlowMap} {tcm : FlowReq} {a : Addr}

/-- A bearer with a queue keeps a flow. -/
theorem HasQueue.keeps {b : Addr} (hown : HasQueue qos₁ b)
    (hb : BearerInv qos₁ (others.filterMap RmnetFlowMap.bearer))
    (hothers : ∀ f, f ∈ others ↔ f ∈ qos.flowHead ∧ f.key ≠ (tcm.flowId, tcm.ipType)) (hbm : b ∈ qos₁.bearerHead) :
    Keeps qos (tcm.flowId, tcm.ipType) b := by
  have hpos := hown.ref
  rw [hb.flowRef b hbm] at hpos
  obtain ⟨f, hf, hfb⟩ := List.mem_filterMap.mp (List.count_pos_iff.mp (Int.natCast_pos.mp hpos))
  obtain ⟨hmem, hkey⟩ := (hothers f).mp hf
  exact ⟨f, hmem, hkey, hfb⟩

/-- No other bearer remembers the queue of the activation. -/
theorem ActivationOk.unclaimed_get (hok : ActivationOk qos tcm) (hrel : Released qos qos₁)
    (hb : BearerInv qos₁ (others.filterMap RmnetFlowMap.bearer)) (h : MoveInv qos₁ others)
    (hothers : ∀ f, f ∈ others ↔ f ∈ qos.flowHead ∧ f.key ≠ (tcm.flowId, tcm.ipType))
    (hget : qmiRmnetBearerGet cfg true qos₁ tcm.bearerId = (qos₂, some a))
    (hgot : GotBearer qos₁ qos₂ a tcm.bearerId) (hb₂ : BearerInv qos₂ (a :: others.filterMap RmnetFlowMap.bearer))
    (hrange : 1 ≤ tcm.mqIdx ∧ tcm.mqIdx ≤ 15) :
    ∀ b ∈ qos₂.bearerHead, b ≠ a → (qos₂.heap b).mqIdx ≠ tcm.mqIdx := by
  intro b hbm hba
  obtain ⟨-, -, -, -, hhead, hmqIdx⟩ := bearerGet_moveInv cfg hb h hget
  have hb₁ : b ∈ qos₁.bearerHead := (hhead b hbm).resolve_right hba
  rw [hmqIdx b hb₁]
  rcases h.bearer b hb₁ with hidle | hown
  · rw [hidle.1, invalidMq]
    omega
  · rw [hrel.mqIdx]
    refine hok.unclaimed b (hown.keeps hb hothers hb₁) fun hbid => hba ?_
    refine hb₂.id_inj hbm hgot.mem ?_
    rw [hgot.heap_id b hb₁, hrel.id, hbid, hgot.id_eq]

/-- If the queue of the activation is free, the one that the bearer remembers is open. -/
theorem ActivationOk.opened_get (hok : ActivationOk qos tcm) (hrel : Released qos qos₁)
    (hb : BearerInv qos₁ (others.filterMap RmnetFlowMap.bearer)) (h : MoveInv qos₁ others)
    (hothers : ∀ f, f ∈ others ↔ f ∈ qos.flowHead ∧ f.key ≠ (tcm.flowId, tcm.ipType))
    (hget : qmiRmnetBearerGet cfg true qos₁ tcm.bearerId = (qos₂, some a))
    (hgot : GotBearer qos₁ qos₂ a tcm.bearerId) (hfree : qos₂.mq tcm.mqIdx = none) :
    (qos₂.heap a).mqIdx = invalidMq ∨ qos₂.stopped (qos₂.heap a).mqIdx = false := by
  obtain ⟨-, hnew, hmq, hst, -, hmqIdx⟩ := bearerGet_moveInv cfg hb h hget
  rw [hmq] at hfree
  rcases hnew with ha | hidle
  · rcases h.bearer a ha with hidle | hown
    · exact .inl ((hmqIdx a ha).trans hidle.1)
    · right
      have hid : (qos.heap a).bearerId = tcm.bearerId := by
        rw [← hrel.id, ← hgot.heap_id a ha, hgot.id_eq]
      have hopen := hok.opened a (hown.keeps hb hothers ha) hid (by
        rintro c hc ⟨f, hf, hkey, hfc⟩
        have hfo := (hothers f).mpr ⟨hf, hkey⟩
        have hcm := hb.refs_mem c (List.mem_filterMap.mpr ⟨f, hfo, hfc⟩)
        rw [hrel.mq_keep _ c hcm hc] at hfree
        cases hfree)
      rw [hst, hmqIdx a ha, hrel.mqIdx]
      by_contra hstop
      have := hrel.opens _ (by simpa using hstop)
      rw [hopen] at this
      cases this
  · exact .inl hidle.1

/-- **The common end of a new and of a rebound flow.**  `qos` is the state before the activation, `qos₁` the one
in which the flow holds no bearer; the condition on `qos` carries over. -/
theorem bindFlow_moveInv (cfg : DfcConfig) (hsa : cfg.dfcMode = dfcModeSa) {flows : List RmnetFlowMap}
    {itm : RmnetFlowMap} (hrel : Released qos qos₁) (hb : BearerInv qos₁ (others.filterMap RmnetFlowMap.bearer))
    (h : MoveInv qos₁ others)
    (hothers : ∀ f, f ∈ others ↔ f ∈ qos.flowHead ∧ f.key ≠ (tcm.flowId, tcm.ipType))
    (hget : qmiRmnetBearerGet cfg true qos₁ tcm.bearerId = (qos₂, some a)) (hok : ActivationOk qos tcm)
    (hrange : 1 ≤ tcm.mqIdx ∧ tcm.mqIdx ≤ 15) (hitm : itm.bearer = some a) (hidx : itm.mqIdx = tcm.mqIdx)
    (hperm : flows.Perm (itm :: others)) :
    let qos' := qmiRmnetBearerClean (qmiRmnetUpdateMq cfg { qos₂ with flowHead := flows } a tcm.mqIdx)
    QueuesApart qos' → MoveInv qos' qos'.flowHead := by
  intro qos' hapart
  obtain ⟨h₂, -⟩ := bearerGet_moveInv cfg hb h hget
  obtain ⟨hgot, hb₂⟩ : GotBearer qos₁ qos₂ a tcm.bearerId ∧
      BearerInv qos₂ (a :: others.filterMap RmnetFlowMap.bearer) := by
    obtain ⟨q, c, hget', hgot, hinv⟩ := bearerGet_inv cfg hb tcm.bearerId
    rw [hget, Prod.mk.injEq, Option.some.injEq] at hget'
    obtain ⟨rfl, rfl⟩ := hget'
    exact ⟨hgot, hinv⟩
  have hunclaimed := hok.unclaimed_get hrel hb h hothers hget hgot hb₂ hrange
  have hopened := hok.opened_get hrel hb h hothers hget hgot
  rw [← hidx] at hunclaimed hopened
  -- the flow list is that of the result
  obtain ⟨hfl, -⟩ := updateMq_frame cfg { qos₂ with flowHead := flows } a tcm.mqIdx
  have hflows : qos'.flowHead = flows := (bearerClean_flowHead _).trans hfl
  have hitmem : itm ∈ qos'.flowHead := by
    rw [hflows]
    exact hperm.mem_iff.mpr List.mem_cons_self
  have hapart' : ∀ f ∈ others, f.bearer ≠ some a → f.mqIdx ≠ itm.mqIdx := by
    intro f hf hfa heq
    have hfm : f ∈ qos'.flowHead := by
      rw [hflows]
      exact hperm.mem_iff.mpr (List.mem_cons_of_mem _ hf)
    exact hfa ((hapart f hfm itm hitmem heq).trans hitm)
  have h₃ : MoveInv { qos₂ with flowHead := flows } others :=
    h₂.released (.of_eq rfl rfl rfl rfl fun _ hj => hj) fun _ hf => hf
  have hb₃ : BearerInv { qos₂ with flowHead := flows } (a :: others.filterMap RmnetFlowMap.bearer) :=
    hb₂.congr rfl rfl rfl rfl rfl fun _ _ => ⟨rfl, rfl⟩
  have hup := updateMq_moveInv cfg hsa hitm hb₃ h₃ (by rw [hidx]; exact hrange) hapart' hunclaimed hopened
  rw [hidx] at hup
  refine hup.released (bearerClean_released _) fun f hf => ?_
  rw [hflows] at hf
  exact hperm.mem_iff.mp hf

end

/-- With distinct keys, what is left without the entry of a key is the other entries. -/
theorem mem_eraseP_key {l : List RmnetFlowMap} (hn : (l.map RmnetFlowMap.key).Nodup) {key : ℕ × ℤ}
    {itm : RmnetFlowMap} (h : l.find? (fun f => f.key = key) = some itm) (f : RmnetFlowMap) :
    f ∈ l.eraseP (fun f => f.key = key) ↔ f ∈ l ∧ f.key ≠ key := by
  constructor
  · intro hf
    refine ⟨List.mem_of_mem_eraseP hf, fun hk => eraseP_key_notMem hn h ?_⟩
    have hkey := List.mem_map_of_mem (f := RmnetFlowMap.key) hf
    rwa [hk] at hkey
  · rintro ⟨hf, hk⟩
    rwa [List.mem_eraseP_of_neg (by simpa using hk)]

theorem createFlow_moveInv (cfg : DfcConfig) (hsa : cfg.dfcMode = dfcModeSa) {qos qos₁ : QosInfo}
    {tcm : FlowReq} (hrel : Released qos qos₁) (ht : TableInv qos₁) (h : MoveInv qos₁ qos₁.flowHead)
    (hothers : ∀ f, f ∈ qos₁.flowHead ↔ f ∈ qos.flowHead ∧ f.key ≠ (tcm.flowId, tcm.ipType))
    (hok : ActivationOk qos tcm) (hrange : 1 ≤ tcm.mqIdx ∧ tcm.mqIdx ≤ 15)
    (hapart : QueuesApart (createFlow cfg true true qos₁ tcm).1) :
    MoveInv (createFlow cfg true true qos₁ tcm).1 (createFlow cfg true true qos₁ tcm).1.flowHead := by
  set itm : RmnetFlowMap := { bearerId := tcm.bearerId, flowId := tcm.flowId, ipType := tcm.ipType,
                              mqIdx := tcm.mqIdx, bearer := none } with hitm
  have hlink : Released qos₁ { qos₁ with flowHead := itm :: qos₁.flowHead } :=
    .of_eq rfl rfl rfl rfl fun _ hj => hj
  have hb : BearerInv { qos₁ with flowHead := itm :: qos₁.flowHead } qos₁.refs :=
    ht.inv.congr rfl rfl rfl rfl rfl fun _ _ => ⟨rfl, rfl⟩
  obtain ⟨qos₂, b, hget, hgot, -⟩ := bearerGet_inv cfg hb tcm.bearerId
  simp only [createFlow, if_true, ← hitm, hget] at hapart ⊢
  have hfl : qos₂.flowHead = itm :: qos₁.flowHead := hgot.flowHead
  have hbearer : ({ itm with bearer := some b } : RmnetFlowMap).bearer = some b := rfl
  have hbind := bindFlow_moveInv cfg hsa (hrel.trans hlink) hb (h.released hlink fun _ hf => hf) hothers hget
    hok hrange hbearer rfl (List.Perm.refl _)
  simp only [hfl, updateFlowMap, if_true] at hapart ⊢
  exact hbind hapart

theorem rebindFlow_moveInv (cfg : DfcConfig) (hsa : cfg.dfcMode = dfcModeSa) {qos : QosInfo}
    (ht : TableInv qos) (h : MoveInv qos qos.flowHead) {tcm : FlowReq} {itm : RmnetFlowMap}
    (hg : qmiRmnetGetFlowMap qos tcm.flowId tcm.ipType = some itm) (hok : ActivationOk qos tcm)
    (hrange : 1 ≤ tcm.mqIdx ∧ tcm.mqIdx ≤ 15)
    (hapart : QueuesApart (qmiRmnetBearerClean (qmiRmnetRebindFlow cfg true qos itm tcm).1)) :
    let qos' := qmiRmnetBearerClean (qmiRmnetRebindFlow cfg true qos itm tcm).1
    MoveInv qos' qos'.flowHead := by
  obtain ⟨hmem, hkey⟩ := getFlowMap_some hg
  obtain ⟨a, ha, -⟩ := ht.bearer itm hmem
  obtain ⟨hput, hb⟩ := bearerPut_inv cfg false (ht.inv.perm (refs_perm_found hg ha)) ht.removed
  have hrel := bearerPut_released cfg ht.inv.nodup (some a) false
  obtain ⟨qos₂, b, hget, hgot, -⟩ := bearerGet_inv cfg hb tcm.bearerId
  simp only [qmiRmnetRebindFlow, ha, hget] at hapart ⊢
  have hfl : qos₂.flowHead = qos.flowHead := hgot.flowHead.trans hput.flowHead
  rw [hkey, hfl] at hapart ⊢
  exact bindFlow_moveInv cfg hsa hrel hb (h.released hrel fun f hf => List.mem_of_mem_eraseP hf)
    (mem_eraseP_key ht.flows hg) hget hok hrange rfl rfl (updateFlowMap_perm _ hg) hapart

/-- **One activation.** -/
theorem addFlow_moveInv (cfg : DfcConfig) (hsa : cfg.dfcMode = dfcModeSa) {qos qos' : QosInfo}
    (ht : TableInv qos) (h : MoveInv qos qos.flowHead) {tcm : FlowReq} (hok : ActivationOk qos tcm)
    (hrange : 1 ≤ tcm.mqIdx ∧ tcm.mqIdx ≤ 15)
    (hadd : ((qmiRmnetAddFlow cfg true true qos tcm).map Prod.fst).getD qos = qos')
    (hapart : QueuesApart qos') : MoveInv qos' qos'.flowHead := by
  subst hadd
  have hmq : tcm.mqIdx < maxMqNum := by
    rw [maxMqNum]
    omega
  rcases addFlow_cases cfg true true ht hmq with ⟨hg, hadd⟩ | ⟨itm, hg, ⟨-, hadd⟩ | ⟨-, -, hadd⟩ | ⟨-, -, hadd⟩⟩
  all_goals rw [hadd] at hapart ⊢
  · refine createFlow_moveInv cfg hsa (.refl qos) ht h (fun f => ⟨fun hf => ⟨hf, fun hk => ?_⟩, And.left⟩)
      hok hrange hapart
    refine getFlowMap_none hg ?_
    rw [← hk]
    exact List.mem_map_of_mem hf
  · exact rebindFlow_moveInv cfg hsa ht h hg hok hrange hapart
  · obtain ⟨hdel, hfl⟩ := delFlow_found cfg ht hg
    refine createFlow_moveInv cfg hsa (delFlow_released cfg ht tcm) hdel (delFlow_moveInv cfg ht h tcm)
      (fun f => ?_) hok hrange hapart
    rw [hfl]
    exact mem_eraseP_key ht.flows hg f
  · exact h

/-! ### Flow control -/

section

variable {cfg : DfcConfig} {qos qos' : QosInfo} {flows : List RmnetFlowMap}

/-- No flow uses the ACK queue of a bearer. -/
theorem MoveInv.ne_ack (h : MoveInv qos flows) {a : Addr} (ha : a ∈ qos.bearerHead) {i : ℕ} (hi : i ≤ 15) :
    i ≠ (qos.heap a).ackMqIdx := by
  intro heq
  rcases h.bearer a ha with hidle | hown
  · rw [hidle.2, invalidMq] at heq
    omega
  · have hr := hown.range
    rw [hown.ack] at heq
    simp only [ackMqOffset, maxMqNum] at heq
    omega

/-- A queue of `c` that is stopped behind the event was stopped before, or it is the queue of the bearer, which
has no grant now. -/
theorem Touched.closes {a : Addr} (ht : Touched qos qos' a) (h : MoveInv qos flows) (ha : a ∈ qos.bearerHead)
    {i : ℕ} {c : Addr} (hi : i ≤ 15) (hself : i = (qos.heap a).mqIdx → c = a)
    (hold : qos.stopped i = true → Closes (qos.heap c) i) (hst : qos'.stopped i = true) : Closes (qos'.heap c) i := by
  by_cases hia : i = (qos.heap a).mqIdx
  · obtain rfl := hself hia
    refine ⟨(ht.keys_eq c).2.2.1.trans hia.symm, ?_⟩
    rcases ht.queues with ⟨hg, hsame⟩ | ⟨hset, -⟩
    · rw [hsame] at hst
      exact hg.mpr (hold hst).2
    · by_cases hlt : (qos.heap c).mqIdx < qos.numTxQueues
      · exact (hset hlt (hia ▸ h.ne_ack ha hi)).mp (hia ▸ hst)
      · rw [hia, ht.beyond _ (by omega), h.beyond _ (by omega)] at hst
        cases hst
  · rw [ht.frame i hia (h.ne_ack ha hi)] at hst
    have hc := hold hst
    have hca : c ≠ a := by
      rintro rfl
      exact hia hc.1.symm
    rw [ht.other c hca]
    exact hc

/-- **One event on one bearer.**  It sets the queue that the bearer remembers, and that queue is used by flows of
the bearer only. -/
theorem Touched.moveInv {a : Addr} (ht : Touched qos qos' a) (htable : TableInv qos)
    (h : MoveInv qos qos.flowHead) (ha : a ∈ qos.bearerHead) : MoveInv qos' qos'.flowHead := by
  have hkeys := ht.keys_eq
  refine ⟨?_, ?_, ?_, ?_, ?_, ?_⟩
  · intro j hj
    rw [ht.numTxQueues] at hj
    exact (ht.beyond j hj).trans (h.beyond j hj)
  · intro b hb
    rw [ht.bearerHead] at hb
    obtain ⟨-, href, hidx, hackIdx⟩ := hkeys b
    rcases h.bearer b hb with hidle | hown
    · exact .inl ⟨hidx.trans hidle.1, hackIdx.trans hidle.2⟩
    · refine .inr ⟨?_, ?_, ?_, ?_⟩
      · rw [hidx]
        exact hown.range
      · rw [hackIdx, hidx]
        exact hown.ack
      · rw [ht.mq, hidx]
        exact hown.mq
      · rw [href]
        exact hown.ref
  · intro i c hi hst
    rw [ht.mq] at hi
    have hlt := (htable.inv.mq_mem i c hi).2
    rw [maxMqNum] at hlt
    refine ht.closes h ha (by omega) (fun hia => ?_) (h.owner i c hi) hst
    rcases h.bearer a ha with hidle | hown
    · rw [hia, hidle.1, invalidMq] at hlt
      omega
    · have hmq := hown.mq
      rw [← hia, hi, Option.some.injEq] at hmq
      exact hmq
  · intro f hf c hfc hst
    rw [ht.flowHead] at hf
    refine ht.closes h ha (h.range f hf).2 (fun hfa => ?_) (h.flow f hf c hfc) hst
    by_contra hca
    refine h.apart f hf a ha (fun hfb => hca ?_) hfa.symm
    rw [hfc, Option.some.injEq] at hfb
    exact hfb
  · intro f hf b hb hfb
    rw [ht.flowHead] at hf
    rw [ht.bearerHead] at hb
    rw [(hkeys b).2.2.1]
    exact h.apart f hf b hb hfb
  · intro f hf
    rw [ht.flowHead] at hf
    exact h.range f hf

/-- The induction is on the list of bearers. -/
theorem foldl_moveInv (step : QosInfo → Addr → QosInfo) (hstep : ∀ q a, Touched q (step q a) a)
    (l : List Addr) : ∀ q, TableInv q → MoveInv q q.flowHead → (∀ a ∈ l, a ∈ q.bearerHead) →
      MoveInv (l.foldl step q) (l.foldl step q).flowHead := by
  induction l with
  | nil => exact fun _ _ h _ => h
  | cons a l ih =>
    intro q ht h hl
    have hs := hstep q a
    refine ih _ (hs.table ht) (hs.moveInv ht h (hl a List.mem_cons_self)) fun b hb => ?_
    rw [hs.bearerHead]
    exact hl b (List.mem_cons_of_mem _ hb)

theorem updateFcMap_moveInv (ht : TableInv qos) (h : MoveInv qos qos.flowHead) (kzalloc : Bool)
    (ackReq ancillary : ℕ) (fcInfo : FlowStatusInfo) (isQuery : Bool) :
    let qos' := dfcUpdateFcMap cfg kzalloc qos ackReq ancillary fcInfo isQuery
    MoveInv qos' qos'.flowHead := by
  have hfound := fun q a => updateFcMapBearer_touched cfg q a ackReq ancillary fcInfo isQuery
  unfold dfcUpdateFcMap
  cases hg : qmiRmnetGetBearerMap qos fcInfo.bearerId with
  | some a => exact (hfound qos a).moveInv ht h (getBearerMap_some hg).1
  | none =>
    cases kzalloc with
    | false =>
      simp only [qmiRmnetGetBearerNoref, qmiRmnetBearerGet, hg, Bool.false_eq_true, if_false]
      exact h
    | true =>
      -- a bearer without flows and without a queue
      have hget : qmiRmnetBearerGet cfg true qos fcInfo.bearerId
          = (qos.linkBearer (newBearer cfg fcInfo.bearerId), some qos.nextAddr) := by
        simp only [qmiRmnetBearerGet, hg, if_true]
      have hnoref : qmiRmnetGetBearerNoref cfg true qos fcInfo.bearerId
          = ((qos.linkBearer (newBearer cfg fcInfo.bearerId)).modifyBearer qos.nextAddr
            (fun b => { b with flowRef := b.flowRef - 1 }), some qos.nextAddr) := by
        simp only [qmiRmnetGetBearerNoref, hget]
      have hidle : Idle ((qos.linkBearer (newBearer cfg fcInfo.bearerId)).heap qos.nextAddr) := by
        rw [linkBearer_heap_new]
        exact ⟨rfl, rfl⟩
      have hnew := (bearerGet_moveInv cfg ht.inv h hget).1.released
        (released_ref _ qos.nextAddr (· - 1) fun hid => absurd hidle hid) fun _ hf => hf
      simp only [hnoref]
      exact (hfound _ _).moveInv (getBearerNoref_listed cfg ht hnoref).1 hnew List.mem_cons_self

/-- **One event.** -/
theorem dfcEvent_moveInv (hsa : cfg.dfcMode = dfcModeSa) (ht : TableInv qos) (h : MoveInv qos qos.flowHead)
    {inFlight : Addr → ℕ} {e : DfcEvent} (hen : e.Enabled ⟨qos, inFlight⟩) (hrange : e.InRange)
    (halloc : e.Allocated) (hok : MoveOk ⟨qos, inFlight⟩ e) (hapart : QueuesApart (dfcEventQos cfg qos e)) :
    MoveInv (dfcEventQos cfg qos e) (dfcEventQos cfg qos e).flowHead := by
  cases e with
  | addFlow kzFlow kzBearer tcm =>
    obtain ⟨rfl, rfl⟩ := halloc
    exact addFlow_moveInv cfg hsa ht h hok hrange rfl hapart
  | delFlow tcm => exact delFlow_moveInv cfg ht h tcm
  | flowStatus kzalloc ignoreGrant ackReq ancillary fcInfo isQuery =>
    simp only [dfcEventQos, dfcBurstFlowStatus]
    split
    · exact h
    · split
      · exact foldl_moveInv _ (fun q a => Touched.flowCtl cfg ⟨rfl, rfl, rfl, rfl⟩) _ qos ht h fun _ ha => ha
      · exact updateFcMap_moveInv ht h kzalloc ackReq ancillary fcInfo isQuery
  | txLinkStatus txStatus bearerId =>
    cases hg : qmiRmnetGetBearerMap qos bearerId with
    | none =>
      simp only [dfcEventQos, dfcUpdateTxLinkStatus, hg]
      exact h
    | some a =>
      exact (updateTxLinkStatus_touched cfg qos txStatus hg).moveInv ht h (getBearerMap_some hg).1
  | endMarker bearerId seqNum txId =>
    simp only [dfcEventQos, dfcQmapSetEndMarker]
    split
    · exact h.released (.of_eq rfl rfl rfl rfl fun _ hj => hj) fun _ hf => hf
    · rename_i a hg
      split
      · exact (Touched.modify ⟨rfl, rfl, rfl, rfl⟩ Iff.rfl : Touched qos (qos.modifyBearer a _) a).moveInv ht h
          (getBearerMap_some hg).1
      · exact h.released (.of_eq rfl rfl rfl rfl fun _ hj => hj) fun _ hf => hf
  | burstCheck ipType mark len =>
    cases hg : (qmiRmnetGetFlowMap qos mark ipType).bind RmnetFlowMap.bearer with
    | none =>
      simp only [dfcEventQos, dfcQmiBurstCheck, hg]
      exact h
    | some a =>
      obtain ⟨itm, hitm, hitma⟩ := Option.bind_eq_some_iff.mp hg
      have hmem : a ∈ qos.refs := List.mem_filterMap.mpr ⟨itm, (getFlowMap_some hitm).1, hitma⟩
      exact (burstCheck_touched cfg qos ipType mark len hg).moveInv ht h (ht.inv.refs_mem a hmem)
  | watchdogExpires a =>
    exact (Touched.modify ⟨rfl, rfl, rfl, rfl⟩ Iff.rfl : Touched qos (qos.modifyBearer a watchdogExpires) a).moveInv
      ht h hen.1
  | watchdogFn a => exact (watchdogFn_touched cfg qos a).moveInv ht h hen.1
  | enableAllFlows => exact foldl_moveInv _ (enableFlowsOf_touched cfg) _ qos ht h fun _ ha => ha

end

/-- The invariant of a device. -/
def MoveDevice (d : DfcDevice) : Prop := TableInv d.qos ∧ MoveInv d.qos d.qos.flowHead

theorem moveDevice_init (d : DfcDevice) (h : MoveInit d) : MoveDevice d := by
  obtain ⟨⟨muxId, numTxQueues, hq⟩, -⟩ := h
  unfold MoveDevice
  rw [hq]
  exact ⟨tableInv_init muxId numTxQueues _, moveInv_init muxId numTxQueues⟩

theorem moveDevice_step {cfg : DfcConfig} (hsa : cfg.dfcMode = dfcModeSa) (d : DfcDevice) (e : DfcEvent)
    (d' : DfcDevice) (h : MoveDevice d) (hs : MoveStep cfg d e d') (hok : MoveOk d e) : MoveDevice d' := by
  obtain ⟨hrange, halloc, ⟨hen, rfl⟩, hapart⟩ := hs
  exact ⟨dfcEvent_table cfg h.1 halloc, dfcEvent_moveInv hsa h.1 h.2 hen hrange halloc hok hapart⟩

/-- **When a granted bearer is not stranded.**  In SA mode, in every run whose activations meet the condition, the
queue of each flow is open in every state in which its bearer has a grant. -/
theorem granted_open (cfg : DfcConfig) (hsa : cfg.dfcMode = dfcModeSa) (h : List (DfcDevice × DfcEvent))
    (d : DfcDevice) (hex : Exec MoveInit (MoveStep cfg) h d) (hok : ∀ x ∈ h, MoveOk x.1 x.2) :
    ∀ x ∈ h.map Prod.fst ++ [d], GrantedOpen x := fun x hx =>
  (hex.invariant moveDevice_init (moveDevice_step hsa) hok x hx).2.grantedOpen

/-! ### A bearer on two queues -/

instance (qos : QosInfo) : Decidable (QueuesApart qos) :=
  inferInstanceAs (Decidable (∀ f ∈ qos.flowHead, ∀ f' ∈ qos.flowHead, f.mqIdx = f'.mqIdx → f.bearer = f'.bearer))

/-- A flow that is alone may be put on any queue. -/
theorem activationOk_alone {qos : QosInfo} {tcm : FlowReq}
    (h : ∀ f ∈ qos.flowHead, f.key = (tcm.flowId, tcm.ipType)) : ActivationOk qos tcm := by
  have hnone : ∀ b, ¬ Keeps qos (tcm.flowId, tcm.ipType) b := by
    rintro b ⟨f, hf, hkey, -⟩
    exact hkey (h f hf)
  exact ⟨fun b hb => absurd hb (hnone b), fun a ha => absurd ha (hnone a)⟩

theorem oneFlow_moveExec :
    Exec MoveInit (MoveStep qmapCfg) [(newDevice, .addFlow true true flowOfFive)] oneFlow :=
  (Exec.start ⟨⟨1, 31, rfl⟩, rfl⟩).next ⟨⟨by decide, by decide⟩, ⟨rfl, rfl⟩, ⟨trivial, rfl⟩, by decide⟩

/-- A grant of 1000 bytes. -/
def plainGrant : FlowStatusInfo := ⟨1, 5, 1000, 1, false, 0⟩

/-- A flow that is alone is moved to queue 2, charged beyond its grant there, and granted again: queue 2 is
open. -/
theorem granted_open_moved : ∃ h d, Exec MoveInit (MoveStep qmapCfg) h d ∧
    d.qos.flowHead.map RmnetFlowMap.mqIdx = [2] ∧ (d.qos.heap 1).grantSize = 1000 ∧ GrantedOpen d := by
  have h₁ := oneFlow_moveExec.next (l := DfcEvent.addFlow true true ⟨5, 1, 4, 2⟩)
    ⟨⟨by decide, by decide⟩, ⟨rfl, rfl⟩, ⟨trivial, rfl⟩, by decide⟩
  have h₂ := h₁.next (l := DfcEvent.burstCheck 4 1 30000) ⟨trivial, trivial, ⟨trivial, rfl⟩, by decide⟩
  have h₃ := h₂.next (l := DfcEvent.flowStatus true false 0 0 plainGrant false)
    ⟨trivial, trivial, ⟨trivial, rfl⟩, by decide⟩
  refine ⟨_, _, h₃, rfl, rfl, granted_open qmapCfg rfl _ _ h₃ (fun x hx => ?_) _
    (List.mem_append_right _ (List.mem_singleton.mpr rfl))⟩
  simp only [List.cons_append, List.nil_append, List.mem_cons, List.not_mem_nil, or_false] at hx
  rcases hx with rfl | rfl | rfl | rfl
  · exact activationOk_alone (by decide)
  · exact activationOk_alone (by decide)
  · trivial
  · trivial

/-- **A flow is stranded.**  The flow on queue 1 uses up the grant, a second flow of the bearer is put on queue
2, and the next grant opens queue 2 only. -/
theorem stranded_flow : ∃ h d, Exec MoveInit (MoveStep qmapCfg) h d ∧
    ¬ ∀ x ∈ h.map Prod.fst ++ [d], GrantedOpen x := by
  have h₁ := oneFlow_moveExec.next (l := DfcEvent.burstCheck 4 1 30000)
    ⟨trivial, trivial, ⟨trivial, rfl⟩, by decide⟩
  have h₂ := h₁.next (l := DfcEvent.addFlow true true ⟨5, 2, 4, 2⟩)
    ⟨⟨by decide, by decide⟩, ⟨rfl, rfl⟩, ⟨trivial, rfl⟩, by decide⟩
  have h₃ := h₂.next (l := DfcEvent.flowStatus true false 0 0 plainGrant false)
    ⟨trivial, trivial, ⟨trivial, rfl⟩, by decide⟩
  refine ⟨_, _, h₃, fun hall => ?_⟩
  have hopen := hall _ (List.mem_append_right _ (List.mem_singleton.mpr rfl)) ⟨5, 1, 4, 1, some 0⟩
    (List.mem_cons_of_mem _ List.mem_cons_self) 0 rfl (by decide)
  cases hopen

end Rmnet
