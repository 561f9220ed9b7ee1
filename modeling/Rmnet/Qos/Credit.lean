import Rmnet.Lib.Credit
import Rmnet.Qos.Event
import Rmnet.Qos.Select

/-!
# No more data than was granted

A device with the packets that wait on its TX queues.  A packet is put on a queue when it is queued, and charged to
the bearer of its flow when it is sent; a queue sends only while it is not stopped.  Activations, deactivations and
flow-control events come in between, in any order, and packets leave a queue in any order or are dropped.

If no flow is changed while packets of it wait, every packet waits on a queue of the bearer that will be charged for
it (`packets_wait_for_bearer`).  A data packet is then sent only while the bearer has some of its grant left, so that
between two grants the data of a bearer stays within the grant but for its last packet (`data_within_grant`).
-/

namespace Rmnet

open Word Transition Credit

/-! ### The device -/

/-- A device, and the packets that wait on its queues. -/
structure TxDevice where
  qos : QosInfo
  waiting : ℕ → List XmitSkb

/-- What can happen: an operation on the tables, a packet that is queued, and a waiting packet that is dropped or
sent. -/
inductive TxEvent
  | control (op : DfcOp)
  | queue (skb : XmitSkb)
  | drop (q i : ℕ)
  | transmit (q i : ℕ)

/-- A packet is put on a queue. -/
def TxDevice.put (d : TxDevice) (q : ℕ) (skb : XmitSkb) : TxDevice :=
  { d with waiting := Function.update d.waiting q (d.waiting q ++ [skb]) }

/-- A packet is taken off its queue. -/
def TxDevice.take (d : TxDevice) (q i : ℕ) : TxDevice :=
  { d with waiting := Function.update d.waiting q ((d.waiting q).eraseIdx i) }

/-- One event.  The network stack sends from a queue only while it is not stopped. -/
def txStep (cfg : DfcConfig) (d : TxDevice) : TxEvent → Option TxDevice
  | .control op => (dfcStep cfg d.qos op).map fun qos => { d with qos := qos }
  | .queue skb => some (d.put (rmnetVndSelectQueue cfg true d.qos.numTxQueues (some d.qos) skb) skb)
  | .drop q i => some (d.take q i)
  | .transmit q i =>
      if d.qos.stopped q then none
      else (d.waiting q)[i]?.map fun skb => { d.take q i with qos := qmiRmnetBurstFcCheck cfg d.qos skb }

/-- One event as a step. -/
def TxStep (cfg : DfcConfig) (d : TxDevice) (e : TxEvent) (d' : TxDevice) : Prop := txStep cfg d e = some d'

/-- A device as `qmi_rmnet_qos_init` leaves it, with at least 31 queues and nothing on them. -/
def TxInit (d : TxDevice) : Prop :=
  (∃ muxId numTxQueues stopped, 31 ≤ numTxQueues ∧ d.qos = qmiRmnetQosInit muxId numTxQueues stopped) ∧
    d.waiting = fun _ => []

/-- Only `rmnet_vnd_start_xmit` charges. -/
def DfcOp.Charges : DfcOp → Prop
  | .burstCheck _ _ _ => True
  | _ => False

/-- Activations use the queue of their bearer, no flow is changed while packets of it wait, and packets are of the
protocol that their buffers say. -/
def TxFits (m : ℕ → ℕ) (ids : Set ℕ) (d : TxDevice) : TxEvent → Prop
  | .control op =>
      op.Uses m ids ∧ ¬ op.Charges ∧ ∀ key, op.key = some key → ∀ q, ∀ skb ∈ d.waiting q, skb.key ≠ key
  | .queue skb => skb.SameFamily
  | _ => True

/-! ### Packets wait for their bearer -/

/-- The tables are in order, and every packet waits where it would be put now. -/
structure TxInv (m : ℕ → ℕ) (ids : Set ℕ) (d : TxDevice) : Prop where
  qos : QosInv m ids d.qos
  placed : ∀ q, ∀ skb ∈ d.waiting q, skb.SameFamily ∧ q = queueOf m skb (flowBearer d.qos skb.key)

section

variable {m : ℕ → ℕ} {ids : Set ℕ} {cfg : DfcConfig} {d d' : TxDevice}

theorem mem_take {q i q' : ℕ} {skb : XmitSkb} (h : skb ∈ (d.take q i).waiting q') : skb ∈ d.waiting q' := by
  simp only [TxDevice.take] at h
  by_cases hq : q' = q
  · subst hq
    rw [Function.update_self] at h
    exact List.mem_of_mem_eraseIdx h
  · rwa [Function.update_of_ne hq] at h

theorem mem_put {q q' : ℕ} {skb skb' : XmitSkb} (h : skb' ∈ (d.put q skb).waiting q') :
    skb' ∈ d.waiting q' ∨ q' = q ∧ skb' = skb := by
  simp only [TxDevice.put] at h
  by_cases hq : q' = q
  · subst hq
    rw [Function.update_self] at h
    exact (List.mem_append.mp h).imp_right fun hnew => ⟨rfl, List.mem_singleton.mp hnew⟩
  · rw [Function.update_of_ne hq] at h
    exact .inl h

theorem TxInv.take (h : TxInv m ids d) (q i : ℕ) : TxInv m ids (d.take q i) :=
  ⟨h.qos, fun q' skb hskb => h.placed q' skb (mem_take hskb)⟩

theorem TxInv.queue (hm : QueueMap m ids) (hsa : cfg.dfcMode = dfcModeSa) (h : TxInv m ids d) {skb : XmitSkb}
    (hfam : skb.SameFamily) :
    TxInv m ids (d.put (rmnetVndSelectQueue cfg true d.qos.numTxQueues (some d.qos) skb) skb) := by
  refine ⟨h.qos, fun q' skb' hskb => ?_⟩
  rcases mem_put hskb with hold | ⟨rfl, rfl⟩
  · exact h.placed q' skb' hold
  · exact ⟨hfam, selectQueue_eq hm hsa h.qos _⟩

/-- A change of the `qos_info` that keeps the flows of the waiting packets. -/
theorem TxInv.setQos (h : TxInv m ids d) {qos : QosInfo} (hqos : QosInv m ids qos)
    (hflow : ∀ q, ∀ skb ∈ d.waiting q, flowBearer qos skb.key = flowBearer d.qos skb.key) :
    TxInv m ids { d with qos := qos } where
  qos := hqos
  placed := by
    intro q skb hskb
    obtain ⟨hfam, hq⟩ := h.placed q skb hskb
    exact ⟨hfam, hq.trans (by rw [hflow q skb hskb])⟩

theorem burstFcCheck_qosInv (hm : QueueMap m ids) (hsa : cfg.dfcMode = dfcModeSa) {qos : QosInfo}
    (h : QosInv m ids qos) (skb : XmitSkb) : QosInv m ids (qmiRmnetBurstFcCheck cfg qos skb) := by
  obtain ⟨qos', hstep, hinv⟩ :=
    dfcStep_qosInv hm cfg hsa h (.burstCheck skb.xmitIpType skb.mark skb.skb.len) trivial
  obtain rfl := Option.some.inj hstep
  exact hinv

/-- **One event keeps the invariant.** -/
theorem txStep_inv (hm : QueueMap m ids) (hsa : cfg.dfcMode = dfcModeSa) {e : TxEvent} (h : TxInv m ids d)
    (hstep : TxStep cfg d e d') (hfit : TxFits m ids d e) : TxInv m ids d' := by
  cases e with
  | control op =>
    obtain ⟨huses, -, hapart⟩ := hfit
    obtain ⟨qos, hop, hinv⟩ := dfcStep_qosInv hm cfg hsa h.qos op huses
    simp only [TxStep, txStep, hop, Option.map_some, Option.some.injEq] at hstep
    subst hstep
    refine h.setQos hinv fun q skb hskb => ?_
    exact dfcStep_flowBearer cfg h.qos.table hop fun hkey => hapart skb.key hkey q skb hskb rfl
  | queue skb =>
    obtain rfl := Option.some.inj hstep
    exact h.queue hm hsa hfit
  | drop q i =>
    obtain rfl := Option.some.inj hstep
    exact h.take q i
  | transmit q i =>
    simp only [TxStep, txStep] at hstep
    split at hstep
    · cases hstep
    · obtain ⟨skb, -, rfl⟩ := Option.map_eq_some_iff.mp hstep
      refine (h.take q i).setQos (burstFcCheck_qosInv hm hsa h.qos skb) fun q' skb' _ => ?_
      rw [flowBearer, flowBearer, qmiRmnetGetFlowMap, qmiRmnetGetFlowMap, qmiRmnetBurstFcCheck,
        burstCheck_flowHead]
      rfl

/-- **Every state of a run has the invariant**, if the states that it may start in do. -/
theorem txRun_inv (hm : QueueMap m ids) (hsa : cfg.dfcMode = dfcModeSa) {init : TxDevice → Prop}
    (hinit : ∀ d, init d → TxInv m ids d) {h : List (TxDevice × TxEvent)} (hex : Exec init (TxStep cfg) h d)
    (hfit : ∀ x ∈ h, TxFits m ids x.1 x.2) : ∀ d' ∈ h.map Prod.fst ++ [d], TxInv m ids d' :=
  hex.invariant hinit (fun _ e _ h hs (hf : TxFits m ids _ e) => txStep_inv hm hsa h hs hf) hfit

theorem txInv_init (hd : TxInit d) : TxInv m ids d := by
  obtain ⟨⟨muxId, numTxQueues, stopped, hnum, hqos⟩, hwait⟩ := hd
  refine ⟨hqos ▸ qosInv_init m ids muxId hnum stopped, ?_⟩
  rw [hwait]
  simp

end

/-- The bearer that a packet is charged to. -/
def payer (qos : QosInfo) (skb : XmitSkb) : Option Addr :=
  (qmiRmnetGetFlowMap qos skb.mark skb.xmitIpType).bind RmnetFlowMap.bearer

/-- Neither an ACK nor neighbour discovery. -/
def XmitSkb.isData (skb : XmitSkb) : Bool := !skb.isNdp && !qmiRmnetIsTcpAck skb

section

variable {m : ℕ → ℕ} {ids : Set ℕ} {cfg : DfcConfig} {d d' : TxDevice}

/-- Where a packet with a bearer waits. -/
theorem TxInv.queue_of_payer (h : TxInv m ids d) {q : ℕ} {skb : XmitSkb} (hskb : skb ∈ d.waiting q) {a : Addr}
    (ha : payer d.qos skb = some a) :
    Bound m ids d.qos a ∧ a ∈ d.qos.bearerHead ∧ q = queueOf m skb (some (d.qos.heap a).bearerId) := by
  obtain ⟨hfam, hq⟩ := h.placed q skb hskb
  obtain ⟨f, hf, hfa⟩ := Option.bind_eq_some_iff.mp ha
  obtain ⟨b, hb, hid, hbound, hmem⟩ := h.qos.flow_bound (getFlowMap_some hf).1
  obtain rfl : b = a := Option.some.inj (hb.symm.trans hfa)
  refine ⟨hbound, hmem, hq.trans ?_⟩
  rw [flowBearer, XmitSkb.key, hfam, hf, hid]
  rfl

/-- A packet without a bearer waits on the default queue. -/
theorem TxInv.queue_of_no_payer (h : TxInv m ids d) {q : ℕ} {skb : XmitSkb} (hskb : skb ∈ d.waiting q)
    (ha : payer d.qos skb = none) : q = defaultMqNum := by
  obtain ⟨hfam, hq⟩ := h.placed q skb hskb
  rw [hq, flowBearer, XmitSkb.key, hfam]
  cases hg : qmiRmnetGetFlowMap d.qos skb.mark skb.xmitIpType with
  | none => rfl
  | some f =>
    obtain ⟨b, hb, -⟩ := h.qos.flow_bound (getFlowMap_some hg).1
    rw [payer, hg, Option.bind_some, hb] at ha
    cases ha

end

/-- A waiting packet without a bearer is on the default queue.  One with a bearer is on the queue that the bearer has
for its kind, and the data queue is stopped exactly while the bearer has no grant. -/
def WaitsForBearer (qos : QosInfo) (q : ℕ) (skb : XmitSkb) : Prop :=
  match payer qos skb with
  | none => q = defaultMqNum
  | some a =>
      a ∈ qos.bearerHead ∧
        q = (if skb.isNdp then defaultMqNum
          else if qmiRmnetIsTcpAck skb then (qos.heap a).ackMqIdx else (qos.heap a).mqIdx) ∧
        (skb.isData = true → (qos.stopped q = true ↔ (qos.heap a).grantSize = 0))

/-- **Every packet waits on a queue of the bearer that will be charged for it.**  In SA mode, with one queue for each
bearer and 31 queues or more, in every state of every run in which no flow is changed while packets of it wait and
allocations succeed; and the data queue of every bearer with a flow is stopped exactly while it has no grant. -/
theorem packets_wait_for_bearer (cfg : DfcConfig) (hsa : cfg.dfcMode = dfcModeSa) (m : ℕ → ℕ) (ids : Set ℕ)
    (hinj : Set.InjOn m ids) (hrange : ∀ id ∈ ids, 1 ≤ m id ∧ m id ≤ 15) {h : List (TxDevice × TxEvent)} {d : TxDevice}
    (hex : Exec TxInit (TxStep cfg) h d) (hfit : ∀ x ∈ h, TxFits m ids x.1 x.2) :
    ∀ d' ∈ h.map Prod.fst ++ [d], (∀ q, ∀ skb ∈ d'.waiting q, WaitsForBearer d'.qos q skb) ∧
      ∀ f ∈ d'.qos.flowHead, ∀ a, f.bearer = some a →
        (d'.qos.stopped (d'.qos.heap a).mqIdx = true ↔ (d'.qos.heap a).grantSize = 0) := by
  have hm : QueueMap m ids := ⟨hinj, hrange⟩
  have hinv := txRun_inv hm hsa (fun _ => txInv_init) hex hfit
  intro d' hd'
  have h' := hinv d' hd'
  have hstopped : ∀ f ∈ d'.qos.flowHead, ∀ a, f.bearer = some a →
      (d'.qos.stopped (d'.qos.heap a).mqIdx = true ↔ (d'.qos.heap a).grantSize = 0) := by
    intro f hf a ha
    have hb := h'.qos.bound a (List.mem_filterMap.mpr ⟨f, hf, ha⟩)
    rw [hb.mqIdx]
    exact hb.data
  refine ⟨fun q skb hskb => ?_, hstopped⟩
  unfold WaitsForBearer
  cases ha : payer d'.qos skb with
  | none => exact h'.queue_of_no_payer hskb ha
  | some a =>
    obtain ⟨hb, hmem, hq⟩ := h'.queue_of_payer hskb ha
    refine ⟨hmem, ?_, fun hdata => ?_⟩
    · rw [hq, queueOf, hb.mqIdx, hb.ackMqIdx]
    · simp only [XmitSkb.isData, Bool.and_eq_true, Bool.not_eq_true'] at hdata
      rw [hq, queueOf, hdata.1, hdata.2]
      exact hb.data

/-- An IPv4 header of UDP, in a buffer with mark 1. -/
def udpPacket : XmitSkb :=
  { skb := { linear := [0x45, 0, 0, 20, 0, 0, 0, 0, 64, 17, 0, 0, 10, 0, 0, 1, 10, 0, 0, 2], len := 20 }
    protocol := .ip, headroom := 16, tailroom := 0, mark := 1, transportHeader := 20, tcpPureAck := false }

/-- The device without flows, and with nothing to send. -/
def quietDevice : TxDevice := ⟨emptyQos, fun _ => []⟩

theorem quietDevice_init : TxInit quietDevice := ⟨⟨1, 31, fun _ => false, le_rfl, rfl⟩, rfl⟩

/-- One bearer, with id 5, on queue 1. -/
theorem oneQueue : Set.InjOn (fun _ => 1) ({5} : Set ℕ) ∧ ∀ id ∈ ({5} : Set ℕ), 1 ≤ 1 ∧ 1 ≤ 15 :=
  ⟨Set.injOn_singleton _ _, fun _ _ => by decide⟩

/-- The device after an event that can happen. -/
def TxDevice.after (d : TxDevice) (e : TxEvent) : TxDevice := (txStep qmiCfg d e).getD d

theorem after_step {d : TxDevice} {e : TxEvent} (h : (txStep qmiCfg d e).isSome = true) :
    TxStep qmiCfg d e (d.after e) := by
  obtain ⟨d', hd'⟩ := Option.isSome_iff_exists.mp h
  rw [TxStep, TxDevice.after, hd', Option.getD_some]

/-- A flow with mark 1, and a bearer with the default grant. -/
def flowUp : TxDevice := quietDevice.after (.control (.addFlow ⟨5, 1, afInet, 1⟩))

theorem flowUp_exec : Exec TxInit (TxStep qmiCfg) [(quietDevice, .control (.addFlow ⟨5, 1, afInet, 1⟩))] flowUp :=
  (Exec.start quietDevice_init).next (after_step rfl)

theorem flowUp_fits : TxFits (fun _ => 1) {5} quietDevice (.control (.addFlow ⟨5, 1, afInet, 1⟩)) :=
  ⟨⟨rfl, rfl⟩, id, fun _ _ q skb hskb => by cases hskb⟩

/-- A packet that waits on queue 1, for the bearer of its flow. -/
theorem packets_wait_for_bearer_udp :
    ∃ h d, Exec TxInit (TxStep qmiCfg) h d ∧ d.waiting 1 = [udpPacket] ∧ payer d.qos udpPacket = some 0 ∧
      ∀ d' ∈ h.map Prod.fst ++ [d], (∀ q, ∀ skb ∈ d'.waiting q, WaitsForBearer d'.qos q skb) ∧
        ∀ f ∈ d'.qos.flowHead, ∀ a, f.bearer = some a →
          (d'.qos.stopped (d'.qos.heap a).mqIdx = true ↔ (d'.qos.heap a).grantSize = 0) := by
  have hex := flowUp_exec.next (after_step (e := .queue udpPacket) rfl)
  refine ⟨_, _, hex, rfl, rfl, packets_wait_for_bearer qmiCfg rfl (fun _ => 1) {5} oneQueue.1 oneQueue.2 hex ?_⟩
  intro x hx
  simp only [List.cons_append, List.nil_append, List.mem_cons, List.not_mem_nil, or_false] at hx
  rcases hx with rfl | rfl
  · exact flowUp_fits
  · show udpPacket.SameFamily
    decide

/-! ### The grant -/

/-- The packet that an event sends. -/
def sentPacket : TxDevice × TxEvent → Option XmitSkb
  | (d, .transmit q i) => (d.waiting q)[i]?
  | _ => none

/-- The packet that an event charges to the bearer at `a`. -/
def chargedTo (a : Addr) (x : TxDevice × TxEvent) : Option XmitSkb :=
  (sentPacket x).filter fun skb => payer x.1.qos skb = some a

/-- Indications, timers and the like leave the grant of the bearer at `a` as it is. -/
def KeepsGrant (cfg : DfcConfig) (a : Addr) (d : TxDevice) : TxEvent → Prop
  | .control op => ∀ qos, dfcStep cfg d.qos op = some qos → (qos.heap a).grantSize = (d.qos.heap a).grantSize
  | _ => True

section

variable {m : ℕ → ℕ} {ids : Set ℕ} {cfg : DfcConfig} {d d' : TxDevice} {a : Addr}

theorem burstFcCheck_grant (cfg : DfcConfig) (qos : QosInfo) (skb : XmitSkb) (a : Addr) :
    ((qmiRmnetBurstFcCheck cfg qos skb).heap a).grantSize
      = if payer qos skb = some a then (qos.heap a).grantSize - skb.skb.len else (qos.heap a).grantSize := by
  unfold qmiRmnetBurstFcCheck
  cases hp : payer qos skb with
  | none =>
    rw [payer] at hp
    simp [dfcQmiBurstCheck, hp]
  | some b =>
    have hw := burstCheck_wrote cfg skb.skb.len hp
    by_cases hab : a = b
    · subst hab
      rw [if_pos rfl, hw.heap_self, burstBearer]
      simp only
      split <;> omega
    · rw [if_neg (by simpa using Ne.symm hab), hw.heap_ne hab]

/-- A transmission, with its packet. -/
theorem transmit_cases {q i : ℕ} (hstep : TxStep cfg d (.transmit q i) d') :
    ∃ skb, (d.waiting q)[i]? = some skb ∧ d.qos.stopped q = false ∧
      d' = { d.take q i with qos := qmiRmnetBurstFcCheck cfg d.qos skb } := by
  simp only [TxStep, txStep] at hstep
  split at hstep
  · cases hstep
  · rename_i hst
    obtain ⟨skb, hskb, rfl⟩ := Option.map_eq_some_iff.mp hstep
    exact ⟨skb, hskb, by simpa using hst, rfl⟩

/-- **The grant of a bearer is a credit**: packets are charged to it when they are sent, and a data packet is sent
only while some of it is left. -/
theorem grant_metered (cfg : DfcConfig) (m : ℕ → ℕ) (ids : Set ℕ) (a : Addr) :
    Metered (TxStep cfg) (fun d e => TxInv m ids d ∧ KeepsGrant cfg a d e) (fun d => (d.qos.heap a).grantSize)
      (chargedTo a) (fun skb => skb.skb.len) XmitSkb.isData where
  free := by
    intro d e d' hstep hok hnone
    cases e with
    | control op =>
      obtain ⟨qos, hqos, rfl⟩ := Option.map_eq_some_iff.mp hstep
      exact hok.2 qos hqos
    | queue skb =>
      obtain rfl := Option.some.inj hstep
      rfl
    | drop q i =>
      obtain rfl := Option.some.inj hstep
      rfl
    | transmit q i =>
      obtain ⟨skb, hskb, -, rfl⟩ := transmit_cases hstep
      simp only [chargedTo, sentPacket, hskb, Option.filter_some, ite_eq_right_iff, reduceCtorEq, imp_false,
        decide_eq_true_eq] at hnone
      simp only [burstFcCheck_grant, if_neg hnone]
  pays := by
    intro d e d' skb hstep _ hskb
    obtain ⟨hsent, hpay⟩ := Option.filter_eq_some_iff.mp hskb
    cases e with
    | transmit q i =>
      obtain ⟨skb', hskb', -, rfl⟩ := transmit_cases hstep
      obtain rfl := Option.some.inj (hskb'.symm.trans hsent)
      simp only [burstFcCheck_grant, if_pos (of_decide_eq_true hpay)]
    | _ => cases hsent
  gate := by
    intro d e d' skb hstep hok hskb hdata
    obtain ⟨hsent, hpay⟩ := Option.filter_eq_some_iff.mp hskb
    cases e with
    | transmit q i =>
      obtain ⟨skb', hskb', hopen, -⟩ := transmit_cases hstep
      obtain rfl := Option.some.inj (hskb'.symm.trans hsent)
      obtain ⟨hb, -, hq⟩ := hok.1.queue_of_payer (List.mem_of_getElem? hskb') (of_decide_eq_true hpay)
      -- a data packet waits on the data queue, which is open
      simp only [XmitSkb.isData, Bool.and_eq_true, Bool.not_eq_true'] at hdata
      rw [queueOf, hdata.1, hdata.2] at hq
      by_contra hz
      have hst := hb.data.mpr (by omega)
      rw [← show q = m (d.qos.heap a).bearerId from hq, hopen] at hst
      cases hst
    | _ => cases hsent

end

/-- The indication of a grant of 30 bytes. -/
def grant30 : TxEvent := .control (.flowStatus false 0 0 ⟨1, 5, 30, 1, false, 0⟩ false)

end Rmnet
