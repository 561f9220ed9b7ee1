import Rmnet.Qos.QueueState
import Rmnet.Uplink.Egress

/-!
# Which queue a packet waits on

`rmnet_vnd_select_queue` looks the packet's flow up by its mark and its protocol, when the packet is queued;
`rmnet_vnd_start_xmit` looks it up again by its mark and the version in its IP header, when the packet is sent, to
charge it to the bearer.  In SA mode a packet waits on the queue of its flow, a TCP ACK on the ACK queue of the
flow's bearer, and neighbour discovery on the default queue.

* `selectQueue_eq` — the queue of a packet depends on the bearer id of its flow only.
* `dfcStep_flowBearer` — an operation changes the flow of its own key only.
-/

namespace Rmnet

open Word Field Transition

/-! ### Packets -/

/-- `AF_INET`. -/
def afInet : ℤ := 2

/-- `AF_INET6`. -/
def afInet6 : ℤ := 10

/-- `IPPROTO_ICMPV6`. -/
def ipprotoIcmpv6 : ℕ := 58

/-- A buffer that the network stack hands to the device: `linear` starts at the network header, and
`transportHeader` is counted from there.  `tcpPureAck` is `skb_is_tcp_pure_ack`, the mark that the local TCP puts on
its ACKs. -/
structure XmitSkb extends TxSkb where
  mark : ℕ
  transportHeader : ℕ
  tcpPureAck : Bool

/-- `_qmi_rmnet_is_tcp_ack`: a TCP segment without data and with no flag but `ACK`. -/
def _qmiRmnetIsTcpAck (skb : XmitSkb) : Bool :=
  let ip := skb.skb.linear
  let tcp := ip.drop skb.transportHeader
  let doff := byteAt tcp 12 / 16
  match skb.protocol with
  | .ip =>
      byteAt ip 9 = ipprotoTcp && (be16At ip 2 : ℤ) - (byteAt ip 0 % 16 * 4 : ℕ) = (doff * 4 : ℕ) &&
        byteAt tcp 13 = 0x10
  | .ipv6 => byteAt ip 6 = ipprotoTcp && be16At ip 4 = doff * 4 && byteAt tcp 13 = 0x10
  | .other => false

/-- `qmi_rmnet_is_tcp_ack`: local or forwarded. -/
def qmiRmnetIsTcpAck (skb : XmitSkb) : Bool := skb.tcpPureAck || _qmiRmnetIsTcpAck skb

/-- Neighbour discovery: ICMPv6 of the types 133 to 137. -/
def XmitSkb.isNdp (skb : XmitSkb) : Bool :=
  let type := byteAt skb.skb.linear skb.transportHeader
  skb.protocol = .ipv6 && byteAt skb.skb.linear 6 = ipprotoIcmpv6 && 133 ≤ type && type ≤ 137

/-! ### The two lookups -/

/-- The IP type that `qmi_rmnet_get_queue` looks a flow up with. -/
def XmitSkb.queueIpType (skb : XmitSkb) : ℤ := if skb.protocol = .ipv6 then afInet6 else afInet

/-- The IP type that `rmnet_vnd_start_xmit` charges with. -/
def XmitSkb.xmitIpType (skb : XmitSkb) : ℤ := if byteAt skb.skb.linear 0 / 16 = 4 then afInet else afInet6

/-- `qmi_rmnet_get_queue_sa`. -/
def qmiRmnetGetQueueSa (qos : QosInfo) (skb : XmitSkb) : ℕ :=
  if skb.isNdp then defaultMqNum
  else
    match qmiRmnetGetFlowMap qos skb.mark skb.queueIpType with
    | none => defaultMqNum
    | some itm =>
        match itm.bearer with
        | some a => if qmiRmnetIsTcpAck skb then (qos.heap a).ackMqIdx else itm.mqIdx
        | none => itm.mqIdx

/-- `qmi_rmnet_get_queue`; without a `qos_info` there is one queue. -/
def qmiRmnetGetQueue (cfg : DfcConfig) (qos : Option QosInfo) (skb : XmitSkb) : ℕ :=
  match qos with
  | none => 0
  | some qos =>
      if cfg.dfcMode = dfcModeSa then qmiRmnetGetQueueSa qos skb
      else
        match qmiRmnetGetFlowMap qos skb.mark skb.queueIpType with
        | none => 0
        | some itm => itm.mqIdx

/-- `rmnet_vnd_select_queue`, less its trace and the statistics by process. -/
def rmnetVndSelectQueue (cfg : DfcConfig) (realDev : Bool) (realNumTxQueues : ℕ) (qos : Option QosInfo)
    (skb : XmitSkb) : ℕ :=
  let txq := if realDev then qmiRmnetGetQueue cfg qos skb else 0
  if txq < realNumTxQueues then txq else 0

/-- `qmi_rmnet_burst_fc_check`, as `rmnet_vnd_start_xmit` calls it for a packet. -/
def qmiRmnetBurstFcCheck (cfg : DfcConfig) (qos : QosInfo) (skb : XmitSkb) : QosInfo :=
  dfcQmiBurstCheck cfg qos skb.xmitIpType skb.mark skb.skb.len

/-- The protocol of the buffer and the version in its IP header agree. -/
def XmitSkb.SameFamily (skb : XmitSkb) : Prop := skb.queueIpType = skb.xmitIpType

instance (skb : XmitSkb) : Decidable skb.SameFamily := inferInstanceAs (Decidable (_ = _))

/-! ### The queue of a packet -/

/-- The bearer id of the flow with a key. -/
def flowBearer (qos : QosInfo) (key : ℕ × ℤ) : Option ℕ :=
  (qmiRmnetGetFlowMap qos key.1 key.2).map RmnetFlowMap.bearerId

/-- The flow of a packet. -/
def XmitSkb.key (skb : XmitSkb) : ℕ × ℤ := (skb.mark, skb.queueIpType)

/-- The queue of a packet whose flow has a bearer with the given id. -/
def queueOf (m : ℕ → ℕ) (skb : XmitSkb) : Option ℕ → ℕ
  | none => defaultMqNum
  | some id =>
      if skb.isNdp then defaultMqNum else if qmiRmnetIsTcpAck skb then m id + ackMqOffset else m id

section

variable {m : ℕ → ℕ} {ids : Set ℕ}

/-- A flow has a bearer with its id and with queues. -/
theorem QosInv.flow_bound {qos : QosInfo} (h : QosInv m ids qos) {f : RmnetFlowMap} (hf : f ∈ qos.flowHead) :
    ∃ a, f.bearer = some a ∧ (qos.heap a).bearerId = f.bearerId ∧ Bound m ids qos a ∧ a ∈ qos.bearerHead := by
  obtain ⟨a, ha, hid⟩ := h.table.bearer f hf
  have hmem : a ∈ qos.refs := List.mem_filterMap.mpr ⟨f, hf, ha⟩
  exact ⟨a, ha, hid, h.bound a hmem, h.table.inv.refs_mem a hmem⟩

/-- **The queue of a packet depends on the bearer id of its flow only.** -/
theorem selectQueue_eq (hm : QueueMap m ids) {cfg : DfcConfig} (hsa : cfg.dfcMode = dfcModeSa) {qos : QosInfo}
    (h : QosInv m ids qos) (skb : XmitSkb) :
    rmnetVndSelectQueue cfg true qos.numTxQueues (some qos) skb = queueOf m skb (flowBearer qos skb.key) := by
  have hq := h.queue.queues
  have hclamp : ∀ q, q ≤ 30 → (if q < qos.numTxQueues then q else 0) = q := fun q hle => if_pos (by omega)
  simp only [rmnetVndSelectQueue, if_true, qmiRmnetGetQueue, hsa, qmiRmnetGetQueueSa, flowBearer, XmitSkb.key]
  cases hg : qmiRmnetGetFlowMap qos skb.mark skb.queueIpType with
  | none =>
    rw [ite_self]
    exact hclamp _ (by decide)
  | some itm =>
    have hmem := (getFlowMap_some hg).1
    obtain ⟨a, ha, hid, hb, -⟩ := h.flow_bound hmem
    have hr := hm.range _ hb.id_mem
    simp only [ha, Option.map_some, queueOf, hb.ackMqIdx, h.flowMq itm hmem, hid]
    rw [hid] at hr
    refine hclamp _ ?_
    simp only [ackMqOffset, maxMqNum, defaultMqNum]
    split
    · omega
    · split <;> omega

end

/-! ### The flow of a key -/

/-- `qmi_rmnet_add_flow` and `qmi_rmnet_del_flow` name a flow. -/
def DfcOp.key : DfcOp → Option (ℕ × ℤ)
  | .addFlow tcm => some (tcm.flowId, tcm.ipType)
  | .delFlow tcm => some (tcm.flowId, tcm.ipType)
  | _ => none

/-- From `qos` to `qos'` no flow was changed but the one of the key. -/
def FlowsBut (key : ℕ × ℤ) (qos qos' : QosInfo) : Prop :=
  ∀ key', key' ≠ key → flowBearer qos' key' = flowBearer qos key'

theorem FlowsBut.of_eq {qos qos' : QosInfo} (h : qos'.flowHead = qos.flowHead) (key : ℕ × ℤ) :
    FlowsBut key qos qos' := by
  intro key' _
  rw [flowBearer, flowBearer, qmiRmnetGetFlowMap, qmiRmnetGetFlowMap, h]

theorem FlowsBut.trans {key : ℕ × ℤ} {qos qos₁ qos₂ : QosInfo} (h : FlowsBut key qos qos₁)
    (h' : FlowsBut key qos₁ qos₂) : FlowsBut key qos qos₂ :=
  fun key' hne => (h' key' hne).trans (h key' hne)

/-- Removing the entry of a key hides no other. -/
theorem find_eraseP_key {key key' : ℕ × ℤ} (hne : key' ≠ key) (l : List RmnetFlowMap) :
    (l.eraseP fun f => f.key = key).find? (fun f => f.key = key') = l.find? fun f => f.key = key' := by
  induction l with
  | nil => rfl
  | cons f l ih =>
    by_cases hf : f.key = key
    · rw [List.eraseP_cons_of_pos (by simpa using hf), List.find?_cons_of_neg]
      simpa [hf] using hne.symm
    · rw [List.eraseP_cons_of_neg (by simpa using hf), List.find?_cons, List.find?_cons, ih]

/-- Writing the entry of a key changes no other. -/
theorem find_updateFlowMap_key {key key' : ℕ × ℤ} (hne : key' ≠ key) {new : RmnetFlowMap} (hnew : new.key = key)
    (l : List RmnetFlowMap) :
    (updateFlowMap key new l).find? (fun f => f.key = key') = l.find? fun f => f.key = key' := by
  induction l with
  | nil => rfl
  | cons f l ih =>
    rw [updateFlowMap]
    by_cases hf : f.key = key
    · rw [if_pos hf, List.find?_cons_of_neg (by simpa [hnew] using hne.symm),
        List.find?_cons_of_neg (by simpa [hf] using hne.symm)]
    · rw [if_neg hf, List.find?_cons, List.find?_cons, ih]

/-- A flow in front of the list hides no other key. -/
theorem FlowsBut.cons (qos : QosInfo) (itm : RmnetFlowMap) :
    FlowsBut itm.key qos { qos with flowHead := itm :: qos.flowHead } := by
  intro key' hne
  rw [flowBearer, flowBearer, qmiRmnetGetFlowMap, qmiRmnetGetFlowMap,
    List.find?_cons_of_neg (by simpa using hne.symm)]

theorem FlowsBut.erase (qos : QosInfo) (key : ℕ × ℤ) :
    FlowsBut key qos { qos with flowHead := qos.flowHead.eraseP fun f => f.key = key } :=
  fun _ hne => congrArg _ (find_eraseP_key hne qos.flowHead)

theorem FlowsBut.update (qos : QosInfo) {key : ℕ × ℤ} {new : RmnetFlowMap} (hnew : new.key = key) :
    FlowsBut key qos { qos with flowHead := updateFlowMap key new qos.flowHead } :=
  fun _ hne => congrArg _ (find_updateFlowMap_key hne hnew qos.flowHead)

/-! ### The bearer operations leave the flows alone -/

theorem bearerGet_flowHead (cfg : DfcConfig) (kzalloc : Bool) (qos : QosInfo) (id : ℕ) :
    (qmiRmnetBearerGet cfg kzalloc qos id).1.flowHead = qos.flowHead := by
  unfold qmiRmnetBearerGet
  split
  · rfl
  · split <;> rfl

theorem bearerPut_flowHead (cfg : DfcConfig) (qos : QosInfo) (bearer : Option Addr) (reset : Bool) :
    (qmiRmnetBearerPut cfg qos bearer reset).flowHead = qos.flowHead := by
  unfold qmiRmnetBearerPut
  cases bearer with
  | none => rfl
  | some a =>
    simp only
    split
    · obtain ⟨st, heq, -⟩ := unlinkBearer_eq cfg a reset
        (qos.modifyBearer a fun b => { b with flowRef := b.flowRef - 1 })
      rw [heq]
      rfl
    · rfl

/-! ### Activations and deactivations -/

theorem delFlow_flowsBut (cfg : DfcConfig) (qos : QosInfo) (tcm : FlowReq) :
    FlowsBut (tcm.flowId, tcm.ipType) qos (qmiRmnetDelFlow cfg qos tcm) := by
  have hend : ∀ q : QosInfo,
      (qmiRmnetBearerClean (if q.flowHead = [] then netifTxWakeAllQueues q else q)).flowHead = q.flowHead := by
    intro q
    rw [bearerClean_flowHead]
    split <;> rfl
  unfold qmiRmnetDelFlow
  simp only
  cases hg : qmiRmnetGetFlowMap qos tcm.flowId tcm.ipType with
  | none => exact .of_eq (hend qos) _
  | some itm =>
    simp only [(getFlowMap_some hg).2]
    have hput : FlowsBut (tcm.flowId, tcm.ipType) qos (qmiRmnetBearerPut cfg qos itm.bearer true) :=
      .of_eq (bearerPut_flowHead cfg qos itm.bearer true) _
    exact (hput.trans (.erase _ _)).trans (.of_eq (hend _) _)

theorem createFlow_flowsBut (cfg : DfcConfig) (kzFlow kzBearer : Bool) (qos : QosInfo) (tcm : FlowReq) :
    FlowsBut (tcm.flowId, tcm.ipType) qos (createFlow cfg kzFlow kzBearer qos tcm).1 := by
  unfold createFlow
  split
  · simp only
    set itm : RmnetFlowMap := { bearerId := tcm.bearerId, flowId := tcm.flowId, ipType := tcm.ipType,
                                mqIdx := tcm.mqIdx, bearer := none }
    have hcons : FlowsBut itm.key qos { qos with flowHead := itm :: qos.flowHead } := .cons qos itm
    have hget := bearerGet_flowHead cfg kzBearer { qos with flowHead := itm :: qos.flowHead } tcm.bearerId
    generalize qmiRmnetBearerGet cfg kzBearer { qos with flowHead := itm :: qos.flowHead } tcm.bearerId = r at hget
    rcases r with ⟨qos₁, _ | a⟩
    · exact hcons.trans (.of_eq ((bearerClean_flowHead qos₁).trans hget) _)
    · have hupd : FlowsBut itm.key qos₁ { qos₁ with
          flowHead := updateFlowMap itm.key { itm with bearer := some a } qos₁.flowHead } := .update qos₁ rfl
      refine (hcons.trans (.of_eq hget _)).trans (hupd.trans (.of_eq ?_ _))
      rw [bearerClean_flowHead]
      exact (updateMq_frame cfg _ a tcm.mqIdx).1
  · exact .of_eq rfl _

theorem rebindFlow_flowsBut (cfg : DfcConfig) (kzalloc : Bool) (qos : QosInfo) {itm : RmnetFlowMap} {new : FlowReq}
    (hkey : itm.key = (new.flowId, new.ipType)) :
    FlowsBut (new.flowId, new.ipType) qos (qmiRmnetRebindFlow cfg kzalloc qos itm new).1 := by
  unfold qmiRmnetRebindFlow
  simp only
  have hget := (bearerGet_flowHead cfg kzalloc (qmiRmnetBearerPut cfg qos itm.bearer false) new.bearerId).trans
    (bearerPut_flowHead cfg qos itm.bearer false)
  generalize qmiRmnetBearerGet cfg kzalloc (qmiRmnetBearerPut cfg qos itm.bearer false) new.bearerId = r at hget
  rcases r with ⟨qos₁, _ | a⟩
  · exact .of_eq hget _
  · rw [hkey]
    have hupd : FlowsBut (new.flowId, new.ipType) qos₁ { qos₁ with
        flowHead := updateFlowMap (new.flowId, new.ipType)
          ⟨new.bearerId, new.flowId, new.ipType, new.mqIdx, some a⟩ qos₁.flowHead } := .update qos₁ rfl
    exact (FlowsBut.of_eq hget _).trans (hupd.trans (.of_eq (updateMq_frame cfg _ a new.mqIdx).1 _))

theorem addFlow_flowsBut (cfg : DfcConfig) (kzFlow kzBearer : Bool) {qos qos' : QosInfo} (h : TableInv qos)
    {tcm : FlowReq} (hadd : (qmiRmnetAddFlow cfg kzFlow kzBearer qos tcm).map Prod.fst = some qos') :
    FlowsBut (tcm.flowId, tcm.ipType) qos qos' := by
  by_cases hmq : tcm.mqIdx < maxMqNum
  · rcases addFlow_cases cfg kzFlow kzBearer h hmq with
      ⟨-, heq⟩ | ⟨itm, hg, ⟨-, heq⟩ | ⟨-, -, heq⟩ | ⟨-, -, heq⟩⟩
    all_goals
      rw [heq, Option.map_some, Option.some.injEq] at hadd
      subst hadd
    · exact createFlow_flowsBut cfg kzFlow kzBearer qos tcm
    · exact (rebindFlow_flowsBut cfg kzBearer qos (getFlowMap_some hg).2).trans
        (.of_eq (bearerClean_flowHead _) _)
    · exact (delFlow_flowsBut cfg qos tcm).trans (createFlow_flowsBut cfg kzFlow kzBearer _ tcm)
    · exact .of_eq rfl _
  · rw [qmiRmnetAddFlow, if_pos (by omega), Option.map_some, Option.some.injEq] at hadd
    subst hadd
    exact .of_eq rfl _

/-! ### Flow control leaves the flows alone -/

theorem foldl_touched_flowHead (step : QosInfo → Addr → QosInfo) (hstep : ∀ qos a, Touched qos (step qos a) a)
    (l : List Addr) : ∀ qos, (l.foldl step qos).flowHead = qos.flowHead := by
  induction l with
  | nil => exact fun _ => rfl
  | cons a l ih => exact fun qos => (ih _).trans (hstep qos a).flowHead

theorem flowStatus_flowHead (cfg : DfcConfig) (kzalloc ignoreGrant : Bool) (qos : QosInfo) (ackReq ancillary : ℕ)
    (fcInfo : FlowStatusInfo) (isQuery : Bool) :
    (dfcBurstFlowStatus cfg kzalloc ignoreGrant qos ackReq ancillary fcInfo isQuery).flowHead = qos.flowHead := by
  unfold dfcBurstFlowStatus
  split
  · rfl
  · split
    · exact foldl_touched_flowHead _ (fun _ _ => Touched.flowCtl cfg ⟨rfl, rfl, rfl, rfl⟩) _ qos
    · unfold dfcUpdateFcMap
      split
      · exact (updateFcMapBearer_touched cfg qos _ ackReq ancillary fcInfo isQuery).flowHead
      · unfold qmiRmnetGetBearerNoref
        have hget := bearerGet_flowHead cfg kzalloc qos fcInfo.bearerId
        generalize qmiRmnetBearerGet cfg kzalloc qos fcInfo.bearerId = r at hget
        rcases r with ⟨qos₁, _ | a⟩
        · exact hget
        · exact (updateFcMapBearer_touched cfg _ a ackReq ancillary fcInfo isQuery).flowHead.trans hget

theorem burstCheck_flowHead (cfg : DfcConfig) (qos : QosInfo) (ipType : ℤ) (mark len : ℕ) :
    (dfcQmiBurstCheck cfg qos ipType mark len).flowHead = qos.flowHead := by
  cases hg : (qmiRmnetGetFlowMap qos mark ipType).bind RmnetFlowMap.bearer with
  | none => simp only [dfcQmiBurstCheck, hg]
  | some a => exact (burstCheck_touched cfg qos ipType mark len hg).flowHead

/-- **An operation changes the flow of its own key only.** -/
theorem dfcStep_flowBearer (cfg : DfcConfig) {qos qos' : QosInfo} (h : TableInv qos) {op : DfcOp}
    (hstep : dfcStep cfg qos op = some qos') {key : ℕ × ℤ} (hne : op.key ≠ some key) :
    flowBearer qos' key = flowBearer qos key := by
  have hkey : ∀ {tcm : FlowReq}, op.key = some (tcm.flowId, tcm.ipType) → key ≠ (tcm.flowId, tcm.ipType) := by
    rintro tcm hop rfl
    exact hne hop
  have hsame : qos'.flowHead = qos.flowHead → flowBearer qos' key = flowBearer qos key := by
    intro hflow
    rw [flowBearer, flowBearer, qmiRmnetGetFlowMap, qmiRmnetGetFlowMap, hflow]
  cases op with
  | addFlow tcm => exact addFlow_flowsBut cfg true true h hstep key (hkey rfl)
  | delFlow tcm =>
    obtain rfl := Option.some.inj hstep
    exact delFlow_flowsBut cfg qos tcm key (hkey rfl)
  | flowStatus ignoreGrant ackReq ancillary fcInfo isQuery =>
    obtain rfl := Option.some.inj hstep
    exact hsame (flowStatus_flowHead cfg true ignoreGrant qos ackReq ancillary fcInfo isQuery)
  | txLinkStatus txStatus bearerId =>
    obtain rfl := Option.some.inj hstep
    refine hsame ?_
    cases hg : qmiRmnetGetBearerMap qos bearerId with
    | none => simp only [dfcUpdateTxLinkStatus, hg]
    | some a => exact (updateTxLinkStatus_touched cfg qos txStatus hg).flowHead
  | burstCheck ipType mark len =>
    obtain rfl := Option.some.inj hstep
    exact hsame (burstCheck_flowHead cfg qos ipType mark len)
  | watchdog a =>
    obtain rfl := Option.some.inj hstep
    refine hsame ?_
    split
    · exact (watchdogFn_touched cfg (qos.modifyBearer a watchdogExpires) a).flowHead
    · rfl
  | enableAllFlows =>
    obtain rfl := Option.some.inj hstep
    exact hsame (foldl_touched_flowHead _ (enableFlowsOf_touched cfg) _ qos)

end Rmnet
