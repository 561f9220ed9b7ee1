import Rmnet.Qos.Event

/-!
# What a sequence of charged packets does to a bearer

`dfc_qmi_burst_check` decides from the grant before and after each packet whether the threshold is crossed and
whether the grant is used up.  Over a sequence of packets charged to one bearer, with anything going on that
leaves this bearer alone, the packets of the sequence only matter by their total length.

The functions are repeated here with a log of their calls of `qmi_rmnet_flow_control` and with the
subtraction of the grant in a `u32`; `burstCheckLogged_value` says that they are the ones of the model.

* `burstCheckLogged_spec` — the calls and the messages of one packet.
* `charge_exact` — the grant, the calls and the messages after every prefix of the sequence.
-/

namespace Rmnet

open Word Transition

/-! ### The calls of `qmi_rmnet_flow_control` -/

/-- A `qos_info` with the queue and the `enable` argument of each call so far. -/
structure QueueLog where
  qos : QosInfo
  calls : List (ℕ × Bool)

/-- `qmi_rmnet_flow_control`. -/
def QueueLog.flowControl (w : QueueLog) (mqIdx : ℕ) (enable : Bool) : QueueLog :=
  { qos := qmiRmnetFlowControl w.qos mqIdx enable, calls := w.calls ++ [(mqIdx, enable)] }

/-- `dfc_bearer_flow_ctl`. -/
def bearerFlowCtlLogged (cfg : DfcConfig) (w : QueueLog) (a : Addr) : QueueLog :=
  let bearer := w.qos.heap a
  let enable : Bool := bearer.grantSize ≠ 0
  let w := w.flowControl bearer.mqIdx enable
  let w := if bearer.ackMqIdx ≠ invalidMq ∧ (enable || !bearer.tcpBidir) then
      w.flowControl bearer.ackMqIdx enable
    else w
  if !enable ∧ bearer.ackReq ≠ 0 then
    { w with qos := dfcSendAck cfg w.qos bearer.bearerId bearer.seq w.qos.muxId dfcAckTypeDisable }
  else w

/-- `dfc_qmi_burst_check`, for a packet charged to the bearer at `a`. -/
def burstBearerLogged (cfg : DfcConfig) (w : QueueLog) (a : Addr) (len : ℕ) : QueueLog :=
  let qos := w.qos.modifyBearer a fun b => { b with bytesInFlight := u32 (b.bytesInFlight + len) }
  let startGrant := (qos.heap a).grantSize
  if startGrant = 0 then { w with qos := qos }
  else
    let qos := qos.modifyBearer a fun b =>
      { b with grantSize := if b.grantSize ≤ len then 0 else sub32 b.grantSize len }
    let bearer := qos.heap a
    let qos :=
      if bearer.grantThresh < startGrant ∧ bearer.grantSize ≤ bearer.grantThresh then
        dfcSendAck cfg qos bearer.bearerId bearer.seq qos.muxId dfcAckTypeThreshold
      else qos
    if bearer.grantSize = 0 then bearerFlowCtlLogged cfg { w with qos := qos } a else { w with qos := qos }

/-- `dfc_qmi_burst_check`. -/
def burstCheckLogged (cfg : DfcConfig) (w : QueueLog) (ipType : ℤ) (mark len : ℕ) : QueueLog :=
  match (qmiRmnetGetFlowMap w.qos mark ipType).bind RmnetFlowMap.bearer with
  | none => w
  | some a => burstBearerLogged cfg w a len

theorem bearerFlowCtlLogged_value (cfg : DfcConfig) (w : QueueLog) (a : Addr) :
    (bearerFlowCtlLogged cfg w a).qos = dfcBearerFlowCtl cfg w.qos a := by
  rw [bearerFlowCtlLogged, dfcBearerFlowCtl]
  simp only [QueueLog.flowControl]
  split_ifs <;> rfl

/-- **The logged functions are those of the model**, and the grant of a `u32` is never borrowed against. -/
theorem burstCheckLogged_value (cfg : DfcConfig) (w : QueueLog) {ipType : ℤ} {mark : ℕ} {a : Addr} (len : ℕ)
    (ha : (qmiRmnetGetFlowMap w.qos mark ipType).bind RmnetFlowMap.bearer = some a)
    (hu32 : (w.qos.heap a).grantSize < 4294967296) :
    (burstCheckLogged cfg w ipType mark len).qos = dfcQmiBurstCheck cfg w.qos ipType mark len := by
  have hsub : ∀ b : RmnetBearerMap, b.grantSize = (w.qos.heap a).grantSize → ¬ b.grantSize ≤ len →
      sub32 b.grantSize len = b.grantSize - len := by
    intro b hb hle
    apply sub32_of_le <;> omega
  rw [burstCheckLogged, dfcQmiBurstCheck, ha]
  simp only [burstBearerLogged]
  set q := w.qos.modifyBearer a fun b => { b with bytesInFlight := u32 (b.bytesInFlight + len) } with hq
  have hg : (q.heap a).grantSize = (w.qos.heap a).grantSize := by rw [hq, modifyBearer_heap_self]
  have hmod : (q.modifyBearer a fun b =>
      { b with grantSize := if b.grantSize ≤ len then 0 else sub32 b.grantSize len }) =
      q.modifyBearer a fun b =>
        { b with grantSize := if b.grantSize ≤ len then 0 else b.grantSize - len } := by
    simp only [QosInfo.modifyBearer]
    by_cases hle : (q.heap a).grantSize ≤ len
    · simp only [if_pos hle]
    · simp only [if_neg hle, hsub _ hg hle]
  rw [hmod]
  split_ifs <;> simp only [bearerFlowCtlLogged_value]

/-! ### One packet -/

/-- The `DFC_ACK_TYPE_…` that a message was sent for: in QMAP mode a query stands for the threshold, and the
confirmation of an end marker for the stop. -/
def DfcMsg.ackType : DfcMsg → ℕ
  | .ack _ _ _ ackType _ => ackType
  | .endMarkerCnf _ _ _ _ => dfcAckTypeDisable
  | .query _ _ => dfcAckTypeThreshold

/-- The calls that stop the queues of a bearer: its own queue, and its ACK queue unless TCP is
bidirectional. -/
def RmnetBearerMap.stopCalls (b : RmnetBearerMap) : List (ℕ × Bool) :=
  (b.mqIdx, false) ::
    if b.ackMqIdx ≠ invalidMq ∧ b.tcpBidir = false then [(b.ackMqIdx, false)] else []

/-- An acknowledgement for a listed bearer is one message. -/
theorem sendAck_signal (cfg : DfcConfig) (qos : QosInfo) {a : Addr} (ha : a ∈ qos.bearerHead)
    (seq muxId : ℕ) {type : ℕ} (htype : type = dfcAckTypeDisable ∨ type = dfcAckTypeThreshold) :
    ∃ m t, dfcSendAck cfg qos (qos.heap a).bearerId seq muxId type =
      { qos with sent := qos.sent ++ [m], tranNum := t } ∧ m.ackType = type := by
  rw [dfcSendAck]
  by_cases hqmap : cfg.dfcQmap = true
  · rw [if_pos hqmap, dfcQmapSendAck]
    rcases htype with rfl | rfl
    · rw [if_pos rfl]
      cases hg : qmiRmnetGetBearerMap qos (qos.heap a).bearerId with
      | none => exact absurd rfl (getBearerMap_none hg a ha)
      | some c => exact ⟨_, qos.tranNum, rfl, rfl⟩
    · rw [if_neg (by decide), if_pos rfl]
      exact ⟨_, qos.tranNum, rfl, rfl⟩
  · rw [if_neg hqmap]
    exact ⟨_, _, rfl, rfl⟩

/-- `dfc_bearer_flow_ctl` for a listed bearer without grant. -/
theorem bearerFlowCtlLogged_stop (cfg : DfcConfig) {w : QueueLog} {a : Addr} (ha : a ∈ w.qos.bearerHead)
    (hz : (w.qos.heap a).grantSize = 0) :
    ∃ ms, (bearerFlowCtlLogged cfg w a).qos.sent = w.qos.sent ++ ms ∧
      ms.map DfcMsg.ackType = (if (w.qos.heap a).ackReq ≠ 0 then [dfcAckTypeDisable] else []) ∧
      (bearerFlowCtlLogged cfg w a).calls = w.calls ++ (w.qos.heap a).stopCalls := by
  rw [bearerFlowCtlLogged]
  have henable : decide ((w.qos.heap a).grantSize ≠ 0) = false := by simp [hz]
  simp only [henable, Bool.false_or, Bool.not_eq_true', Bool.not_false, true_and]
  -- the state after the queue calls
  obtain ⟨st, calls, hw, hcalls⟩ : ∃ st calls,
      (if (w.qos.heap a).ackMqIdx ≠ invalidMq ∧ (w.qos.heap a).tcpBidir = false then
        (w.flowControl (w.qos.heap a).mqIdx false).flowControl (w.qos.heap a).ackMqIdx false
      else w.flowControl (w.qos.heap a).mqIdx false) =
        { qos := { w.qos with stopped := st }, calls := calls } ∧
      calls = w.calls ++ (w.qos.heap a).stopCalls := by
    obtain ⟨st₁, h₁, -⟩ := flowControl_eq w.qos (w.qos.heap a).mqIdx false
    obtain ⟨st₂, h₂, -⟩ := flowControl_eq { w.qos with stopped := st₁ } (w.qos.heap a).ackMqIdx false
    by_cases hack : (w.qos.heap a).ackMqIdx ≠ invalidMq ∧ (w.qos.heap a).tcpBidir = false
    · refine ⟨st₂, _, ?_, rfl⟩
      rw [if_pos hack, RmnetBearerMap.stopCalls, if_pos hack]
      simp only [QueueLog.flowControl, h₁, h₂, List.append_assoc, List.cons_append, List.nil_append]
    · refine ⟨st₁, _, ?_, rfl⟩
      rw [if_neg hack, RmnetBearerMap.stopCalls, if_neg hack]
      simp only [QueueLog.flowControl, h₁]
  rw [hw]
  by_cases hreq : (w.qos.heap a).ackReq ≠ 0
  · rw [if_pos hreq, if_pos hreq]
    obtain ⟨m, t, hm, htype⟩ := sendAck_signal cfg { w.qos with stopped := st } ha
      (w.qos.heap a).seq w.qos.muxId (.inl rfl)
    refine ⟨[m], ?_, by rw [List.map_singleton, htype], hcalls⟩
    simp only [hm]
  · rw [if_neg hreq, if_neg hreq]
    exact ⟨[], (List.append_nil _).symm, rfl, hcalls⟩

/-- The `DFC_ACK_TYPE_…` values of the messages of one packet. -/
def burstSignals (len : ℕ) (b : RmnetBearerMap) : List ℕ :=
  (if b.grantThresh < b.grantSize ∧ b.grantSize - len ≤ b.grantThresh then [dfcAckTypeThreshold] else []) ++
    if 0 < b.grantSize ∧ b.grantSize ≤ len ∧ b.ackReq ≠ 0 then [dfcAckTypeDisable] else []

/-- **One packet.**  Charged to a listed bearer it writes `burstBearer`, stops the queues when it takes the last
of the grant, and sends the messages of `burstSignals`. -/
theorem burstCheckLogged_spec (cfg : DfcConfig) (w : QueueLog) {ipType : ℤ} {mark : ℕ} {a : Addr} (len : ℕ)
    (ha : (qmiRmnetGetFlowMap w.qos mark ipType).bind RmnetFlowMap.bearer = some a)
    (hlist : a ∈ w.qos.bearerHead) (hu32 : (w.qos.heap a).grantSize < 4294967296) :
    ∃ ms, (burstCheckLogged cfg w ipType mark len).qos.sent = w.qos.sent ++ ms ∧
      ms.map DfcMsg.ackType = burstSignals len (w.qos.heap a) ∧
      (burstCheckLogged cfg w ipType mark len).calls = w.calls ++
        (if 0 < (w.qos.heap a).grantSize ∧ (w.qos.heap a).grantSize ≤ len then (w.qos.heap a).stopCalls
          else []) := by
  have hg32 : ¬ (w.qos.heap a).grantSize ≤ len →
      sub32 (w.qos.heap a).grantSize len = (w.qos.heap a).grantSize - len := fun hle =>
    sub32_of_le (by omega) hu32
  rw [burstCheckLogged, ha]
  simp only [burstBearerLogged, modifyBearer_heap_self]
  by_cases hz : (w.qos.heap a).grantSize = 0
  · rw [if_pos hz]
    refine ⟨[], (List.append_nil _).symm, ?_, ?_⟩
    · simp [burstSignals, hz]
    · simp [hz]
  rw [if_neg hz]
  set q := (w.qos.modifyBearer a fun b => { b with bytesInFlight := u32 (b.bytesInFlight + len) }).modifyBearer a
    fun b => { b with grantSize := if b.grantSize ≤ len then 0 else sub32 b.grantSize len } with hq
  have hqa : q.heap a = burstBearer len (w.qos.heap a) := by
    rw [hq, modifyBearer_heap_self, modifyBearer_heap_self, burstBearer]
    by_cases hle : (w.qos.heap a).grantSize ≤ len
    · simp only [if_pos hle]
    · simp only [if_neg hle, hg32 hle]
  have hgrant : (if (w.qos.heap a).grantSize ≤ len then 0 else sub32 (w.qos.heap a).grantSize len) =
      (w.qos.heap a).grantSize - len := by
    split
    · omega
    · exact hg32 ‹_›
  simp only [hgrant]
  -- the threshold message
  obtain ⟨ms₁, t₁, hsend, htype⟩ : ∃ ms t,
      (if (w.qos.heap a).grantThresh < (w.qos.heap a).grantSize ∧
          (w.qos.heap a).grantSize - len ≤ (w.qos.heap a).grantThresh then
        dfcSendAck cfg q (w.qos.heap a).bearerId (w.qos.heap a).seq q.muxId dfcAckTypeThreshold
      else q) = { q with sent := q.sent ++ ms, tranNum := t } ∧
      ms.map DfcMsg.ackType = if (w.qos.heap a).grantThresh < (w.qos.heap a).grantSize ∧
        (w.qos.heap a).grantSize - len ≤ (w.qos.heap a).grantThresh then [dfcAckTypeThreshold] else [] := by
    split
    · obtain ⟨m, t, hm, htype⟩ := sendAck_signal cfg q (a := a) hlist (w.qos.heap a).seq q.muxId (.inr rfl)
      rw [hqa] at hm
      exact ⟨[m], t, hm, by rw [List.map_singleton, htype]⟩
    · exact ⟨[], q.tranNum, by rw [List.append_nil], rfl⟩
  rw [hsend]
  by_cases hle : (w.qos.heap a).grantSize ≤ len
  · -- the packet takes the rest of the grant
    rw [if_pos (by omega)]
    obtain ⟨ms₂, hsent, hreq, hcalls⟩ := bearerFlowCtlLogged_stop cfg (a := a)
      (w := { w with qos := { q with sent := q.sent ++ ms₁, tranNum := t₁ } }) hlist
      (by simp only [hqa, burstBearer, if_pos hle])
    simp only [hqa] at hreq hcalls
    refine ⟨ms₁ ++ ms₂, ?_, ?_, ?_⟩
    · rw [hsent, ← List.append_assoc]
      rfl
    · rw [List.map_append, htype, hreq, burstSignals]
      simp [burstBearer, hle, Nat.pos_of_ne_zero hz]
    · rw [hcalls, if_pos ⟨Nat.pos_of_ne_zero hz, hle⟩]
      rfl
  · rw [if_neg (by omega)]
    refine ⟨ms₁, rfl, ?_, ?_⟩
    · rw [htype, burstSignals, if_neg (c := 0 < (w.qos.heap a).grantSize ∧ _) (by omega), List.append_nil]
    · rw [if_neg (by omega), List.append_nil]

/-! ### A sequence of packets -/

/-- The device, the total length of the packets charged so far, and the calls and the messages they led to. -/
structure ChargeRun where
  qos : QosInfo
  total : ℕ
  calls : List (ℕ × Bool)
  msgs : List DfcMsg

/-- A packet, or anything that leaves the device in another state. -/
inductive ChargeEvent
  | charge (ipType : ℤ) (mark len : ℕ)
  | elsewhere (qos : QosInfo)

/-- The run after an event. -/
def chargeNext (cfg : DfcConfig) (r : ChargeRun) : ChargeEvent → ChargeRun
  | .charge ipType mark len =>
      let w := burstCheckLogged cfg { qos := r.qos, calls := r.calls } ipType mark len
      { qos := w.qos, total := r.total + len, calls := w.calls,
        msgs := r.msgs ++ w.qos.sent.drop r.qos.sent.length }
  | .elsewhere qos => { r with qos := qos }

/-- A packet is one of a flow of the bearer at `a`; anything else leaves that bearer as it is, and on the
list. -/
def ChargeEvent.Enabled (a : Addr) (r : ChargeRun) : ChargeEvent → Prop
  | .charge ipType mark _ => (qmiRmnetGetFlowMap r.qos mark ipType).bind RmnetFlowMap.bearer = some a
  | .elsewhere qos => qos.heap a = r.qos.heap a ∧ a ∈ qos.bearerHead

/-- One event of the sequence. -/
def ChargeStep (cfg : DfcConfig) (a : Addr) (r : ChargeRun) (e : ChargeEvent) (r' : ChargeRun) : Prop :=
  e.Enabled a r ∧ r' = chargeNext cfg r e

/-- Any device that lists the bearer at `a`, with the contents `b` and a grant in a `u32`. -/
structure ChargeInit (a : Addr) (b : RmnetBearerMap) (r : ChargeRun) : Prop where
  listed : a ∈ r.qos.bearerHead
  heap : r.qos.heap a = b
  grant : b.grantSize < 4294967296
  total : r.total = 0
  calls : r.calls = []
  msgs : r.msgs = []

/-- The `DFC_ACK_TYPE_…` values of the messages of a sequence of the given total length. -/
def chargeSignals (b : RmnetBearerMap) (total : ℕ) : List ℕ :=
  (if b.grantThresh < b.grantSize ∧ b.grantSize - b.grantThresh ≤ total then [dfcAckTypeThreshold] else []) ++
    if 0 < b.grantSize ∧ b.grantSize ≤ total ∧ b.ackReq ≠ 0 then [dfcAckTypeDisable] else []

/-- The calls that a sequence of the given total length leads to. -/
def chargeCalls (b : RmnetBearerMap) (total : ℕ) : List (ℕ × Bool) :=
  if 0 < b.grantSize ∧ b.grantSize ≤ total then b.stopCalls else []

/-- The invariant: everything is a function of the total length. -/
structure ChargeInv (a : Addr) (b : RmnetBearerMap) (r : ChargeRun) : Prop where
  listed : a ∈ r.qos.bearerHead
  heap : ∃ n, r.qos.heap a = { b with grantSize := b.grantSize - r.total, bytesInFlight := n }
  grant : b.grantSize < 4294967296
  calls : r.calls = chargeCalls b r.total
  msgs : r.msgs.map DfcMsg.ackType = chargeSignals b r.total

theorem ChargeInit.inv {a : Addr} {b : RmnetBearerMap} {r : ChargeRun} (h : ChargeInit a b r) :
    ChargeInv a b r where
  listed := h.listed
  heap := ⟨b.bytesInFlight, by rw [h.heap, h.total]; rfl⟩
  grant := h.grant
  calls := by
    rw [h.calls, h.total, chargeCalls, if_neg (by omega)]
  msgs := by
    rw [h.msgs, h.total, chargeSignals, if_neg (by omega), if_neg (by omega)]
    rfl

/-- The calls of a sequence, and of one packet more. -/
theorem chargeCalls_add (b : RmnetBearerMap) (total len n : ℕ) :
    chargeCalls b total ++ chargeCalls { b with grantSize := b.grantSize - total, bytesInFlight := n } len =
      chargeCalls b (total + len) := by
  simp only [chargeCalls, RmnetBearerMap.stopCalls]
  by_cases hg : b.grantSize ≤ total
  · rw [if_neg (c := 0 < b.grantSize - total ∧ _) (by omega), List.append_nil]
    exact if_congr (by omega) rfl rfl
  · rw [if_neg (c := 0 < b.grantSize ∧ b.grantSize ≤ total) (by omega), List.nil_append]
    exact if_congr (by omega) rfl rfl

/-- The messages of a sequence, and of one packet more. -/
theorem chargeSignals_add (b : RmnetBearerMap) (total len n : ℕ) :
    chargeSignals b total ++
        burstSignals len { b with grantSize := b.grantSize - total, bytesInFlight := n } =
      chargeSignals b (total + len) := by
  simp only [chargeSignals, burstSignals]
  by_cases hg : b.grantSize ≤ total
  · -- nothing is left to signal
    rw [if_neg (c := b.grantThresh < b.grantSize - total ∧ _) (by omega),
      if_neg (c := 0 < b.grantSize - total ∧ _) (by omega)]
    rw [List.append_nil, List.append_nil]
    congr 1
    · exact if_congr (by omega) rfl rfl
    · refine if_congr ?_ rfl rfl
      constructor
      · intro h
        exact ⟨h.1, by omega, h.2.2⟩
      · intro h
        exact ⟨h.1, hg, h.2.2⟩
  · rw [if_neg (c := 0 < b.grantSize ∧ b.grantSize ≤ total ∧ _) (by omega), List.append_nil, ← List.append_assoc]
    congr 1
    · by_cases hpast : b.grantSize - b.grantThresh ≤ total
      · rw [if_neg (c := b.grantThresh < b.grantSize - total ∧ _) (by omega), List.append_nil]
        exact if_congr (by omega) rfl rfl
      · rw [if_neg (c := b.grantThresh < b.grantSize ∧ b.grantSize - b.grantThresh ≤ total) (by omega),
          List.nil_append]
        exact if_congr (by omega) rfl rfl
    · refine if_congr ?_ rfl rfl
      constructor
      · intro h
        exact ⟨by omega, by omega, h.2.2⟩
      · intro h
        exact ⟨by omega, by omega, h.2.2⟩

/-- One event keeps the invariant. -/
theorem ChargeInv.step {cfg : DfcConfig} {a : Addr} {b : RmnetBearerMap} {r r' : ChargeRun} {e : ChargeEvent}
    (h : ChargeInv a b r) (hs : ChargeStep cfg a r e r') : ChargeInv a b r' := by
  obtain ⟨hen, rfl⟩ := hs
  obtain ⟨n, hheap⟩ := h.heap
  cases e with
  | elsewhere qos => exact ⟨hen.2, ⟨n, hen.1.trans hheap⟩, h.grant, h.calls, h.msgs⟩
  | charge ipType mark len =>
    have hgrant : (r.qos.heap a).grantSize < 4294967296 := by
      have := h.grant
      rw [hheap]
      show b.grantSize - r.total < 4294967296
      omega
    obtain ⟨ms, hsent, hms, hcalls⟩ := burstCheckLogged_spec cfg { qos := r.qos, calls := r.calls } len hen
      h.listed hgrant
    have hwrote := burstCheck_wrote cfg len hen
    rw [← burstCheckLogged_value cfg { qos := r.qos, calls := r.calls } len hen hgrant] at hwrote
    refine ⟨?_, ?_, h.grant, ?_, ?_⟩
    · rw [chargeNext, hwrote.bearerHead]
      exact h.listed
    · refine ⟨u32 (n + len), ?_⟩
      rw [chargeNext, hwrote.heap_self, hheap, burstBearer]
      simp only [RmnetBearerMap.mk.injEq, true_and, and_true]
      split <;> omega
    · rw [chargeNext, hcalls, h.calls, hheap]
      exact chargeCalls_add b r.total len n
    · show (r.msgs ++ List.drop _ (burstCheckLogged cfg { qos := r.qos, calls := r.calls } ipType mark
        len).qos.sent).map DfcMsg.ackType = chargeSignals b (r.total + len)
      rw [hsent, List.drop_left, List.map_append, h.msgs, hms, hheap, chargeSignals_add]

/-- What a sequence of packets has done to a bearer that held `b` before it. -/
structure ConsumedExactly (a : Addr) (b : RmnetBearerMap) (r : ChargeRun) : Prop where
  grant : ((r.qos.heap a).grantSize : ℤ) = max 0 ((b.grantSize : ℤ) - r.total)
  threshold : (r.msgs.map DfcMsg.ackType).count dfcAckTypeThreshold =
    if b.grantThresh < b.grantSize ∧ 0 < r.total ∧ b.grantSize - b.grantThresh ≤ r.total then 1 else 0
  stopped : r.calls = if 0 < b.grantSize ∧ b.grantSize ≤ r.total then b.stopCalls else []
  disable : (r.msgs.map DfcMsg.ackType).count dfcAckTypeDisable =
    if (0 < b.grantSize ∧ b.grantSize ≤ r.total) ∧ b.ackReq ≠ 0 then 1 else 0

theorem ChargeInv.consumed {a : Addr} {b : RmnetBearerMap} {r : ChargeRun} (h : ChargeInv a b r) :
    ConsumedExactly a b r where
  grant := by
    obtain ⟨n, hheap⟩ := h.heap
    rw [hheap]
    show ((b.grantSize - r.total : ℕ) : ℤ) = _
    omega
  threshold := by
    rw [h.msgs, chargeSignals, List.count_append]
    have hdis : (if 0 < b.grantSize ∧ b.grantSize ≤ r.total ∧ b.ackReq ≠ 0 then [dfcAckTypeDisable]
        else []).count dfcAckTypeThreshold = 0 := by
      split <;> decide
    rw [hdis, Nat.add_zero]
    by_cases ht : b.grantThresh < b.grantSize ∧ b.grantSize - b.grantThresh ≤ r.total
    · rw [if_pos ht, if_pos ⟨ht.1, by omega, ht.2⟩, List.count_singleton_self]
    · rw [if_neg ht, if_neg (fun h => ht ⟨h.1, h.2.2⟩), List.count_nil]
  stopped := h.calls
  disable := by
    rw [h.msgs, chargeSignals, List.count_append]
    have hthr : (if b.grantThresh < b.grantSize ∧ b.grantSize - b.grantThresh ≤ r.total then
        [dfcAckTypeThreshold] else []).count dfcAckTypeDisable = 0 := by
      split <;> decide
    rw [hthr, Nat.zero_add]
    simp only [and_assoc]
    split
    · exact List.count_singleton_self
    · exact List.count_nil

/-- A bearer whose grant is to be acknowledged. -/
def chargedBearer : RmnetBearerMap := { bearerFive with ackReq := 1 }

/-- A device with this bearer. -/
def chargedDevice : ChargeRun := { qos := oneBearer chargedBearer, total := 0, calls := [], msgs := [] }

end Rmnet
