import Rmnet.Endpoint.Frames
import Rmnet.Qos.Entries
import Rmnet.Qos.Qmap

/-!
# The endpoints that flow-control messages look up

The entries of a QMI indication and the header of a QMAP command name their devices by mux id, and
`rmnet_get_rmnet_dev` passes the id on to `rmnet_get_endpoint`.  On this way nobody asks whether it is in the table.
A loop over entries ends at the first one without a device, so an entry behind it does no harm.  The port of a DFC
client is never `NULL`.

* `dfcMessageProbed_indices` — the indices that a message leads to;
* `dfcMessage_within_iff` — when they are all in the table.
-/

namespace Rmnet

open Probe

/-! ### The lookups -/

/-- The loop over the entries of an indication. -/
def entryLoopProbed {ε : Type} (muxId : ε → ℕ) (update : QosInfo → ε → QosInfo) :
    List ε → DfcHost → Probed ℕ (DfcHost × List ε)
  | [], host => pure (host, [])
  | e :: es, host => do
      match ← probe host.dev (muxId e) with
      | none => pure (host, [])
      | some d =>
          match host.qos d with
          | none => entryLoopProbed muxId update es host
          | some qos => do
              let (host, done) ← entryLoopProbed muxId update es (host.setQos d (update qos e))
              pure (host, e :: done)

/-- `dfc_do_burst_flow_control`. -/
def dfcDoBurstFlowControlProbed (cfg : DfcConfig) (ignoreGrant isQuery : Bool) (ind : FlowStatusInd)
    (host : DfcHost) : Probed ℕ (DfcHost × List FlowStatusEntry) :=
  let ackReq := if ind.eodAckReqdValid then ind.eodAckReqd else 0
  entryLoopProbed (fun e => e.muxId)
    (fun qos e => dfcBurstFlowStatus cfg e.kzalloc ignoreGrant qos ackReq (ind.ancillary e)
      e.toFlowStatusInfo isQuery) ind.flowStatus host

/-- `dfc_handle_tx_link_status_ind`. -/
def dfcHandleTxLinkStatusIndProbed (cfg : DfcConfig) (ind : TxLinkStatusInd) (host : DfcHost) :
    Probed ℕ (DfcHost × List BearerInfo) :=
  entryLoopProbed BearerInfo.muxId (fun qos e => dfcUpdateTxLinkStatus cfg qos ind.txStatus e.bearerId)
    ind.bearerInfo host

/-- `dfc_qmap_set_end_marker`. -/
def dfcQmapSetEndMarkerProbed (muxId bearerId seqNum txId : ℕ) (host : DfcHost) : Probed ℕ DfcHost := do
  match ← probe host.dev muxId with
  | none => pure host
  | some d =>
      match host.qos d with
      | none => pure host
      | some qos => pure (host.setQos d (dfcQmapSetEndMarker qos bearerId seqNum txId))

/-- `qmap_tx_ind` as `dfc_qmap_handle_ind` fills it. -/
def QmapDfcInd.txInd (cmd : QmapDfcInd) : TxLinkStatusInd :=
  { txStatus := cmd.txInfo, bearerInfo := [{ muxId := cmd.muxId, bearerId := cmd.bearerId }] }

/-- `qmap_flow_ind` as the two handlers fill it. -/
def qmapFlowInd (info : FlowStatusInfo) (tcpBidir kzalloc : Bool) : FlowStatusInd :=
  { flowStatus := [{ toFlowStatusInfo := info, kzalloc := kzalloc }]
    eodAckReqdValid := false
    eodAckReqd := 0
    ancillaryInfoValid := tcpBidir
    ancillaryInfo :=
      if tcpBidir then [{ muxId := info.muxId, bearerId := info.bearerId, reserved := dfcMaskTcpBidir }] else [] }

/-- `dfc_qmap_handle_ind`. -/
def dfcQmapHandleIndProbed (cfg : DfcConfig) (kzalloc ignoreGrant : Bool) (cmd : QmapDfcInd) (host : DfcHost) :
    Probed ℕ DfcHost :=
  if cmd.txInfoValid then Prod.fst <$> dfcHandleTxLinkStatusIndProbed cfg cmd.txInd host
  else
    let info : FlowStatusInfo :=
      { muxId := cmd.muxId, bearerId := cmd.bearerId, numBytes := cmd.grant, seqNum := cmd.seqNum,
        rxBytesValid := cmd.rxBytesValid, rxBytes := if cmd.rxBytesValid then cmd.rxBytes else 0 }
    Prod.fst <$> dfcDoBurstFlowControlProbed cfg ignoreGrant false (qmapFlowInd info cmd.tcpBidir kzalloc) host

/-- `dfc_qmap_handle_query_resp`. -/
def dfcQmapHandleQueryRespProbed (cfg : DfcConfig) (kzalloc ignoreGrant : Bool) (cmd : QmapDfcQueryResp)
    (host : DfcHost) : Probed ℕ DfcHost :=
  if cmd.invalid then pure host
  else
    let info : FlowStatusInfo :=
      { muxId := cmd.muxId, bearerId := cmd.bearerId, numBytes := cmd.grant, seqNum := 0xFFFF,
        rxBytesValid := cmd.rxBytesValid, rxBytes := if cmd.rxBytesValid then cmd.rxBytes else 0 }
    Prod.fst <$> dfcDoBurstFlowControlProbed cfg ignoreGrant true (qmapFlowInd info cmd.tcpBidir kzalloc) host

/-- The dispatch of `dfc_qmap_cmd_handler`. -/
def dfcQmapCmdHandlerProbed (cfg : DfcConfig) (kzalloc ignoreGrant : Bool) (c : QmapDfcCmd) (host : DfcHost) :
    Probed ℕ DfcHost :=
  match c with
  | .ind cmd => dfcQmapHandleIndProbed cfg kzalloc ignoreGrant cmd host
  | .query cmd => dfcQmapHandleQueryRespProbed cfg kzalloc ignoreGrant cmd host
  | .endMarker cmd => dfcQmapSetEndMarkerProbed cmd.muxId cmd.bearerId cmd.seqNum cmd.txId host

/-! ### The values -/

/-- An event at the device of a mux id. -/
def DfcHost.event (cfg : DfcConfig) (host : DfcHost) (muxId : ℕ) (e : DfcEvent) : DfcHost :=
  applyEntry (fun _ => muxId) (dfcEventQos cfg) host e

section

variable {ε : Type} (muxId : ε → ℕ) (update : QosInfo → ε → QosInfo)

theorem entryLoopProbed_value (es : List ε) : ∀ host,
    value (entryLoopProbed muxId update es host) = entryLoop muxId update es host := by
  induction es with
  | nil => exact fun _ => rfl
  | cons e es ih =>
    intro host
    rw [entryLoopProbed, entryLoop, value_bind, value_probe]
    cases host.dev (muxId e) with
    | none => rfl
    | some d =>
      simp only
      cases host.qos d with
      | none => exact ih host
      | some qos => simp only [value_bind, value_pure, ih]

end

theorem dfcDoBurstFlowControlProbed_value (cfg : DfcConfig) (ignoreGrant isQuery : Bool) (ind : FlowStatusInd)
    (host : DfcHost) :
    value (dfcDoBurstFlowControlProbed cfg ignoreGrant isQuery ind host)
      = dfcDoBurstFlowControl cfg ignoreGrant isQuery ind host :=
  entryLoopProbed_value _ _ ind.flowStatus host

theorem dfcHandleTxLinkStatusIndProbed_value (cfg : DfcConfig) (ind : TxLinkStatusInd) (host : DfcHost) :
    value (dfcHandleTxLinkStatusIndProbed cfg ind host) = dfcHandleTxLinkStatusInd cfg ind host :=
  entryLoopProbed_value _ _ ind.bearerInfo host

/-- The loop over one entry. -/
theorem entryLoop_single {ε : Type} (muxId : ε → ℕ) (update : QosInfo → ε → QosInfo) (e : ε) (host : DfcHost) :
    (entryLoop muxId update [e] host).1 = applyEntry muxId update host e := by
  rw [entryLoop, applyEntry]
  cases host.dev (muxId e) with
  | none => rfl
  | some d =>
    simp only
    cases host.qos d with
    | none => rfl
    | some qos => rfl

theorem qmapFlowInd_event (cfg : DfcConfig) (kzalloc ignoreGrant isQuery tcpBidir : Bool) (info : FlowStatusInfo)
    (host : DfcHost) :
    (dfcDoBurstFlowControl cfg ignoreGrant isQuery (qmapFlowInd info tcpBidir kzalloc) host).1
      = host.event cfg info.muxId
          (.flowStatus kzalloc ignoreGrant 0 (if tcpBidir then dfcMaskTcpBidir else 0) info isQuery) := by
  have hancillary : (qmapFlowInd info tcpBidir kzalloc).ancillary { toFlowStatusInfo := info, kzalloc := kzalloc }
      = if tcpBidir then dfcMaskTcpBidir else 0 := by
    cases tcpBidir with
    | false => rfl
    | true => simp [FlowStatusInd.ancillary, qmapFlowInd]
  have hsingle := entryLoop_single (fun e : FlowStatusEntry => e.muxId)
    (fun qos e => dfcBurstFlowStatus cfg e.kzalloc ignoreGrant qos 0
      ((qmapFlowInd info tcpBidir kzalloc).ancillary e) e.toFlowStatusInfo isQuery)
    { toFlowStatusInfo := info, kzalloc := kzalloc } host
  rw [applyEntry, hancillary] at hsingle
  exact hsingle

/-- **A QMAP command** is the event of its handler at the device that its header names. -/
theorem dfcQmapCmdHandlerProbed_value (cfg : DfcConfig) (kzalloc ignoreGrant : Bool) (c : QmapDfcCmd)
    (host : DfcHost) :
    value (dfcQmapCmdHandlerProbed cfg kzalloc ignoreGrant c host)
      = ((dfcQmapCmdHandler kzalloc ignoreGrant c).map (host.event cfg c.muxId)).getD host := by
  cases c with
  | ind cmd =>
    simp only [dfcQmapCmdHandlerProbed, dfcQmapHandleIndProbed, dfcQmapCmdHandler, dfcQmapHandleInd, value_ite,
      value_map, dfcHandleTxLinkStatusIndProbed_value, dfcDoBurstFlowControlProbed_value, qmapFlowInd_event]
    cases cmd.txInfoValid with
    | false => rfl
    | true => exact entryLoop_single _ _ _ host
  | query cmd =>
    simp only [dfcQmapCmdHandlerProbed, dfcQmapHandleQueryRespProbed, dfcQmapCmdHandler, dfcQmapHandleQueryResp,
      value_ite, value_map, value_pure, dfcDoBurstFlowControlProbed_value, qmapFlowInd_event]
    cases cmd.invalid with
    | false => rfl
    | true => rfl
  | endMarker cmd =>
    simp only [dfcQmapCmdHandlerProbed, dfcQmapSetEndMarkerProbed, dfcQmapCmdHandler, dfcQmapHandleEndMarkerReq,
      value_bind, value_probe, Option.map_some, Option.getD_some, DfcHost.event, applyEntry, QmapDfcCmd.muxId]
    cases host.dev cmd.muxId with
    | none => rfl
    | some d =>
      simp only
      cases host.qos d with
      | none => rfl
      | some qos => rfl

/-! ### The indices -/

/-- The mux ids up to the first one without a device. -/
def lookups (dev : ℕ → Option ℕ) : List ℕ → List ℕ
  | [] => []
  | m :: ms => m :: if dev m = none then [] else lookups dev ms

/-- A mux id that is not in the table stands behind one that is and has no device. -/
def BehindUnknown (dev : ℕ → Option ℕ) (muxIds : List ℕ) : Prop :=
  ∀ pre m post, muxIds = pre ++ m :: post → ¬ InTable m → ∃ u ∈ pre, InTable u ∧ dev u = none

theorem behindUnknown_cons {dev : ℕ → Option ℕ} {m : ℕ} {ms : List ℕ} :
    BehindUnknown dev (m :: ms) ↔ InTable m ∧ (dev m = none ∨ BehindUnknown dev ms) := by
  constructor
  · intro h
    have hm : InTable m := by
      by_contra hout
      obtain ⟨u, hu, -⟩ := h [] m ms rfl hout
      exact absurd hu List.not_mem_nil
    refine ⟨hm, or_iff_not_imp_left.mpr fun hdev pre x post heq hx => ?_⟩
    obtain ⟨u, hu, hin, hnone⟩ := h (m :: pre) x post (by rw [heq, List.cons_append]) hx
    rcases List.mem_cons.mp hu with rfl | hu
    · exact absurd hnone hdev
    · exact ⟨u, hu, hin, hnone⟩
  · rintro ⟨hm, hrest⟩ pre x post heq hx
    cases pre with
    | nil =>
      rw [List.nil_append, List.cons.injEq] at heq
      exact absurd (heq.1 ▸ hm) hx
    | cons y pre =>
      rw [List.cons_append, List.cons.injEq] at heq
      obtain ⟨rfl, heq⟩ := heq
      rcases hrest with hdev | hrest
      · exact ⟨m, List.mem_cons_self, hm, hdev⟩
      · obtain ⟨u, hu, hin, hnone⟩ := hrest pre x post heq hx
        exact ⟨u, List.mem_cons_of_mem _ hu, hin, hnone⟩

theorem lookups_inTable_iff (dev : ℕ → Option ℕ) (muxIds : List ℕ) :
    (∀ i ∈ lookups dev muxIds, InTable i) ↔ BehindUnknown dev muxIds := by
  induction muxIds with
  | nil =>
    refine iff_of_true (fun _ hi => absurd hi List.not_mem_nil) fun pre m post heq => ?_
    exact absurd heq.symm (List.append_ne_nil_of_right_ne_nil pre (List.cons_ne_nil m post))
  | cons m ms ih =>
    rw [behindUnknown_cons, lookups, List.forall_mem_cons]
    refine and_congr_right fun _ => ?_
    by_cases hdev : dev m = none
    · rw [if_pos hdev]
      exact iff_of_true (fun _ hi => absurd hi List.not_mem_nil) (.inl hdev)
    · rw [if_neg hdev, ih]
      exact (or_iff_right hdev).symm

theorem entryLoopProbed_indices {ε : Type} (muxId : ε → ℕ) (update : QosInfo → ε → QosInfo) (es : List ε) :
    ∀ host, indices (entryLoopProbed muxId update es host) = lookups host.dev (es.map muxId) := by
  induction es with
  | nil => exact fun _ => rfl
  | cons e es ih =>
    intro host
    rw [entryLoopProbed, indices_bind, indices_probe, value_probe, List.map_cons, lookups]
    cases hdev : host.dev (muxId e) with
    | none => rfl
    | some d =>
      simp only [List.singleton_append, List.cons.injEq, true_and, reduceCtorEq, if_false]
      cases host.qos d with
      | none => exact ih host
      | some qos =>
        simp only [indices_bind, indices_pure, List.append_nil]
        exact ih (host.setQos d (update qos e))

theorem dfcDoBurstFlowControlProbed_indices (cfg : DfcConfig) (ignoreGrant isQuery : Bool) (ind : FlowStatusInd)
    (host : DfcHost) :
    indices (dfcDoBurstFlowControlProbed cfg ignoreGrant isQuery ind host)
      = lookups host.dev (ind.flowStatus.map fun e => e.muxId) :=
  entryLoopProbed_indices _ _ ind.flowStatus host

theorem dfcHandleTxLinkStatusIndProbed_indices (cfg : DfcConfig) (ind : TxLinkStatusInd) (host : DfcHost) :
    indices (dfcHandleTxLinkStatusIndProbed cfg ind host)
      = lookups host.dev (ind.bearerInfo.map BearerInfo.muxId) :=
  entryLoopProbed_indices _ _ ind.bearerInfo host

/-! ### Messages -/

/-- A message of the flow-control service: a QMI indication, the answer to a QMI query, or a QMAP command. -/
inductive DfcMessage
  | flowStatus (isQuery : Bool) (ind : FlowStatusInd)
  | txLinkStatus (ind : TxLinkStatusInd)
  | qmap (kzalloc : Bool) (c : QmapDfcCmd)

/-- Its handler. -/
def dfcMessageProbed (cfg : DfcConfig) (ignoreGrant : Bool) (host : DfcHost) : DfcMessage → Probed ℕ DfcHost
  | .flowStatus isQuery ind => Prod.fst <$> dfcDoBurstFlowControlProbed cfg ignoreGrant isQuery ind host
  | .txLinkStatus ind => Prod.fst <$> dfcHandleTxLinkStatusIndProbed cfg ind host
  | .qmap kzalloc c => dfcQmapCmdHandlerProbed cfg kzalloc ignoreGrant c host

/-- The mux ids that it names, in order; a query response that is marked invalid is not looked at. -/
def DfcMessage.muxIds : DfcMessage → List ℕ
  | .flowStatus _ ind => ind.flowStatus.map fun e => e.muxId
  | .txLinkStatus ind => ind.bearerInfo.map BearerInfo.muxId
  | .qmap _ (.query cmd) => if cmd.invalid then [] else [cmd.muxId]
  | .qmap _ c => [c.muxId]

theorem lookups_single (dev : ℕ → Option ℕ) (m : ℕ) : lookups dev [m] = [m] := by
  rw [lookups, lookups, ite_self]

theorem dfcMessageProbed_indices (cfg : DfcConfig) (ignoreGrant : Bool) (host : DfcHost) (msg : DfcMessage) :
    indices (dfcMessageProbed cfg ignoreGrant host msg) = lookups host.dev msg.muxIds := by
  cases msg with
  | flowStatus isQuery ind => exact dfcDoBurstFlowControlProbed_indices cfg ignoreGrant isQuery ind host
  | txLinkStatus ind => exact dfcHandleTxLinkStatusIndProbed_indices cfg ind host
  | qmap kzalloc c =>
    cases c with
    | ind cmd =>
      simp only [dfcMessageProbed, dfcQmapCmdHandlerProbed, dfcQmapHandleIndProbed]
      split
      · rw [indices_map, dfcHandleTxLinkStatusIndProbed_indices]
        rfl
      · rw [indices_map, dfcDoBurstFlowControlProbed_indices]
        rfl
    | query cmd =>
      simp only [dfcMessageProbed, dfcQmapCmdHandlerProbed, dfcQmapHandleQueryRespProbed, DfcMessage.muxIds]
      split
      · rfl
      · rw [indices_map, dfcDoBurstFlowControlProbed_indices]
        rfl
    | endMarker cmd =>
      simp only [dfcMessageProbed, dfcQmapCmdHandlerProbed, dfcQmapSetEndMarkerProbed, DfcMessage.muxIds,
        lookups_single, indices_bind, indices_probe, value_probe]
      cases host.dev cmd.muxId with
      | none => rfl
      | some d =>
        simp only
        cases host.qos d with
        | none => rfl
        | some qos => rfl

/-- **A flow-control message.** -/
theorem dfcMessage_within_iff (cfg : DfcConfig) (ignoreGrant : Bool) (host : DfcHost) (msg : DfcMessage) :
    Within InTable (dfcMessageProbed cfg ignoreGrant host msg) ↔ BehindUnknown host.dev msg.muxIds := by
  rw [Within, dfcMessageProbed_indices, lookups_inTable_iff]

end Rmnet
