import Rmnet.Qos.Table

/-!
# Data flow control on the bearers of one device

The functions of `dfc_qmi.c`, `dfc_qmap.c` and `qmi_rmnet.c` that write the grant of a bearer: the
flow-status and TX-link-status indications, the charge of a transmitted packet, the watchdog and the
reset of all flows.  Each of them ends, or should end, in `dfc_bearer_flow_ctl` when the grant reaches
or leaves zero.

Every function here runs under `qos_lock`, so one call is one step of the device.  Messages to the modem
are appended to `sent`; the buffers that carry them are taken to be allocated.
-/

namespace Rmnet

open Word

/-! ### Messages -/

/-- `DFC_ACK_TYPE_DISABLE`. -/
def dfcAckTypeDisable : ℕ := 1

/-- `DFC_ACK_TYPE_THRESHOLD`. -/
def dfcAckTypeThreshold : ℕ := 2

/-- `DFC_IS_TCP_BIDIR`. -/
def dfcIsTcpBidir (ancillary : ℕ) : Bool := ancillary.testBit 0

/-- `DFC_IS_RAT_SWITCH`. -/
def dfcIsRatSwitch (ancillary : ℕ) : Bool := ancillary.testBit 1

/-- `struct dfc_flow_status_info_type_v01`, less the fields that no handler reads. -/
structure FlowStatusInfo where
  muxId : ℕ
  bearerId : ℕ
  numBytes : ℕ
  seqNum : ℕ
  rxBytesValid : Bool
  rxBytes : ℕ
  deriving DecidableEq, Repr

/-- `dfc_qmap_send_end_marker_cnf`. -/
def dfcQmapSendEndMarkerCnf (qos : QosInfo) (bearerId seq txId : ℕ) : QosInfo :=
  { qos with sent := qos.sent ++ [.endMarkerCnf qos.muxId bearerId seq txId] }

/-- `dfc_qmap_send_query`. -/
def dfcQmapSendQuery (qos : QosInfo) (muxId bearerId : ℕ) : QosInfo :=
  { qos with sent := qos.sent ++ [.query muxId bearerId] }

/-- `dfc_qmap_send_ack`. -/
def dfcQmapSendAck (qos : QosInfo) (bearerId seq type : ℕ) : QosInfo :=
  if type = dfcAckTypeDisable then
    match qmiRmnetGetBearerMap qos bearerId with
    | none => qos
    | some a => dfcQmapSendEndMarkerCnf qos bearerId seq (qos.heap a).ackTxid
  else if type = dfcAckTypeThreshold then dfcQmapSendQuery qos qos.muxId bearerId
  else qos

/-- `dfc_send_ack`. -/
def dfcSendAck (cfg : DfcConfig) (qos : QosInfo) (bearerId seq muxId type : ℕ) : QosInfo :=
  if cfg.dfcQmap then dfcQmapSendAck qos bearerId seq type
  else { qos with sent := qos.sent ++ [.ack bearerId seq muxId type qos.tranNum],
                  tranNum := u32 (qos.tranNum + 1) }

/-! ### Queue control -/

/-- `dfc_bearer_flow_ctl`. -/
def dfcBearerFlowCtl (cfg : DfcConfig) (qos : QosInfo) (a : Addr) : QosInfo :=
  let bearer := qos.heap a
  let enable : Bool := bearer.grantSize ≠ 0
  let qos := qmiRmnetFlowControl qos bearer.mqIdx enable
  -- in TCP bidirectional mode the ACK queue is never disabled
  let qos := if bearer.ackMqIdx ≠ invalidMq ∧ (enable || !bearer.tcpBidir) then
      qmiRmnetFlowControl qos bearer.ackMqIdx enable
    else qos
  if !enable ∧ bearer.ackReq ≠ 0 then
    dfcSendAck cfg qos bearer.bearerId bearer.seq qos.muxId dfcAckTypeDisable
  else qos

/-! ### The watchdog -/

/-- `qmi_rmnet_watchdog_add`. -/
def qmiRmnetWatchdogAdd (b : RmnetBearerMap) : RmnetBearerMap :=
  let b := { b with watchdogQuit := false }
  if b.watchdogStarted then b else { b with watchdogStarted := true, watchdogArmed := true }

/-- `qmi_rmnet_watchdog_remove`. -/
def qmiRmnetWatchdogRemove (b : RmnetBearerMap) : RmnetBearerMap :=
  let b := { b with watchdogQuit := true }
  if b.watchdogStarted then { b with watchdogArmed := false, watchdogStarted := false } else b

/-- The expiry of the watchdog timer: it is no longer pending, and `qmi_rmnet_watchdog_fn` is on its way to
`qos_lock`. -/
def watchdogExpires (b : RmnetBearerMap) : RmnetBearerMap := { b with watchdogArmed := false }

/-- `qmi_rmnet_watchdog_fn` for the bearer at `a`, once it holds `qos_lock`. -/
def qmiRmnetWatchdogFn (cfg : DfcConfig) (qos : QosInfo) (a : Addr) : QosInfo :=
  let qos :=
    if (qos.heap a).watchdogQuit then qos
    else
      let qos := qos.modifyBearer a fun b =>
        { b with watchdogExpireCnt := u32 (b.watchdogExpireCnt + 1), bytesInFlight := 0 }
      if (qos.heap a).grantSize = 0 then
        dfcBearerFlowCtl cfg (qos.modifyBearer a fun b =>
          { b with grantSize := defaultCallGrant
                   grantThresh := qmiRmnetGrantPer cfg defaultCallGrant }) a
      else qos.modifyBearer a fun b => { b with grantThresh := qmiRmnetGrantPer cfg b.grantSize }
  qos.modifyBearer a fun b => { b with watchdogStarted := false }

/-! ### Flow-status indications and query responses -/

/-- What the loop of `dfc_all_bearer_flow_ctl` writes to a bearer. -/
def allBearerGrant (cfg : DfcConfig) (ackReq ancillary : ℕ) (fcInfo : FlowStatusInfo)
    (b : RmnetBearerMap) : RmnetBearerMap :=
  { b with
    grantSize := fcInfo.numBytes
    grantThresh := qmiRmnetGrantPer cfg fcInfo.numBytes
    seq := fcInfo.seqNum
    ackReq := ackReq
    tcpBidir := dfcIsTcpBidir ancillary
    lastGrant := fcInfo.numBytes
    lastSeq := fcInfo.seqNum
    lastAdjustedGrant := fcInfo.numBytes }

/-- `dfc_all_bearer_flow_ctl`. -/
def dfcAllBearerFlowCtl (cfg : DfcConfig) (qos : QosInfo) (ackReq ancillary : ℕ)
    (fcInfo : FlowStatusInfo) : QosInfo :=
  qos.bearerHead.foldl (fun qos a =>
    dfcBearerFlowCtl cfg (qos.modifyBearer a (allBearerGrant cfg ackReq ancillary fcInfo)) a) qos

/-- `dfc_adjust_grant`: the bearer with its bytes in flight updated, and the grant. -/
def dfcAdjustGrant (b : RmnetBearerMap) (fcInfo : FlowStatusInfo) : RmnetBearerMap × ℕ :=
  if !fcInfo.rxBytesValid then (b, fcInfo.numBytes)
  else
    let b := { b with bytesInFlight :=
      if fcInfo.rxBytes < b.bytesInFlight then b.bytesInFlight - fcInfo.rxBytes else 0 }
    (b, if b.bytesInFlight < fcInfo.numBytes then fcInfo.numBytes - b.bytesInFlight else 0)

/-- What `dfc_update_fc_map` writes to the bearer once the grant is adjusted. -/
def fcMapGrant (cfg : DfcConfig) (ackReq ancillary : ℕ) (fcInfo : FlowStatusInfo) (isQuery : Bool)
    (adjustedGrant : ℕ) (b : RmnetBearerMap) : RmnetBearerMap :=
  let b := { b with grantSize := adjustedGrant }
  -- no further query when less than 20% of the grant is left: the watchdog recovers
  let b :=
    if cfg.dfcQmap ∧ isQuery ∧ b.grantSize < fcInfo.numBytes / 5 then
      qmiRmnetWatchdogAdd { b with grantThresh := b.grantSize }
    else qmiRmnetWatchdogRemove { b with grantThresh := qmiRmnetGrantPer cfg b.grantSize }
  { b with
    seq := fcInfo.seqNum
    ackReq := ackReq
    tcpBidir := dfcIsTcpBidir ancillary
    lastGrant := fcInfo.numBytes
    lastSeq := fcInfo.seqNum
    lastAdjustedGrant := adjustedGrant }

/-- `dfc_update_fc_map` for the bearer at `a`, after the two checks that ignore an indication. -/
def applyFcMap (cfg : DfcConfig) (qos : QosInfo) (a : Addr) (ackReq ancillary : ℕ)
    (fcInfo : FlowStatusInfo) (isQuery : Bool) : QosInfo :=
  let (itm, adjustedGrant) :=
    if cfg.dfcQmap ∧ isQuery then dfcAdjustGrant (qos.heap a) fcInfo
    else ({ qos.heap a with bytesInFlight := 0 }, fcInfo.numBytes)
  let action := (itm.grantSize = 0 ∧ 0 < adjustedGrant) ∨ (0 < itm.grantSize ∧ adjustedGrant = 0)
  let qos := qos.modifyBearer a fun _ => itm
  let qos :=
    if cfg.dfcQmap ∧ itm.ackReq ≠ 0 ∧ ackReq = 0 ∧ itm.grantSize ≠ 0 then
      dfcQmapSendAck qos itm.bearerId itm.seq dfcAckTypeDisable
    else qos
  let qos := qos.modifyBearer a (fcMapGrant cfg ackReq ancillary fcInfo isQuery adjustedGrant)
  if action then dfcBearerFlowCtl cfg qos a else qos

/-- `dfc_update_fc_map` for the bearer at `a`. -/
def updateFcMapBearer (cfg : DfcConfig) (qos : QosInfo) (a : Addr) (ackReq ancillary : ℕ)
    (fcInfo : FlowStatusInfo) (isQuery : Bool) : QosInfo :=
  let qos := if dfcIsRatSwitch ancillary then
      qos.modifyBearer a fun b => { b with ratSwitch := fcInfo.numBytes = 0 }
    else qos
  -- between the start and the end of a RAT switch indications are ignored
  if !dfcIsRatSwitch ancillary ∧ (qos.heap a).ratSwitch then qos
  else if (qos.heap a).txOff ∧ 0 < fcInfo.numBytes then qos
  else applyFcMap cfg qos a ackReq ancillary fcInfo isQuery

/-- `dfc_update_fc_map`. -/
def dfcUpdateFcMap (cfg : DfcConfig) (kzalloc : Bool) (qos : QosInfo) (ackReq ancillary : ℕ)
    (fcInfo : FlowStatusInfo) (isQuery : Bool) : QosInfo :=
  match qmiRmnetGetBearerMap qos fcInfo.bearerId with
  | some a => updateFcMapBearer cfg qos a ackReq ancillary fcInfo isQuery
  | none =>
      match qmiRmnetGetBearerNoref cfg kzalloc qos fcInfo.bearerId with
      | (qos, none) => qos
      | (qos, some a) => updateFcMapBearer cfg qos a ackReq ancillary fcInfo isQuery

/-- The loop body of `dfc_do_burst_flow_control` for an entry that names this device. -/
def dfcBurstFlowStatus (cfg : DfcConfig) (kzalloc ignoreGrant : Bool) (qos : QosInfo)
    (ackReq ancillary : ℕ) (fcInfo : FlowStatusInfo) (isQuery : Bool) : QosInfo :=
  if ignoreGrant then qos
  else if fcInfo.bearerId = 0xFF then dfcAllBearerFlowCtl cfg qos ackReq ancillary fcInfo
  else dfcUpdateFcMap cfg kzalloc qos ackReq ancillary fcInfo isQuery

/-! ### The other writers of a grant -/

/-- `dfc_update_tx_link_status`. -/
def dfcUpdateTxLinkStatus (cfg : DfcConfig) (qos : QosInfo) (txStatus : Bool) (bearerId : ℕ) : QosInfo :=
  match qmiRmnetGetBearerMap qos bearerId with
  | none => qos
  | some a =>
      if (qos.heap a).txOff = !txStatus then qos
      else
        let qos :=
          if (qos.heap a).grantSize ≠ 0 ∧ !txStatus then
            dfcBearerFlowCtl cfg (qos.modifyBearer a fun b => qmiRmnetWatchdogRemove
              { b with grantSize := 0, tcpBidir := false, bytesInFlight := 0 }) a
          else if (qos.heap a).grantSize = 0 ∧ txStatus ∧ !(qos.heap a).ratSwitch then
            dfcBearerFlowCtl cfg (qos.modifyBearer a fun b =>
              { b with grantSize := defaultGrant
                       grantThresh := qmiRmnetGrantPer cfg defaultGrant
                       seq := 0
                       ackReq := 0 }) a
          else qos
        qos.modifyBearer a fun b => { b with txOff := !txStatus }

/-- `dfc_qmi_burst_check`, the charge of a packet of `len` bytes to the bearer of its flow. -/
def dfcQmiBurstCheck (cfg : DfcConfig) (qos : QosInfo) (ipType : ℤ) (mark len : ℕ) : QosInfo :=
  match (qmiRmnetGetFlowMap qos mark ipType).bind RmnetFlowMap.bearer with
  | none => qos
  | some a =>
      let qos := qos.modifyBearer a fun b => { b with bytesInFlight := u32 (b.bytesInFlight + len) }
      let startGrant := (qos.heap a).grantSize
      if startGrant = 0 then qos
      else
        let qos := qos.modifyBearer a fun b =>
          { b with grantSize := if b.grantSize ≤ len then 0 else b.grantSize - len }
        let bearer := qos.heap a
        let qos :=
          if bearer.grantThresh < startGrant ∧ bearer.grantSize ≤ bearer.grantThresh then
            dfcSendAck cfg qos bearer.bearerId bearer.seq qos.muxId dfcAckTypeThreshold
          else qos
        if bearer.grantSize = 0 then dfcBearerFlowCtl cfg qos a else qos

/-- One iteration of the loop of `qmi_rmnet_enable_all_flows`. -/
def enableFlowsOf (cfg : DfcConfig) (qos : QosInfo) (a : Addr) : QosInfo :=
  let qos := qos.modifyBearer a fun b => qmiRmnetWatchdogRemove
    { b with seq := 0, ackReq := 0, bytesInFlight := 0, tcpBidir := false, ratSwitch := false }
  if (qos.heap a).txOff then qos
  else
    let doWake := (qos.heap a).grantSize = 0
    let qos := qos.modifyBearer a fun b =>
      { b with grantSize := defaultGrant, grantThresh := qmiRmnetGrantPer cfg defaultGrant }
    if doWake then dfcBearerFlowCtl cfg qos a else qos

/-- `qmi_rmnet_enable_all_flows`. -/
def qmiRmnetEnableAllFlows (cfg : DfcConfig) (qos : QosInfo) : QosInfo :=
  qos.bearerHead.foldl (enableFlowsOf cfg) qos

/-! ### End markers -/

/-- `dfc_qmap_set_end_marker` on the device that the request addresses: the request is parked on a bearer that
still has some of the grant it names, and confirmed at once otherwise. -/
def dfcQmapSetEndMarker (qos : QosInfo) (bearerId seqNum txId : ℕ) : QosInfo :=
  match qmiRmnetGetBearerMap qos bearerId with
  | none => dfcQmapSendEndMarkerCnf qos bearerId seqNum txId
  | some a =>
      if (qos.heap a).lastSeq = seqNum ∧ (qos.heap a).grantSize ≠ 0 then
        qos.modifyBearer a fun b => { b with ackReq := 1, ackTxid := txId }
      else dfcQmapSendEndMarkerCnf qos bearerId seqNum txId

end Rmnet
