import Mathlib.Data.List.Nodup
import Mathlib.Data.List.Perm.Basic
import Mathlib.Data.List.Count
import Mathlib.Data.List.Range
import Mathlib.Logic.Function.Basic
import Mathlib.Tactic.Linarith
import Rmnet.Errno
import Rmnet.Lib.Word

/-!
# Flows, bearers and the queue table of one rmnet device

`struct qos_info` with the bearers it owns.  A bearer is a heap object: `heap` gives the contents of an
address, `bearerHead` the addresses on the bearer list, flows and the sixteen `mq` entries hold
addresses.  `nextAddr` is the allocation counter and `freed` the log of `kfree`, so that "freed exactly
once" is a statement about the state.  The TX queues of the device are part of the state too, because
`qmi_rmnet_flow_control` is called throughout.

The functions follow `qmi_rmnet.c` under the source's names; the result of a `kzalloc` is an argument.
-/

namespace Rmnet

open Word

/-! ### Data -/

abbrev Addr := ℕ

/-- `MAX_MQ_NUM`. -/
def maxMqNum : ℕ := 16

/-- `DEFAULT_MQ_NUM`. -/
def defaultMqNum : ℕ := 0

/-- `ACK_MQ_OFFSET`. -/
def ackMqOffset : ℕ := maxMqNum - 1

/-- `INVALID_MQ`. -/
def invalidMq : ℕ := 0xFF

/-- `DEFAULT_GRANT`. -/
def defaultGrant : ℕ := 1

/-- `DEFAULT_CALL_GRANT`. -/
def defaultCallGrant : ℕ := 20480

/-- `DFC_MODE_SA`. -/
def dfcModeSa : ℕ := 4

/-- The global variables `dfc_mode`, `dfc_qmap` and `qmi_rmnet_scale_factor`. -/
structure DfcConfig where
  dfcMode : ℕ
  dfcQmap : Bool
  scaleFactor : ℕ
  deriving DecidableEq, Repr

/-- `struct rmnet_bearer_map`; `watchdogArmed` is the pending state of its timer. -/
structure RmnetBearerMap where
  bearerId : ℕ
  flowRef : ℤ
  grantSize : ℕ
  grantThresh : ℕ
  seq : ℕ := 0
  ackReq : ℕ := 0
  lastGrant : ℕ := 0
  lastSeq : ℕ := 0
  bytesInFlight : ℕ := 0
  lastAdjustedGrant : ℕ := 0
  tcpBidir : Bool := false
  ratSwitch : Bool := false
  txOff : Bool := false
  ackTxid : ℕ := 0
  mqIdx : ℕ
  ackMqIdx : ℕ
  watchdogArmed : Bool := false
  watchdogStarted : Bool := false
  watchdogQuit : Bool := false
  watchdogExpireCnt : ℕ := 0
  deriving DecidableEq, Repr

/-- `struct rmnet_flow_map`. -/
structure RmnetFlowMap where
  bearerId : ℕ
  flowId : ℕ
  ipType : ℤ
  mqIdx : ℕ
  bearer : Option Addr
  deriving DecidableEq, Repr

/-- The messages that flow control sends to the modem. -/
inductive DfcMsg
  | ack (bearerId seq muxId ackType tranNum : ℕ)
  | endMarkerCnf (muxId bearerId seq txId : ℕ)
  | query (muxId bearerId : ℕ)
  deriving DecidableEq, Repr

/-- `struct qos_info`, the bearers it owns, and the TX queues of its device. -/
structure QosInfo where
  muxId : ℕ
  flowHead : List RmnetFlowMap
  bearerHead : List Addr
  mq : ℕ → Option Addr
  tranNum : ℕ
  removedBearer : Option Addr
  heap : Addr → RmnetBearerMap
  nextAddr : Addr
  freed : List Addr
  numTxQueues : ℕ
  stopped : ℕ → Bool
  sent : List DfcMsg

/-- What a flow activation or deactivation carries in its `tcmsg`. -/
structure FlowReq where
  bearerId : ℕ
  flowId : ℕ
  ipType : ℤ
  mqIdx : ℕ
  deriving DecidableEq, Repr

/-! ### Lookup and update -/

/-- A flow is found by its id and its IP type. -/
def RmnetFlowMap.key (f : RmnetFlowMap) : ℕ × ℤ := (f.flowId, f.ipType)

/-- `qmi_rmnet_get_flow_map`. -/
def qmiRmnetGetFlowMap (qos : QosInfo) (flowId : ℕ) (ipType : ℤ) : Option RmnetFlowMap :=
  qos.flowHead.find? fun itm => itm.key = (flowId, ipType)

/-- `qmi_rmnet_get_bearer_map`. -/
def qmiRmnetGetBearerMap (qos : QosInfo) (bearerId : ℕ) : Option Addr :=
  qos.bearerHead.find? fun a => (qos.heap a).bearerId = bearerId

/-- Write through a bearer pointer. -/
def QosInfo.modifyBearer (qos : QosInfo) (a : Addr) (f : RmnetBearerMap → RmnetBearerMap) : QosInfo :=
  { qos with heap := Function.update qos.heap a (f (qos.heap a)) }

/-- Write through the pointer of the flow entry with the given key: the first on the list. -/
def updateFlowMap (key : ℕ × ℤ) (new : RmnetFlowMap) : List RmnetFlowMap → List RmnetFlowMap
  | [] => []
  | itm :: rest => if itm.key = key then new :: rest else itm :: updateFlowMap key new rest

/-- `qmi_rmnet_flow_control`. -/
def qmiRmnetFlowControl (qos : QosInfo) (mqIdx : ℕ) (enable : Bool) : QosInfo :=
  if qos.numTxQueues ≤ mqIdx then qos
  else { qos with stopped := Function.update qos.stopped mqIdx (!enable) }

/-- `qmi_rmnet_grant_per`. -/
def qmiRmnetGrantPer (cfg : DfcConfig) (grant : ℕ) : ℕ := grant / cfg.scaleFactor

/-! ### Bearers -/

/-- `qmi_rmnet_bearer_clean`. -/
def qmiRmnetBearerClean (qos : QosInfo) : QosInfo :=
  match qos.removedBearer with
  | none => qos
  | some a => { qos with freed := qos.freed ++ [a], removedBearer := none }

/-- The bearer that `__qmi_rmnet_bearer_get` allocates. -/
def newBearer (cfg : DfcConfig) (bearerId : ℕ) : RmnetBearerMap :=
  { bearerId := bearerId
    flowRef := 1
    grantSize := defaultCallGrant
    grantThresh := qmiRmnetGrantPer cfg defaultCallGrant
    mqIdx := invalidMq
    ackMqIdx := invalidMq }

/-- `list_add` of a freshly allocated bearer to `bearer_head`. -/
def QosInfo.linkBearer (qos : QosInfo) (b : RmnetBearerMap) : QosInfo :=
  { qos with
    heap := Function.update qos.heap qos.nextAddr b
    nextAddr := qos.nextAddr + 1
    bearerHead := qos.nextAddr :: qos.bearerHead }

/-- `__qmi_rmnet_bearer_get`. -/
def qmiRmnetBearerGet (cfg : DfcConfig) (kzalloc : Bool) (qos : QosInfo) (bearerId : ℕ) :
    QosInfo × Option Addr :=
  match qmiRmnetGetBearerMap qos bearerId with
  | some a => (qos.modifyBearer a fun b => { b with flowRef := b.flowRef + 1 }, some a)
  | none =>
      if kzalloc then (qos.linkBearer (newBearer cfg bearerId), some qos.nextAddr)
      else (qos, none)

/-- One iteration of the loop over the queue table in `__qmi_rmnet_bearer_put`. -/
def bearerPutMq (cfg : DfcConfig) (bearer : Addr) (reset : Bool) (qos : QosInfo) (i : ℕ) : QosInfo :=
  if qos.mq i = some bearer then
    let qos := { qos with mq := Function.update qos.mq i none }
    if reset then
      let qos := qmiRmnetFlowControl qos i true
      if cfg.dfcMode = dfcModeSa then qmiRmnetFlowControl qos (i + ackMqOffset) true else qos
    else qos
  else qos

/-- The last reference is gone: clear the queue table, remove the bearer from the list. -/
def unlinkBearer (cfg : DfcConfig) (a : Addr) (reset : Bool) (qos : QosInfo) : QosInfo :=
  let qos := (List.range maxMqNum).foldl (bearerPutMq cfg a reset) qos
  { qos with bearerHead := qos.bearerHead.erase a, removedBearer := some a }

/-- `__qmi_rmnet_bearer_put`. -/
def qmiRmnetBearerPut (cfg : DfcConfig) (qos : QosInfo) (bearer : Option Addr) (reset : Bool) : QosInfo :=
  match bearer with
  | none => qos
  | some a =>
      let qos := qos.modifyBearer a fun b => { b with flowRef := b.flowRef - 1 }
      if (qos.heap a).flowRef = 0 then unlinkBearer cfg a reset qos else qos

/-- `__qmi_rmnet_update_mq`. -/
def qmiRmnetUpdateMq (cfg : DfcConfig) (qos : QosInfo) (bearer : Addr) (mqIdx : ℕ) : QosInfo :=
  if cfg.dfcMode = dfcModeSa ∧ mqIdx = defaultMqNum then qos
  else if qos.mq mqIdx = none then
    let qos := { qos with mq := Function.update qos.mq mqIdx (some bearer) }
    let qos := qos.modifyBearer bearer fun b =>
      if cfg.dfcMode = dfcModeSa then { b with mqIdx := mqIdx, ackMqIdx := mqIdx + ackMqOffset }
      else { b with mqIdx := mqIdx }
    let qos := qmiRmnetFlowControl qos mqIdx (0 < (qos.heap bearer).grantSize)
    if cfg.dfcMode = dfcModeSa then
      qmiRmnetFlowControl qos (qos.heap bearer).ackMqIdx (0 < (qos.heap bearer).grantSize)
    else qos
  else qos

/-- `qmi_rmnet_get_bearer_noref`. -/
def qmiRmnetGetBearerNoref (cfg : DfcConfig) (kzalloc : Bool) (qos : QosInfo) (bearerId : ℕ) :
    QosInfo × Option Addr :=
  match qmiRmnetBearerGet cfg kzalloc qos bearerId with
  | (qos, none) => (qos, none)
  | (qos, some a) => (qos.modifyBearer a fun b => { b with flowRef := b.flowRef - 1 }, some a)

/-! ### Flows -/

/-- `__qmi_rmnet_rebind_flow`. -/
def qmiRmnetRebindFlow (cfg : DfcConfig) (kzalloc : Bool) (qos : QosInfo) (itm : RmnetFlowMap)
    (new : FlowReq) : QosInfo × ℤ :=
  let qos := qmiRmnetBearerPut cfg qos itm.bearer false
  match qmiRmnetBearerGet cfg kzalloc qos new.bearerId with
  | (qos, none) => (qos, -enomem)
  | (qos, some a) =>
      let qos := { qos with
        flowHead := updateFlowMap itm.key
          { bearerId := new.bearerId, flowId := new.flowId, ipType := new.ipType,
            mqIdx := new.mqIdx, bearer := some a } qos.flowHead }
      (qmiRmnetUpdateMq cfg qos a new.mqIdx, 0)

/-- `netif_tx_wake_all_queues`. -/
def netifTxWakeAllQueues (qos : QosInfo) : QosInfo :=
  { qos with stopped := fun q => if q < qos.numTxQueues then false else qos.stopped q }

/-- `qmi_rmnet_del_flow`. -/
def qmiRmnetDelFlow (cfg : DfcConfig) (qos : QosInfo) (tcm : FlowReq) : QosInfo :=
  let qos := match qmiRmnetGetFlowMap qos tcm.flowId tcm.ipType with
    | none => qos
    | some itm =>
        let qos := qmiRmnetBearerPut cfg qos itm.bearer true
        { qos with flowHead := qos.flowHead.eraseP fun f => f.key = itm.key }
  let qos := if qos.flowHead = [] then netifTxWakeAllQueues qos else qos
  qmiRmnetBearerClean qos

/-- The part of `qmi_rmnet_add_flow` that creates a flow entry. -/
def createFlow (cfg : DfcConfig) (kzFlow kzBearer : Bool) (qos : QosInfo) (tcm : FlowReq) : QosInfo × ℤ :=
  if kzFlow then
    let itm : RmnetFlowMap := { bearerId := tcm.bearerId, flowId := tcm.flowId, ipType := tcm.ipType,
                                mqIdx := tcm.mqIdx, bearer := none }
    match qmiRmnetBearerGet cfg kzBearer { qos with flowHead := itm :: qos.flowHead } tcm.bearerId with
    | (qos, none) => (qmiRmnetBearerClean qos, -enomem)
    | (qos, some a) =>
        let qos := { qos with
          flowHead := updateFlowMap itm.key { itm with bearer := some a } qos.flowHead }
        (qmiRmnetBearerClean (qmiRmnetUpdateMq cfg qos a tcm.mqIdx), 0)
  else (qos, -enomem)

/-- `qmi_rmnet_add_flow` from the `again` label: `k` counts the jumps back to it.  A jump follows the
deletion of a flow entry, so one unit of fuel a flow is enough. -/
def addFlowAgain (cfg : DfcConfig) (kzFlow kzBearer : Bool) (tcm : FlowReq) :
    ℕ → ℕ → QosInfo → Option (QosInfo × ℤ × ℕ)
  | 0, _, _ => none
  | fuel + 1, k, qos =>
      match qmiRmnetGetFlowMap qos tcm.flowId tcm.ipType with
      | some itm =>
          if itm.bearerId ≠ tcm.bearerId then
            let (qos, rc) := qmiRmnetRebindFlow cfg kzBearer qos itm tcm
            some (qmiRmnetBearerClean qos, rc, k)
          else if itm.mqIdx ≠ tcm.mqIdx then
            let tmp : FlowReq := { bearerId := itm.bearerId, flowId := itm.flowId,
                                   ipType := itm.ipType, mqIdx := itm.mqIdx }
            addFlowAgain cfg kzFlow kzBearer tcm fuel (k + 1) (qmiRmnetDelFlow cfg qos tmp)
          else some (qmiRmnetBearerClean qos, 0, k)
      | none =>
          let (qos, rc) := createFlow cfg kzFlow kzBearer qos tcm
          some (qos, rc, k)

/-- `qmi_rmnet_add_flow`: the state, the return code and the number of jumps to `again`. -/
def qmiRmnetAddFlow (cfg : DfcConfig) (kzFlow kzBearer : Bool) (qos : QosInfo) (tcm : FlowReq) :
    Option (QosInfo × ℤ × ℕ) :=
  if maxMqNum ≤ tcm.mqIdx then some (qos, -einval, 0)
  else addFlowAgain cfg kzFlow kzBearer tcm (qos.flowHead.length + 1) 0 qos

/-- `qmi_rmnet_qos_init`, on a device with the given queues. -/
def qmiRmnetQosInit (muxId numTxQueues : ℕ) (stopped : ℕ → Bool) : QosInfo :=
  { muxId := muxId, flowHead := [], bearerHead := [], mq := fun _ => none, tranNum := 0,
    removedBearer := none,
    heap := fun _ => { bearerId := 0, flowRef := 0, grantSize := 0, grantThresh := 0, mqIdx := 0,
                       ackMqIdx := 0 },
    nextAddr := 0, freed := [], numTxQueues := numTxQueues, stopped := stopped, sent := [] }

/-! ### Samples -/

/-- SA mode, with QMAP commands. -/
def qmapCfg : DfcConfig := { dfcMode := dfcModeSa, dfcQmap := true, scaleFactor := 5 }

/-- SA mode, with QMI messages. -/
def qmiCfg : DfcConfig := { qmapCfg with dfcQmap := false }

/-- A device with 31 open queues, and no flow. -/
def emptyQos : QosInfo := qmiRmnetQosInit 1 31 fun _ => false

/-- A flow of bearer 5, on queue 1. -/
def flowOfFive : FlowReq := { bearerId := 5, flowId := 1, ipType := 4, mqIdx := 1 }

/-- Bearer 5 with 100 bytes of grant and its threshold at 20. -/
def bearerFive : RmnetBearerMap :=
  { bearerId := 5, flowRef := 1, grantSize := 100, grantThresh := 20, mqIdx := 1, ackMqIdx := invalidMq }

/-- The device with that flow, and with `b` for its bearer. -/
def oneBearer (b : RmnetBearerMap) : QosInfo :=
  { emptyQos with
    flowHead := [{ bearerId := 5, flowId := 1, ipType := 4, mqIdx := 1, bearer := some 0 }]
    bearerHead := [0]
    heap := fun _ => b
    nextAddr := 1 }

end Rmnet
