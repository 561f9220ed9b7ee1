import Rmnet.Qos.Event

/-!
# QMAP flow-control commands on the devices of a port

`dfc_qmap_cmd_handler` hands a command to the handler of its name, and that handler to the device that the
command's mux id names: an indication and a query response become a flow-status or TX-link-status event with
one entry, an end-marker request is answered or parked.  Commands that the header checks refuse reach no
handler and are left out.

`DfcPort` is the devices by mux id, with two logs: the transaction ids of the end-marker requests received, and
of the confirmations sent.
-/

namespace Rmnet

open Word Transition

/-! ### Commands -/

/-- `DFC_MASK_TCP_BIDIR`. -/
def dfcMaskTcpBidir : ℕ := 0x1

/-- `struct qmap_dfc_ind`, less the fields that no handler reads. -/
structure QmapDfcInd where
  muxId : ℕ
  seqNum : ℕ
  txInfoValid : Bool
  txInfo : Bool
  rxBytesValid : Bool
  bearerId : ℕ
  tcpBidir : Bool
  grant : ℕ
  rxBytes : ℕ
  deriving DecidableEq, Repr

/-- `struct qmap_dfc_query_resp`, less the fields that no handler reads. -/
structure QmapDfcQueryResp where
  muxId : ℕ
  bearerId : ℕ
  tcpBidir : Bool
  rxBytesValid : Bool
  invalid : Bool
  grant : ℕ
  rxBytes : ℕ
  deriving DecidableEq, Repr

/-- `struct qmap_dfc_end_marker_req`, less the fields that no handler reads. -/
structure QmapDfcEndMarkerReq where
  muxId : ℕ
  txId : ℕ
  bearerId : ℕ
  seqNum : ℕ
  deriving DecidableEq, Repr

/-- The three commands that have a handler. -/
inductive QmapDfcCmd
  | ind (cmd : QmapDfcInd)
  | query (cmd : QmapDfcQueryResp)
  | endMarker (cmd : QmapDfcEndMarkerReq)
  deriving DecidableEq, Repr

/-- `dfc_qmap_handle_ind`: an indication with TX info is about the link, and its grant is ignored. -/
def dfcQmapHandleInd (kzalloc ignoreGrant : Bool) (cmd : QmapDfcInd) : DfcEvent :=
  if cmd.txInfoValid then .txLinkStatus cmd.txInfo cmd.bearerId
  else
    .flowStatus kzalloc ignoreGrant 0 (if cmd.tcpBidir then dfcMaskTcpBidir else 0)
      { muxId := cmd.muxId, bearerId := cmd.bearerId, numBytes := cmd.grant, seqNum := cmd.seqNum,
        rxBytesValid := cmd.rxBytesValid, rxBytes := if cmd.rxBytesValid then cmd.rxBytes else 0 } false

/-- `dfc_qmap_handle_query_resp`: the sequence number of a query response is `0xFFFF`. -/
def dfcQmapHandleQueryResp (kzalloc ignoreGrant : Bool) (cmd : QmapDfcQueryResp) : Option DfcEvent :=
  if cmd.invalid then none
  else
    some (.flowStatus kzalloc ignoreGrant 0 (if cmd.tcpBidir then dfcMaskTcpBidir else 0)
      { muxId := cmd.muxId, bearerId := cmd.bearerId, numBytes := cmd.grant, seqNum := 0xFFFF,
        rxBytesValid := cmd.rxBytesValid, rxBytes := if cmd.rxBytesValid then cmd.rxBytes else 0 } true)

/-- `dfc_qmap_handle_end_marker_req`. -/
def dfcQmapHandleEndMarkerReq (cmd : QmapDfcEndMarkerReq) : DfcEvent :=
  .endMarker cmd.bearerId cmd.seqNum cmd.txId

/-- The mux id in the header of a command. -/
def QmapDfcCmd.muxId : QmapDfcCmd → ℕ
  | .ind cmd => cmd.muxId
  | .query cmd => cmd.muxId
  | .endMarker cmd => cmd.muxId

/-- The dispatch of `dfc_qmap_cmd_handler`: the event at the device that the command names. -/
def dfcQmapCmdHandler (kzalloc ignoreGrant : Bool) : QmapDfcCmd → Option DfcEvent
  | .ind cmd => some (dfcQmapHandleInd kzalloc ignoreGrant cmd)
  | .query cmd => dfcQmapHandleQueryResp kzalloc ignoreGrant cmd
  | .endMarker cmd => some (dfcQmapHandleEndMarkerReq cmd)

/-! ### The port -/

/-- The devices with flow control, by the mux id that `rmnet_get_rmnet_dev` finds them under. -/
structure DfcPort where
  dev : ℕ → Option DfcDevice
  requests : List ℕ
  confirmations : List ℕ

/-- A command for the port, or an event of one of its devices. -/
inductive PortEvent
  | cmd (kzalloc ignoreGrant : Bool) (c : QmapDfcCmd)
  | device (muxId : ℕ) (e : DfcEvent)

/-- The device concerned. -/
def PortEvent.muxId : PortEvent → ℕ
  | .cmd _ _ c => c.muxId
  | .device muxId _ => muxId

/-- What happens there. -/
def PortEvent.dfcEvent : PortEvent → Option DfcEvent
  | .cmd kzalloc ignoreGrant c => dfcQmapCmdHandler kzalloc ignoreGrant c
  | .device _ e => some e

/-- The transaction id of an end-marker request. -/
def DfcEvent.txIds : DfcEvent → List ℕ
  | .endMarker _ _ txId => [txId]
  | _ => []

/-- The transaction ids of end-marker requests that come with an event, whether its device exists or not. -/
def PortEvent.txIds (ev : PortEvent) : List ℕ := (ev.dfcEvent.map DfcEvent.txIds).getD []

/-- Flow status and end markers come in commands; activations find memory. -/
def DfcEvent.Local : DfcEvent → Prop
  | .flowStatus _ _ _ _ _ _ => False
  | .endMarker _ _ _ => False
  | e => e.Allocated

/-- An event of a device is one that is no command, and enabled there. -/
def PortEvent.Enabled (p : DfcPort) : PortEvent → Prop
  | .cmd _ _ _ => True
  | .device muxId e => e.Local ∧ ∀ d, p.dev muxId = some d → e.Enabled d

/-- The port after an event.  What the device sends goes out at once. -/
def portNext (cfg : DfcConfig) (p : DfcPort) (ev : PortEvent) : DfcPort :=
  match p.dev ev.muxId, ev.dfcEvent with
  | some d, some e =>
      let d' := dfcNext cfg d e
      { dev := Function.update p.dev ev.muxId (some d')
        requests := p.requests ++ ev.txIds
        confirmations := p.confirmations ++ confirmed (d'.qos.sent.drop d.qos.sent.length) }
  | _, _ => { p with requests := p.requests ++ ev.txIds }

/-- One event; a transaction id is used for one request only. -/
def PortStep (cfg : DfcConfig) (p : DfcPort) (ev : PortEvent) (p' : DfcPort) : Prop :=
  ev.Enabled p ∧ (∀ t ∈ ev.txIds, t ∉ p.requests) ∧ p' = portNext cfg p ev

/-- Any devices, as `qmi_rmnet_qos_init` leaves them, and empty logs. -/
structure PortInit (p : DfcPort) : Prop where
  dev : ∀ muxId d, p.dev muxId = some d → DeviceInit d
  requests : p.requests = []
  confirmations : p.confirmations = []

end Rmnet
