import Rmnet.Frag.Command
import Rmnet.Linear.Segment

/-!
# QMAP commands on the linear path

`rmnet_map_command.c`: the commands of a frame with the command bit in a socket buffer.  A flow control
command is answered with the frame itself, its command type set to `RMNET_MAP_COMMAND_ACK`.  The fields of
a command are read through `rmnet_map_data_ptr` at fixed offsets, with no check that the buffer is as long.

The functions are those that `__rmnet_map_ingress_handler` calls: `rmnet_perf` is false.
-/

namespace Rmnet

open Word Field

/-- `RMNET_MAP_COMMAND_ACK`. -/
def mapCommandAck : ℕ := 1

/-- The QMAP header at the data of a buffer. -/
def mapHeaderOf (skb : SkBuff) : MapHeader := MapHeader.parse (memBytes (rmnetMapDataPtr skb) 0 mapHeaderSize)

/-- `rmnet_map_get_cmd_start`: the command behind the QMAP header, as long as its longest form. -/
def rmnetMapGetCmdStart (skb : SkBuff) : Bytes :=
  memBytes (rmnetMapDataPtr skb) mapHeaderSize controlCommandSize

/-- The fragments of a list that are left when it is cut to `n` bytes. -/
def trimFrags : List SkbFrag → ℕ → List SkbFrag
  | [], _ => []
  | f :: fs, n => if n = 0 then [] else f.slice 0 (min f.size n) :: trimFrags fs (n - f.size)

/-- The buffers of a `frag_list` that are left when it is cut to `n` bytes. -/
def trimChain : List (List SkbFrag) → ℕ → List (List SkbFrag)
  | [], _ => []
  | fs :: chain, n => if n = 0 then [] else trimFrags fs n :: trimChain chain (n - fragsSize fs)

/-- `pskb_trim`. -/
def pskbTrim (skb : SkBuff) (n : ℕ) : SkBuff :=
  if skb.len ≤ n then skb
  else
    { skb with
      linear := skb.linear.take n
      frags := trimFrags skb.frags (n - skb.linear.length)
      fragList := trimChain skb.fragList (n - skb.linear.length - fragsSize skb.frags)
      len := n
      dataLen := n - skb.linear.length }

/-- `rmnet_map_do_flow_control`: the port after it, and whether it answered `RMNET_MAP_COMMAND_ACK`. -/
def rmnetMapDoFlowControl (port : RmnetPort) (skb : SkBuff) (enable : Bool) : RmnetPort × Bool :=
  let muxId := (mapHeaderOf skb).muxId
  if maxLogicalEp ≤ muxId then (port, false)
  else
    match port.endpoint muxId with
    | none => (port, false)
    | some vnd => ({ port with control := port.control ++ [.flowControl vnd enable] }, true)

/-- `cmd->cmd_type = type & 0x03` in a frame. -/
def setCmdType (frame : Bytes) (type : ℕ) : Bytes :=
  overwrite frame (mapHeaderSize + 1)
    [UInt8.ofNat (byteAt frame (mapHeaderSize + 1) / 4 * 4 + type % 4)]

/-- `rmnet_map_send_ack`. -/
def rmnetMapSendAck (port : RmnetPort) (skb : SkBuff) : RmnetPort :=
  let skb := if ingressMapCksumv4 port.dataFormat then pskbTrim skb (sub32 skb.len dlCsumTrailerSize) else skb
  { port with control := port.control ++ [.ack (setCmdType skb.bytes mapCommandAck)] }

/-- `rmnet_map_command`: `RMNET_MAP_COMMAND_FLOW_DISABLE` is 1, `RMNET_MAP_COMMAND_FLOW_ENABLE` is 2. -/
def rmnetMapCommand (port : RmnetPort) (skb : SkBuff) : RmnetPort :=
  let (port, acked) := match byteAt (rmnetMapGetCmdStart skb) 0 with
    | 1 => rmnetMapDoFlowControl port skb false
    | 2 => rmnetMapDoFlowControl port skb true
    | _ => (port, false)
  if acked then rmnetMapSendAck port skb else port

/-- The statistics take the header of the command. -/
def DlMarkerStats.command (m : DlMarkerStats) (qcmd : Bytes) : DlMarkerStats :=
  { m with
    hdrLastEpId := le16At qcmd 2 % 32768
    hdrLastQmapVers := byteAt qcmd 1 / 4 % 32
    hdrLastTransId := le32At qcmd 4 }

/-- The statistics take a start marker. -/
def DlMarkerStats.flowStart (m : DlMarkerStats) (dlhdr : Bytes) : DlMarkerStats :=
  { m with
    hdrLastSeq := le32At dlhdr 0
    hdrLastBytes := le32At dlhdr 4
    hdrLastPkts := le32At dlhdr 8
    hdrLastFlows := le32At dlhdr 12
    hdrTotalBytes := m.hdrTotalBytes + le32At dlhdr 4
    hdrTotalPkts := m.hdrTotalPkts + le32At dlhdr 8
    hdrCount := m.hdrCount + 1 }

/-- The statistics take an end marker. -/
def DlMarkerStats.flowEnd (m : DlMarkerStats) (dltrl : Bytes) : DlMarkerStats :=
  { m with trlLastSeq := le32At dltrl 0, trlCount := m.trlCount + 1 }

/-- `rmnet_map_process_flow_start`.  Only with version 2 of the markers are the headers pulled. -/
def rmnetMapProcessFlowStart (port : RmnetPort) (skb : SkBuff) : RmnetPort :=
  if skb.len < dlIndHdrSize + mapHeaderSize + controlCommandHeaderSize then port
  else if ingressDlMarkerV2 port.dataFormat then
    let skb := pskbPull skb mapHeaderSize
    let qcmd := memBytes (rmnetMapDataPtr skb) 0 controlCommandHeaderSize
    let skb := pskbPull skb controlCommandHeaderSize
    let dlhdr := memBytes (rmnetMapDataPtr skb) 0 dlIndHdrSize
    { port with
      dlMarker := (port.dlMarker.command qcmd).flowStart dlhdr
      control := port.control ++ [.dlHdrNotify dlhdr qcmd] }
  else { port with dlMarker := port.dlMarker.flowStart (memBytes (rmnetMapDataPtr skb) 0 dlIndHdrSize) }

/-- `rmnet_map_process_flow_end`. -/
def rmnetMapProcessFlowEnd (port : RmnetPort) (skb : SkBuff) : RmnetPort :=
  if skb.len < dlIndTrlSize + mapHeaderSize + controlCommandHeaderSize then port
  else if ingressDlMarkerV2 port.dataFormat then
    let skb := pskbPull skb mapHeaderSize
    let qcmd := memBytes (rmnetMapDataPtr skb) 0 controlCommandHeaderSize
    let skb := pskbPull skb controlCommandHeaderSize
    let dltrl := memBytes (rmnetMapDataPtr skb) 0 dlIndTrlSize
    { port with
      dlMarker := port.dlMarker.flowEnd dltrl
      control := port.control ++ [.dlTrlNotify dltrl qcmd] }
  else { port with dlMarker := port.dlMarker.flowEnd (memBytes (rmnetMapDataPtr skb) 0 dlIndTrlSize) }

/-- `rmnet_map_flow_command`: `none` is the return value 1, for a command that is not a marker. -/
def rmnetMapFlowCommand (port : RmnetPort) (skb : SkBuff) : Option RmnetPort :=
  match byteAt (rmnetMapGetCmdStart skb) 0 with
  | 7 => some (rmnetMapProcessFlowStart port skb)
  | 8 => some (rmnetMapProcessFlowEnd port skb)
  | _ => none

/-! ### The dispatch, by the name of the command -/

theorem rmnetMapFlowCommand_start {port : RmnetPort} {skb : SkBuff}
    (h : byteAt (rmnetMapGetCmdStart skb) 0 = 7) :
    rmnetMapFlowCommand port skb = some (rmnetMapProcessFlowStart port skb) := by
  simp only [rmnetMapFlowCommand, h]

theorem rmnetMapFlowCommand_end {port : RmnetPort} {skb : SkBuff}
    (h : byteAt (rmnetMapGetCmdStart skb) 0 = 8) :
    rmnetMapFlowCommand port skb = some (rmnetMapProcessFlowEnd port skb) := by
  simp only [rmnetMapFlowCommand, h]

theorem rmnetMapFlowCommand_other {port : RmnetPort} {skb : SkBuff}
    (h₇ : byteAt (rmnetMapGetCmdStart skb) 0 ≠ 7) (h₈ : byteAt (rmnetMapGetCmdStart skb) 0 ≠ 8) :
    rmnetMapFlowCommand port skb = none := by
  unfold rmnetMapFlowCommand
  split
  · contradiction
  · contradiction
  · rfl

theorem rmnetMapCommand_flowControl (port : RmnetPort) {skb : SkBuff}
    (h : byteAt (rmnetMapGetCmdStart skb) 0 = 1 ∨ byteAt (rmnetMapGetCmdStart skb) 0 = 2) :
    ∃ enable, rmnetMapCommand port skb
      = if (rmnetMapDoFlowControl port skb enable).2 then rmnetMapSendAck (rmnetMapDoFlowControl port skb enable).1 skb
        else (rmnetMapDoFlowControl port skb enable).1 := by
  unfold rmnetMapCommand
  rcases h with h | h
  · exact ⟨false, by simp only [h]⟩
  · exact ⟨true, by simp only [h]⟩

theorem rmnetMapCommand_other {port : RmnetPort} {skb : SkBuff}
    (h₁ : byteAt (rmnetMapGetCmdStart skb) 0 ≠ 1) (h₂ : byteAt (rmnetMapGetCmdStart skb) 0 ≠ 2) :
    rmnetMapCommand port skb = port := by
  unfold rmnetMapCommand
  split
  rename_i heq
  split at heq
  · contradiction
  · contradiction
  · cases heq
    rfl

end Rmnet
