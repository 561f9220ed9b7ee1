import Rmnet.Frag.Descriptor

/-!
# QMAP commands on the fragment path

A frame with the command bit is a flow control command or, with DL markers in use, the start or the end
of a downlink batch.  Commands are read from the descriptor and change statistics and queues; the
descriptor itself and the pool stay as they are (`samePool_command`, `samePool_flowCommand`).
-/

namespace Rmnet

open Word Field

/-- `sizeof(struct rmnet_map_control_command)`. -/
def controlCommandSize : ℕ := 16

/-- `sizeof(struct rmnet_map_control_command_header)`. -/
def controlCommandHeaderSize : ℕ := 8

/-- `sizeof(struct rmnet_map_dl_ind_hdr)`. -/
def dlIndHdrSize : ℕ := 16

/-- `sizeof(struct rmnet_map_dl_ind_trl)`. -/
def dlIndTrlSize : ℕ := 4

/-- `rmnet_frag_do_flow_control`: the port after it, and whether it answered `RMNET_MAP_COMMAND_ACK`.
`rmnet_vnd_do_flow_control` never fails. -/
def rmnetFragDoFlowControl (port : RmnetPort) (qmap : MapHeader) (enable : Bool) : RmnetPort × Bool :=
  if maxLogicalEp ≤ qmap.muxId then (port, false)
  else
    match port.endpoint qmap.muxId with
    | none => (port, false)
    | some vnd => ({ port with control := port.control ++ [.flowControl vnd enable] }, true)

/-- `rmnet_frag_send_ack`.  The new buffer has room for the frame, but no `skb_put` makes the room part
of its data: what is transmitted has length zero. -/
def rmnetFragSendAck (port : RmnetPort) : RmnetPort :=
  match port.kalloc with
  | (false, port) => port
  | (true, port) => { port with control := port.control ++ [.ack []] }

/-- `rmnet_frag_command`: `RMNET_MAP_COMMAND_FLOW_DISABLE` is 1, `RMNET_MAP_COMMAND_FLOW_ENABLE` is 2. -/
def rmnetFragCommand (port : RmnetPort) (desc : RmnetFragDescriptor) (qmap : MapHeader) : RmnetPort :=
  match rmnetFragHeaderPtr desc mapHeaderSize controlCommandSize with
  | none => port
  | some cmd =>
      let (port, acked) := match byteAt cmd 0 with
        | 1 => rmnetFragDoFlowControl port qmap false
        | 2 => rmnetFragDoFlowControl port qmap true
        | _ => (port, false)
      if acked then rmnetFragSendAck port else port

/-- `rmnet_frag_process_flow_start`. -/
def rmnetFragProcessFlowStart (port : RmnetPort) (desc : RmnetFragDescriptor) (cmd : Bytes) (cmdLen : ℕ) :
    RmnetPort :=
  if cmdLen + mapHeaderSize < dlIndHdrSize + mapHeaderSize + controlCommandHeaderSize then port
  else
    match rmnetFragHeaderPtr desc (mapHeaderSize + controlCommandHeaderSize) dlIndHdrSize with
    | none => port
    | some dlhdr =>
        let port := { port with
          dlMarker := { port.dlMarker with
            hdrLastEpId := le16At cmd 2 % 32768
            hdrLastQmapVers := byteAt cmd 1 / 4 % 32
            hdrLastTransId := le32At cmd 4
            hdrLastSeq := le32At dlhdr 0
            hdrLastBytes := le32At dlhdr 4
            hdrLastPkts := le32At dlhdr 8
            hdrLastFlows := le32At dlhdr 12
            hdrTotalBytes := port.dlMarker.hdrTotalBytes + le32At dlhdr 4
            hdrTotalPkts := port.dlMarker.hdrTotalPkts + le32At dlhdr 8
            hdrCount := port.dlMarker.hdrCount + 1 } }
        if ingressDlMarkerV2 port.dataFormat then
          { port with control := port.control ++ [.dlHdrNotify dlhdr cmd] }
        else port

/-- `rmnet_frag_process_flow_end`. -/
def rmnetFragProcessFlowEnd (port : RmnetPort) (desc : RmnetFragDescriptor) (cmd : Bytes) (cmdLen : ℕ) :
    RmnetPort :=
  if cmdLen + mapHeaderSize < dlIndTrlSize + mapHeaderSize + controlCommandHeaderSize then port
  else
    match rmnetFragHeaderPtr desc (mapHeaderSize + controlCommandHeaderSize) dlIndTrlSize with
    | none => port
    | some dltrl =>
        let port := { port with
          dlMarker := { port.dlMarker with
            trlLastSeq := le32At dltrl 0
            trlCount := port.dlMarker.trlCount + 1 } }
        if ingressDlMarkerV2 port.dataFormat then
          { port with control := port.control ++ [.dlTrlNotify dltrl cmd] }
        else port

/-- `rmnet_frag_flow_command`: `RMNET_MAP_COMMAND_FLOW_START` is 7, `RMNET_MAP_COMMAND_FLOW_END` is 8. -/
def rmnetFragFlowCommand (port : RmnetPort) (desc : RmnetFragDescriptor) (pktLen : ℕ) : RmnetPort :=
  match rmnetFragHeaderPtr desc mapHeaderSize controlCommandHeaderSize with
  | none => port
  | some cmd =>
      match byteAt cmd 0 with
      | 7 => rmnetFragProcessFlowStart port desc cmd pktLen
      | 8 => rmnetFragProcessFlowEnd port desc cmd pktLen
      | _ => port

/-! ### The dispatch, by the name of the command -/

theorem rmnetFragFlowCommand_start {port : RmnetPort} {desc : RmnetFragDescriptor} {cmd : Bytes} (pktLen : ℕ)
    (hcmd : rmnetFragHeaderPtr desc mapHeaderSize controlCommandHeaderSize = some cmd) (h : byteAt cmd 0 = 7) :
    rmnetFragFlowCommand port desc pktLen = rmnetFragProcessFlowStart port desc cmd pktLen := by
  rw [rmnetFragFlowCommand, hcmd]
  simp only [h]

theorem rmnetFragFlowCommand_end {port : RmnetPort} {desc : RmnetFragDescriptor} {cmd : Bytes} (pktLen : ℕ)
    (hcmd : rmnetFragHeaderPtr desc mapHeaderSize controlCommandHeaderSize = some cmd) (h : byteAt cmd 0 = 8) :
    rmnetFragFlowCommand port desc pktLen = rmnetFragProcessFlowEnd port desc cmd pktLen := by
  rw [rmnetFragFlowCommand, hcmd]
  simp only [h]

theorem rmnetFragFlowCommand_other {port : RmnetPort} {desc : RmnetFragDescriptor} {cmd : Bytes} (pktLen : ℕ)
    (hcmd : rmnetFragHeaderPtr desc mapHeaderSize controlCommandHeaderSize = some cmd) (h₇ : byteAt cmd 0 ≠ 7)
    (h₈ : byteAt cmd 0 ≠ 8) : rmnetFragFlowCommand port desc pktLen = port := by
  rw [rmnetFragFlowCommand, hcmd]
  simp only

theorem rmnetFragCommand_flowControl (port : RmnetPort) {desc : RmnetFragDescriptor} (qmap : MapHeader)
    {cmd : Bytes} (hcmd : rmnetFragHeaderPtr desc mapHeaderSize controlCommandSize = some cmd)
    (h : byteAt cmd 0 = 1 ∨ byteAt cmd 0 = 2) :
    ∃ enable, rmnetFragCommand port desc qmap
      = if (rmnetFragDoFlowControl port qmap enable).2 then rmnetFragSendAck (rmnetFragDoFlowControl port qmap enable).1
        else (rmnetFragDoFlowControl port qmap enable).1 := by
  unfold rmnetFragCommand
  rw [hcmd]
  rcases h with h | h
  · exact ⟨false, by simp only [h]⟩
  · exact ⟨true, by simp only [h]⟩

theorem rmnetFragCommand_other {port : RmnetPort} {desc : RmnetFragDescriptor} (qmap : MapHeader)
    (h : ∀ cmd, rmnetFragHeaderPtr desc mapHeaderSize controlCommandSize = some cmd →
      byteAt cmd 0 ≠ 1 ∧ byteAt cmd 0 ≠ 2) : rmnetFragCommand port desc qmap = port := by
  unfold rmnetFragCommand
  split
  · rfl
  · rename_i cmd hcmd
    obtain ⟨h₁, h₂⟩ := h cmd hcmd
    split
    rename_i heq
    split at heq
    · contradiction
    · contradiction
    · cases heq
      rfl

/-! ### The pool -/

/-- Two ports with the same descriptor pool and the same calls on it. -/
structure RmnetPort.SamePool (p q : RmnetPort) : Prop where
  freeList : p.freeList = q.freeList
  poolSize : p.poolSize = q.poolSize
  events : p.events = q.events

theorem RmnetPort.SamePool.rfl {p : RmnetPort} : p.SamePool p := ⟨by rfl, by rfl, by rfl⟩

theorem RmnetPort.SamePool.trans {p q r : RmnetPort} (h₁ : p.SamePool q) (h₂ : q.SamePool r) :
    p.SamePool r :=
  ⟨h₁.freeList.trans h₂.freeList, h₁.poolSize.trans h₂.poolSize, h₁.events.trans h₂.events⟩

theorem samePool_kalloc (port : RmnetPort) : port.SamePool port.kalloc.2 := ⟨rfl, rfl, rfl⟩

theorem samePool_bump (port : RmnetPort) (dev : Option NetDevice) (s : PrivStat) (n : ℕ) :
    port.SamePool (port.bump dev s n) := by
  cases dev with
  | none => exact .rfl
  | some d => exact ⟨rfl, rfl, rfl⟩

theorem samePool_doFlowControl (port : RmnetPort) (qmap : MapHeader) (enable : Bool) :
    port.SamePool (rmnetFragDoFlowControl port qmap enable).1 := by
  unfold rmnetFragDoFlowControl
  split
  · exact .rfl
  · split
    · exact .rfl
    · exact ⟨rfl, rfl, rfl⟩

theorem samePool_sendAck (port : RmnetPort) : port.SamePool (rmnetFragSendAck port) := by
  unfold rmnetFragSendAck RmnetPort.kalloc
  split
  · rename_i h
    obtain ⟨-, rfl⟩ := Prod.mk.inj h
    exact ⟨rfl, rfl, rfl⟩
  · rename_i h
    obtain ⟨-, rfl⟩ := Prod.mk.inj h
    exact ⟨rfl, rfl, rfl⟩

theorem samePool_command (port : RmnetPort) (desc : RmnetFragDescriptor) (qmap : MapHeader) :
    port.SamePool (rmnetFragCommand port desc qmap) := by
  unfold rmnetFragCommand
  split
  · exact .rfl
  · have hack : ∀ r : RmnetPort × Bool, port.SamePool r.1 →
        port.SamePool (if r.2 then rmnetFragSendAck r.1 else r.1) := by
      intro r hr
      split
      · exact hr.trans (samePool_sendAck r.1)
      · exact hr
    simp only
    split
    · exact hack _ (samePool_doFlowControl port qmap false)
    · exact hack _ (samePool_doFlowControl port qmap true)
    · exact hack (port, false) .rfl

theorem samePool_flowCommand (port : RmnetPort) (desc : RmnetFragDescriptor) (pktLen : ℕ) :
    port.SamePool (rmnetFragFlowCommand port desc pktLen) := by
  unfold rmnetFragFlowCommand
  split
  · exact .rfl
  · split
    · unfold rmnetFragProcessFlowStart
      split
      · exact .rfl
      · split
        · exact .rfl
        · simp only
          split
          · exact ⟨rfl, rfl, rfl⟩
          · exact ⟨rfl, rfl, rfl⟩
    · unfold rmnetFragProcessFlowEnd
      split
      · exact .rfl
      · split
        · exact .rfl
        · simp only
          split
          · exact ⟨rfl, rfl, rfl⟩
          · exact ⟨rfl, rfl, rfl⟩
    · exact .rfl

end Rmnet
