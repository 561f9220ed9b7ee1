import Rmnet.Linear.Ingress

/-!
# Control frames on the two ingress paths

A QMAP command can reach the driver in a socket buffer or in a fragment descriptor, and each path has its own
copy of the code for it.  `SameControl` compares what the two leave behind: the DL marker statistics, what the
queues were told, and the acknowledgements that were transmitted.

They do not agree.  `control_alike_iff` says exactly when they do: the frame is not a flow control command for
a known device, and not a version 1 marker, unless that happens to read the same at two places.

* A flow control command is acknowledged with the frame on the linear path; on the fragment path with a buffer
  of length zero, or, when DL markers are in use, not at all.
* Without version 2 of the markers the linear path takes the marker from the front of the frame.
-/

namespace Rmnet

open Word Field

/-! ### What the paths leave behind -/

/-- The state of the queue of a device after an event. -/
def queueAfter (dev : NetDevice) (running : Bool) : ControlEvent → Bool
  | .flowControl d enable => if d = dev then enable else running
  | _ => running

/-- Whether the queue of a device runs, after all that happened. -/
def RmnetPort.queueRunning (port : RmnetPort) (dev : NetDevice) : Bool :=
  port.control.foldl (queueAfter dev) true

/-- The bytes that an event transmits. -/
def ackBytes : ControlEvent → Option Bytes
  | .ack bytes => some bytes
  | _ => none

/-- The acknowledgements transmitted so far. -/
def RmnetPort.acks (port : RmnetPort) : List Bytes := port.control.filterMap ackBytes

/-- Two ports with the same marker statistics, queues and acknowledgements. -/
structure SameControl (p q : RmnetPort) : Prop where
  dlMarker : p.dlMarker = q.dlMarker
  queues : ∀ dev, p.queueRunning dev = q.queueRunning dev
  acks : p.acks = q.acks

theorem SameControl.refl (p : RmnetPort) : SameControl p p := ⟨rfl, fun _ => rfl, rfl⟩

/-- Only the statistics and the log of events are compared. -/
theorem SameControl.of_eq {p q : RmnetPort} (hm : p.dlMarker = q.dlMarker) (hc : p.control = q.control) :
    SameControl p q :=
  ⟨hm, fun dev => by rw [RmnetPort.queueRunning, RmnetPort.queueRunning, hc],
    by rw [RmnetPort.acks, RmnetPort.acks, hc]⟩

/-! ### Control frames -/

/-- The name of the command in a frame. -/
def commandName (frame : Bytes) : ℕ := byteAt frame mapHeaderSize

/-- A frame with the command bit, no padding and a complete command. -/
structure ControlFrame (frame : Bytes) : Prop where
  cdBit : (MapHeader.parse frame).cdBit = true
  padLen : (MapHeader.parse frame).padLen = 0
  length_eq : frame.length = mapHeaderSize + (MapHeader.parse frame).pktLen
  header : mapHeaderSize + controlCommandHeaderSize ≤ frame.length
  flowControl : commandName frame = 1 ∨ commandName frame = 2 → mapHeaderSize + controlCommandSize ≤ frame.length

/-- The frame is a flow control command for a device that the port knows, and the port takes such commands. -/
def FlowControlled (port : RmnetPort) (frame : Bytes) : Prop :=
  ingressMapCommands port.dataFormat = true ∧ (commandName frame = 1 ∨ commandName frame = 2) ∧
    (MapHeader.parse frame).muxId < maxLogicalEp ∧ (port.endpoint (MapHeader.parse frame).muxId).isSome = true

/-- The port takes markers of version 1. -/
def MarkerV1 (port : RmnetPort) : Prop :=
  ingressDlMarker port.dataFormat = true ∧ ingressDlMarkerV2 port.dataFormat = false

/-- The two paths treat the frame alike: no flow control, and a version 1 marker reads the same from the front
of the frame, with a command header that the statistics have already. -/
structure ControlAlike (port : RmnetPort) (frame : Bytes) : Prop where
  flow : ¬ FlowControlled port frame
  start : MarkerV1 port → commandName frame = 7 → 28 ≤ frame.length →
    port.dlMarker.command ((frame.drop 4).take 8) = port.dlMarker ∧
      le32At frame 0 = le32At frame 12 ∧ le32At frame 4 = le32At frame 16 ∧
      le32At frame 8 = le32At frame 20 ∧ le32At frame 12 = le32At frame 24
  stop : MarkerV1 port → commandName frame = 8 → 16 ≤ frame.length → le32At frame 0 = le32At frame 12

section

variable {port : RmnetPort} {frame : Bytes} {desc : RmnetFragDescriptor}

/-! ### The linear path -/

theorem commandName_linear : byteAt (rmnetMapGetCmdStart (linearSkb frame)) 0 = commandName frame := by
  rw [rmnetMapGetCmdStart, byteAt_memBytes frame (by decide)]
  rfl

/-- The command header and the marker behind it, once the headers are pulled. -/
theorem markerBytes_linear (n : ℕ) (h : 12 + n ≤ frame.length) :
    memBytes (rmnetMapDataPtr (pskbPull (linearSkb frame) mapHeaderSize)) 0 controlCommandHeaderSize
        = (frame.drop 4).take 8 ∧
      memBytes (rmnetMapDataPtr (pskbPull (pskbPull (linearSkb frame) mapHeaderSize) controlCommandHeaderSize)) 0 n
        = (frame.drop 12).take n := by
  rw [pskbPull_linear (by rw [mapHeaderSize]; omega),
    pskbPull_linear (by rw [List.length_drop, mapHeaderSize, controlCommandHeaderSize]; omega),
    memBytes_linear (by rw [List.length_drop, mapHeaderSize, controlCommandHeaderSize]; omega),
    memBytes_linear (by rw [List.length_drop, List.length_drop, mapHeaderSize, controlCommandHeaderSize]; omega)]
  exact ⟨rfl, by rw [List.drop_zero, List.drop_drop]; rfl⟩

/-- A start marker on the linear path. -/
theorem mapProcessFlowStart_eq :
    rmnetMapProcessFlowStart port (linearSkb frame)
      = if frame.length < 28 then port
        else if ingressDlMarkerV2 port.dataFormat then
          { port with
            dlMarker := (port.dlMarker.command ((frame.drop 4).take 8)).flowStart ((frame.drop 12).take 16)
            control := port.control ++ [.dlHdrNotify ((frame.drop 12).take 16) ((frame.drop 4).take 8)] }
        else { port with dlMarker := port.dlMarker.flowStart (frame.take 16) } := by
  have hshort : (linearSkb frame).len < dlIndHdrSize + mapHeaderSize + controlCommandHeaderSize ↔ frame.length < 28 :=
    Iff.rfl
  unfold rmnetMapProcessFlowStart
  by_cases hlen : frame.length < 28
  · rw [if_pos hlen, if_pos (hshort.mpr hlen)]
  · obtain ⟨hcmd, hmarker⟩ := markerBytes_linear dlIndHdrSize
      (show 12 + dlIndHdrSize ≤ frame.length by rw [dlIndHdrSize]; omega)
    rw [if_neg hlen, if_neg (fun h => hlen (hshort.mp h))]
    simp only [hcmd, hmarker]
    rw [memBytes_linear (by rw [dlIndHdrSize]; omega), List.drop_zero]
    rfl

/-- An end marker on the linear path. -/
theorem mapProcessFlowEnd_eq :
    rmnetMapProcessFlowEnd port (linearSkb frame)
      = if frame.length < 16 then port
        else if ingressDlMarkerV2 port.dataFormat then
          { port with
            dlMarker := port.dlMarker.flowEnd ((frame.drop 12).take 4)
            control := port.control ++ [.dlTrlNotify ((frame.drop 12).take 4) ((frame.drop 4).take 8)] }
        else { port with dlMarker := port.dlMarker.flowEnd (frame.take 4) } := by
  have hshort : (linearSkb frame).len < dlIndTrlSize + mapHeaderSize + controlCommandHeaderSize ↔ frame.length < 16 :=
    Iff.rfl
  unfold rmnetMapProcessFlowEnd
  by_cases hlen : frame.length < 16
  · rw [if_pos hlen, if_pos (hshort.mpr hlen)]
  · obtain ⟨hcmd, hmarker⟩ := markerBytes_linear dlIndTrlSize
      (show 12 + dlIndTrlSize ≤ frame.length by rw [dlIndTrlSize]; omega)
    rw [if_neg hlen, if_neg (fun h => hlen (hshort.mp h))]
    simp only [hcmd, hmarker]
    rw [memBytes_linear (by rw [dlIndTrlSize]; omega), List.drop_zero]
    rfl

/-! ### The fragment path -/

/-- A start marker on the fragment path. -/
theorem fragProcessFlowStart_eq (hs : desc.Sized) (cmd : Bytes) {cmdLen : ℕ}
    (hlen : desc.bytes.length = mapHeaderSize + cmdLen) :
    rmnetFragProcessFlowStart port desc cmd cmdLen
      = if desc.bytes.length < 28 then port
        else
          { port with
            dlMarker := (port.dlMarker.command cmd).flowStart ((desc.bytes.drop 12).take 16)
            control := if ingressDlMarkerV2 port.dataFormat
              then port.control ++ [.dlHdrNotify ((desc.bytes.drop 12).take 16) cmd] else port.control } := by
  unfold rmnetFragProcessFlowStart
  simp only [mapHeaderSize, controlCommandHeaderSize, dlIndHdrSize] at hlen ⊢
  by_cases hshort : desc.bytes.length < 28
  · rw [if_pos hshort, if_pos (by omega)]
  · rw [if_neg hshort, if_neg (by omega), rmnetFragHeaderPtr_eq hs, readBytes_of_le (by omega)]
    simp only
    split
    · rfl
    · rfl

/-- An end marker on the fragment path. -/
theorem fragProcessFlowEnd_eq (hs : desc.Sized) (cmd : Bytes) {cmdLen : ℕ}
    (hlen : desc.bytes.length = mapHeaderSize + cmdLen) :
    rmnetFragProcessFlowEnd port desc cmd cmdLen
      = if desc.bytes.length < 16 then port
        else
          { port with
            dlMarker := port.dlMarker.flowEnd ((desc.bytes.drop 12).take 4)
            control := if ingressDlMarkerV2 port.dataFormat
              then port.control ++ [.dlTrlNotify ((desc.bytes.drop 12).take 4) cmd] else port.control } := by
  unfold rmnetFragProcessFlowEnd
  simp only [mapHeaderSize, controlCommandHeaderSize, dlIndTrlSize] at hlen ⊢
  by_cases hshort : desc.bytes.length < 16
  · rw [if_pos hshort, if_pos (by omega)]
  · rw [if_neg hshort, if_neg (by omega), rmnetFragHeaderPtr_eq hs, readBytes_of_le (by omega)]
    simp only
    split
    · rfl
    · rfl

/-! ### Flow control commands -/

/-- A command for a device of the port. -/
def Addressed (port : RmnetPort) (frame : Bytes) : Prop :=
  (commandName frame = 1 ∨ commandName frame = 2) ∧ (MapHeader.parse frame).muxId < maxLogicalEp ∧
    (port.endpoint (MapHeader.parse frame).muxId).isSome = true

theorem mapDoFlowControl_eq (hlen : mapHeaderSize ≤ frame.length) (enable : Bool) :
    rmnetMapDoFlowControl port (linearSkb frame) enable
      = rmnetFragDoFlowControl port (MapHeader.parse frame) enable := by
  rw [rmnetMapDoFlowControl, mapHeaderOf_linear hlen]
  rfl

/-- Without an endpoint, flow control does nothing and is not acknowledged. -/
theorem fragDoFlowControl_unknown {qmap : MapHeader} (enable : Bool)
    (h : ¬ (qmap.muxId < maxLogicalEp ∧ (port.endpoint qmap.muxId).isSome = true)) :
    rmnetFragDoFlowControl port qmap enable = (port, false) := by
  unfold rmnetFragDoFlowControl
  by_cases hmux : maxLogicalEp ≤ qmap.muxId
  · rw [if_pos hmux]
  · rw [if_neg hmux]
    cases hep : port.endpoint qmap.muxId with
    | none => rfl
    | some vnd => exact absurd ⟨by omega, by rw [hep]; rfl⟩ h

theorem fragDoFlowControl_known {qmap : MapHeader} (enable : Bool)
    (h : qmap.muxId < maxLogicalEp ∧ (port.endpoint qmap.muxId).isSome = true) :
    ∃ vnd, rmnetFragDoFlowControl port qmap enable
      = ({ port with control := port.control ++ [.flowControl vnd enable] }, true) := by
  obtain ⟨vnd, hep⟩ := Option.isSome_iff_exists.mp h.2
  refine ⟨vnd, ?_⟩
  rw [rmnetFragDoFlowControl, if_neg (by omega), hep]

theorem mapCommand_ignored (hlen : mapHeaderSize ≤ frame.length) (h : ¬ Addressed port frame) :
    rmnetMapCommand port (linearSkb frame) = port := by
  by_cases hname : commandName frame = 1 ∨ commandName frame = 2
  · rw [← commandName_linear] at hname
    obtain ⟨enable, heq⟩ := rmnetMapCommand_flowControl port hname
    rw [commandName_linear] at hname
    rw [mapDoFlowControl_eq hlen, fragDoFlowControl_unknown enable (fun hk => h ⟨hname, hk⟩)] at heq
    rw [heq]
    rfl
  · exact rmnetMapCommand_other (by rw [commandName_linear]; omega) (by rw [commandName_linear]; omega)

/-- The linear path answers with the frame. -/
theorem mapCommand_acks (hlen : mapHeaderSize ≤ frame.length) (hv4 : ingressMapCksumv4 port.dataFormat = false)
    (h : Addressed port frame) :
    (rmnetMapCommand port (linearSkb frame)).acks = port.acks ++ [setCmdType frame mapCommandAck] := by
  have hname := h.1
  rw [← commandName_linear] at hname
  obtain ⟨enable, heq⟩ := rmnetMapCommand_flowControl port hname
  obtain ⟨vnd, hknown⟩ := fragDoFlowControl_known enable h.2
  rw [mapDoFlowControl_eq hlen, hknown] at heq
  rw [heq, if_pos rfl, rmnetMapSendAck]
  simp only [hv4, Bool.false_eq_true, if_false, linearSkb_bytes]
  rw [RmnetPort.acks, List.append_assoc, List.filterMap_append]
  rfl

/-- The name of a command, read from a descriptor. -/
theorem commandName_frag (hs : desc.Sized) {n : ℕ} (hn : 0 < n) {cmd : Bytes}
    (h : rmnetFragHeaderPtr desc mapHeaderSize n = some cmd) : byteAt cmd 0 = commandName desc.bytes := by
  rw [rmnetFragHeaderPtr_eq hs] at h
  rw [(readBytes_eq_some h).2, byteAt_take hn, byteAt_drop]
  rfl

theorem fragCommand_ignored (hs : desc.Sized) (h : ¬ Addressed port desc.bytes) :
    rmnetFragCommand port desc (MapHeader.parse desc.bytes) = port := by
  by_cases hname : commandName desc.bytes = 1 ∨ commandName desc.bytes = 2
  · cases hcmd : rmnetFragHeaderPtr desc mapHeaderSize controlCommandSize with
    | none => exact rmnetFragCommand_other _ (fun cmd hc => by rw [hcmd] at hc; cases hc)
    | some cmd =>
      obtain ⟨enable, heq⟩ := rmnetFragCommand_flowControl port (MapHeader.parse desc.bytes) hcmd
        (by rw [commandName_frag hs (by decide) hcmd]; exact hname)
      rw [fragDoFlowControl_unknown enable (fun hk => h ⟨hname, hk⟩)] at heq
      rw [heq]
      rfl
  · refine rmnetFragCommand_other _ fun cmd hcmd => ?_
    rw [commandName_frag hs (by decide) hcmd]
    omega

theorem fragSendAck_acks (port : RmnetPort) :
    (rmnetFragSendAck port).acks = port.acks ∨ (rmnetFragSendAck port).acks = port.acks ++ [[]] := by
  unfold rmnetFragSendAck RmnetPort.kalloc
  cases port.alloc 0 with
  | false => exact .inl rfl
  | true =>
    refine .inr ?_
    rw [RmnetPort.acks, List.filterMap_append]
    rfl

/-- The fragment path answers with no bytes. -/
theorem fragCommand_acks (hs : desc.Sized) (hlen : mapHeaderSize + controlCommandSize ≤ desc.bytes.length)
    (h : Addressed port desc.bytes) :
    (rmnetFragCommand port desc (MapHeader.parse desc.bytes)).acks = port.acks ∨
      (rmnetFragCommand port desc (MapHeader.parse desc.bytes)).acks = port.acks ++ [[]] := by
  have hcmd := rmnetFragHeaderPtr_eq hs mapHeaderSize controlCommandSize
  rw [readBytes_of_le hlen] at hcmd
  obtain ⟨enable, heq⟩ := rmnetFragCommand_flowControl port (MapHeader.parse desc.bytes) hcmd
    (by rw [commandName_frag hs (by decide) hcmd]; exact h.1)
  obtain ⟨vnd, hknown⟩ := fragDoFlowControl_known enable h.2
  have hacks : RmnetPort.acks { port with control := port.control ++ [.flowControl vnd enable] } = port.acks := by
    rw [RmnetPort.acks, List.filterMap_append]
    exact List.append_nil _
  rw [heq, hknown, if_pos rfl, ← hacks]
  exact fragSendAck_acks _

/-! ### Both paths -/

theorem ControlFrame.pktLen_eq (hf : ControlFrame frame) :
    (MapHeader.parse frame).unpadded = (MapHeader.parse frame).pktLen := by
  rw [MapHeader.unpadded, hf.padLen, sub16_of_le (Nat.zero_le _) (MapHeader.parse_pktLen_lt _), Nat.sub_zero]

theorem ControlFrame.command_frag (hf : ControlFrame desc.bytes) (hs : desc.Sized) :
    rmnetFragHeaderPtr desc mapHeaderSize controlCommandHeaderSize = some ((desc.bytes.drop 4).take 8) := by
  rw [rmnetFragHeaderPtr_eq hs, readBytes_of_le hf.header]
  rfl

/-- The linear path on a control frame. -/
theorem mapIngress_control (skipExthdr : Bytes → ℕ → ℕ → SkipExthdr)
    (dlCsum : RmnetPort → NetDevice → SkBuff → ℕ → RmnetPort × Bool) (hf : ControlFrame frame) :
    (rmnetMapIngressSkb skipExthdr dlCsum port (linearSkb frame)).1 = mapIngressCommand port (linearSkb frame) := by
  have hhdr : mapHeaderOf (linearSkb frame) = MapHeader.parse frame := by
    apply mapHeaderOf_linear
    have := hf.header
    omega
  unfold rmnetMapIngressSkb
  simp only [hhdr, hf.cdBit, if_true]

/-- The fragment path on a control frame, up to the descriptor pool. -/
theorem fragIngress_control (hf : ControlFrame desc.bytes) (hs : desc.Sized) (p : RmnetPort) :
    SameControl p (rmnetFragIngressDesc port desc) ↔
      SameControl p (if ingressDlMarker port.dataFormat
        then rmnetFragFlowCommand port desc (MapHeader.parse desc.bytes).pktLen
        else if ingressMapCommands port.dataFormat then rmnetFragCommand port desc (MapHeader.parse desc.bytes)
        else port) := by
  have hrecycle : ∀ q : RmnetPort, SameControl p (rmnetRecycleFragDescriptor q desc).1 ↔ SameControl p q :=
    fun q => ⟨fun h => ⟨h.dlMarker, h.queues, h.acks⟩, fun h => ⟨h.dlMarker, h.queues, h.acks⟩⟩
  have hhdr : (rmnetFragHeaderPtr desc 0 mapHeaderSize).map MapHeader.parse = some (MapHeader.parse desc.bytes) := by
    have := hf.header
    rw [rmnetFragHeaderPtr_eq hs, readBytes_of_le (by omega), Option.map_some, List.drop_zero,
      MapHeader.parse_take]
  unfold rmnetFragIngressDesc
  rw [hhdr]
  simp only [hf.cdBit, if_true, hf.pktLen_eq]
  exact hrecycle _

/-- Where neither path sees a marker, the answer to flow control is the difference. -/
theorem flow_alike_iff {q : RmnetPort} (hlen : mapHeaderSize ≤ frame.length)
    (hv4 : ingressMapCksumv4 port.dataFormat = false) (hquiet : ¬ FlowControlled port frame → q = port)
    (hacks : FlowControlled port frame → q.acks = port.acks ∨ q.acks = port.acks ++ [[]]) :
    SameControl (if ingressMapCommands port.dataFormat then rmnetMapCommand port (linearSkb frame) else port) q ↔
      ¬ FlowControlled port frame := by
  constructor
  · rintro hsame hflow
    have hack := hsame.acks
    rw [if_pos hflow.1, mapCommand_acks hlen hv4 hflow.2] at hack
    have hne : setCmdType frame mapCommandAck ≠ [] := by
      intro hnil
      have hlen' : (setCmdType frame mapCommandAck).length = frame.length := by
        rw [setCmdType, overwrite_length]
      rw [hnil, List.length_nil] at hlen'
      rw [mapHeaderSize] at hlen
      omega
    rcases hacks hflow with h | h
    · rw [h] at hack
      simp at hack
    · rw [h, List.append_cancel_left_eq, List.cons.injEq] at hack
      exact hne hack.1
  · intro hno
    rw [hquiet hno]
    split
    · rename_i hcmd
      rw [mapCommand_ignored hlen fun haddr => hno ⟨hcmd, haddr⟩]
      exact .refl port
    · exact .refl port

/-- The statistics after a version 1 start marker are the same when it reads the same at both places. -/
theorem flowStart_eq_iff (m : DlMarkerStats) (cmd a b : Bytes) :
    m.flowStart a = (m.command cmd).flowStart b ↔
      m.command cmd = m ∧ le32At a 0 = le32At b 0 ∧ le32At a 4 = le32At b 4 ∧ le32At a 8 = le32At b 8 ∧
        le32At a 12 = le32At b 12 := by
  obtain ⟨vers, ep, trans, seq, bytes, pkts, flows, count, total, totalPkts, trl, trlCount⟩ := m
  simp only [DlMarkerStats.flowStart, DlMarkerStats.command, DlMarkerStats.mk.injEq, and_true, true_and]
  constructor
  · rintro ⟨hvers, hep, htrans, hseq, hbytes, hpkts, hflows, -, -⟩
    exact ⟨⟨hvers.symm, hep.symm, htrans.symm⟩, hseq, hbytes, hpkts, hflows⟩
  · rintro ⟨⟨hvers, hep, htrans⟩, hseq, hbytes, hpkts, hflows⟩
    exact ⟨hvers.symm, hep.symm, htrans.symm, hseq, hbytes, hpkts, hflows, by rw [hbytes], by rw [hpkts]⟩

theorem not_markerV1 (hv2 : ingressDlMarkerV2 port.dataFormat = true) : ¬ MarkerV1 port := by
  rintro ⟨-, hno⟩
  rw [hv2] at hno
  cases hno

/-- A start marker. -/
theorem start_alike_iff (hf : ControlFrame desc.bytes) (hs : desc.Sized) (hname : commandName desc.bytes = 7)
    (hdlm : ingressDlMarker port.dataFormat = true) :
    SameControl (rmnetMapProcessFlowStart port (linearSkb desc.bytes))
        (rmnetFragProcessFlowStart port desc ((desc.bytes.drop 4).take 8) (MapHeader.parse desc.bytes).pktLen) ↔
      ControlAlike port desc.bytes := by
  have hflow : ¬ FlowControlled port desc.bytes := by
    rintro ⟨-, hcmd, -⟩
    omega
  have hend : commandName desc.bytes ≠ 8 := by omega
  rw [mapProcessFlowStart_eq, fragProcessFlowStart_eq hs _ hf.length_eq]
  by_cases hshort : desc.bytes.length < 28
  · rw [if_pos hshort, if_pos hshort]
    exact ⟨fun _ => ⟨hflow, fun _ _ hlong => by omega, fun _ h => absurd h hend⟩, fun _ => .refl port⟩
  · rw [if_neg hshort, if_neg hshort]
    cases hv2 : ingressDlMarkerV2 port.dataFormat with
    | true =>
      have hv1 := not_markerV1 hv2
      exact ⟨fun _ => ⟨hflow, fun h => absurd h hv1, fun h => absurd h hv1⟩, fun _ => .of_eq rfl rfl⟩
    | false =>
      have hwords := flowStart_eq_iff port.dlMarker ((desc.bytes.drop 4).take 8) (desc.bytes.take 16)
        ((desc.bytes.drop 12).take 16)
      simp only [le32At_take (show 0 + 3 < 16 by omega), le32At_take (show 4 + 3 < 16 by omega),
        le32At_take (show 8 + 3 < 16 by omega), le32At_take (show 12 + 3 < 16 by omega), le32At_drop] at hwords
      constructor
      · intro hsame
        exact ⟨hflow, fun _ _ _ => hwords.mp hsame.dlMarker, fun _ h => absurd h hend⟩
      · intro halike
        exact .of_eq (hwords.mpr (halike.start ⟨hdlm, hv2⟩ hname (by omega))) rfl

/-- An end marker. -/
theorem end_alike_iff (hf : ControlFrame desc.bytes) (hs : desc.Sized) (hname : commandName desc.bytes = 8)
    (hdlm : ingressDlMarker port.dataFormat = true) :
    SameControl (rmnetMapProcessFlowEnd port (linearSkb desc.bytes))
        (rmnetFragProcessFlowEnd port desc ((desc.bytes.drop 4).take 8) (MapHeader.parse desc.bytes).pktLen) ↔
      ControlAlike port desc.bytes := by
  have hflow : ¬ FlowControlled port desc.bytes := by
    rintro ⟨-, hcmd, -⟩
    omega
  have hstart : commandName desc.bytes ≠ 7 := by omega
  rw [mapProcessFlowEnd_eq, fragProcessFlowEnd_eq hs _ hf.length_eq]
  by_cases hshort : desc.bytes.length < 16
  · rw [if_pos hshort, if_pos hshort]
    exact ⟨fun _ => ⟨hflow, fun _ h => absurd h hstart, fun _ _ hlong => by omega⟩, fun _ => .refl port⟩
  · rw [if_neg hshort, if_neg hshort]
    cases hv2 : ingressDlMarkerV2 port.dataFormat with
    | true =>
      have hv1 := not_markerV1 hv2
      exact ⟨fun _ => ⟨hflow, fun h => absurd h hv1, fun h => absurd h hv1⟩, fun _ => .of_eq rfl rfl⟩
    | false =>
      have hword : port.dlMarker.flowEnd (desc.bytes.take 4) = port.dlMarker.flowEnd ((desc.bytes.drop 12).take 4) ↔
          le32At desc.bytes 0 = le32At desc.bytes 12 := by
        simp only [DlMarkerStats.flowEnd, DlMarkerStats.mk.injEq, true_and, and_true,
          le32At_take (show 0 + 3 < 4 by omega), le32At_drop]
      constructor
      · intro hsame
        exact ⟨hflow, fun _ h => absurd h hstart, fun _ _ _ => hword.mp hsame.dlMarker⟩
      · intro halike
        exact .of_eq (hword.mpr (halike.stop ⟨hdlm, hv2⟩ hname (by omega))) rfl

/-- **Control frames on the two paths, exactly.**  With no checksum trailers, the linear and the fragment path
leave the same marker statistics, queues and acknowledgements behind for a control frame, in whatever pages it
lies, exactly when it is not flow control for a known device and not a version 1 marker that reads differently
from the front of the frame. -/
theorem control_alike_iff (skipExthdr : Bytes → ℕ → ℕ → SkipExthdr)
    (dlCsum : RmnetPort → NetDevice → SkBuff → ℕ → RmnetPort × Bool) (port : RmnetPort)
    (hv4 : ingressMapCksumv4 port.dataFormat = false) (desc : RmnetFragDescriptor) (hs : desc.Sized)
    (hf : ControlFrame desc.bytes) :
    SameControl (rmnetMapIngressSkb skipExthdr dlCsum port (linearSkb desc.bytes)).1
        (rmnetFragIngressDesc port desc) ↔ ControlAlike port desc.bytes := by
  have hlen : mapHeaderSize ≤ desc.bytes.length := le_trans (Nat.le_add_right _ _) hf.header
  have hcmd := hf.command_frag hs
  have hname := commandName_frag hs (by decide) hcmd
  have hlinear := @commandName_linear desc.bytes
  rw [mapIngress_control skipExthdr dlCsum hf, fragIngress_control hf hs]
  cases hdlm : ingressDlMarker port.dataFormat with
  | true =>
    rw [if_pos rfl]
    by_cases h₇ : commandName desc.bytes = 7
    · rw [mapIngressCommand_marker hdlm (rmnetMapFlowCommand_start (by omega)),
        rmnetFragFlowCommand_start _ hcmd (by omega)]
      exact start_alike_iff hf hs h₇ hdlm
    by_cases h₈ : commandName desc.bytes = 8
    · rw [mapIngressCommand_marker hdlm (rmnetMapFlowCommand_end (by omega)),
        rmnetFragFlowCommand_end _ hcmd (by omega)]
      exact end_alike_iff hf hs h₈ hdlm
    -- the fragment path ignores what is not a marker
    rw [mapIngressCommand_other fun _ => rmnetMapFlowCommand_other (by omega) (by omega),
      rmnetFragFlowCommand_other _ hcmd (by omega) (by omega),
      flow_alike_iff hlen hv4 (fun _ => rfl) (fun _ => .inl rfl)]
    exact ⟨fun h => ⟨h, fun _ h' => absurd h' h₇, fun _ h' => absurd h' h₈⟩, fun h => h.flow⟩
  | false =>
    have hv1 : ¬ MarkerV1 port := by
      rintro ⟨hyes, -⟩
      rw [hdlm] at hyes
      cases hyes
    rw [mapIngressCommand_other (fun hyes => by rw [hdlm] at hyes; cases hyes), if_neg Bool.false_ne_true,
      flow_alike_iff hlen hv4]
    · exact ⟨fun h => ⟨h, fun h' => absurd h' hv1, fun h' => absurd h' hv1⟩, fun h => h.flow⟩
    · intro hno
      split
      · rename_i hcommands
        exact fragCommand_ignored hs fun haddr => hno ⟨hcommands, haddr⟩
      · rfl
    · intro hflow
      rw [if_pos hflow.1]
      exact fragCommand_acks hs (hf.flowControl hflow.2.1) hflow.2

end

/-! ### Two frames -/

/-- A port with one device, at mux id 5. -/
def commandPort (dataFormat : ℕ) : RmnetPort :=
  rmnetDescriptorInit dataFormat (fun muxId => if muxId = 5 then some ⟨0, false, false⟩ else none) fun _ => true

/-- A descriptor with given bytes in one page. -/
def oneFragDesc (b : Bytes) : RmnetFragDescriptor := { addr := 0, frags := [.ofBytes b], len := b.length }

theorem oneFragDesc_bytes (b : Bytes) : (oneFragDesc b).bytes = b := by
  simp [RmnetFragDescriptor.bytes, oneFragDesc, SkbFrag.ofBytes_bytes]

theorem oneFragDesc_sized {b : Bytes} (h : b.length < 2147483648) : (oneFragDesc b).Sized :=
  ⟨by simp [oneFragDesc, SkbFrag.ofBytes], h⟩

/-- `RMNET_MAP_COMMAND_FLOW_DISABLE` for the device at mux id 5. -/
def flowDisableFrame : Bytes := [128, 5, 0, 16, 1, 0, 0, 0, 0, 0, 0, 9, 0, 0, 0, 1, 0, 0, 0, 7]

/-- A start marker of sequence number 2. -/
def startMarkerFrame : Bytes :=
  [128, 5, 0, 24, 7, 4, 3, 0, 0, 0, 0, 9, 2, 0, 0, 0, 100, 0, 0, 0, 1, 0, 0, 0, 1, 0, 0, 0]

theorem flowDisableFrame_control : ControlFrame flowDisableFrame :=
  ⟨by decide, by decide, by decide, by decide, fun _ => by decide⟩

/-- A flow control command is acknowledged with the frame on one path and with no bytes on the other. -/
theorem control_flowDisable_unlike :
    ControlFrame flowDisableFrame ∧ ingressMapCksumv4 (commandPort 2).dataFormat = false ∧
      (oneFragDesc flowDisableFrame).Sized ∧ (oneFragDesc flowDisableFrame).bytes = flowDisableFrame ∧
      ¬ SameControl (rmnetMapIngressSkb (fun _ _ _ => ⟨none, 0, 0⟩) (fun port _ _ _ => (port, false)) (commandPort 2)
          (linearSkb flowDisableFrame)).1
        (rmnetFragIngressDesc (commandPort 2) (oneFragDesc flowDisableFrame)) := by
  refine ⟨flowDisableFrame_control, by decide, oneFragDesc_sized (by decide), oneFragDesc_bytes _, ?_⟩
  intro hsame
  exact absurd hsame.acks (by decide)

/-- A version 2 marker is treated alike. -/
theorem control_marker_alike :
    SameControl (rmnetMapIngressSkb (fun _ _ _ => ⟨none, 0, 0⟩) (fun port _ _ _ => (port, false))
        (commandPort 536870912) (linearSkb (oneFragDesc startMarkerFrame).bytes)).1
      (rmnetFragIngressDesc (commandPort 536870912) (oneFragDesc startMarkerFrame)) := by
  have hbytes := oneFragDesc_bytes startMarkerFrame
  refine (control_alike_iff _ _ (commandPort 536870912) (by decide) (oneFragDesc startMarkerFrame)
    (oneFragDesc_sized (by decide)) ?_).mpr ?_
  · rw [hbytes]
    exact ⟨by decide, by decide, by decide, by decide, fun _ => by decide⟩
  · rw [hbytes]
    refine ⟨?_, ?_, ?_⟩
    · rintro ⟨-, hname, -⟩
      exact absurd hname (by decide)
    · rintro ⟨-, hv2⟩
      exact absurd hv2 (by decide)
    · rintro ⟨-, hv2⟩
      exact absurd hv2 (by decide)

end Rmnet
