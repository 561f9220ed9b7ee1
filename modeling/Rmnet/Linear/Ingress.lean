import Rmnet.Frag.Ingress
import Rmnet.Linear.Command
import Rmnet.Linear.Deaggregate

/-!
# The ingress handler of the linear path

`rmnet_map_ingress_handler` cuts a received buffer into packets and hands each one at once to
`__rmnet_map_ingress_handler`, which drops it, treats it as a command, or delivers what it carries to the
device of its mux id.  The result is the port and the packets delivered, each with its device.  No perf
module takes the buffers.

`skipExthdr` is the kernel's `ipv6_skip_exthdr`.  `dlCsum` stands for `rmnet_map_checksum_downlink_packet`,
which only a format with checksum trailers reaches: the port after it, and whether it returned 0.
-/

namespace Rmnet

open Word Field

/-- A packet handed to the network stack, and the device it came in on. -/
abbrev Delivery := NetDevice × SkBuff

section

variable (skipExthdr : Bytes → ℕ → ℕ → SkipExthdr)
  (dlCsum : RmnetPort → NetDevice → SkBuff → ℕ → RmnetPort × Bool)

/-- `rmnet_map_process_next_hdr_packet`: the list of packets, or `none` for an error. -/
def rmnetMapProcessNextHdrPacket (port : RmnetPort) (dev : NetDevice) (skb : SkBuff) (len : ℕ) :
    RmnetPort × Option (List SkBuff) :=
  let csumHdr := V5CsumHeader.parse (memBytes (rmnetMapDataPtr skb) mapHeaderSize v5CsumHeaderSize)
  if csumHdr.headerType = headerTypeCoalescing then
    match rmnetMapDataCheckCoalHeader (port.bump (some dev) .coalRx 1) dev skb with
    | (port, none) => (port, none)
    | (port, some nloErrMask) =>
        let seg := rmnetMapSegmentCoalSkb skipExthdr port dev skb nloErrMask []
        (seg.port, some seg.list)
  else if csumHdr.headerType = headerTypeCsumOffload then
    let (stat, csumValid) := csumOffloadStat (some dev) csumHdr
    let skb := if csumValid then { skb with ipSummed := .checksumUnnecessary } else skb
    let skb := pskbPull skb (mapHeaderSize + v5CsumHeaderSize)
    let skb := rmnetMapMoveHeaders skipExthdr skb
    (port.bump (some dev) stat 1, some [pskbTrim skb len])
  else (port, none)

/-- The part of `__rmnet_map_ingress_handler` for a frame with the command bit. -/
def mapIngressCommand (port : RmnetPort) (skb : SkBuff) : RmnetPort :=
  -- a command that is not a marker goes on to the flow control commands
  match if ingressDlMarker port.dataFormat then rmnetMapFlowCommand port skb else none with
  | some port => port
  | none => if ingressMapCommands port.dataFormat then rmnetMapCommand port skb else port

/-- `__rmnet_map_ingress_handler`. -/
def rmnetMapIngressSkb (port : RmnetPort) (skb : SkBuff) : RmnetPort × List Delivery :=
  let qmap := mapHeaderOf skb
  if qmap.cdBit then (mapIngressCommand port skb, [])
  else if maxLogicalEp ≤ qmap.muxId then (port, [])
  else
    match port.endpoint qmap.muxId with
    | none => (port, [])
    | some dev =>
        if nextHdrFrame port.dataFormat qmap then
          match rmnetMapProcessNextHdrPacket skipExthdr port dev skb qmap.unpadded with
          | (port, none) => (port, [])
          | (port, some list) => (port, list.map fun skb => (dev, skb))
        else
          let skb := pskbPull skb mapHeaderSize
          let (port, ok) := if ingressMapCksumv4 port.dataFormat
            then dlCsum port dev skb (u16 (qmap.unpadded + qmap.padLen)) else (port, false)
          let skb := if ok then { skb with ipSummed := .checksumUnnecessary } else skb
          (port, [(dev, pskbTrim skb qmap.unpadded)])

/-- The loop of `rmnet_map_ingress_handler` over one buffer; `none` is running out of fuel. -/
def mapIngressLoop (behind : ℕ → UInt8) : ℕ → RmnetPort → SkBuff → Option (RmnetPort × List Delivery)
  | 0, _, _ => none
  | fuel + 1, port, skb =>
      match rmnetMapDeaggregate behind port skb with
      | (port, .null) => some (port, [])
      | (port, .same) => some (rmnetMapIngressSkb skipExthdr dlCsum port skb)
      | (port, .packet skbn skb) =>
          let (port, out) := rmnetMapIngressSkb skipExthdr dlCsum port skbn
          (mapIngressLoop behind fuel port skb).map fun r => (r.1, out ++ r.2)

end

theorem mapHeaderOf_linear {frame : Bytes} (h : mapHeaderSize ≤ frame.length) :
    mapHeaderOf (linearSkb frame) = MapHeader.parse frame := by
  rw [mapHeaderOf, memBytes_linear (by omega), List.drop_zero, MapHeader.parse_take]

theorem V5CsumHeader.parse_take (b : Bytes) : V5CsumHeader.parse (b.take v5CsumHeaderSize) = V5CsumHeader.parse b := by
  simp only [V5CsumHeader.parse, v5CsumHeaderSize, byteAt_take (show 0 < 4 by omega),
    byteAt_take (show 1 < 4 by omega)]

/-! ### The dispatch of commands -/

theorem mapIngressCommand_marker {port port' : RmnetPort} {skb : SkBuff}
    (hdlm : ingressDlMarker port.dataFormat = true) (h : rmnetMapFlowCommand port skb = some port') :
    mapIngressCommand port skb = port' := by
  unfold mapIngressCommand
  rw [if_pos hdlm, h]

theorem mapIngressCommand_other {port : RmnetPort} {skb : SkBuff}
    (h : ingressDlMarker port.dataFormat = true → rmnetMapFlowCommand port skb = none) :
    mapIngressCommand port skb
      = if ingressMapCommands port.dataFormat then rmnetMapCommand port skb else port := by
  have hnone : (if ingressDlMarker port.dataFormat then rmnetMapFlowCommand port skb else none) = none := by
    split
    · rename_i hdlm
      exact h hdlm
    · rfl
  unfold mapIngressCommand
  rw [hnone]

end Rmnet
