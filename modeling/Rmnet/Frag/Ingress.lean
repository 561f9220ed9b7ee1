import Rmnet.Frag.AllocSkb
import Rmnet.Frag.Command
import Rmnet.Frag.Deaggregate

/-!
# The ingress handler of the fragment path

`rmnet_frag_ingress_handler` de-aggregates each received buffer and hands every descriptor to
`__rmnet_frag_ingress_handler`, which drops it, treats it as a command, or turns it into the packets that
are delivered.  No perf hook is installed.

The model takes the buffer and the buffers that follow on its `frag_list` as a list.  `ingressCalls`
lists the calls of the two inner functions that a run makes, each with the state before it, so that a
condition on a step is a condition on the members of that list.
-/

namespace Rmnet

open Word Field

/-- The checksum status of a packet with a checksum-offload header: the counter it adds to and whether the
checksum is valid. -/
def csumOffloadStat (dev : Option NetDevice) (csumHdr : V5CsumHeader) : PrivStat × Bool :=
  if !(dev.map NetDevice.rxcsum).getD false then (.csumSw, false)
  else if csumHdr.csumValidRequired then (.csumOk, true)
  else (.csumValidUnset, false)

/-- `rmnet_frag_process_next_hdr_packet`: the list of packets and whether it returned 0. -/
def rmnetFragProcessNextHdrPacket (port : RmnetPort) (desc : RmnetFragDescriptor) (len : ℕ) :
    RmnetPort × RmnetFragDescriptor × List RmnetFragDescriptor × Bool :=
  match rmnetFragHeaderPtr desc mapHeaderSize v5CsumHeaderSize with
  | none => (port, desc, [], false)
  | some hdr =>
      let csumHdr := V5CsumHeader.parse hdr
      if csumHdr.headerType = headerTypeCoalescing then
        match rmnetFragDataCheckCoalHeader (port.bump desc.dev .coalRx 1) desc with
        | (port, none) => (port, desc, [], false)
        | (port, some nloErrMask) =>
            let seg := rmnetFragSegmentCoalData port desc nloErrMask []
            if seg.list.head?.map RmnetFragDescriptor.addr = some seg.coalDesc.addr then
              (seg.port, seg.coalDesc, seg.list, true)
            else
              let (port, desc) := rmnetRecycleFragDescriptor seg.port seg.coalDesc
              (port, desc, seg.list, true)
      else if csumHdr.headerType = headerTypeCsumOffload then
        let (stat, csumValid) := csumOffloadStat desc.dev csumHdr
        let desc := { desc with csumValid := desc.csumValid || csumValid }
        match rmnetFragPull (port.bump desc.dev stat 1) desc (mapHeaderSize + v5CsumHeaderSize) with
        | (port, desc, false) => (port, desc, [], false)
        | (port, desc, true) =>
            match rmnetFragTrim port desc len with
            | (port, desc, false) => (port, desc, [], false)
            | (port, desc, true) => (port, desc, [desc], true)
      else (port, desc, [], false)

/-- The length of a frame without its padding. -/
def MapHeader.unpadded (qmap : MapHeader) : ℕ := sub16 qmap.pktLen qmap.padLen

/-- A data frame with a v5 header behind the QMAP header. -/
def nextHdrFrame (dataFormat : ℕ) (qmap : MapHeader) : Bool :=
  qmap.nextHdr && (ingressCoalesce dataFormat || ingressMapCksumv5 dataFormat)

/-- `__rmnet_frag_ingress_handler`. -/
def rmnetFragIngressDesc (port : RmnetPort) (desc : RmnetFragDescriptor) : RmnetPort :=
  match (rmnetFragHeaderPtr desc 0 mapHeaderSize).map MapHeader.parse with
  | none => (rmnetRecycleFragDescriptor port desc).1
  | some qmap =>
      if qmap.cdBit then
        let port := if ingressDlMarker port.dataFormat then rmnetFragFlowCommand port desc qmap.unpadded
          else if ingressMapCommands port.dataFormat then rmnetFragCommand port desc qmap
          else port
        (rmnetRecycleFragDescriptor port desc).1
      else if maxLogicalEp ≤ qmap.muxId then (rmnetRecycleFragDescriptor port desc).1
      else
        match port.endpoint qmap.muxId with
        | none => (rmnetRecycleFragDescriptor port desc).1
        | some dev =>
            let desc := { desc with dev := some dev }
            if nextHdrFrame port.dataFormat qmap then
              match rmnetFragProcessNextHdrPacket port desc qmap.unpadded with
              | (port, desc, _, false) => (rmnetRecycleFragDescriptor port desc).1
              | (port, _, segs, true) => segs.foldl rmnetFragDeliver port
            else
              match rmnetFragPull port desc mapHeaderSize with
              | (port, _, false) => port
              | (port, desc, true) =>
                  match rmnetFragTrim port desc qmap.unpadded with
                  | (port, _, false) => port
                  | (port, desc, true) => rmnetFragDeliver port desc

/-- The loop of `rmnet_frag_ingress_handler` over a buffer and those on its `frag_list`. -/
def rmnetFragIngressHandler (port : RmnetPort) : List RxSkb → Option RmnetPort
  | [] => some port
  | skb :: rest =>
      match rmnetFragDeaggregate port skb [] with
      | none => none
      | some (port, descs) => rmnetFragIngressHandler (descs.foldl rmnetFragIngressDesc port) rest

/-- A sequence of received buffers, one call of the handler each. -/
def ingressRun (port : RmnetPort) : List (List RxSkb) → Option RmnetPort
  | [] => some port
  | skb :: rest =>
      match rmnetFragIngressHandler port skb with
      | none => none
      | some port => ingressRun port rest

/-! ### The calls of a run -/

/-- A call of one of the inner functions, with the state before it. -/
inductive IngressCall
  | deaggregateOne (port : RmnetPort) (skb : RxSkb)
  | ingressDesc (port : RmnetPort) (desc : RmnetFragDescriptor)

/-- The calls of the de-aggregation loop. -/
def deaggregateCalls : ℕ → RmnetPort → RxSkb → List IngressCall
  | 0, _, _ => []
  | fuel + 1, port, skb =>
      if skb.frags.isEmpty then []
      else
        .deaggregateOne port skb ::
          match rmnetFragDeaggregateOne port skb with
          | (_, none) => []
          | (port, some (_, rest)) => deaggregateCalls fuel port { skb with frags := rest }

/-- The calls for the descriptors of a buffer. -/
def descCalls : RmnetPort → List RmnetFragDescriptor → List IngressCall
  | _, [] => []
  | port, desc :: rest => .ingressDesc port desc :: descCalls (rmnetFragIngressDesc port desc) rest

/-- The calls of one run of the handler. -/
def handlerCalls (port : RmnetPort) : List RxSkb → List IngressCall
  | [] => []
  | skb :: rest =>
      deaggregateCalls (fragsSize skb.frags + 1) port skb ++
        match rmnetFragDeaggregate port skb [] with
        | none => []
        | some (port, descs) =>
            descCalls port descs ++ handlerCalls (descs.foldl rmnetFragIngressDesc port) rest

/-- The calls of a sequence of received buffers. -/
def ingressCalls (port : RmnetPort) : List (List RxSkb) → List IngressCall
  | [] => []
  | skb :: rest =>
      handlerCalls port skb ++
        match rmnetFragIngressHandler port skb with
        | none => []
        | some port => ingressCalls port rest

end Rmnet
