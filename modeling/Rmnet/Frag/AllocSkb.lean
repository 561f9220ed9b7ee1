import Rmnet.Frag.Segment

/-!
# Building a socket buffer from a descriptor

`rmnet_alloc_skb`: the headers of a descriptor are copied into the linear part of a new buffer, its
fragments are attached to it and to further buffers chained behind it, and the header fields that
segmentation left in the descriptor are written.  A good checksum becomes a partial one that the stack
completes; for a bad one, the right checksum is computed and spoiled.

All writes go to the linear part, which starts with the IP header when the headers were measured.  What is written
behind the linear part, or where there is none, is the subject of `Frag/Flatten`.
-/

namespace Rmnet

open Word Field Checksum

/-! ### Checksums in a packet -/

/-- `ip_fast_csum` over the header length that the header names. -/
def ipFastCsum (hdr : Bytes) : ℕ := csumFold (wordSum (hdr.take (byteAt hdr 0 % 16 * 4)))

/-- `~csum_tcpudp_magic` or `~csum_ipv6_magic` over the addresses of an IP header. -/
def pseudoSum (ipProto : ℕ) (hdr : Bytes) (len transProto : ℕ) : ℕ :=
  65535 - if ipProto = 4 then csumMagic ((hdr.drop 12).take 4) ((hdr.drop 16).take 4) len transProto
    else csumMagic ((hdr.drop 8).take 16) ((hdr.drop 24).take 16) len transProto

/-- `offsetof(struct tcphdr, check)` or `offsetof(struct udphdr, check)`. -/
def checkOffset (transProto : ℕ) : ℕ := if transProto = ipprotoTcp then 16 else 6

/-- `rmnet_frag_gso_stamp`, `rmnet_map_gso_stamp`. -/
def gsoStamp (skb : SkBuff) (ipProto transProto gsoSize gsoSegs : ℕ) : SkBuff :=
  { skb with
    gsoType := if transProto = ipprotoTcp then (if ipProto = 4 then .tcpv4 else .tcpv6) else .udpL4
    gsoSize := gsoSize
    gsoSegs := gsoSegs }

/-- The fields of the IP header that `rmnet_frag_partial_csum` writes. -/
def partialNetwork (hdr : Bytes) (ipProto len : ℕ) : Bytes :=
  if ipProto = 4 then
    let hdr := overwrite hdr 2 (be16 len)
    let hdr := overwrite hdr 10 (be16 0)
    overwrite hdr 10 (be16 (ipFastCsum hdr))
  else overwrite hdr 4 (be16 (sub32 len 40))

/-- The fields of the IP header that are written for a bad checksum. -/
def badNetwork (hdr : Bytes) (ipProto len : ℕ) : Bytes :=
  if ipProto = 4 then
    let hdr := overwrite hdr 10 (be16 (csumReplace2 (be16At hdr 10) (be16At hdr 2) (u16 len)))
    overwrite hdr 2 (be16 len)
  else overwrite hdr 4 (be16 (sub32 len 40))

/-- The length field of a UDP header at `offset`. -/
def udpLength (hdr : Bytes) (offset transProto len : ℕ) : Bytes :=
  if transProto = ipprotoTcp then hdr else overwrite hdr (offset + 4) (be16 len)

/-- `rmnet_frag_partial_csum`. -/
def rmnetFragPartialCsum (skb : SkBuff) (desc : RmnetFragDescriptor) : SkBuff :=
  let pktLen := u16 (sub32 skb.len desc.ipLen)
  let hdr := partialNetwork skb.linear desc.ipProto skb.len
  let pseudo := pseudoSum desc.ipProto hdr pktLen desc.transProto
  let hdr := udpLength hdr desc.ipLen desc.transProto pktLen
  let hdr := overwrite hdr (desc.ipLen + checkOffset desc.transProto) (be16 pseudo)
  { skb with
    linear := hdr
    csumOffset := checkOffset desc.transProto
    ipSummed := .checksumPartial
    csumStart := desc.ipLen }

/-- `RMNET_MAP_DEAGGR_HEADROOM`. -/
def mapDeaggrHeadroom : ℕ := 32

/-- `skb_transport_offset` of the new buffer.  The transport header is set if there is one; unset it is 65535, from the
start of the buffer. -/
def skbTransportOffset (desc : RmnetFragDescriptor) : ℕ :=
  if desc.transLen ≠ 0 then desc.ipLen else 65535 - mapDeaggrHeadroom

theorem skbTransportOffset_set {desc : RmnetFragDescriptor} (h : desc.transLen ≠ 0) :
    skbTransportOffset desc = desc.ipLen := if_pos h

/-- The branch of `rmnet_alloc_skb` that fakes a bad checksum. -/
def fragBadCsum (skb : SkBuff) (desc : RmnetFragDescriptor) : SkBuff :=
  let offset := skbTransportOffset desc
  let dgramLen := sub32 skb.len desc.ipLen
  let hdr := badNetwork skb.linear desc.ipProto skb.len
  let pseudo := pseudoSum desc.ipProto hdr dgramLen desc.transProto
  let hdr := udpLength hdr offset desc.transProto dgramLen
  let check := offset + checkOffset desc.transProto
  let skb := { skb with linear := overwrite hdr check (be16 pseudo) }
  let csum := wordSum (skb.bytes.drop offset)
  { skb with
    linear := overwrite skb.linear check (be16 (csum16Add (csumFold csum) 1))
    ipSummed := .checksumNone }

/-- The header fields that segmentation left in the descriptor. -/
def fragOverrides (hdr : Bytes) (desc : RmnetFragDescriptor) : Bytes :=
  let hdr := if desc.ipIdSet then
      let hdr := overwrite hdr 10 (be16 (csumReplace2 (be16At hdr 10) (be16At hdr 4) desc.ipId))
      overwrite hdr 4 (be16 desc.ipId)
    else hdr
  let hdr := if desc.tcpSeqSet then overwrite hdr (desc.ipLen + 4) (be32 desc.tcpSeq) else hdr
  if desc.tcpFlagsSet then overwrite hdr (desc.ipLen + 12) (be16 desc.tcpFlags) else hdr

/-! ### Fragments -/

/-- `MAX_SKB_FRAGS`. -/
def maxSkbFrags : ℕ := 17

/-- The fragment loop of `rmnet_alloc_skb`: the fragments of the head and of the buffers on its
`frag_list`.  A failed allocation of a further buffer ends it. -/
def addRxFrags (port : RmnetPort) (head : List SkbFrag) (chain : List (List SkbFrag)) :
    List SkbFrag → RmnetPort × List SkbFrag × List (List SkbFrag)
  | [] => (port, head, chain)
  | f :: fs =>
      match chain.getLast? with
      | none =>
          if head.length < maxSkbFrags then addRxFrags port (head ++ [f]) chain fs
          else
            match port.kalloc with
            | (false, port) => (port, head, chain)
            | (true, port) => addRxFrags port head [[f]] fs
      | some current =>
          if current.length < maxSkbFrags then addRxFrags port head (chain.dropLast ++ [current ++ [f]]) fs
          else
            match port.kalloc with
            | (false, port) => (port, head, chain)
            | (true, port) => addRxFrags port head (chain ++ [[f]]) fs

/-- The buffer with these headers and fragments. -/
def SkBuff.ofFrags (linear : Bytes) (head : List SkbFrag) (chain : List (List SkbFrag)) : SkBuff :=
  let dataLen := fragsSize head + (chain.map fragsSize).sum
  { linear := linear, frags := head, fragList := chain, len := u32 (linear.length + dataLen)
    dataLen := u32 dataLen }

/-- The part of `rmnet_alloc_skb` behind `skip_frags`. -/
def fillSkb (skb : SkBuff) (desc : RmnetFragDescriptor) : SkBuff :=
  let skb := { skb with linear := fragOverrides skb.linear desc }
  let skb := if desc.csumValid && desc.hdrsValid then rmnetFragPartialCsum skb desc
    else if desc.csumValid then { skb with ipSummed := .checksumUnnecessary }
    else if desc.hdrsValid && (desc.transProto = ipprotoTcp || desc.transProto = ipprotoUdp) then
      fragBadCsum skb desc
    else skb
  if 1 < desc.gsoSegs then gsoStamp skb desc.ipProto desc.transProto desc.gsoSize desc.gsoSegs else skb

/-- `rmnet_alloc_skb`. -/
def rmnetAllocSkb (port : RmnetPort) (desc : RmnetFragDescriptor) :
    RmnetPort × RmnetFragDescriptor × Option SkBuff :=
  match port.kalloc with
  | (false, port) => (port, desc, none)
  | (true, port) =>
      if desc.hdrsValid then
        let hdrLen := u16 (desc.ipLen + desc.transLen)
        let hdr := (rmnetFragCopyData desc 0 hdrLen).getD []
        if hdrLen = desc.len then (port, desc, some (fillSkb (.ofFrags hdr [] []) desc))
        else
          match rmnetFragPull port desc hdrLen with
          | (port, desc, false) => (port, desc, none)
          | (port, desc, true) =>
              let (port, head, chain) := addRxFrags port [] [] desc.frags
              (port, desc, some (fillSkb (.ofFrags hdr head chain) desc))
      else
        let (port, head, chain) := addRxFrags port [] [] desc.frags
        (port, desc, some (fillSkb (.ofFrags [] head chain) desc))

/-- `rmnet_frag_deliver`. -/
def rmnetFragDeliver (port : RmnetPort) (desc : RmnetFragDescriptor) : RmnetPort :=
  match rmnetAllocSkb port desc with
  | (port, desc, none) => (rmnetRecycleFragDescriptor port desc).1
  | (port, desc, some skb) =>
      (rmnetRecycleFragDescriptor { port with delivered := port.delivered ++ [skb] } desc).1

end Rmnet
