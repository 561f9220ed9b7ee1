import Rmnet.Frag.AllocSkb

/-!
# Segmentation of coalesced socket buffers

`rmnet_map_segment_coal_skb` of the linear path: the packets of a coalesced frame are built as new buffers
right away, with copies of the headers that are rewritten in place.  It ends in the same nested loop as
the fragment path, over `struct rmnet_map_coal_metadata`, whose packet counter has eight bits.

A header pointer is modelled by what memory holds from its address on.  `ipv6_skip_exthdr` is the
kernel's; it is the parameter `skipExthdr`, which gets the bytes of the packet.
-/

namespace Rmnet

open Word Field Checksum

/-! ### Buffers -/

/-- `skb_is_nonlinear`. -/
def SkBuff.nonlinear (skb : SkBuff) : Bool := skb.dataLen ≠ 0

/-- `rmnet_map_data_ptr`: what memory holds from the data of the buffer on. -/
def rmnetMapDataPtr (skb : SkBuff) : ℕ → UInt8 :=
  match skb.frags with
  | frag₀ :: _ =>
      if skb.nonlinear ∧ skb.len = skb.dataLen then fun i => frag₀.page (frag₀.off + i)
      else fun i => skb.linear.getD i 0
  | [] => fun i => skb.linear.getD i 0

/-- `n` bytes of memory from an offset on. -/
def memBytes (data : ℕ → UInt8) (off n : ℕ) : Bytes := (List.range n).map fun i => data (off + i)

/-- `pskb_pull`, which does nothing when there is too little. -/
def pskbPull (skb : SkBuff) (n : ℕ) : SkBuff :=
  if skb.len < n then skb
  else
    let rest := n - skb.linear.length
    { skb with
      linear := skb.linear.drop n
      frags := (pullFrags skb.frags rest skb.dataLen).1
      len := skb.len - n
      dataLen := skb.dataLen - rest }

/-- `__pskb_pull_tail`: bytes move from the fragments to the end of the linear part. -/
def pskbPullTail (skb : SkBuff) (delta : ℕ) : SkBuff :=
  { skb with
    linear := skb.linear ++ (fragsBytes skb.frags).take delta
    frags := (pullFrags skb.frags delta skb.dataLen).1
    dataLen := skb.dataLen - delta }

/-! ### Buffers with no fragments -/

/-- A buffer with no fragments. -/
def linearSkb (b : Bytes) : SkBuff := { linear := b, len := b.length }

@[simp] theorem linearSkb_len (b : Bytes) : (linearSkb b).len = b.length := rfl

@[simp] theorem linearSkb_nonlinear (b : Bytes) : (linearSkb b).nonlinear = false := by
  simp [SkBuff.nonlinear, linearSkb]

@[simp] theorem linearSkb_bytes (b : Bytes) : (linearSkb b).bytes = b := by
  simp [SkBuff.bytes, linearSkb]

theorem memBytes_linear {b : Bytes} {off n : ℕ} (h : off + n ≤ b.length) :
    memBytes (rmnetMapDataPtr (linearSkb b)) off n = (b.drop off).take n := by
  apply List.ext_getElem
  · simp [memBytes]
    omega
  · intro i h₁ h₂
    have hi : i < n := by simpa [memBytes] using h₁
    simp [memBytes, rmnetMapDataPtr, linearSkb, List.getD, show off + i < b.length by omega]

theorem byteAt_memBytes (b : Bytes) {off n i : ℕ} (h : i < n) :
    byteAt (memBytes (rmnetMapDataPtr (linearSkb b)) off n) i = byteAt b (off + i) := by
  simp [byteAt, memBytes, rmnetMapDataPtr, linearSkb, List.getD, h]

theorem pskbPull_linear {b : Bytes} {n : ℕ} (h : n ≤ b.length) :
    pskbPull (linearSkb b) n = linearSkb (b.drop n) := by
  unfold pskbPull linearSkb
  simp only [if_neg (Nat.not_lt.mpr h), Nat.sub_eq_zero_of_le h, pullFrags, List.length_drop]

/-! ### Metadata -/

/-- `struct rmnet_map_coal_metadata`. -/
structure CoalMetadata where
  ipHeader : ℕ → UInt8 := fun _ => 0
  transHeader : ℕ → UInt8 := fun _ => 0
  ipLen : ℕ := 0
  transLen : ℕ := 0
  dataOffset : ℕ := 0
  dataLen : ℕ := 0
  ipProto : ℕ := 0
  transProto : ℕ := 0
  pktId : ℕ := 0
  pktCount : ℕ := 0

/-- The value that `ip_len`, an unsigned field, takes from `ipv6_skip_exthdr`. -/
def SkipExthdr.ipLen (skip : SkipExthdr) : ℕ := (skip.start.map u16).getD 65535

/-! ### One new buffer -/

/-- `rmnet_map_nonlinear_copy`. -/
def rmnetMapNonlinearCopy (coalSkb : SkBuff) (coalMeta : CoalMetadata) (dest : SkBuff) : SkBuff :=
  let copyLen := coalMeta.dataLen * coalMeta.pktCount
  let start := coalMeta.ipLen + coalMeta.transLen + coalMeta.dataOffset
  if coalSkb.nonlinear then
    match coalSkb.frags with
    | [] => dest
    | frag₀ :: _ =>
        { dest with
          frags := dest.frags ++ [frag₀.slice start copyLen]
          dataLen := dest.dataLen + copyLen
          len := dest.len + copyLen }
  else
    { dest with
      linear := dest.linear ++ memBytes (rmnetMapDataPtr coalSkb) start copyLen
      len := dest.len + copyLen }

/-- `skb_push` and `memcpy`. -/
def SkBuff.pushHeader (skb : SkBuff) (hdr : Bytes) : SkBuff :=
  { skb with linear := hdr ++ skb.linear, len := skb.len + hdr.length }

/-- `th->fin = 0; th->psh = 0`. -/
def clearFlagBits (th : Bytes) : Bytes := overwrite th 13 [UInt8.ofNat (byteAt th 13 &&& 0xF6)]

/-- The transport header of a new buffer that has `len` bytes with it, from the one in the frame. -/
def segmentTransport (coalSkb : SkBuff) (coalMeta : CoalMetadata) (th : Bytes) (len : ℕ) : Bytes :=
  let dlen := coalMeta.dataLen * coalMeta.pktCount
  if coalMeta.transProto = ipprotoTcp then
    let th := overwrite th 4 (be32 (u32 (be32At th 4 + coalMeta.dataOffset)))
    -- dangerous flags may only be set in the last segment
    if (tcpFin th || tcpPsh th) ∧ coalMeta.ipLen + coalMeta.transLen + coalMeta.dataOffset + dlen < coalSkb.len
    then clearFlagBits th
    else th
  else if coalMeta.transProto = ipprotoUdp then overwrite th 4 (be16 len)
  else th

/-- The IP header of a new buffer of `len` bytes. -/
def segmentNetwork (coalMeta : CoalMetadata) (hdr : Bytes) (len : ℕ) : Bytes :=
  if coalMeta.ipProto = 4 then
    let hdr := overwrite hdr 4 (be16 (be16At hdr 4 + coalMeta.pktId))
    let hdr := overwrite hdr 2 (be16 len)
    let hdr := overwrite hdr 10 (be16 0)
    overwrite hdr 10 (be16 (ipFastCsum hdr))
  else overwrite hdr 4 (be16 (sub32 len 40))

/-- `rmnet_map_partial_csum`. -/
def rmnetMapPartialCsum (skb : SkBuff) (coalMeta : CoalMetadata) : SkBuff :=
  let pseudo := pseudoSum coalMeta.ipProto skb.linear (u16 (sub32 skb.len coalMeta.ipLen)) coalMeta.transProto
  { skb with
    linear := overwrite skb.linear (coalMeta.ipLen + checkOffset coalMeta.transProto) (be16 pseudo)
    csumOffset := checkOffset coalMeta.transProto
    ipSummed := .checksumPartial
    csumStart := coalMeta.ipLen }

/-- The branch of `__rmnet_map_segment_coal_skb` that fakes a bad checksum. -/
def mapBadCsum (skb : SkBuff) (coalMeta : CoalMetadata) : SkBuff :=
  let pseudo := pseudoSum coalMeta.ipProto skb.linear (sub32 skb.len coalMeta.ipLen) coalMeta.transProto
  let check := coalMeta.ipLen + checkOffset coalMeta.transProto
  let skb := { skb with linear := overwrite skb.linear check (be16 pseudo) }
  let csum := wordSum (skb.bytes.drop coalMeta.ipLen)
  { skb with
    linear := overwrite skb.linear check (be16 (csum16Add (csumFold csum) 1))
    ipSummed := .checksumNone }

/-- `rmnet_map_gso_stamp`. -/
def rmnetMapGsoStamp (skb : SkBuff) (coalMeta : CoalMetadata) : SkBuff :=
  gsoStamp skb coalMeta.ipProto coalMeta.transProto coalMeta.dataLen coalMeta.pktCount

/-- The buffer that `__rmnet_map_segment_coal_skb` queues. -/
def segmentSkb (coalSkb : SkBuff) (coalMeta : CoalMetadata) (csumValid : Bool) : SkBuff :=
  let skbn := rmnetMapNonlinearCopy coalSkb coalMeta { linear := [], len := 0 }
  let th := memBytes coalMeta.transHeader 0 coalMeta.transLen
  let zeroCsum : Bool := coalMeta.transProto = ipprotoUdp && coalMeta.ipProto = 4 && be16At th 6 = 0
  let skbn := skbn.pushHeader (segmentTransport coalSkb coalMeta th (skbn.len + coalMeta.transLen))
  let iph := memBytes coalMeta.ipHeader 0 coalMeta.ipLen
  let skbn := skbn.pushHeader (segmentNetwork coalMeta iph (skbn.len + coalMeta.ipLen))
  let skbn := if csumValid || zeroCsum then rmnetMapPartialCsum skbn coalMeta
    else if coalMeta.transProto = ipprotoTcp ∨ coalMeta.transProto = ipprotoUdp then mapBadCsum skbn coalMeta
    else skbn
  if 1 < coalMeta.pktCount then rmnetMapGsoStamp skbn coalMeta else skbn

/-- The state of the segmentation. -/
structure MapSegState where
  port : RmnetPort
  coalSkb : SkBuff
  coalMeta : CoalMetadata
  list : List SkBuff

/-- `__rmnet_map_segment_coal_skb`. -/
def rmnetMapSegmentOne (dev : NetDevice) (pktId : ℕ) (csumValid : Bool) (st : MapSegState) : MapSegState :=
  match st.port.kalloc with
  | (false, port) => { st with port := port }
  | (true, port) =>
      let dlen := st.coalMeta.dataLen * st.coalMeta.pktCount
      { st with
        port := port.bump (some dev) .coalReconstruct 1
        list := st.list ++ [segmentSkb st.coalSkb st.coalMeta csumValid]
        coalMeta := { st.coalMeta with
          dataOffset := u16 (st.coalMeta.dataOffset + dlen)
          pktId := u8 (pktId + 1)
          pktCount := 0 } }

/-- The operations of the segmentation loop on the linear path. -/
def mapSegOps (dev : NetDevice) : SegOps MapSegState where
  setSize n st := { st with coalMeta := { st.coalMeta with dataLen := n } }
  segs st := st.coalMeta.pktCount
  setSegs n st := { st with coalMeta := { st.coalMeta with pktCount := u8 n } }
  emit := rmnetMapSegmentOne dev
  csumErr st := { st with port := st.port.bump (some dev) .coalCsumErr 1 }

/-! ### The coalesced buffer -/

/-- `rmnet_map_data_check_coal_header`: `nlo_err_mask`, or `none` for `-EINVAL`. -/
def rmnetMapDataCheckCoalHeader (port : RmnetPort) (dev : NetDevice) (skb : SkBuff) : RmnetPort × Option ℕ :=
  checkCoalHeader port (some dev)
    (V5CoalHeader.parse (memBytes (rmnetMapDataPtr skb) mapHeaderSize v5CoalHeaderSize))

/-- `rmnet_map_validate_csum`. -/
def rmnetMapValidateCsum (skb : SkBuff) (coalMeta : CoalMetadata) : Bool :=
  let hdr := memBytes (rmnetMapDataPtr skb) 0 40
  let datagramLen := sub32 skb.len coalMeta.ipLen
  let pseudo := pseudoSum coalMeta.ipProto hdr datagramLen coalMeta.transProto
  csumFold (wordSum ((skb.bytes.drop coalMeta.ipLen).take datagramLen) + pseudo) = 0

section

variable (skipExthdr : Bytes → ℕ → ℕ → SkipExthdr)

/-- `rmnet_map_move_headers`. -/
def rmnetMapMoveHeaders (skb : SkBuff) : SkBuff :=
  if !skb.nonlinear then skb
  else
    let iph := memBytes (rmnetMapDataPtr skb)
    let transLen := fun proto ipLen =>
      if proto = ipprotoTcp then byteAt (iph (ipLen + 12) 1) 0 / 16 * 4
      else if proto = ipprotoUdp then 8
      else 0
    if byteAt (iph 0 1) 0 / 16 = 4 then
      let ipLen := byteAt (iph 0 1) 0 % 16 * 4
      -- a fragment other than the first has no transport header
      if be16At (iph 6 2) 0 % 8192 ≠ 0 then pskbPullTail skb ipLen
      else pskbPullTail skb (ipLen + transLen (byteAt (iph 9 1) 0) ipLen)
    else if byteAt (iph 0 1) 0 / 16 = 6 then
      let skip := skipExthdr skb.bytes 40 (byteAt (iph 6 1) 0)
      let ipLen := if skip.nexthdr = 44 then u16 (skip.ipLen + 8) else skip.ipLen
      pskbPullTail skb (ipLen + transLen skip.nexthdr ipLen)
    else skb

/-- The IP header of the coalesced frame: metadata and `gro`, or `none` when the frame is dropped. -/
def mapIpHeader (port : RmnetPort) (dev : NetDevice) (skb : SkBuff) (gro : Bool) :
    RmnetPort × Option (CoalMetadata × Bool) :=
  let data := rmnetMapDataPtr skb
  let iph := memBytes data 0 40
  if byteAt iph 0 / 16 = 4 then
    (port, some ({ ipProto := 4, ipLen := byteAt iph 0 % 16 * 4, transProto := byteAt iph 9, ipHeader := data },
      gro && byteAt iph 0 % 16 = 5))
  else if byteAt iph 0 / 16 = 6 then
    let skip := skipExthdr skb.bytes 40 (byteAt iph 6)
    -- the length is unsigned, so that only a fragment header drops the frame
    if skip.fragOff ≠ 0 then (port.bump (some dev) .coalIpInvalid 1, none)
    else
      (port, some ({ ipProto := 6, ipLen := skip.ipLen, transProto := skip.nexthdr, ipHeader := data },
        gro && !(40 < skip.ipLen)))
  else (port.bump (some dev) .coalIpInvalid 1, none)

/-- The transport header: metadata and `zero_csum`. -/
def mapTransHeader (port : RmnetPort) (dev : NetDevice) (coalMeta : CoalMetadata) :
    RmnetPort × Option (CoalMetadata × Bool) :=
  let th := fun i => coalMeta.ipHeader (coalMeta.ipLen + i)
  let bytes := memBytes th 0 20
  if coalMeta.transProto = ipprotoTcp then
    (port, some ({ coalMeta with transLen := byteAt bytes 12 / 16 * 4, transHeader := th }, false))
  else if coalMeta.transProto = ipprotoUdp then
    (port, some ({ coalMeta with transLen := 8, transHeader := th },
      coalMeta.ipProto = 4 && be16At bytes 6 = 0))
  else (port.bump (some dev) .coalTransInvalid 1, none)

/-- `rmnet_map_segment_coal_skb` once the headers are measured. -/
def mapSegmentMeasured (port : RmnetPort) (dev : NetDevice) (coalSkb : SkBuff) (coalHdr : V5CoalHeader)
    (nloErrMask : ℕ) (coalMeta : CoalMetadata) (gro zeroCsum : Bool) (list : List SkBuff) : MapSegState :=
  let pair₀ := coalHdr.nlPairs.headD ⟨0, 0, 0⟩
  if rmnetMapV5CsumBuggy coalHdr && !zeroCsum then
    let skb := rmnetMapMoveHeaders skipExthdr coalSkb
    let skb := if rmnetMapValidateCsum skb coalMeta then { skb with ipSummed := .checksumUnnecessary } else skb
    ⟨port, skb, coalMeta, list ++ [skb]⟩
  else if gro && coalHdr.numNlos = 1 && coalHdr.csumValid then
    let skb := { rmnetMapMoveHeaders skipExthdr coalSkb with ipSummed := .checksumUnnecessary }
    let coalMeta := { coalMeta with
      dataLen := sub16 pair₀.pktLen (coalMeta.ipLen + coalMeta.transLen)
      pktCount := pair₀.numPackets }
    let skb := if 1 < coalMeta.pktCount then rmnetMapGsoStamp (rmnetMapPartialCsum skb coalMeta) coalMeta
      else skb
    ⟨port, skb, coalMeta, list ++ [skb]⟩
  else
    segNlos (mapSegOps dev) gro (coalMeta.ipLen + coalMeta.transLen) (coalHdr.nlPairs.take coalHdr.numNlos) 0
      nloErrMask ⟨port, coalSkb, coalMeta, list⟩

/-- `rmnet_map_segment_coal_skb`. -/
def rmnetMapSegmentCoalSkb (port : RmnetPort) (dev : NetDevice) (coalSkb : SkBuff) (nloErrMask : ℕ)
    (list : List SkBuff) : MapSegState :=
  let coalSkb := pskbPull coalSkb mapHeaderSize
  let coalHdr := V5CoalHeader.parse (memBytes (rmnetMapDataPtr coalSkb) 0 v5CoalHeaderSize)
  let coalSkb := pskbPull coalSkb v5CoalHeaderSize
  match mapIpHeader skipExthdr port dev coalSkb dev.groHw with
  | (port, none) => ⟨port, coalSkb, {}, list⟩
  | (port, some (coalMeta, gro)) =>
      match mapTransHeader port dev coalMeta with
      | (port, none) => ⟨port, coalSkb, coalMeta, list⟩
      | (port, some (coalMeta, zeroCsum)) =>
          mapSegmentMeasured skipExthdr port dev coalSkb coalHdr nloErrMask coalMeta gro zeroCsum list

end

end Rmnet
