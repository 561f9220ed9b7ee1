import Rmnet.Coalesce.Plan
import Rmnet.Frag.Descriptor
import Rmnet.Lib.Checksum

/-!
# Segmentation of coalesced descriptors

`rmnet_frag_segment_coal_data` with the header check before it.  The descriptor of a coalesced frame is
shortened by its two headers, its IP and transport headers are measured, and then either the descriptor
itself is passed on (a single packet whose checksum the hardware may have got wrong, or a single run of
good packets with GRO) or the segmentation loop cuts new descriptors from it.

`coalMeta` measures the headers of a byte string, and `segmentHeaders_some` says that the code measures
those of the bytes of the descriptor, wherever its fragments end.
-/

namespace Rmnet

open Word Field Checksum

/-- `th->fin` of a TCP header. -/
def tcpFin (th : Bytes) : Bool := (byteAt th 13).testBit 0

/-- `th->psh` of a TCP header. -/
def tcpPsh (th : Bytes) : Bool := (byteAt th 13).testBit 3

/-- A header word without `TCP_FLAG_FIN` and `TCP_FLAG_PSH`. -/
def clearFinPsh (flags : ℕ) : ℕ := flags &&& 0xFFF6

theorem clearFinPsh_bytes (b : Bytes) (i j : ℕ) (hj : j < 2) :
    byteAt (be16 (clearFinPsh (be16At b i))) j
      = if j = 0 then byteAt b i else byteAt b (i + 1) &&& 0xF6 := by
  have h₀ := byteAt_lt b i
  have h₁ := byteAt_lt b (i + 1)
  have hcases : j = 0 ∨ j = 1 := by omega
  unfold clearFinPsh be16At
  rcases hcases with rfl | rfl
  · rw [byteAt_be16_zero, if_pos rfl, show 256 = 2 ^ 8 from rfl, Nat.and_div_two_pow,
      Nat.and_mod_two_pow]
    show ((byteAt b i * 256 + byteAt b (i + 1)) / 256 % 256) &&& 255 = byteAt b i
    rw [show (255 : ℕ) = 2 ^ 8 - 1 from rfl, Nat.and_two_pow_sub_one_eq_mod]
    show _ % 256 = _
    omega
  · rw [byteAt_be16_one, if_neg (by decide), show 256 = 2 ^ 8 from rfl, Nat.and_mod_two_pow]
    show ((byteAt b i * 256 + byteAt b (i + 1)) % 256) &&& 0xF6 = _
    congr 1
    omega

/-! ### The header check -/

/-- `rmnet_frag_data_log_close_stats`: the counter of a close type and a close value, if it has one. -/
def coalCloseReason (type code : ℕ) : Option CoalClose :=
  match type, code with
  | 0, _ => some .nonCoal
  | 1, _ => some .ipMiss
  | 2, _ => some .transMiss
  | 3, 0 => some .hwNl
  | 3, 1 => some .hwPkt
  | 3, 2 => some .hwByte
  | 3, 3 => some .hwTime
  | 3, 4 => some .hwEvict
  | 4, _ => some .coal
  | _, _ => none

/-- `RMNET_MAX_VEID`. -/
def maxVeid : ℕ := 4

/-- The loop of the header check over the NL pairs from number `i` on: the error mask and the number of
packets, or `none` when there are too many. -/
def checkNlPairs : List NlPair → ℕ → ℕ → ℕ → Option (ℕ × ℕ)
  | [], _, mask, pkts => some (mask, pkts)
  | p :: ps, i, mask, pkts =>
      let mask := mask ||| (p.csumErrorBitmap <<< (8 * i))
      let pkts := u8 (pkts + p.numPackets)
      if v5MaxPackets < pkts then none else checkNlPairs ps (i + 1) mask pkts

/-- The header check on a header that has been read, for the device whose counters it writes. -/
def checkCoalHeader (port : RmnetPort) (dev : Option NetDevice) (coalHdr : V5CoalHeader) :
    RmnetPort × Option ℕ :=
  if coalHdr.numNlos = 0 ∨ v5MaxNlos < coalHdr.numNlos then (port.bump dev .coalHdrNloErr 1, none)
  else
    match checkNlPairs coalHdr.nlPairs 0 0 0 with
    | none => (port.bump dev .coalHdrPktErr 1, none)
    | some (mask, pkts) =>
        let port := port.bump dev .coalPkts pkts
        let port := match coalCloseReason coalHdr.closeType coalHdr.closeValue with
          | none => port
          | some reason => port.bump dev (.coalClose reason) 1
        let port := if coalHdr.virtualChannelId < maxVeid then
            port.bump dev (.coalVeid coalHdr.virtualChannelId) 1
          else port
        (port, some mask)

/-- `rmnet_frag_data_check_coal_header`: `nlo_err_mask`, or `none` for `-EINVAL`. -/
def rmnetFragDataCheckCoalHeader (port : RmnetPort) (desc : RmnetFragDescriptor) :
    RmnetPort × Option ℕ :=
  match rmnetFragHeaderPtr desc mapHeaderSize v5CoalHeaderSize with
  | none => (port, none)
  | some hdr => checkCoalHeader port desc.dev (V5CoalHeader.parse hdr)

theorem bump_stats (port : RmnetPort) (dev : Option NetDevice) (s : PrivStat) (n : ℕ) :
    ∃ stats, port.bump dev s n = { port with stats := stats } := by
  cases dev with
  | none => exact ⟨port.stats, rfl⟩
  | some d => exact ⟨_, rfl⟩

/-- The header check writes counters only. -/
theorem checkCoalHeader_stats (port : RmnetPort) (dev : Option NetDevice) (coalHdr : V5CoalHeader) :
    ∃ stats, (checkCoalHeader port dev coalHdr).1 = { port with stats := stats } := by
  have hbump : ∀ p : RmnetPort, (∃ stats, p = { port with stats := stats }) → ∀ s n,
      ∃ stats, p.bump dev s n = { port with stats := stats } := by
    rintro p ⟨stats, rfl⟩ s n
    exact bump_stats _ dev s n
  have hself : ∃ stats, port = { port with stats := stats } := ⟨port.stats, rfl⟩
  unfold checkCoalHeader
  split
  · exact hbump _ hself _ _
  · split
    · exact hbump _ hself _ _
    · have hpkts := hbump _ hself .coalPkts
      simp only
      split
      · split
        · exact hbump _ (hpkts _) _ _
        · exact hbump _ (hbump _ (hpkts _) _ _) _ _
      · split
        · exact hpkts _
        · exact hbump _ (hpkts _) _ _

/-- The error mask is read from the header alone. -/
theorem checkCoalHeader_mask (p q : RmnetPort) (dev : Option NetDevice) (coalHdr : V5CoalHeader) :
    (checkCoalHeader p dev coalHdr).2 = (checkCoalHeader q dev coalHdr).2 := by
  unfold checkCoalHeader
  split
  · rfl
  · split
    · rfl
    · rfl

@[simp] theorem bump_self (port : RmnetPort) (dev : NetDevice) (s : PrivStat) (n : ℕ) :
    (port.bump (some dev) s n).stats dev.id s = port.stats dev.id s + n :=
  if_pos ⟨rfl, rfl⟩

theorem bump_other (port : RmnetPort) (dev : NetDevice) {s t : PrivStat} (h : t ≠ s) (n : ℕ) :
    (port.bump (some dev) s n).stats dev.id t = port.stats dev.id t :=
  if_neg fun he => h he.2

/-- The header check on a header with too many pairs, or none. -/
theorem checkCoalHeader_nlos (port : RmnetPort) (dev : Option NetDevice) {coalHdr : V5CoalHeader}
    (h : coalHdr.numNlos = 0 ∨ v5MaxNlos < coalHdr.numNlos) :
    checkCoalHeader port dev coalHdr = (port.bump dev .coalHdrNloErr 1, none) := if_pos h

/-- The header check on a header with too many packets. -/
theorem checkCoalHeader_refused (port : RmnetPort) (dev : Option NetDevice) {coalHdr : V5CoalHeader}
    (h : ¬ (coalHdr.numNlos = 0 ∨ v5MaxNlos < coalHdr.numNlos))
    (hcheck : checkNlPairs coalHdr.nlPairs 0 0 0 = none) :
    checkCoalHeader port dev coalHdr = (port.bump dev .coalHdrPktErr 1, none) := by
  rw [checkCoalHeader, if_neg h, hcheck]

/-- The header check on a header that it accepts: the mask, and what is added to the counter of packets. -/
theorem checkCoalHeader_accepted (port : RmnetPort) (dev : NetDevice) {coalHdr : V5CoalHeader}
    (h : ¬ (coalHdr.numNlos = 0 ∨ v5MaxNlos < coalHdr.numNlos)) {mask pkts : ℕ}
    (hcheck : checkNlPairs coalHdr.nlPairs 0 0 0 = some (mask, pkts)) :
    (checkCoalHeader port (some dev) coalHdr).2 = some mask ∧
      (checkCoalHeader port (some dev) coalHdr).1.stats dev.id .coalPkts
        = port.stats dev.id .coalPkts + pkts := by
  have hveid : ∀ (p : RmnetPort), (if coalHdr.virtualChannelId < maxVeid then
      p.bump (some dev) (.coalVeid coalHdr.virtualChannelId) 1 else p).stats dev.id .coalPkts
        = p.stats dev.id .coalPkts := by
    intro p
    split
    · exact bump_other p dev (by simp) 1
    · rfl
  rw [checkCoalHeader, if_neg h, hcheck]
  refine ⟨rfl, ?_⟩
  simp only
  rw [hveid]
  cases coalCloseReason coalHdr.closeType coalHdr.closeValue with
  | none => exact bump_self port dev .coalPkts pkts
  | some reason => exact (bump_other _ dev (by simp) 1).trans (bump_self port dev .coalPkts pkts)

/-! ### One new descriptor -/

/-- The protocol-specific metadata of a new descriptor that starts at `offset` and has `dlen` bytes of
payload, and its checksum status; `none` jumps to `recycle`. -/
def segmentMeta (coalDesc newDesc : RmnetFragDescriptor) (offset dlen : ℕ) (csumValid : Bool) :
    Option (RmnetFragDescriptor × Bool) :=
  if coalDesc.transProto = ipprotoTcp then
    (rmnetFragHeaderPtr coalDesc coalDesc.ipLen 20).map fun th =>
      let newDesc := { newDesc with
        tcpSeqSet := true
        tcpSeq := u32 (be32At th 4 + coalDesc.dataOffset) }
      -- dangerous flags may only appear in the last segment
      if (tcpFin th || tcpPsh th) ∧ u32 (offset + dlen) < coalDesc.len then
        ({ newDesc with tcpFlagsSet := true, tcpFlags := clearFinPsh (be16At th 12) }, csumValid)
      else (newDesc, csumValid)
  else if coalDesc.transProto = ipprotoUdp then
    (rmnetFragHeaderPtr coalDesc coalDesc.ipLen 8).map fun uh =>
      (newDesc, csumValid || (coalDesc.ipProto = 4 && be16At uh 6 = 0))
  else some (newDesc, csumValid)

/-- The IPv4 identification of a new descriptor; `none` jumps to `recycle`. -/
def segmentIpId (coalDesc newDesc : RmnetFragDescriptor) : Option RmnetFragDescriptor :=
  if coalDesc.ipProto = 4 then
    (rmnetFragHeaderPtr coalDesc 0 20).map fun iph =>
      { newDesc with ipIdSet := true, ipId := u16 (be16At iph 4 + coalDesc.pktId) }
  else some newDesc

/-- The state of the segmentation: port, coalesced descriptor, list of new descriptors. -/
structure SegState where
  port : RmnetPort
  coalDesc : RmnetFragDescriptor
  list : List RmnetFragDescriptor

/-- `__rmnet_frag_segment_data`. -/
def rmnetFragSegmentData (pktId : ℕ) (csumValid : Bool) (st : SegState) : SegState :=
  let coalDesc := st.coalDesc
  let dlen := u32 (coalDesc.gsoSize * coalDesc.gsoSegs)
  let hlen := coalDesc.ipLen + coalDesc.transLen
  let offset := hlen + coalDesc.dataOffset
  match rmnetGetFragDescriptor st.port with
  | (port, none) => { st with port := port }
  | (port, some newDesc) =>
      let newDesc := { coalDesc with addr := newDesc.addr, frags := [], len := 0 }
      match rmnetFragDescriptorAddFragsFrom port newDesc coalDesc 0 hlen with
      | (port, newDesc, false) => { st with port := (rmnetRecycleFragDescriptor port newDesc).1 }
      | (port, newDesc, true) =>
          match rmnetFragDescriptorAddFragsFrom port newDesc coalDesc offset dlen with
          | (port, newDesc, false) => { st with port := (rmnetRecycleFragDescriptor port newDesc).1 }
          | (port, newDesc, true) =>
              match segmentMeta coalDesc newDesc offset dlen csumValid with
              | none => { st with port := (rmnetRecycleFragDescriptor port newDesc).1 }
              | some (newDesc, csumValid) =>
                  match segmentIpId coalDesc newDesc with
                  | none => { st with port := (rmnetRecycleFragDescriptor port newDesc).1 }
                  | some newDesc =>
                      { port := port.bump coalDesc.dev .coalReconstruct 1
                        coalDesc := { coalDesc with
                          dataOffset := u16 (coalDesc.dataOffset + dlen)
                          pktId := u8 (pktId + 1)
                          gsoSegs := 0 }
                        list := st.list ++ [{ newDesc with csumValid := csumValid }] }

/-- The operations of the segmentation loop on the fragment path. -/
def fragSegOps : SegOps SegState where
  setSize n st := { st with coalDesc := { st.coalDesc with gsoSize := n } }
  segs st := st.coalDesc.gsoSegs
  setSegs n st := { st with coalDesc := { st.coalDesc with gsoSegs := u16 n } }
  emit := rmnetFragSegmentData
  csumErr st := { st with port := st.port.bump st.coalDesc.dev .coalCsumErr 1 }

/-! ### The coalesced descriptor -/

/-- `rmnet_frag_validate_csum`: the bytes are read on from the first fragment's address. -/
def rmnetFragValidateCsum (desc : RmnetFragDescriptor) : Bool :=
  match rmnetFragDataPtr desc with
  | none => false
  | some data =>
      let bytes := fun off n => (List.range n).map fun i => data (off + i)
      let datagramLen := sub32 desc.len desc.ipLen
      let magic := if desc.ipProto = 4 then
          csumMagic (bytes 12 4) (bytes 16 4) datagramLen desc.transProto
        else csumMagic (bytes 8 16) (bytes 24 16) datagramLen desc.transProto
      csumFold (wordSum (bytes desc.ipLen datagramLen) + (65535 - magic)) = 0

/-- The IP header: protocol, length and transport protocol go into the descriptor.  The last component
is `gro` after the check for options, or `none` when the frame is dropped. -/
def segmentIpHeader (port : RmnetPort) (coalDesc : RmnetFragDescriptor) (gro : Bool) :
    RmnetPort × RmnetFragDescriptor × Option Bool :=
  match rmnetFragDataPtr coalDesc with
  | none => (port, coalDesc, none)
  | some version =>
      if (version 0).toNat / 16 = 4 then
        match rmnetFragHeaderPtr coalDesc 0 20 with
        | none => (port, coalDesc, none)
        | some iph =>
            (port, { coalDesc with ipProto := 4, ipLen := byteAt iph 0 % 16 * 4, transProto := byteAt iph 9 },
              some (gro && byteAt iph 0 % 16 = 5))
      else if (version 0).toNat / 16 = 6 then
        match rmnetFragHeaderPtr coalDesc 0 40 with
        | none => (port, coalDesc, none)
        | some ip6h =>
            let coalDesc := { coalDesc with ipProto := 6 }
            match rmnetFragIpv6SkipExthdr coalDesc 40 (byteAt ip6h 6) with
            | none => (port, coalDesc, none)
            | some skip =>
                let coalDesc := { coalDesc with transProto := skip.nexthdr }
                match skip.start with
                | none => (port.bump coalDesc.dev .coalIpInvalid 1, coalDesc, none)
                | some ipLen =>
                    if skip.fragOff ≠ 0 then (port.bump coalDesc.dev .coalIpInvalid 1, coalDesc, none)
                    else (port, { coalDesc with ipLen := u16 ipLen }, some (gro && !(40 < u16 ipLen)))
      else (port.bump coalDesc.dev .coalIpInvalid 1, coalDesc, none)

/-- The transport header: its length goes into the descriptor.  The last component is `zero_csum`, or
`none` when the frame is dropped. -/
def segmentTransHeader (port : RmnetPort) (coalDesc : RmnetFragDescriptor) :
    RmnetPort × RmnetFragDescriptor × Option Bool :=
  if coalDesc.transProto = ipprotoTcp then
    match rmnetFragHeaderPtr coalDesc coalDesc.ipLen 20 with
    | none => (port, coalDesc, none)
    | some th =>
        ((port.bump coalDesc.dev .coalTcp 1).bump coalDesc.dev .coalTcpBytes coalDesc.len,
          { coalDesc with transLen := byteAt th 12 / 16 * 4 }, some false)
  else if coalDesc.transProto = ipprotoUdp then
    match rmnetFragHeaderPtr coalDesc coalDesc.ipLen 8 with
    | none => (port, coalDesc, none)
    | some uh =>
        ((port.bump coalDesc.dev .coalUdp 1).bump coalDesc.dev .coalUdpBytes coalDesc.len,
          { coalDesc with transLen := 8 }, some (coalDesc.ipProto = 4 && be16At uh 6 = 0))
  else (port.bump coalDesc.dev .coalTransInvalid 1, coalDesc, none)

/-- The GSO fields of a descriptor that is passed on unchanged. -/
def RmnetFragDescriptor.asOneRun (desc : RmnetFragDescriptor) (p : NlPair) : RmnetFragDescriptor :=
  { desc with gsoSize := sub16 p.pktLen (desc.ipLen + desc.transLen), gsoSegs := p.numPackets }

/-- `rmnet_frag_segment_coal_data` once the headers are measured. -/
def segmentMeasured (port : RmnetPort) (coalDesc : RmnetFragDescriptor) (coalHdr : V5CoalHeader)
    (nloErrMask : ℕ) (gro zeroCsum : Bool) (list : List RmnetFragDescriptor) : SegState :=
  let coalDesc := { coalDesc with hdrsValid := true }
  let pair₀ := coalHdr.nlPairs.headD ⟨0, 0, 0⟩
  if rmnetMapV5CsumBuggy coalHdr && !zeroCsum then
    let coalDesc := if rmnetFragValidateCsum coalDesc then { coalDesc with csumValid := true } else coalDesc
    let coalDesc := coalDesc.asOneRun pair₀
    ⟨port, coalDesc, list ++ [coalDesc]⟩
  else if gro && coalHdr.numNlos = 1 && coalHdr.csumValid then
    let coalDesc := ({ coalDesc with csumValid := true } : RmnetFragDescriptor).asOneRun pair₀
    ⟨port, coalDesc, list ++ [coalDesc]⟩
  else
    segNlos fragSegOps gro (coalDesc.ipLen + coalDesc.transLen) (coalHdr.nlPairs.take coalHdr.numNlos) 0
      nloErrMask ⟨port, coalDesc, list⟩

/-- `rmnet_frag_segment_coal_data`. -/
def rmnetFragSegmentCoalData (port : RmnetPort) (coalDesc : RmnetFragDescriptor) (nloErrMask : ℕ)
    (list : List RmnetFragDescriptor) : SegState :=
  let gro := (coalDesc.dev.map NetDevice.groHw).getD false
  match rmnetFragCopyData coalDesc mapHeaderSize v5CoalHeaderSize with
  | none => ⟨port, coalDesc, list⟩
  | some hdr =>
      match rmnetFragPull port coalDesc (mapHeaderSize + v5CoalHeaderSize) with
      | (port, coalDesc, false) => ⟨port, coalDesc, list⟩
      | (port, coalDesc, true) =>
          match segmentIpHeader port coalDesc gro with
          | (port, coalDesc, none) => ⟨port, coalDesc, list⟩
          | (port, coalDesc, some gro) =>
              match segmentTransHeader port coalDesc with
              | (port, coalDesc, none) => ⟨port, coalDesc, list⟩
              | (port, coalDesc, some zeroCsum) =>
                  segmentMeasured port coalDesc (V5CoalHeader.parse hdr) nloErrMask gro zeroCsum list

/-! ### Measuring a byte string -/

/-- What segmentation learns from the headers of a packet; `plain` tells that there are no IP options or
extension headers, so that GRO is possible. -/
structure CoalMeta where
  ipProto : ℕ
  ipLen : ℕ
  transProto : ℕ
  transLen : ℕ
  plain : Bool
  zeroCsum : Bool
  deriving DecidableEq, Repr

/-- The length of the headers. -/
def CoalMeta.hlen (m : CoalMeta) : ℕ := m.ipLen + m.transLen

/-- The IP header of a packet of a version: protocol, length, transport protocol and whether it is plain. -/
def ipMetaOf (version : ℕ) (b : Bytes) : Option (ℕ × ℕ × ℕ × Bool) :=
  if version = 4 then
    if b.length < 20 then none
    else some (4, byteAt b 0 % 16 * 4, byteAt b 9, byteAt b 0 % 16 = 5)
  else if version = 6 then
    if b.length < 40 then none
    else
      match ipv6SkipExthdr b 40 (byteAt b 6) with
      | none => none
      | some skip =>
          match skip.start with
          | none => none
          | some ipLen =>
              if skip.fragOff ≠ 0 then none else some (6, u16 ipLen, skip.nexthdr, !(40 < u16 ipLen))
  else none

/-- The headers of a packet of a version. -/
def coalMetaOf (version : ℕ) (b : Bytes) : Option CoalMeta :=
  match ipMetaOf version b with
  | none => none
  | some (ipProto, ipLen, transProto, plain) =>
      if transProto = ipprotoTcp then
        if b.length < ipLen + 20 then none
        else some ⟨ipProto, ipLen, transProto, byteAt b (ipLen + 12) / 16 * 4, plain, false⟩
      else if transProto = ipprotoUdp then
        if b.length < ipLen + 8 then none
        else some ⟨ipProto, ipLen, transProto, 8, plain, ipProto = 4 && be16At b (ipLen + 6) = 0⟩
      else none

/-- The headers of a packet whose first byte tells the version. -/
def coalMeta (b : Bytes) : Option CoalMeta := coalMetaOf (byteAt b 0 / 16) b

theorem byteAt_slice {b : Bytes} {off len i : ℕ} (h : i < len) :
    byteAt ((b.drop off).take len) i = byteAt b (off + i) := by
  rw [byteAt_take h, byteAt_drop]

theorem be16At_slice {b : Bytes} {off len i : ℕ} (h : i + 1 < len) :
    be16At ((b.drop off).take len) i = be16At b (off + i) := by
  rw [be16At_take h, be16At_drop]

theorem be32At_slice {b : Bytes} {off len i : ℕ} (h : i + 3 < len) :
    be32At ((b.drop off).take len) i = be32At b (off + i) := by
  rw [be32At_take h, be32At_drop]

/-- The IP version at the data pointer of a descriptor. -/
def RmnetFragDescriptor.version (desc : RmnetFragDescriptor) : ℕ :=
  ((rmnetFragDataPtr desc).map fun data => (data 0).toNat / 16).getD 0

/-- The version is that of the first byte, if the first fragment is not empty. -/
theorem version_eq {desc : RmnetFragDescriptor} (hb : desc.bytes ≠ []) (hpos : ∀ f ∈ desc.frags, 0 < f.size) :
    desc.version = byteAt desc.bytes 0 / 16 := by
  obtain ⟨data, hdata, hfirst⟩ := dataPtr_front hb hpos
  rw [RmnetFragDescriptor.version, hdata, ← hfirst]
  rfl

/-- The IP header is measured from the data pointer and the bytes of the descriptor. -/
theorem segmentIpHeader_some (port : RmnetPort) {desc : RmnetFragDescriptor} (hs : desc.Sized) (gro : Bool)
    {ipProto ipLen transProto : ℕ} {plain : Bool}
    (h : ipMetaOf desc.version desc.bytes = some (ipProto, ipLen, transProto, plain)) :
    segmentIpHeader port desc gro
      = (port, { desc with ipProto := ipProto, ipLen := ipLen, transProto := transProto },
          some (gro && plain)) := by
  unfold RmnetFragDescriptor.version at h
  have hptr : ∃ data, rmnetFragDataPtr desc = some data := by
    cases hdata : rmnetFragDataPtr desc with
    | none =>
      rw [hdata] at h
      cases h
    | some data => exact ⟨data, rfl⟩
  obtain ⟨data, hdata⟩ := hptr
  rw [hdata, Option.map_some, Option.getD_some] at h
  unfold ipMetaOf at h
  unfold segmentIpHeader
  simp only [hdata, rmnetFragHeaderPtr_eq hs]
  by_cases h4 : (data 0).toNat / 16 = 4
  · rw [if_pos h4] at h
    rw [if_pos h4]
    split at h
    · cases h
    · rename_i hlen
      rw [readBytes_of_le (by omega)]
      simp only [Option.some.injEq, Prod.mk.injEq] at h
      obtain ⟨rfl, rfl, rfl, rfl⟩ := h
      simp only [byteAt_slice (show 0 < 20 by omega), byteAt_slice (show 9 < 20 by omega), Nat.zero_add]
  · rw [if_neg h4] at h
    rw [if_neg h4]
    by_cases h6 : (data 0).toNat / 16 = 6
    · rw [if_pos h6] at h
      rw [if_pos h6]
      split at h
      · cases h
      · rename_i hlen
        rw [readBytes_of_le (by omega)]
        have hs' : ({ desc with ipProto := 6 } : RmnetFragDescriptor).Sized := ⟨hs.len_eq, hs.len_lt⟩
        simp only [rmnetFragIpv6SkipExthdr_eq hs', byteAt_slice (show 6 < 40 by omega), Nat.zero_add]
        change (match ipv6SkipExthdr desc.bytes 40 (byteAt desc.bytes 6) with
          | none => _
          | some skip => _) = _
        cases hskip : ipv6SkipExthdr desc.bytes 40 (byteAt desc.bytes 6) with
        | none =>
          rw [hskip] at h
          cases h
        | some skip =>
          rw [hskip] at h
          simp only at h ⊢
          cases hstart : skip.start with
          | none =>
            rw [hstart] at h
            cases h
          | some l =>
            rw [hstart] at h
            simp only at h ⊢
            split at h
            · cases h
            · rename_i hfrag
              rw [if_neg hfrag]
              simp only [Option.some.injEq, Prod.mk.injEq] at h
              obtain ⟨rfl, rfl, rfl, rfl⟩ := h
              rfl
    · rw [if_neg h6] at h
      cases h

/-- Both headers are measured. -/
theorem segmentHeaders_some (port : RmnetPort) {desc : RmnetFragDescriptor} (hs : desc.Sized) (gro : Bool)
    {m : CoalMeta} (h : coalMetaOf desc.version desc.bytes = some m) :
    ∃ stats, segmentIpHeader port desc gro
        = (port, { desc with ipProto := m.ipProto, ipLen := m.ipLen, transProto := m.transProto },
            some (gro && m.plain)) ∧
      segmentTransHeader port
          { desc with ipProto := m.ipProto, ipLen := m.ipLen, transProto := m.transProto }
        = ({ port with stats := stats },
            { desc with ipProto := m.ipProto, ipLen := m.ipLen, transProto := m.transProto,
                        transLen := m.transLen }, some m.zeroCsum) := by
  unfold coalMetaOf at h
  cases hip : ipMetaOf desc.version desc.bytes with
  | none =>
    rw [hip] at h
    cases h
  | some r =>
    obtain ⟨ipProto, ipLen, transProto, plain⟩ := r
    rw [hip] at h
    simp only at h
    have hiph := segmentIpHeader_some port hs gro hip
    have hs' : ({ desc with ipProto := ipProto, ipLen := ipLen, transProto := transProto } :
        RmnetFragDescriptor).Sized := ⟨hs.len_eq, hs.len_lt⟩
    have hread : ∀ len, rmnetFragHeaderPtr
        { desc with ipProto := ipProto, ipLen := ipLen, transProto := transProto } ipLen len
          = readBytes desc.bytes ipLen len := fun len => rmnetFragHeaderPtr_eq hs' ipLen len
    have hbump : ∀ (dev : Option NetDevice) (s₁ s₂ : PrivStat) (n₁ n₂ : ℕ), ∃ stats,
        (port.bump dev s₁ n₁).bump dev s₂ n₂ = { port with stats := stats } := by
      intro dev s₁ s₂ n₁ n₂
      cases dev with
      | none => exact ⟨port.stats, rfl⟩
      | some d => exact ⟨_, rfl⟩
    split at h
    · rename_i htcp
      split at h
      · cases h
      · rename_i hlen
        obtain rfl := Option.some.inj h
        obtain ⟨stats, hstats⟩ := hbump desc.dev .coalTcp .coalTcpBytes 1 desc.len
        refine ⟨stats, hiph, ?_⟩
        unfold segmentTransHeader
        simp only [if_pos htcp, hread]
        rw [readBytes_of_le (by omega)]
        simp only [hstats, byteAt_slice (show 12 < 20 by omega)]
    · rename_i htcp
      split at h
      · rename_i hudp
        split at h
        · cases h
        · rename_i hlen
          obtain rfl := Option.some.inj h
          obtain ⟨stats, hstats⟩ := hbump desc.dev .coalUdp .coalUdpBytes 1 desc.len
          refine ⟨stats, hiph, ?_⟩
          unfold segmentTransHeader
          simp only [if_neg htcp, if_pos hudp, hread]
          rw [readBytes_of_le (by omega)]
          simp only [hstats, be16At_slice (show 6 + 1 < 8 by omega)]
      · cases h

/-- What measuring the IP header leaves behind. -/
structure IpMeasured (port : RmnetPort) (desc : RmnetFragDescriptor) (gro : Bool)
    (res : RmnetPort × RmnetFragDescriptor × Option Bool) : Prop where
  statsOnly : ∃ stats, res.1 = { port with stats := stats }
  metaOnly : ∃ p l t, res.2.1 = { desc with ipProto := p, ipLen := l, transProto := t }
  measured : ∀ g, res.2.2 = some g → ∃ plain, ipMetaOf desc.version desc.bytes
    = some (res.2.1.ipProto, res.2.1.ipLen, res.2.1.transProto, plain) ∧ g = (gro && plain)

/-- The IP header is measured from the data pointer and the bytes, whatever the fragments are. -/
theorem segmentIpHeader_measured (port : RmnetPort) {desc : RmnetFragDescriptor} (hs : desc.Sized)
    (gro : Bool) : IpMeasured port desc gro (segmentIpHeader port desc gro) := by
  have hstay : ∀ d : RmnetFragDescriptor, (∃ p l t, d = { desc with ipProto := p, ipLen := l, transProto := t }) →
      IpMeasured port desc gro (port, d, none) := fun d hd => ⟨⟨port.stats, rfl⟩, hd, fun g hg => by cases hg⟩
  have hbump : ∀ d : RmnetFragDescriptor, (∃ p l t, d = { desc with ipProto := p, ipLen := l, transProto := t }) →
      IpMeasured port desc gro (port.bump desc.dev .coalIpInvalid 1, d, none) :=
    fun d hd => ⟨bump_stats port _ _ _, hd, fun g hg => by cases hg⟩
  unfold segmentIpHeader
  split
  · exact hstay _ ⟨_, _, _, rfl⟩
  · rename_i data hptr
    have hversion : desc.version = (data 0).toNat / 16 := by
      rw [RmnetFragDescriptor.version, hptr]
      rfl
    split
    · rename_i h4
      split
      · exact hstay _ ⟨_, _, _, rfl⟩
      · rename_i iph hread
        rw [rmnetFragHeaderPtr_eq hs] at hread
        obtain ⟨hle, rfl⟩ := readBytes_eq_some hread
        refine ⟨⟨port.stats, rfl⟩, ⟨_, _, _, rfl⟩, ?_⟩
        rintro g hg
        refine ⟨decide (byteAt desc.bytes 0 % 16 = 5), ?_, ?_⟩
        · rw [ipMetaOf, hversion, if_pos h4, if_neg (by omega)]
          simp only [byteAt_slice (show 0 < 20 by omega), byteAt_slice (show 9 < 20 by omega), Nat.zero_add]
        · simp only [byteAt_slice (show 0 < 20 by omega), Nat.zero_add, Option.some.injEq] at hg
          exact hg.symm
    · rename_i h4
      split
      · rename_i h6
        split
        · exact hstay _ ⟨_, _, _, rfl⟩
        · rename_i ip6h hread
          rw [rmnetFragHeaderPtr_eq hs] at hread
          obtain ⟨hle, rfl⟩ := readBytes_eq_some hread
          have hs' : ({ desc with ipProto := 6 } : RmnetFragDescriptor).Sized := ⟨hs.len_eq, hs.len_lt⟩
          simp only [rmnetFragIpv6SkipExthdr_eq hs', byteAt_slice (show 6 < 40 by omega), Nat.zero_add]
          split
          · exact hstay _ ⟨_, _, _, rfl⟩
          · rename_i skip hskip
            split
            · exact hbump _ ⟨_, _, _, rfl⟩
            · rename_i l hstart
              split
              · exact hbump _ ⟨_, _, _, rfl⟩
              · rename_i hfrag
                refine ⟨⟨port.stats, rfl⟩, ⟨_, _, _, rfl⟩, ?_⟩
                rintro g hg
                refine ⟨!(decide (40 < u16 l)), ?_, (Option.some.inj hg).symm⟩
                have hskip' : ipv6SkipExthdr desc.bytes 40 (byteAt desc.bytes 6) = some skip := hskip
                rw [ipMetaOf, hversion, if_neg h4, if_pos h6, if_neg (by omega), hskip']
                simp only [hstart, if_neg hfrag]
      · exact hbump _ ⟨_, _, _, rfl⟩

/-- What measuring the transport header leaves behind. -/
theorem segmentTransHeader_measured (port : RmnetPort) {desc : RmnetFragDescriptor} (hs : desc.Sized) :
    (∃ stats, (segmentTransHeader port desc).1 = { port with stats := stats }) ∧
      (∃ l, (segmentTransHeader port desc).2.1 = { desc with transLen := l }) ∧
      ∀ z, (segmentTransHeader port desc).2.2 = some z → ∀ version plain,
        ipMetaOf version desc.bytes = some (desc.ipProto, desc.ipLen, desc.transProto, plain) →
        coalMetaOf version desc.bytes = some ⟨desc.ipProto, desc.ipLen, desc.transProto,
          (segmentTransHeader port desc).2.1.transLen, plain, z⟩ := by
  have htwo : ∀ s₁ s₂ n₁ n₂, ∃ stats, (port.bump desc.dev s₁ n₁).bump desc.dev s₂ n₂
      = { port with stats := stats } := by
    intro s₁ s₂ n₁ n₂
    obtain ⟨stats₁, h₁⟩ := bump_stats port desc.dev s₁ n₁
    rw [h₁]
    exact bump_stats _ desc.dev s₂ n₂
  unfold segmentTransHeader
  simp only [rmnetFragHeaderPtr_eq hs]
  split
  · rename_i htcp
    split
    · exact ⟨⟨port.stats, rfl⟩, ⟨_, rfl⟩, fun z hz => by cases hz⟩
    · rename_i th hread
      obtain ⟨hle, rfl⟩ := readBytes_eq_some hread
      refine ⟨htwo _ _ _ _, ⟨_, rfl⟩, ?_⟩
      rintro z hz version plain hip
      rw [coalMetaOf, hip]
      simp only [if_pos htcp]
      rw [if_neg (by omega), ← Option.some.inj hz, byteAt_slice (by omega)]
  · rename_i htcp
    split
    · rename_i hudp
      split
      · exact ⟨⟨port.stats, rfl⟩, ⟨_, rfl⟩, fun z hz => by cases hz⟩
      · rename_i uh hread
        obtain ⟨hle, rfl⟩ := readBytes_eq_some hread
        refine ⟨htwo _ _ _ _, ⟨_, rfl⟩, ?_⟩
        rintro z hz version plain hip
        rw [coalMetaOf, hip]
        simp only [if_neg htcp, if_pos hudp]
        rw [if_neg (by omega), ← Option.some.inj hz, be16At_slice (by omega)]
    · exact ⟨bump_stats port _ _ _, ⟨_, rfl⟩, fun z hz => by cases hz⟩

end Rmnet
