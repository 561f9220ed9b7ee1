import Rmnet.Linear.Headers

/-!
# One packet on either path

An emission of the plan names a run of packets in a coalesced frame.  The fragment path turns it into a
descriptor and that into a buffer; the linear path builds the buffer at once.  `packetContents` is what the
stack sees of it: `EmissionOf.fillSkb_contents` and `EmissionOf.segmentSkb_contents` say that both paths
make it, for IPv4 and IPv6, TCP and UDP, good and bad checksums.
-/

namespace Rmnet

open Word Field Checksum

/-! ### What a buffer says -/

/-- What the stack sees of a buffer: the packet, its checksum status and its GSO fields. -/
structure SkbContents where
  bytes : Bytes
  ipSummed : IpSummed
  csumStart : ℕ
  csumOffset : ℕ
  gsoType : GsoType
  gsoSize : ℕ
  gsoSegs : ℕ
  deriving DecidableEq, Repr

def SkBuff.contents (skb : SkBuff) : SkbContents :=
  { bytes := skb.bytes, ipSummed := skb.ipSummed, csumStart := skb.csumStart, csumOffset := skb.csumOffset,
    gsoType := skb.gsoType, gsoSize := skb.gsoSize, gsoSegs := skb.gsoSegs }

/-- The bytes of a packet with IP header `I`, transport header `T` and payload `P`, the checksum field still
to be written: a good packet gets the pseudo-header sum, a bad one its right checksum plus one. -/
def packetBytes (good : Bool) (m : CoalMeta) (I T P : Bytes) : Bytes :=
  let T := overwrite T (checkOffset m.transProto)
    (be16 (pseudoSum m.ipProto I (T.length + P.length) m.transProto))
  if good then I ++ (T ++ P)
  else
    I ++ (overwrite T (checkOffset m.transProto) (be16 (csum16Add (csumFold (wordSum (T ++ P))) 1)) ++ P)

/-- The packet of an emission. -/
def packetContents (m : CoalMeta) (e : Emission) (I T P : Bytes) : SkbContents :=
  let good := e.csum || m.zeroCsum
  { bytes := packetBytes good m I T P
    ipSummed := if good then .checksumPartial else .checksumNone
    csumStart := if good then m.ipLen else 0
    csumOffset := if good then checkOffset m.transProto else 0
    gsoType := if 1 < e.segs then
        (if m.transProto = ipprotoTcp then (if m.ipProto = 4 then .tcpv4 else .tcpv6) else .udpL4)
      else .unset
    gsoSize := if 1 < e.segs then e.size else 0
    gsoSegs := if 1 < e.segs then e.segs else 0 }

/-- A buffer with everything but its GSO fields. -/
theorem contents_gsoStamp {skb : SkBuff} {c : SkbContents} (ipProto transProto gsoSize gsoSegs : ℕ)
    (h : skb.contents = { c with gsoType := .unset, gsoSize := 0, gsoSegs := 0 })
    (hc : c.gsoType = if 1 < gsoSegs then
        (if transProto = ipprotoTcp then (if ipProto = 4 then .tcpv4 else .tcpv6) else .udpL4) else .unset)
    (hs : c.gsoSize = if 1 < gsoSegs then gsoSize else 0) (hn : c.gsoSegs = if 1 < gsoSegs then gsoSegs else 0) :
    (if 1 < gsoSegs then gsoStamp skb ipProto transProto gsoSize gsoSegs else skb).contents = c := by
  obtain ⟨bytes, ipSummed, csumStart, csumOffset, gsoType, size, segs⟩ := c
  simp only at hc hs hn
  subst hc hs hn
  simp only [SkBuff.contents, SkbContents.mk.injEq] at h
  obtain ⟨h₁, h₂, h₃, h₄, h₅, h₆, h₇⟩ := h
  split
  · subst h₁ h₂ h₃ h₄
    rfl
  · simp only [SkBuff.contents, h₁, h₂, h₃, h₄, h₅, h₆, h₇]

/-! ### Building a buffer from a segment -/

/-- The fragments are attached in order: first to the head, whose fragments so far stay in front, then to the
chain. -/
theorem addRxFrags_frags {port : RmnetPort} (halloc : port.AllocOk) (fs : List SkbFrag) :
    ∀ (head : List SkbFrag) (chain : List (List SkbFrag)),
      ∃ head' chain', addRxFrags port head chain fs = (port, head', chain') ∧ head <+: head' ∧
        head' ++ chain'.flatten = head ++ chain.flatten ++ fs := by
  induction fs with
  | nil =>
    intro head chain
    exact ⟨head, chain, rfl, List.prefix_rfl, by simp⟩
  | cons f fs ih =>
    intro head chain
    rw [addRxFrags]
    cases hlast : chain.getLast? with
    | none =>
      have hnil : chain = [] := List.getLast?_eq_none_iff.mp hlast
      subst hnil
      simp only [kalloc_of_allocOk halloc]
      split
      · obtain ⟨head', chain', heq, hpre, hb⟩ := ih (head ++ [f]) []
        exact ⟨head', chain', heq, (List.prefix_append head [f]).trans hpre, by rw [hb]; simp⟩
      · obtain ⟨head', chain', heq, hpre, hb⟩ := ih head [[f]]
        exact ⟨head', chain', heq, hpre, by rw [hb]; simp⟩
    | some current =>
      have hchain : chain = chain.dropLast ++ [current] :=
        (List.dropLast_append_getLast? current hlast).symm
      simp only [kalloc_of_allocOk halloc]
      split
      · obtain ⟨head', chain', heq, hpre, hb⟩ := ih head (chain.dropLast ++ [current ++ [f]])
        refine ⟨head', chain', heq, hpre, ?_⟩
        rw [hb]
        conv_rhs => rw [hchain]
        simp
      · obtain ⟨head', chain', heq, hpre, hb⟩ := ih head (chain ++ [[f]])
        exact ⟨head', chain', heq, hpre, by rw [hb]; simp⟩

theorem fragsBytes_flatten (chain : List (List SkbFrag)) :
    fragsBytes chain.flatten = (chain.map fragsBytes).flatten := by
  induction chain with
  | nil => rfl
  | cons fs chain ih => simp [ih]

theorem addRxFrags_bytes {port : RmnetPort} (halloc : port.AllocOk) (fs head : List SkbFrag)
    (chain : List (List SkbFrag)) :
    ∃ head' chain', addRxFrags port head chain fs = (port, head', chain') ∧
      fragsBytes head' ++ (chain'.map fragsBytes).flatten
        = fragsBytes head ++ (chain.map fragsBytes).flatten ++ fragsBytes fs := by
  obtain ⟨head', chain', heq, -, hfs⟩ := addRxFrags_frags halloc fs head chain
  refine ⟨head', chain', heq, ?_⟩
  have hbytes := congrArg fragsBytes hfs
  simpa only [fragsBytes_append, fragsBytes_flatten] using hbytes

theorem fragsBytes_flatten_length (chain : List (List SkbFrag)) :
    ((chain.map fragsBytes).flatten).length = (chain.map fragsSize).sum := by
  induction chain with
  | nil => rfl
  | cons fs chain ih => simp [ih]

/-- **`rmnet_alloc_skb`** on a descriptor with measured headers: they are the linear part, and the fragments
of the buffer hold the rest. -/
theorem rmnetAllocSkb_valid {port : RmnetPort} (halloc : port.AllocOk) {d : RmnetFragDescriptor} (hs : d.Sized)
    (hv : d.hdrsValid = true) (hfit : d.ipLen + d.transLen ≤ d.len) (hlt : d.len < 65536) :
    ∃ d' head chain, rmnetAllocSkb port d
        = (port, d', some (fillSkb (.ofFrags (d.bytes.take (d.ipLen + d.transLen)) head chain) d)) ∧
      fragsBytes head ++ (chain.map fragsBytes).flatten = d.bytes.drop (d.ipLen + d.transLen) := by
  have hlen := hs.length_bytes
  have hu : u16 (d.ipLen + d.transLen) = d.ipLen + d.transLen := u16_of_lt (by omega)
  have hcopy : (rmnetFragCopyData d 0 (d.ipLen + d.transLen)).getD [] = d.bytes.take (d.ipLen + d.transLen) := by
    rw [rmnetFragCopyData_eq hs, readBytes_of_le (by omega)]
    rfl
  unfold rmnetAllocSkb
  simp only [kalloc_of_allocOk halloc, if_pos hv, hu, hcopy]
  by_cases hall : d.ipLen + d.transLen = d.len
  · rw [if_pos hall]
    refine ⟨d, [], [], rfl, ?_⟩
    rw [List.drop_eq_nil_of_le (by omega)]
    rfl
  · rw [if_neg hall]
    obtain ⟨frags, hpull, hbytes, -⟩ := rmnetFragPull_eq port hs (show d.ipLen + d.transLen < d.len by omega)
    obtain ⟨head, chain, hadd, hb⟩ := addRxFrags_bytes halloc frags [] []
    rw [hpull]
    simp only [hadd]
    refine ⟨_, head, chain, rfl, ?_⟩
    rw [hb, hbytes]
    simp

/-- The descriptor of an emission has its bytes counted. -/
theorem segDesc_sized {coal : RmnetFragDescriptor} {m : CoalMeta} {e : Emission} (hs : coal.Sized)
    (hin : m.hlen + e.off + e.size * e.segs ≤ coal.len) (a : ℕ) : (segDesc coal m a e).Sized := by
  have hlt := hs.len_lt
  have hlen := hs.length_bytes
  refine ⟨?_, show m.hlen + e.size * e.segs < _ by omega⟩
  have hb := congrArg List.length (segDesc_bytes coal m a e)
  rw [List.length_append, List.length_take, List.length_take, List.length_drop] at hb
  rw [← fragsBytes_length]
  show m.hlen + e.size * e.segs = (segDesc coal m a e).bytes.length
  rw [hb]
  omega

/-! ### One emission -/

/-- The metadata of the linear path for an emission of a packet. -/
abbrev linearMeta (m : CoalMeta) (ip : Bytes) (e : Emission) : CoalMetadata :=
  emissionMeta m (rmnetMapDataPtr (linearSkb ip)) e

/-- What an emission of the plan has to do with a packet `ip` whose headers are measured as `m`. -/
structure EmissionOf (m : CoalMeta) (ip : Bytes) (e : Emission) : Prop where
  measures : m.Measures ip
  length_lt : ip.length < 65536
  complete : m.Complete ip
  inside : m.hlen + e.off + e.size * e.segs ≤ ip.length

/-- The IP header of a packet. -/
def netHeader (m : CoalMeta) (ip : Bytes) : Bytes := ip.take m.ipLen

/-- The transport header of a packet. -/
def transHeader (m : CoalMeta) (ip : Bytes) : Bytes := (ip.drop m.ipLen).take m.transLen

/-- The payload of an emission. -/
def emissionPayload (m : CoalMeta) (ip : Bytes) (e : Emission) : Bytes :=
  (ip.drop (m.hlen + e.off)).take (e.size * e.segs)

/-- The packet that both paths make of an emission. -/
def emissionContents (m : CoalMeta) (ip : Bytes) (e : Emission) : SkbContents :=
  let c := linearMeta m ip e
  packetContents m e (segmentNetwork c (netHeader m ip) (m.hlen + e.size * e.segs))
    (segmentTransport (linearSkb ip) c (transHeader m ip) (m.transLen + e.size * e.segs))
    (emissionPayload m ip e)

@[simp] theorem segmentNetwork_length (c : CoalMetadata) (I : Bytes) (len : ℕ) :
    (segmentNetwork c I len).length = I.length := by
  unfold segmentNetwork
  split <;> simp

@[simp] theorem segmentTransport_length (skb : SkBuff) (c : CoalMetadata) (T : Bytes) (len : ℕ) :
    (segmentTransport skb c T len).length = T.length := by
  unfold segmentTransport clearFlagBits
  simp only
  split
  · split <;> simp
  · split <;> simp

section Emission

variable {m : CoalMeta} {ip : Bytes} {e : Emission}

theorem EmissionOf.netHeader_length (h : EmissionOf m ip e) : (netHeader m ip).length = m.ipLen := by
  have hin := h.inside
  unfold CoalMeta.hlen at hin
  rw [netHeader, List.length_take]
  omega

theorem EmissionOf.transHeader_length (h : EmissionOf m ip e) : (transHeader m ip).length = m.transLen := by
  have hin := h.inside
  unfold CoalMeta.hlen at hin
  rw [transHeader, List.length_take, List.length_drop]
  omega

theorem EmissionOf.payload_length (h : EmissionOf m ip e) :
    (emissionPayload m ip e).length = e.size * e.segs := by
  have hin := h.inside
  rw [emissionPayload, List.length_take, List.length_drop]
  omega

theorem EmissionOf.datagram_lt (h : EmissionOf m ip e) : m.transLen + e.size * e.segs < 65536 := by
  have hin := h.inside
  have hlt := h.length_lt
  unfold CoalMeta.hlen at hin
  omega

/-- The length behind the IP header. -/
theorem EmissionOf.datagram_len (h : EmissionOf m ip e) :
    sub32 (m.hlen + e.size * e.segs) m.ipLen = m.transLen + e.size * e.segs := by
  have hin := h.inside
  have hlt := h.length_lt
  unfold CoalMeta.hlen at hin ⊢
  rw [sub32_of_le (by omega) (by omega)]
  omega

/-- The headers of the packet, one behind the other. -/
theorem take_hlen (m : CoalMeta) (ip : Bytes) : ip.take m.hlen = netHeader m ip ++ transHeader m ip :=
  List.take_add

/-- The checksum field lies in the transport header. -/
theorem EmissionOf.check_fits (h : EmissionOf m ip e) : checkOffset m.transProto + 2 ≤ m.transLen := by
  unfold checkOffset
  rcases h.measures.proto with hp | hp
  · have := h.complete.tcp hp
    rw [if_pos hp]
    omega
  · have := (h.measures.udp hp).2
    rw [if_neg (by rw [hp]; decide)]
    omega

theorem EmissionOf.ipv4 (h : EmissionOf m ip e) (hv : m.ipProto = 4) : Ipv4Header (netHeader m ip) := by
  obtain ⟨hlen, hsum, hcheck⟩ := h.complete.v4 hv
  obtain ⟨-, hversion, hihl⟩ := h.measures.v4 hv
  have hl := h.netHeader_length
  have hfirst : byteAt (netHeader m ip) 0 = byteAt ip 0 := byteAt_take (by omega)
  refine ⟨by omega, by rw [hfirst, hihl, hl], by rw [hfirst, hversion], hsum, ?_⟩
  rw [netHeader, be16At_take (by omega)]
  exact hcheck

theorem EmissionOf.ipv6 (h : EmissionOf m ip e) (hv : m.ipProto ≠ 4) : 40 ≤ (netHeader m ip).length := by
  rw [h.netHeader_length]
  exact h.complete.v6 hv

/-- Where the pseudo header is, after the IP header has been rewritten. -/
theorem EmissionOf.pseudoSum_eq (h : EmissionOf m ip e) (c : CoalMetadata) (n : ℕ) (X : Bytes) (len : ℕ) :
    pseudoSum m.ipProto (segmentNetwork c (netHeader m ip) n ++ X) len m.transProto
      = pseudoSum m.ipProto (segmentNetwork c (netHeader m ip) n) len m.transProto := by
  apply pseudoSum_append
  · intro hv
    rw [segmentNetwork_length]
    exact (h.ipv4 hv).length
  · intro hv
    rw [segmentNetwork_length]
    exact h.ipv6 hv

/-- The checksum field is written in the transport header. -/
theorem overwrite_check {I T : Bytes} (P : Bytes) (hI : I.length = m.ipLen)
    (hT : checkOffset m.transProto + 2 ≤ T.length) (v : ℕ) :
    overwrite (I ++ (T ++ P)) (m.ipLen + checkOffset m.transProto) (be16 v)
      = I ++ (overwrite T (checkOffset m.transProto) (be16 v) ++ P) := by
  rw [← hI, overwrite_append_right, overwrite_append_left _ _ _ _ (by rw [be16_length]; exact hT)]

/-! ### The linear path -/

theorem memBytes_shift (data : ℕ → UInt8) (k n : ℕ) : memBytes (fun i => data (k + i)) 0 n = memBytes data k n := by
  simp [memBytes]

/-- The new buffer before its checksum is dealt with. -/
def rawSegment (m : CoalMeta) (ip : Bytes) (e : Emission) : SkBuff :=
  let c := linearMeta m ip e
  { linear := segmentNetwork c (netHeader m ip) (m.hlen + e.size * e.segs) ++
      (segmentTransport (linearSkb ip) c (transHeader m ip) (m.transLen + e.size * e.segs) ++
        emissionPayload m ip e)
    len := m.hlen + e.size * e.segs }

theorem EmissionOf.segmentSkb_eq (h : EmissionOf m ip e) :
    let c := linearMeta m ip e
    segmentSkb (linearSkb ip) c e.csum
      = if 1 < e.segs then
          gsoStamp (if e.csum || m.zeroCsum then rmnetMapPartialCsum (rawSegment m ip e) c
            else mapBadCsum (rawSegment m ip e) c) m.ipProto m.transProto e.size e.segs
        else if e.csum || m.zeroCsum then rmnetMapPartialCsum (rawSegment m ip e) c
          else mapBadCsum (rawSegment m ip e) c := by
  intro c
  have hin := h.inside
  have hth : memBytes c.transHeader 0 c.transLen = transHeader m ip := by
    show memBytes (fun i => rmnetMapDataPtr (linearSkb ip) (m.ipLen + i)) 0 m.transLen = _
    rw [memBytes_shift, memBytes_linear (by unfold CoalMeta.hlen at hin; omega)]
    rfl
  have hiph : memBytes c.ipHeader 0 c.ipLen = netHeader m ip := by
    show memBytes (rmnetMapDataPtr (linearSkb ip)) 0 m.ipLen = _
    rw [memBytes_linear (by unfold CoalMeta.hlen at hin; omega)]
    rfl
  have hcopy : rmnetMapNonlinearCopy (linearSkb ip) c { linear := [], len := 0 }
      = { linear := emissionPayload m ip e, len := e.size * e.segs } := by
    have hbytes : memBytes (rmnetMapDataPtr (linearSkb ip)) (m.ipLen + m.transLen + e.off) (e.size * e.segs)
        = emissionPayload m ip e := memBytes_linear hin
    unfold rmnetMapNonlinearCopy
    rw [if_neg (by simp [SkBuff.nonlinear, linearSkb])]
    simp only [c, emissionMeta, hbytes, List.nil_append, Nat.zero_add]
  have hzero : (decide (c.transProto = ipprotoUdp) && decide (c.ipProto = 4) &&
      decide (be16At (transHeader m ip) 6 = 0)) = m.zeroCsum := by
    rw [h.measures.zeroCsum]
    show (decide (m.transProto = ipprotoUdp) && decide (m.ipProto = 4) && _) = _
    by_cases hp : m.transProto = ipprotoUdp
    · have := (h.measures.udp hp).2
      rw [transHeader, be16At_slice (by omega)]
    · simp [hp]
  have hraw : (({ linear := emissionPayload m ip e, len := e.size * e.segs } : SkBuff).pushHeader
        (segmentTransport (linearSkb ip) c (transHeader m ip) (e.size * e.segs + c.transLen))).pushHeader
        (segmentNetwork c (netHeader m ip)
          ((({ linear := emissionPayload m ip e, len := e.size * e.segs } : SkBuff).pushHeader
            (segmentTransport (linearSkb ip) c (transHeader m ip) (e.size * e.segs + c.transLen))).len + c.ipLen))
      = rawSegment m ip e := by
    have hT := h.transHeader_length
    have hI := h.netHeader_length
    have hl : e.size * e.segs + c.transLen = m.transLen + e.size * e.segs := Nat.add_comm _ _
    have hn : m.transLen + e.size * e.segs + m.ipLen = m.hlen + e.size * e.segs := by
      unfold CoalMeta.hlen
      omega
    unfold SkBuff.pushHeader rawSegment
    simp only [segmentTransport_length, segmentNetwork_length, hT, hI]
    rw [hl, Nat.add_comm (e.size * e.segs) m.transLen, show c.ipLen = m.ipLen from rfl, hn]
  unfold segmentSkb
  simp only [hcopy, hth, hiph, hzero]
  rw [hraw]
  have hproto : c.transProto = ipprotoTcp ∨ c.transProto = ipprotoUdp := h.measures.proto
  rw [if_pos hproto]
  rfl

theorem EmissionOf.partial_map (h : EmissionOf m ip e) (hg : (e.csum || m.zeroCsum) = true) :
    (rmnetMapPartialCsum (rawSegment m ip e) (linearMeta m ip e)).contents
      = { emissionContents m ip e with gsoType := .unset, gsoSize := 0, gsoSegs := 0 } := by
  have hT := h.transHeader_length
  have hP := h.payload_length
  have hlen : u16 (sub32 (m.hlen + e.size * e.segs) m.ipLen) = m.transLen + e.size * e.segs := by
    rw [h.datagram_len, u16_of_lt h.datagram_lt]
  simp only [SkBuff.contents, rmnetMapPartialCsum, emissionContents, packetContents, packetBytes, hg, if_true,
    SkbContents.mk.injEq, true_and]
  refine ⟨?_, ?_⟩
  · simp only [rawSegment, emissionMeta, SkBuff.bytes, fragsBytes_nil, List.map_nil, List.flatten_nil,
      List.append_nil, hlen, segmentTransport_length, hT, hP]
    rw [← emissionMeta, h.pseudoSum_eq, overwrite_check]
    · rw [segmentNetwork_length, h.netHeader_length]
    · rw [segmentTransport_length, hT]
      exact h.check_fits
  · simp [rawSegment, emissionMeta]

theorem EmissionOf.bad_map (h : EmissionOf m ip e) (hg : (e.csum || m.zeroCsum) = false) :
    (mapBadCsum (rawSegment m ip e) (linearMeta m ip e)).contents
      = { emissionContents m ip e with gsoType := .unset, gsoSize := 0, gsoSegs := 0 } := by
  have hT := h.transHeader_length
  have hP := h.payload_length
  simp only [SkBuff.contents, mapBadCsum, emissionContents, packetContents, packetBytes, hg, Bool.false_eq_true,
    if_false, SkbContents.mk.injEq, true_and]
  refine ⟨?_, ?_⟩
  · simp only [rawSegment, SkBuff.bytes, fragsBytes_nil, List.map_nil, List.flatten_nil, List.append_nil,
      segmentTransport_length, hT, hP]
    generalize hc : linearMeta m ip e = c
    have hip : c.ipLen = m.ipLen := by rw [← hc]; rfl
    have hproto : c.ipProto = m.ipProto := by rw [← hc]; rfl
    have htrans : c.transProto = m.transProto := by rw [← hc]; rfl
    have hI : (segmentNetwork c (netHeader m ip) (m.hlen + e.size * e.segs)).length = m.ipLen := by
      rw [segmentNetwork_length, h.netHeader_length]
    have hfits : ∀ n v, checkOffset m.transProto + 2
        ≤ (overwrite (segmentTransport (linearSkb ip) c (transHeader m ip) n) (checkOffset m.transProto)
            (be16 v)).length := by
      intro n v
      rw [overwrite_length, segmentTransport_length, hT]
      exact h.check_fits
    rw [hip, hproto, htrans, h.datagram_len, h.pseudoSum_eq, overwrite_check _ hI, overwrite_check _ hI (hfits _ _)]
    · rw [← hI, List.drop_left]
    · rw [segmentTransport_length, hT]
      exact h.check_fits
  · simp [rawSegment]

/-- **The linear path** makes the packet of the emission. -/
theorem EmissionOf.segmentSkb_contents (h : EmissionOf m ip e) :
    (segmentSkb (linearSkb ip) (linearMeta m ip e) e.csum).contents
      = emissionContents m ip e := by
  have hbase : (if e.csum || m.zeroCsum then
        rmnetMapPartialCsum (rawSegment m ip e) (linearMeta m ip e)
      else mapBadCsum (rawSegment m ip e) (linearMeta m ip e)).contents
      = { emissionContents m ip e with gsoType := .unset, gsoSize := 0, gsoSegs := 0 } := by
    by_cases hg : (e.csum || m.zeroCsum) = true
    · rw [if_pos hg]
      exact h.partial_map hg
    · rw [if_neg hg]
      exact h.bad_map (Bool.eq_false_iff.mpr hg)
  rw [h.segmentSkb_eq]
  exact contents_gsoStamp m.ipProto m.transProto e.size e.segs hbase rfl rfl rfl

/-! ### The fragment path -/

/-- The new buffer before its checksum is dealt with: headers with the overrides applied, and the payload in
fragments. -/
structure RawFrag (coal : RmnetFragDescriptor) (m : CoalMeta) (a : ℕ) (e : Emission) (s : SkBuff) : Prop where
  linear : s.linear = overrideNetwork (netHeader m coal.bytes) m.ipProto
      (u16 (be16At (netHeader m coal.bytes) 4 + e.pktId)) ++
    overrideTransport (transHeader m coal.bytes) (segDesc coal m a e)
  payload : fragsBytes s.frags ++ (s.fragList.map fragsBytes).flatten = emissionPayload m coal.bytes e
  len : s.len = m.hlen + e.size * e.segs
  unset : s.ipSummed = .checksumNone ∧ s.csumStart = 0 ∧ s.csumOffset = 0 ∧ s.gsoType = .unset ∧
    s.gsoSize = 0 ∧ s.gsoSegs = 0

variable {coal : RmnetFragDescriptor} {a : ℕ}

/-- Both headers, once the IP header has been completed. -/
theorem EmissionOf.udpLength_eq (h : EmissionOf m coal.bytes e) (I : Bytes) (hI : I.length = m.ipLen) :
    udpLength (I ++ overrideTransport (transHeader m coal.bytes) (segDesc coal m a e)) m.ipLen m.transProto
        (m.transLen + e.size * e.segs)
      = I ++ segmentTransport (linearSkb coal.bytes)
          (linearMeta m coal.bytes e) (transHeader m coal.bytes)
          (m.transLen + e.size * e.segs) :=
  transport_eq h.measures rfl rfl h.transHeader_length h.complete.tcp hI _

theorem EmissionOf.partial_frag (h : EmissionOf m coal.bytes e) (hc : Measured coal m) {s : SkBuff}
    (hs : RawFrag coal m a e s) (hg : (e.csum || m.zeroCsum) = true) :
    (rmnetFragPartialCsum s (segDesc coal m a e)).contents
      = { emissionContents m coal.bytes e with gsoType := .unset, gsoSize := 0, gsoSegs := 0 } := by
  have hT := h.transHeader_length
  have hP := h.payload_length
  obtain ⟨-, -, -, h₁, h₂, h₃⟩ := hs.unset
  have hlen : u16 (sub32 (m.hlen + e.size * e.segs) m.ipLen) = m.transLen + e.size * e.segs := by
    rw [h.datagram_len, u16_of_lt h.datagram_lt]
  have hip : (segDesc coal m a e).ipLen = m.ipLen := hc.ipLen
  have hproto : (segDesc coal m a e).ipProto = m.ipProto := hc.ipProto
  have htrans : (segDesc coal m a e).transProto = m.transProto := hc.transProto
  have hI : ∀ c n, (segmentNetwork c (netHeader m coal.bytes) n).length = m.ipLen := by
    intro c n
    rw [segmentNetwork_length, h.netHeader_length]
  have hnet : partialNetwork s.linear m.ipProto (m.hlen + e.size * e.segs)
      = segmentNetwork (linearMeta m coal.bytes e) (netHeader m coal.bytes)
          (m.hlen + e.size * e.segs) ++ overrideTransport (transHeader m coal.bytes) (segDesc coal m a e) := by
    rw [hs.linear]
    exact partialNetwork_eq (c := linearMeta m coal.bytes e) _ _ h.ipv4 h.ipv6
  simp only [SkBuff.contents, rmnetFragPartialCsum, emissionContents, packetContents, packetBytes, hg, if_true,
    SkbContents.mk.injEq, hip, hproto, htrans, hs.len, hlen, h₁, h₂, h₃, and_true]
  rw [hnet, h.pseudoSum_eq, h.udpLength_eq _ (hI _ _), segmentTransport_length, hT, hP]
  simp only [SkBuff.bytes]
  rw [List.append_assoc, hs.payload, ← hI (linearMeta m coal.bytes e)
    (m.hlen + e.size * e.segs), overwrite_append_right, List.append_assoc]

theorem EmissionOf.bad_frag (h : EmissionOf m coal.bytes e) (hc : Measured coal m) {s : SkBuff}
    (hs : RawFrag coal m a e s) (hg : (e.csum || m.zeroCsum) = false) :
    (fragBadCsum s (segDesc coal m a e)).contents
      = { emissionContents m coal.bytes e with gsoType := .unset, gsoSize := 0, gsoSegs := 0 } := by
  have hT := h.transHeader_length
  have hP := h.payload_length
  have hn : m.hlen + e.size * e.segs < 65536 := by
    have hin := h.inside
    have hlt := h.length_lt
    omega
  obtain ⟨-, h₀, h₀', h₁, h₂, h₃⟩ := hs.unset
  have hip : (segDesc coal m a e).ipLen = m.ipLen := hc.ipLen
  have hproto : (segDesc coal m a e).ipProto = m.ipProto := hc.ipProto
  have htrans : (segDesc coal m a e).transProto = m.transProto := hc.transProto
  have hoffset : skbTransportOffset (segDesc coal m a e) = m.ipLen := by
    have hfits := h.check_fits
    have hset : (segDesc coal m a e).transLen = m.transLen := hc.transLen
    rw [skbTransportOffset_set (by omega), hip]
  have hI : (segmentNetwork (linearMeta m coal.bytes e) (netHeader m coal.bytes)
      (m.hlen + e.size * e.segs)).length = m.ipLen := by
    rw [segmentNetwork_length, h.netHeader_length]
  have hnet : badNetwork s.linear m.ipProto (m.hlen + e.size * e.segs)
      = segmentNetwork (linearMeta m coal.bytes e) (netHeader m coal.bytes) (m.hlen + e.size * e.segs) ++
          overrideTransport (transHeader m coal.bytes) (segDesc coal m a e) := by
    rw [hs.linear]
    exact badNetwork_eq (c := linearMeta m coal.bytes e) _ hn h.ipv4 h.ipv6
  simp only [SkBuff.contents, fragBadCsum, emissionContents, packetContents, packetBytes, hg, Bool.false_eq_true,
    if_false, SkbContents.mk.injEq, hip, hproto, htrans, hoffset, hs.len, h.datagram_len, h₀, h₀', h₁, h₂, h₃, and_true]
  rw [hnet, h.pseudoSum_eq, h.udpLength_eq _ hI, segmentTransport_length, hT, hP]
  simp only [SkBuff.bytes]
  rw [List.append_assoc, List.append_assoc, hs.payload]
  generalize hc' : segmentNetwork (linearMeta m coal.bytes e) (netHeader m coal.bytes)
    (m.hlen + e.size * e.segs) = I at hI ⊢
  rw [← hI, overwrite_append_right, overwrite_append_right, List.append_assoc, List.append_assoc,
    List.drop_left]

/-- The overrides leave a raw buffer. -/
theorem EmissionOf.rawFrag (h : EmissionOf m coal.bytes e) (hc : Measured coal m) {head : List SkbFrag}
    {chain : List (List SkbFrag)}
    (hP : fragsBytes head ++ (chain.map fragsBytes).flatten = emissionPayload m coal.bytes e) :
    RawFrag coal m a e { SkBuff.ofFrags (coal.bytes.take m.hlen) head chain with
      linear := fragOverrides (coal.bytes.take m.hlen) (segDesc coal m a e) } := by
  have hI := h.netHeader_length
  have hproto : (segDesc coal m a e).ipProto = m.ipProto := hc.ipProto
  refine ⟨?_, hP, ?_, ⟨rfl, rfl, rfl, rfl, rfl, rfl⟩⟩
  · show fragOverrides (coal.bytes.take m.hlen) (segDesc coal m a e) = _
    rw [take_hlen, overrides_split]
    · rw [hproto]
      congr 1
      unfold overrideNetwork
      split
      · rename_i hv
        have hlen := (h.complete.v4 hv).1
        have hid : (segDesc coal m a e).ipId = u16 (be16At coal.bytes 4 + e.pktId) := if_pos hv
        rw [hid, netHeader, be16At_take (by omega)]
      · rfl
    · rw [hI]
      exact hc.ipLen
    · rw [hproto]
      rfl
    · intro hv
      rw [hproto] at hv
      rw [hI]
      exact (h.complete.v4 hv).1
  · have hin := h.inside
    have hlt := h.length_lt
    have hbytes := congrArg List.length hP
    rw [List.length_append, fragsBytes_length, fragsBytes_flatten_length, h.payload_length] at hbytes
    show u32 ((coal.bytes.take m.hlen).length + (fragsSize head + (chain.map fragsSize).sum)) = _
    rw [hbytes, List.length_take, Nat.min_eq_left (by omega), u32_of_lt (by omega)]

/-- **The fragment path** makes the packet of the emission. -/
theorem EmissionOf.fillSkb_contents (h : EmissionOf m coal.bytes e) (hc : Measured coal m)
    (hv : coal.hdrsValid = true) {head : List SkbFrag} {chain : List (List SkbFrag)}
    (hP : fragsBytes head ++ (chain.map fragsBytes).flatten = emissionPayload m coal.bytes e) :
    (fillSkb (.ofFrags (coal.bytes.take m.hlen) head chain) (segDesc coal m a e)).contents
      = emissionContents m coal.bytes e := by
  have hraw := h.rawFrag hc (a := a) hP
  have hvalid : (segDesc coal m a e).hdrsValid = true := hv
  have hcsum : (segDesc coal m a e).csumValid = (e.csum || m.zeroCsum) := rfl
  have hproto : (segDesc coal m a e).ipProto = m.ipProto := hc.ipProto
  have htrans : (segDesc coal m a e).transProto = m.transProto := hc.transProto
  have htcpudp : (decide (m.transProto = ipprotoTcp) || decide (m.transProto = ipprotoUdp)) = true := by
    simpa using h.measures.proto
  unfold fillSkb
  generalize hs : ({ SkBuff.ofFrags (coal.bytes.take m.hlen) head chain with
    linear := fragOverrides (coal.bytes.take m.hlen) (segDesc coal m a e) } : SkBuff) = s at hraw
  have hlin : ({ SkBuff.ofFrags (coal.bytes.take m.hlen) head chain with
    linear := fragOverrides (SkBuff.ofFrags (coal.bytes.take m.hlen) head chain).linear
      (segDesc coal m a e) } : SkBuff) = s := hs
  simp only [hlin, hvalid, hcsum, htrans, hproto, Bool.and_true, htcpudp]
  refine contents_gsoStamp m.ipProto m.transProto e.size e.segs ?_ rfl rfl rfl
  by_cases hg : (e.csum || m.zeroCsum) = true
  · rw [if_pos hg]
    exact h.partial_frag hc hraw hg
  · rw [if_neg hg, if_neg hg]
    exact h.bad_frag hc hraw (Bool.eq_false_iff.mpr hg)

end Emission

end Rmnet
