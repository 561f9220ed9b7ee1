import Rmnet.Linear.Emission

/-!
# The two segmentations agree

`rmnet_map_segment_coal_skb` on a linear buffer and `rmnet_frag_segment_coal_data` followed by
`rmnet_alloc_skb` on any fragmentation of the same bytes produce the same packets.  The loop of the linear
path follows the plan of the frame, as that of the fragment path does (`mapSim`), so the packets are those
of the plan's emissions on both sides.
-/

namespace Rmnet

open Word Field Checksum

/-! ### The linear loop follows the plan -/

/-- The buffers on the list are those of the emissions so far. -/
structure MapSim (skb : SkBuff) (m : CoalMeta) (data : ℕ → UInt8) (list₀ : List SkBuff) (s : MapSegState)
    (t : PlanState) : Prop where
  allocOk : s.port.AllocOk
  coalSkb : s.coalSkb = skb
  coalMeta : s.coalMeta = emissionMeta m data ⟨t.off, t.size, t.segs, t.pktId, false⟩
  list : s.list = list₀ ++ t.out.map fun e => segmentSkb skb (emissionMeta m data e) e.csum

/-- The plan stays inside a packet of `len` bytes and counts in eight bits. -/
def MapFits (hlen len : ℕ) (t : PlanState) : Prop := PlanFits hlen len t ∧ t.peak < 256

/-- The operations on buffers simulate those on numbers. -/
theorem mapSim (dev : NetDevice) (skb : SkBuff) (m : CoalMeta) (data : ℕ → UInt8) (list₀ : List SkBuff)
    {len : ℕ} (hlen : len < 65536) :
    SegSim (mapSegOps dev) planOps (MapFits m.hlen len) (MapSim skb m data list₀) where
  segs h := by
    show CoalMetadata.pktCount _ = _
    rw [h.coalMeta]
    rfl
  setSize := by
    intro s t n _ h
    refine ⟨h.allocOk, h.coalSkb, ?_, h.list⟩
    show { s.coalMeta with dataLen := n } = _
    rw [h.coalMeta]
    rfl
  setSegs := by
    intro s t n h hok
    have hn : u8 n = n := u8_of_lt (Nat.lt_of_le_of_lt (Nat.le_max_right _ _) hok.2)
    refine ⟨h.allocOk, h.coalSkb, ?_, h.list⟩
    show { s.coalMeta with pktCount := u8 n } = _
    rw [h.coalMeta, hn]
    rfl
  csumErr h := ⟨bump_allocOk h.allocOk (some dev) .coalCsumErr 1, h.coalSkb, h.coalMeta, h.list⟩
  emit := by
    intro s t i c h hok
    obtain ⟨port, coalSkb, coalMeta, list⟩ := s
    obtain ⟨halloc, hskb, hmeta, hlist⟩ := h
    simp only at halloc hskb hmeta hlist
    subst hskb hmeta hlist
    have hin := (planFits_emit hok.1).1
    have hoff : u16 (t.off + t.size * t.segs) = t.off + t.size * t.segs := u16_of_lt (by omega)
    show MapSim coalSkb m data list₀ (rmnetMapSegmentOne dev i c _) _
    unfold rmnetMapSegmentOne
    simp only [kalloc_of_allocOk halloc]
    refine ⟨bump_allocOk halloc (some dev) .coalReconstruct 1, rfl, ?_, ?_⟩
    · simp only [emissionMeta, hoff]
      rfl
    · show _ = list₀ ++ (t.out ++ [(⟨t.off, t.size, t.segs, t.pktId, c⟩ : Emission)]).map _
      rw [List.map_append, List.map_singleton, List.append_assoc]
      rfl
  ok_setSize _ h := h
  ok_setSegs _ h := ⟨⟨h.1.1, Nat.lt_of_le_of_lt (Nat.le_max_left _ _) h.1.2⟩,
    Nat.lt_of_le_of_lt (Nat.le_max_left _ _) h.2⟩
  ok_csumErr h := h
  ok_emit _ _ h := ⟨(planFits_emit h.1).2, h.2⟩

/-! ### Measuring a buffer -/

section Measure

variable {skipExthdr : Bytes → ℕ → ℕ → SkipExthdr} {skb : SkBuff} {ip : Bytes}

/-- The IP header of a buffer whose data pointer reads it. -/
theorem mapIpHeader_some
    (hskip : byteAt ip 0 / 16 = 6 → ∀ b start nexthdr r, ipv6SkipExthdr b start nexthdr = some r →
      skipExthdr b start nexthdr = r)
    (port : RmnetPort) (dev : NetDevice) (hb : skb.bytes = ip)
    (hbyte : ∀ i < 20, byteAt (memBytes (rmnetMapDataPtr skb) 0 40) i = byteAt ip i)
    {ipProto ipLen transProto : ℕ} {plain : Bool}
    (h : ipMetaOf (byteAt ip 0 / 16) ip = some (ipProto, ipLen, transProto, plain)) (gro : Bool) :
    mapIpHeader skipExthdr port dev skb gro
      = (port, some ({ ipProto := ipProto, ipLen := ipLen, transProto := transProto,
                       ipHeader := rmnetMapDataPtr skb }, gro && plain)) := by
  unfold ipMetaOf at h
  unfold mapIpHeader
  simp only [hbyte 0 (by omega), hbyte 6 (by omega), hbyte 9 (by omega), hb]
  split at h
  · rename_i h4
    rw [if_pos h4]
    split at h
    · cases h
    · simp only [Option.some.injEq, Prod.mk.injEq] at h
      obtain ⟨rfl, rfl, rfl, rfl⟩ := h
      rfl
  · rename_i h4
    rw [if_neg h4]
    split at h
    · rename_i h6
      rw [if_pos h6]
      split at h
      · cases h
      · cases hwalk : ipv6SkipExthdr ip 40 (byteAt ip 6) with
        | none =>
          rw [hwalk] at h
          cases h
        | some skip =>
          rw [hwalk] at h
          rw [hskip h6 _ _ _ _ hwalk]
          simp only at h
          cases hstart : skip.start with
          | none =>
            rw [hstart] at h
            cases h
          | some l =>
            rw [hstart] at h
            simp only at h
            have hlen : skip.ipLen = u16 l := by
              rw [SkipExthdr.ipLen, hstart]
              rfl
            split at h
            · cases h
            · rename_i hfrag
              rw [if_neg hfrag, hlen]
              simp only [Option.some.injEq, Prod.mk.injEq] at h
              obtain ⟨rfl, rfl, rfl, rfl⟩ := h
              rfl
    · cases h

/-- The fixed part of a transport header. -/
def transFixed (transProto : ℕ) : ℕ := if transProto = ipprotoTcp then 20 else 8

/-- Both headers of a buffer whose data pointer reads them. -/
theorem mapHeaders_some
    (hskip : byteAt ip 0 / 16 = 6 → ∀ b start nexthdr r, ipv6SkipExthdr b start nexthdr = some r →
      skipExthdr b start nexthdr = r)
    (port : RmnetPort) (dev : NetDevice) (hb : skb.bytes = ip)
    (hbyte : ∀ i < 20, byteAt (memBytes (rmnetMapDataPtr skb) 0 40) i = byteAt ip i)
    {m : CoalMeta} (h : coalMeta ip = some m)
    (hth : ∀ i < transFixed m.transProto,
      byteAt (memBytes (rmnetMapDataPtr skb) m.ipLen 20) i = byteAt ip (m.ipLen + i)) (gro : Bool) :
    ∃ c, mapIpHeader skipExthdr port dev skb gro = (port, some (c, gro && m.plain)) ∧
      mapTransHeader port dev c
        = (port, some (emissionMeta m (rmnetMapDataPtr skb) ⟨0, 0, 0, 0, false⟩, m.zeroCsum)) := by
  unfold coalMeta coalMetaOf at h
  cases hip : ipMetaOf (byteAt ip 0 / 16) ip with
  | none =>
    rw [hip] at h
    cases h
  | some r =>
    obtain ⟨ipProto, ipLen, transProto, plain⟩ := r
    rw [hip] at h
    simp only at h
    have hiph := mapIpHeader_some hskip port dev hb hbyte hip gro
    have hmem : ∀ n, memBytes (fun i => rmnetMapDataPtr skb (ipLen + i)) 0 n
        = memBytes (rmnetMapDataPtr skb) ipLen n := memBytes_shift _ ipLen
    split at h
    · rename_i htcp
      split at h
      · cases h
      · obtain rfl := Option.some.inj h
        refine ⟨_, hiph, ?_⟩
        have hdoff := hth 12 (by rw [transFixed, if_pos htcp]; omega)
        simp only at hdoff
        unfold mapTransHeader
        simp only [if_pos htcp, hmem, hdoff]
        rfl
    · rename_i htcp
      split at h
      · rename_i hudp
        split at h
        · cases h
        · obtain rfl := Option.some.inj h
          refine ⟨_, hiph, ?_⟩
          have hfixed : transFixed transProto = 8 := if_neg htcp
          have hcheck : be16At (memBytes (rmnetMapDataPtr skb) ipLen 20) 6 = be16At ip (ipLen + 6) := by
            rw [be16At, be16At]
            exact congrArg₂ (fun x y => x * 256 + y) (hth 6 (by rw [hfixed]; omega)) (hth 7 (by rw [hfixed]; omega))
          unfold mapTransHeader
          simp only [if_neg htcp, if_pos hudp, hmem, hcheck]
          rfl
      · cases h

end Measure

/-! ### The whole function -/

/-- `rmnet_alloc_skb` on the descriptors of a list: the buffers that could be built. -/
def rmnetAllocSkbs (port : RmnetPort) : List RmnetFragDescriptor → List SkBuff
  | [] => []
  | d :: ds =>
      match rmnetAllocSkb port d with
      | (port, _, none) => rmnetAllocSkbs port ds
      | (port, _, some skb) => skb :: rmnetAllocSkbs port ds

theorem ExactFrame.mapFits {m : CoalMeta} {hd ip : Bytes} (h : ExactFrame m hd ip) (gro : Bool) (mask : ℕ) :
    MapFits m.hlen ip.length (segmentPlan gro m.hlen (framePairs hd) mask) := by
  obtain ⟨bs, -, -, hpeak, -⟩ := plan_batches gro m.hlen (framePairs hd) mask
  have hlen := h.length_le mask
  have hmax : v5MaxPackets = 48 := rfl
  exact ⟨h.planFits gro mask, by omega⟩

/-- The coalescing header of a linear buffer. -/
theorem memBytes_coalHeader {hd ip : Bytes} (h : hd.length = mapHeaderSize + v5CoalHeaderSize) :
    memBytes (rmnetMapDataPtr (linearSkb (hd ++ ip))) mapHeaderSize v5CoalHeaderSize = hd.drop mapHeaderSize := by
  have hl : hd.length = 32 := h
  rw [memBytes_linear (by rw [List.length_append, hl]; show 4 + 28 ≤ _; omega),
    List.drop_append_of_le_length (by rw [hl]; decide), List.take_left']
  rw [List.length_drop, hl]
  rfl

/-- The headers in front of the packet are read and pulled off a linear buffer. -/
theorem pskbPull_frame {hd : Bytes} (h : hd.length = mapHeaderSize + v5CoalHeaderSize) (ip : Bytes) :
    memBytes (rmnetMapDataPtr (pskbPull (linearSkb (hd ++ ip)) mapHeaderSize)) 0 v5CoalHeaderSize
        = hd.drop mapHeaderSize ∧
      pskbPull (pskbPull (linearSkb (hd ++ ip)) mapHeaderSize) v5CoalHeaderSize = linearSkb ip := by
  have hl : hd.length = 32 := h
  have hpull₁ : pskbPull (linearSkb (hd ++ ip)) mapHeaderSize = linearSkb (hd.drop mapHeaderSize ++ ip) := by
    rw [pskbPull_linear (by rw [List.length_append, hl]; show 4 ≤ _; omega),
      List.drop_append_of_le_length (by rw [hl]; decide)]
  have hlen₁ : (hd.drop mapHeaderSize).length = v5CoalHeaderSize := by
    rw [List.length_drop, hl]
    rfl
  rw [hpull₁]
  constructor
  · rw [memBytes_linear (by rw [List.length_append, hlen₁]; omega), List.drop_zero, ← hlen₁, List.take_left]
  · rw [pskbPull_linear (by rw [List.length_append, hlen₁]; omega), ← hlen₁, List.drop_left]

/-- The linear path up to the branch on the coalescing header, for a buffer whose data pointer reads the
headers. -/
theorem mapSegmentCoalSkb_measured {skipExthdr : Bytes → ℕ → ℕ → SkipExthdr} {skb skb₂ : SkBuff} {hd ip : Bytes}
    (hskip : byteAt ip 0 / 16 = 6 → ∀ b start nexthdr r, ipv6SkipExthdr b start nexthdr = some r →
      skipExthdr b start nexthdr = r)
    (port : RmnetPort) (dev : NetDevice)
    (hhdr : memBytes (rmnetMapDataPtr (pskbPull skb mapHeaderSize)) 0 v5CoalHeaderSize = hd.drop mapHeaderSize)
    (hpull : pskbPull (pskbPull skb mapHeaderSize) v5CoalHeaderSize = skb₂) (hb : skb₂.bytes = ip)
    (hbyte : ∀ i < 20, byteAt (memBytes (rmnetMapDataPtr skb₂) 0 40) i = byteAt ip i)
    {m : CoalMeta} (h : coalMeta ip = some m)
    (hth : ∀ i < transFixed m.transProto,
      byteAt (memBytes (rmnetMapDataPtr skb₂) m.ipLen 20) i = byteAt ip (m.ipLen + i)) (mask : ℕ)
    (list : List SkBuff) :
    rmnetMapSegmentCoalSkb skipExthdr port dev skb mask list
      = mapSegmentMeasured skipExthdr port dev skb₂ (coalHeaderOf hd) mask
          (emissionMeta m (rmnetMapDataPtr skb₂) ⟨0, 0, 0, 0, false⟩) (dev.groHw && m.plain) m.zeroCsum list := by
  obtain ⟨c, hiph, htrans⟩ := mapHeaders_some hskip port dev hb hbyte h hth dev.groHw
  unfold rmnetMapSegmentCoalSkb
  simp only [hpull, hhdr, hiph, htrans]
  rfl

/-- The loop of the linear path follows the plan. -/
theorem mapSegmentMeasured_plan (skipExthdr : Bytes → ℕ → ℕ → SkipExthdr) {port : RmnetPort}
    (halloc : port.AllocOk) (dev : NetDevice) (skb : SkBuff) {hd ip : Bytes} (hlt : ip.length < 65536)
    {m : CoalMeta} (hx : ExactFrame m hd ip) (mask : ℕ)
    (hbuggy : (rmnetMapV5CsumBuggy (coalHeaderOf hd) && !m.zeroCsum) = false)
    (hfast : (dev.groHw && m.plain && (coalHeaderOf hd).numNlos = 1 && (coalHeaderOf hd).csumValid) = false) :
    (mapSegmentMeasured skipExthdr port dev skb (coalHeaderOf hd) mask
        (emissionMeta m (rmnetMapDataPtr skb) ⟨0, 0, 0, 0, false⟩) (dev.groHw && m.plain) m.zeroCsum []).list
      = (segmentPlan (dev.groHw && m.plain) m.hlen (framePairs hd) mask).out.map
          fun e => segmentSkb skb (emissionMeta m (rmnetMapDataPtr skb) e) e.csum := by
  have hsim : MapSim skb m (rmnetMapDataPtr skb) []
      (segNlos (mapSegOps dev) (dev.groHw && m.plain) m.hlen (framePairs hd) 0 mask
        ⟨port, skb, emissionMeta m (rmnetMapDataPtr skb) ⟨0, 0, 0, 0, false⟩, []⟩)
      (segmentPlan (dev.groHw && m.plain) m.hlen (framePairs hd) mask) :=
    (mapSim dev _ m _ [] hlt).run _ ⟨halloc, rfl, rfl, rfl⟩ (hx.mapFits _ mask)
  have hlist := hsim.list
  rw [List.nil_append] at hlist
  rw [← hlist]
  unfold mapSegmentMeasured
  rw [if_neg (by rw [hbuggy]; exact Bool.false_ne_true), if_neg (by rw [hfast]; exact Bool.false_ne_true)]
  rfl

/-- **The linear path follows the plan.** -/
theorem mapSegmentCoalSkb_plan {skipExthdr : Bytes → ℕ → ℕ → SkipExthdr}
    (hskip : ∀ b start nexthdr r, ipv6SkipExthdr b start nexthdr = some r → skipExthdr b start nexthdr = r)
    {port : RmnetPort} (halloc : port.AllocOk) (dev : NetDevice) {hd ip : Bytes}
    (hhd : hd.length = mapHeaderSize + v5CoalHeaderSize) (hlt : ip.length < 65536) {m : CoalMeta}
    (hx : ExactFrame m hd ip) (mask : ℕ)
    (hbuggy : (rmnetMapV5CsumBuggy (coalHeaderOf hd) && !m.zeroCsum) = false)
    (hfast : (dev.groHw && m.plain && (coalHeaderOf hd).numNlos = 1 && (coalHeaderOf hd).csumValid) = false) :
    (rmnetMapSegmentCoalSkb skipExthdr port dev (linearSkb (hd ++ ip)) mask []).list
      = (segmentPlan (dev.groHw && m.plain) m.hlen (framePairs hd) mask).out.map
          fun e => segmentSkb (linearSkb ip) (linearMeta m ip e) e.csum := by
  obtain ⟨hhdr, hpull⟩ := pskbPull_frame hhd ip
  have hbyte : ∀ i < 20, byteAt (memBytes (rmnetMapDataPtr (linearSkb ip)) 0 40) i = byteAt ip i := by
    intro i hi
    rw [byteAt_memBytes ip (by omega), Nat.zero_add]
  have hth : ∀ i < transFixed m.transProto,
      byteAt (memBytes (rmnetMapDataPtr (linearSkb ip)) m.ipLen 20) i = byteAt ip (m.ipLen + i) := by
    intro i hi
    refine byteAt_memBytes ip ?_
    unfold transFixed at hi
    split at hi
    · exact hi
    · omega
  rw [mapSegmentCoalSkb_measured (fun _ => hskip) port dev hhdr hpull (linearSkb_bytes ip) hbyte hx.measured hth
    mask []]
  exact mapSegmentMeasured_plan skipExthdr halloc dev (linearSkb ip) hlt hx mask hbuggy hfast

/-- The buffers of the fragment path. -/
theorem allocSkbs_contents {port : RmnetPort} (halloc : port.AllocOk) {coal : RmnetFragDescriptor} {m : CoalMeta}
    (hc : Measured coal m) (hv : coal.hdrsValid = true) {descs : List RmnetFragDescriptor} {es : List Emission}
    (h : List.Forall₂ (fun d e => ∃ b, d = segDesc coal m b e) descs es)
    (he : ∀ e ∈ es, EmissionOf m coal.bytes e) :
    (rmnetAllocSkbs port descs).map SkBuff.contents = es.map (emissionContents m coal.bytes) := by
  induction h with
  | nil => rfl
  | @cons d e ds es hd _ ih =>
    obtain ⟨b, rfl⟩ := hd
    have hem := he e List.mem_cons_self
    have hin : m.hlen + e.off + e.size * e.segs ≤ coal.len := by
      rw [← hc.sized.length_bytes]
      exact hem.inside
    have hlt := hc.len_lt
    have hhlen : (segDesc coal m b e).ipLen + (segDesc coal m b e).transLen = m.hlen := by
      show coal.ipLen + coal.transLen = m.ipLen + m.transLen
      rw [hc.ipLen, hc.transLen]
    have hlen : (segDesc coal m b e).len = m.hlen + e.size * e.segs := rfl
    have hprefix : (coal.bytes.take m.hlen).length = m.hlen :=
      List.length_take_of_le (by rw [hc.sized.length_bytes]; omega)
    obtain ⟨d', head, chain, halloc', hP⟩ := rmnetAllocSkb_valid halloc (segDesc_sized hc.sized hin b) hv
      (by omega) (by omega)
    rw [hhlen, segDesc_bytes, List.take_left' hprefix] at halloc'
    rw [hhlen, segDesc_bytes, List.drop_left' hprefix] at hP
    rw [rmnetAllocSkbs, halloc', List.map_cons, List.map_cons, hem.fillSkb_contents hc hv hP,
      ih fun e' he' => he e' (List.mem_cons_of_mem _ he')]

/-- **The two segmentations agree.**  Take a coalesced frame in any fragmentation and as a linear buffer.
Let the header check accept it, let its pairs describe exactly the payload, with complete headers and a
valid IPv4 checksum that is not written as ones, and let neither the branch for suspect checksums nor the
one for a single good run be taken.  Then both header checks give the same error mask, and with allocations
succeeding the packets of both paths are the same, one by one. -/
theorem segmentations_agree {skipExthdr : Bytes → ℕ → ℕ → SkipExthdr}
    (hskip : ∀ b start nexthdr r, ipv6SkipExthdr b start nexthdr = some r → skipExthdr b start nexthdr = r)
    {port lport : RmnetPort} (halloc : port.AllocOk) (hlalloc : lport.AllocOk) {frags : List SkbFrag}
    {hd ip : Bytes} (hf : CoalFrame frags hd ip) {m : CoalMeta} (hx : ExactFrame m hd ip) (hm : m.Complete ip)
    (a : ℕ) (dev : NetDevice) {port' : RmnetPort} {mask : ℕ}
    (hcheck : rmnetFragDataCheckCoalHeader port (frameDesc a frags dev) = (port', some mask))
    (hbuggy : (rmnetMapV5CsumBuggy (coalHeaderOf hd) && !m.zeroCsum) = false)
    (hfast : (dev.groHw && m.plain && (coalHeaderOf hd).numNlos = 1 && (coalHeaderOf hd).csumValid) = false) :
    ∃ lport', rmnetMapDataCheckCoalHeader lport dev (linearSkb (hd ++ ip)) = (lport', some mask) ∧
      let seg := rmnetFragSegmentCoalData port' (frameDesc a frags dev) mask []
      (rmnetAllocSkbs seg.port seg.list).map SkBuff.contents
        = (rmnetMapSegmentCoalSkb skipExthdr lport' dev (linearSkb (hd ++ ip)) mask []).list.map
            SkBuff.contents := by
  have hlt := hf.ip_length
  rw [dataCheckCoalHeader_eq port hf a dev] at hcheck
  -- the linear check reads the same header
  have hlcheck : rmnetMapDataCheckCoalHeader lport dev (linearSkb (hd ++ ip))
      = ((checkCoalHeader lport (some dev) (coalHeaderOf hd)).1, some mask) := by
    unfold rmnetMapDataCheckCoalHeader
    rw [memBytes_coalHeader hf.hd_length, show V5CoalHeader.parse (hd.drop mapHeaderSize) = coalHeaderOf hd from rfl]
    refine Prod.ext rfl ?_
    rw [checkCoalHeader_mask lport port, hcheck]
  obtain ⟨lstats, hlport⟩ := checkCoalHeader_stats lport (some dev) (coalHeaderOf hd)
  obtain ⟨stats, hport⟩ := checkCoalHeader_stats port (some dev) (coalHeaderOf hd)
  rw [hcheck] at hport
  have halloc' : port'.AllocOk := by
    rw [show port' = _ from hport]
    exact halloc
  refine ⟨_, hlcheck, ?_⟩
  intro seg
  obtain ⟨frags', descs, hb, hlist, hdescs, hsegalloc⟩ := segmentCoalData_plan halloc' hf a dev hx.measured mask []
    hbuggy hfast (hx.planFits _ mask)
  have hbytes : (measuredDesc a frags' dev m).bytes = ip := hb
  have hc : Measured (measuredDesc a frags' dev m) m :=
    measuredDesc_measured (by rw [← fragsBytes_length, hb]; exact hlt) (by rw [hb]; exact hx.measured)
  have hem : ∀ e ∈ (segmentPlan (dev.groHw && m.plain) m.hlen (framePairs hd) mask).out, EmissionOf m ip e :=
    fun e he => ⟨coalMeta_measures hx.measured, hlt, hm, (hx.planFits _ mask).1 e he⟩
  have hfrag := allocSkbs_contents hsegalloc hc rfl hdescs (by rw [hbytes]; exact hem)
  have hlalloc' : (checkCoalHeader lport (some dev) (coalHeaderOf hd)).1.AllocOk := by
    rw [hlport]
    exact hlalloc
  have hlin := mapSegmentCoalSkb_plan hskip hlalloc' dev hf.hd_length hlt hx mask hbuggy hfast
  rw [List.nil_append] at hlist
  rw [show seg.list = descs from hlist, hfrag, hlin, hbytes, List.map_map]
  apply List.map_congr_left
  intro e he
  exact (hem e he).segmentSkb_contents.symm

/-- The headers of a frame with two UDP packets of 30 bytes, the second with a bad checksum. -/
def udpHd : Bytes :=
  [0x40, 1, 0, 60, 0x02, 0x10, 0, 0, 0, 30, 2, 2] ++ List.replicate 20 0

/-- The packets of the frame, coalesced. -/
def udpIp : Bytes :=
  [0x45, 0, 0, 0x20, 0, 7, 0, 0, 0x40, 0x11, 0x66, 0xC4, 0x0A, 0, 0, 1, 0x0A, 0, 0, 2,
    0, 53, 0, 54, 0, 12, 0x12, 0x34, 0xAA, 0xBB, 0xCC, 0xDD]

/-- A walk over extension headers that does what the kernel's is expected to do. -/
def sameWalk (b : Bytes) (start nexthdr : ℕ) : SkipExthdr :=
  (ipv6SkipExthdr b start nexthdr).getD ⟨none, nexthdr, 0⟩

/-- A device with GRO. -/
def groDevice : NetDevice := { id := 0, groHw := true, rxcsum := true }

theorem segmentations_agree_udp :
    ∃ lport', rmnetMapDataCheckCoalHeader (rmnetDescriptorInit 48 (fun _ => none) fun _ => true) groDevice
        (linearSkb (udpHd ++ udpIp)) = (lport', some 2) ∧
      ∃ port', rmnetFragDataCheckCoalHeader (rmnetDescriptorInit 48 (fun _ => none) fun _ => true)
          (frameDesc 0 [.ofBytes (udpHd.take 10), .ofBytes (udpHd.drop 10 ++ udpIp)] groDevice)
            = (port', some 2) ∧
        let seg := rmnetFragSegmentCoalData port'
          (frameDesc 0 [.ofBytes (udpHd.take 10), .ofBytes (udpHd.drop 10 ++ udpIp)] groDevice) 2 []
        (rmnetAllocSkbs seg.port seg.list).map SkBuff.contents
          = (rmnetMapSegmentCoalSkb sameWalk lport' groDevice (linearSkb (udpHd ++ udpIp)) 2 []).list.map
              SkBuff.contents := by
  have hport : (rmnetDescriptorInit 48 (fun _ => none) fun _ => true).AllocOk := fun _ => rfl
  have hwalk : ∀ b start nexthdr r, ipv6SkipExthdr b start nexthdr = some r → sameWalk b start nexthdr = r := by
    intro b start nexthdr r h
    rw [sameWalk, h]
    rfl
  have hframe : CoalFrame [.ofBytes (udpHd.take 10), .ofBytes (udpHd.drop 10 ++ udpIp)] udpHd udpIp := by
    refine ⟨by decide, ?_, by decide, by decide, by decide⟩
    rw [fragsBytes_cons, fragsBytes_cons, fragsBytes_nil, SkbFrag.ofBytes_bytes, SkbFrag.ofBytes_bytes,
      List.append_nil, ← List.append_assoc, List.take_append_drop]
  have hexact : ExactFrame ⟨4, 20, 17, 8, true, false⟩ udpHd udpIp :=
    ⟨by decide, by decide, by decide, by decide⟩
  have hcomplete : CoalMeta.Complete ⟨4, 20, 17, 8, true, false⟩ udpIp :=
    ⟨fun _ => by decide, fun h => absurd rfl h, fun h => absurd h (by decide)⟩
  obtain ⟨lport', hl, heq⟩ := segmentations_agree hwalk hport hport hframe hexact hcomplete 0 groDevice rfl
    (by decide) (by decide)
  exact ⟨lport', hl, _, rfl, heq⟩

end Rmnet
