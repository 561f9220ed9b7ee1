import Rmnet.Linear.Agree

/-!
# The fast path of segmentation

A coalesced frame with one NL pair, a good checksum and GRO is passed on as it is: `rmnet_frag_segment_coal_data`
puts its descriptor on the list unchanged, where the segmentation loop would have built a new one.  The new one has
overrides for the TCP sequence number and the IPv4 identification and its fragments are slices; the old one has
neither.

`fragOverrides_original` says what the overrides of such a descriptor change: nothing but the IPv4 header checksum,
which a good packet gets anew.  `fast_path_general` compares the two buffers.
-/

namespace Rmnet

open Word Field Checksum

/-! ### The loop on one good run -/

/-- The segmentation loop of `rmnet_frag_segment_coal_data`, whatever the branches before it would do. -/
def segmentLoop (port : RmnetPort) (coalDesc : RmnetFragDescriptor) (coalHdr : V5CoalHeader) (nloErrMask : ℕ)
    (gro : Bool) (list : List RmnetFragDescriptor) : SegState :=
  let coalDesc := { coalDesc with hdrsValid := true }
  segNlos fragSegOps gro (coalDesc.ipLen + coalDesc.transLen) (coalHdr.nlPairs.take coalHdr.numNlos) 0 nloErrMask
    ⟨port, coalDesc, list⟩

/-- A frame that takes neither branch gets to the loop. -/
theorem segmentMeasured_loop (port : RmnetPort) (coalDesc : RmnetFragDescriptor) {coalHdr : V5CoalHeader}
    (nloErrMask : ℕ) {gro zeroCsum : Bool} (list : List RmnetFragDescriptor)
    (hbuggy : (rmnetMapV5CsumBuggy coalHdr && !zeroCsum) = false)
    (hfast : (gro && coalHdr.numNlos = 1 && coalHdr.csumValid) = false) :
    segmentMeasured port coalDesc coalHdr nloErrMask gro zeroCsum list
      = segmentLoop port coalDesc coalHdr nloErrMask gro list := by
  rw [segmentMeasured]
  simp only [hbuggy, hfast, Bool.false_eq_true, if_false]
  rfl

/-- Good packets are counted. -/
theorem segPackets_good (n : ℕ) : ∀ (i mask : ℕ) (st : PlanState), (∀ k < n, mask.testBit k = false) →
    ∃ peak i' mask', segPackets planOps true n i mask st
      = (i', mask', { st with segs := st.segs + n, peak := peak }) := by
  induction n with
  | zero =>
    intro i mask st _
    exact ⟨st.peak, i, mask, rfl⟩
  | succ n ih =>
    intro i mask st hgood
    have hstep : segPacket planOps true i (mask.testBit 0) st
        = { st with segs := st.segs + 1, peak := max st.peak (st.segs + 1) } := by
      rw [hgood 0 (Nat.succ_pos n)]
      rfl
    have hrest : ∀ k < n, (mask / 2).testBit k = false := by
      intro k hk
      rw [← Nat.testBit_succ]
      exact hgood (k + 1) (Nat.succ_lt_succ hk)
    obtain ⟨peak, i', mask', hrun⟩ := ih (u8 (i + 1)) (mask / 2) _ hrest
    refine ⟨peak, i', mask', ?_⟩
    rw [segPackets, hstep, hrun, Nat.add_assoc, Nat.add_comm 1 n]

/-- **One good run** is one emission. -/
theorem plan_one_run (hlen : ℕ) {p : NlPair} {mask : ℕ} (hpos : 0 < p.numPackets)
    (hgood : ∀ k < p.numPackets, mask.testBit k = false) :
    (segmentPlan true hlen [p] mask).out = [⟨0, sub16 p.pktLen hlen, p.numPackets, 0, true⟩] := by
  obtain ⟨peak, i, mask', hrun⟩ := segPackets_good p.numPackets 0 mask
    (planOps.setSize (sub16 p.pktLen hlen) {}) hgood
  have hsegs : ¬ (0 + p.numPackets = 0) := by omega
  rw [segmentPlan, segNlos, hrun, segNlos, segFlush]
  show (if 0 + p.numPackets ≠ 0 then _ else _ : PlanState).out = _
  rw [if_pos hsegs]
  show [] ++ [(⟨0, sub16 p.pktLen hlen, 0 + p.numPackets, 0, true⟩ : Emission)] = _
  rw [Nat.zero_add, List.nil_append]

/-! ### Overrides with the original values -/

/-- A sequence number is overridden by itself: the bytes there are those of the packet. -/
theorem overwrite_be32_original {b ip : Bytes} {i : ℕ}
    (h : ∀ k, i ≤ k → k < i + 4 → k < b.length → byteAt b k = byteAt ip k) :
    overwrite b i (be32 (be32At ip i)) = b := by
  apply overwrite_eq_self
  intro j hj hlt
  rw [be32_length] at hj
  rw [byteAt_be32_of_eq rfl j hj, h (i + j) (Nat.le_add_right i j) (by omega) hlt]

theorem overwrite_be16_original {b ip : Bytes} {i : ℕ}
    (h : ∀ k, i ≤ k → k < i + 2 → k < b.length → byteAt b k = byteAt ip k) :
    overwrite b i (be16 (be16At ip i)) = b := by
  apply overwrite_eq_self
  intro j hj hlt
  rw [be16_length] at hj
  rw [byteAt_be16_of_eq rfl j hj, h (i + j) (Nat.le_add_right i j) (by omega) hlt]

/-- The headers but for the IPv4 header checksum. -/
def SameButCheck (hdr hdr' : Bytes) : Prop := hdr' = hdr ∨ ∃ c, hdr' = overwrite hdr 10 (be16 c)

theorem SameButCheck.byteAt {hdr hdr' : Bytes} (h : SameButCheck hdr hdr') {k : ℕ} (hk : k < hdr.length)
    (hne : k < 10 ∨ 12 ≤ k) : byteAt hdr' k = byteAt hdr k := by
  rcases h with rfl | ⟨c, rfl⟩
  · rfl
  · rw [byteAt_overwrite _ _ _ hk, if_neg (by rw [be16_length]; omega)]

theorem SameButCheck.length {hdr hdr' : Bytes} (h : SameButCheck hdr hdr') : hdr'.length = hdr.length := by
  rcases h with rfl | ⟨c, rfl⟩
  · rfl
  · exact overwrite_length _ _ _

/-- **Overrides with the values of the packet** change nothing but the IPv4 header checksum. -/
theorem fragOverrides_original {ip : Bytes} {desc : RmnetFragDescriptor} (n : ℕ)
    (hid : desc.ipIdSet = true → desc.ipId = be16At ip 4 ∧ 8 ≤ desc.ipLen)
    (hseq : desc.tcpSeqSet = true → desc.tcpSeq = be32At ip (desc.ipLen + 4)) (hflags : desc.tcpFlagsSet = false) :
    SameButCheck (ip.take n) (fragOverrides (ip.take n) desc) ∧
      (desc.ipIdSet = false → fragOverrides (ip.take n) desc = ip.take n) := by
  have hread : ∀ k < (ip.take n).length, byteAt (ip.take n) k = byteAt ip k := by
    intro k hk
    rw [List.length_take] at hk
    exact byteAt_take (by omega)
  -- the identification
  obtain ⟨hdr, hhdr, hcheck, hsame⟩ : ∃ hdr, (if desc.ipIdSet = true then
        overwrite (overwrite (ip.take n) 10
          (be16 (csumReplace2 (be16At (ip.take n) 10) (be16At (ip.take n) 4) desc.ipId))) 4 (be16 desc.ipId)
      else ip.take n) = hdr ∧ SameButCheck (ip.take n) hdr ∧ (desc.ipIdSet = false → hdr = ip.take n) := by
    by_cases hset : desc.ipIdSet = true
    · generalize csumReplace2 (be16At (ip.take n) 10) (be16At (ip.take n) 4) desc.ipId = c
      have hcheck : SameButCheck (ip.take n) (overwrite (ip.take n) 10 (be16 c)) := .inr ⟨c, rfl⟩
      have hsame : overwrite (overwrite (ip.take n) 10 (be16 c)) 4 (be16 desc.ipId)
          = overwrite (ip.take n) 10 (be16 c) := by
        rw [(hid hset).1]
        apply overwrite_be16_original
        intro k _ hk hlt
        rw [hcheck.length] at hlt
        rw [hcheck.byteAt hlt (.inl (by omega)), hread k hlt]
      refine ⟨_, by rw [if_pos hset, hsame], hcheck, fun hunset => ?_⟩
      rw [hset] at hunset
      cases hunset
    · exact ⟨_, if_neg hset, .inl rfl, fun _ => rfl⟩
  -- the sequence number
  have hwrite : (if desc.tcpSeqSet = true then overwrite hdr (desc.ipLen + 4) (be32 desc.tcpSeq) else hdr) = hdr := by
    split
    · rename_i hset
      rw [hseq hset]
      apply overwrite_be32_original
      intro k hk _ hlt
      rw [hcheck.length] at hlt
      rw [← hread k hlt]
      by_cases hset : desc.ipIdSet = true
      · have h8 := (hid hset).2
        exact hcheck.byteAt hlt (.inr (by omega))
      · rw [hsame (Bool.eq_false_iff.mpr hset)]
    · rfl
  have hall : fragOverrides (ip.take n) desc = hdr := by
    rw [fragOverrides]
    simp only [hhdr, hwrite, hflags, Bool.false_eq_true, if_false]
  rw [hall]
  exact ⟨hcheck, hsame⟩

/-- `rmnet_frag_partial_csum` computes the IPv4 header checksum anew. -/
theorem SameButCheck.partialNetwork {hdr hdr' : Bytes} (h : SameButCheck hdr hdr') (len : ℕ) :
    partialNetwork hdr' 4 len = partialNetwork hdr 4 len := by
  rcases h with rfl | ⟨c, rfl⟩
  · rfl
  · have hclear : overwrite (overwrite (overwrite hdr 10 (be16 c)) 2 (be16 len)) 10 (be16 0)
        = overwrite (overwrite hdr 2 (be16 len)) 10 (be16 0) := by
      rw [overwrite_comm hdr (i := 10) (j := 2) (.inr (by rw [be16_length]; omega)),
        overwrite_overwrite _ _ ((be16_length _).trans (be16_length _).symm)]
    rw [Rmnet.partialNetwork, Rmnet.partialNetwork, if_pos rfl, if_pos rfl]
    simp only [hclear]

/-! ### The buffers -/

theorem partialCsum_contents {s t : SkBuff} {f g : RmnetFragDescriptor} (hlen : s.len = t.len)
    (hbehind : fragsBytes s.frags ++ (s.fragList.map fragsBytes).flatten
      = fragsBytes t.frags ++ (t.fragList.map fragsBytes).flatten)
    (hgso : s.gsoType = t.gsoType ∧ s.gsoSize = t.gsoSize ∧ s.gsoSegs = t.gsoSegs)
    (hip : f.ipProto = g.ipProto ∧ f.ipLen = g.ipLen) (htrans : f.transProto = g.transProto)
    (hnet : partialNetwork s.linear f.ipProto s.len = partialNetwork t.linear f.ipProto s.len) :
    (rmnetFragPartialCsum s f).contents = (rmnetFragPartialCsum t g).contents := by
  simp only [SkBuff.contents, rmnetFragPartialCsum, SkBuff.bytes, List.append_assoc, hbehind, ← hlen, ← hip.1,
    ← hip.2, ← htrans, hnet, hgso.1, hgso.2.1, hgso.2.2]

theorem gsoStamp_contents {s t : SkBuff} (h : s.contents = t.contents) (ipProto transProto size segs : ℕ) :
    (if 1 < segs then gsoStamp s ipProto transProto size segs else s).contents
      = (if 1 < segs then gsoStamp t ipProto transProto size segs else t).contents := by
  split
  · simp only [SkBuff.contents, SkbContents.mk.injEq] at h
    obtain ⟨hbytes, hsummed, hstart, hoff, -⟩ := h
    simp only [SkBuff.contents, SkbContents.mk.injEq]
    exact ⟨hbytes, hsummed, hstart, hoff, rfl, rfl, rfl⟩
  · exact h

/-- The buffers of two descriptors with measured headers and a good checksum: the same packet, if the headers agree
up to what is computed anew. -/
theorem fillSkb_same {f g : RmnetFragDescriptor} {linear : Bytes} {head head' : List SkbFrag}
    {chain chain' : List (List SkbFrag)}
    (hbehind : fragsBytes head ++ (chain.map fragsBytes).flatten
      = fragsBytes head' ++ (chain'.map fragsBytes).flatten)
    (hf : f.csumValid = true ∧ f.hdrsValid = true) (hg : g.csumValid = true ∧ g.hdrsValid = true)
    (hip : f.ipProto = g.ipProto ∧ f.ipLen = g.ipLen) (htrans : f.transProto = g.transProto)
    (hgso : f.gsoSize = g.gsoSize ∧ f.gsoSegs = g.gsoSegs)
    (hnet : ∀ len, partialNetwork (fragOverrides linear f) f.ipProto len
      = partialNetwork (fragOverrides linear g) f.ipProto len) :
    (fillSkb (.ofFrags linear head chain) f).contents = (fillSkb (.ofFrags linear head' chain') g).contents := by
  have hsize : fragsSize head + (chain.map fragsSize).sum = fragsSize head' + (chain'.map fragsSize).sum := by
    have hlength := congrArg List.length hbehind
    rw [List.length_append, List.length_append, fragsBytes_length, fragsBytes_length, fragsBytes_flatten_length,
      fragsBytes_flatten_length] at hlength
    exact hlength
  rw [fillSkb, fillSkb]
  simp only [hf.1, hf.2, hg.1, hg.2, Bool.and_true, if_true]
  rw [← hip.1, ← htrans, ← hgso.1, ← hgso.2]
  apply gsoStamp_contents
  apply partialCsum_contents
  · show u32 (linear.length + _) = u32 (linear.length + _)
    rw [hsize]
  · exact hbehind
  · exact ⟨rfl, rfl, rfl⟩
  · exact hip
  · exact htrans
  · exact hnet _

/-! ### The two descriptors -/

theorem ipMetaOf_plain {version : ℕ} {b : Bytes} {ipLen transProto : ℕ}
    (h : ipMetaOf version b = some (4, ipLen, transProto, true)) : ipLen = 20 := by
  rw [ipMetaOf] at h
  split at h
  · split at h
    · cases h
    · simp only [Option.some.injEq, Prod.mk.injEq, decide_eq_true_eq] at h
      omega
  · split at h
    · split at h
      · cases h
      · split at h
        · cases h
        · split at h
          · cases h
          · split at h
            · cases h
            · simp only [Option.some.injEq, Prod.mk.injEq] at h
              omega
    · cases h

/-- An IPv4 header that GRO is possible for has no options. -/
theorem coalMeta_plain {b : Bytes} {m : CoalMeta} (h : coalMeta b = some m) (hv : m.ipProto = 4)
    (hplain : m.plain = true) : m.ipLen = 20 := by
  rw [coalMeta, coalMetaOf] at h
  split at h
  · cases h
  · rename_i ipProto ipLen transProto plain hip
    have hlen : ipProto = 4 → plain = true → ipLen = 20 := by
      rintro rfl rfl
      exact ipMetaOf_plain hip
    split at h
    · split at h
      · cases h
      · obtain rfl := Option.some.inj h
        exact hlen hv hplain
    · split at h
      · split at h
        · cases h
        · obtain rfl := Option.some.inj h
          exact hlen hv hplain
      · cases h

/-- The NL pair of a frame that has one. -/
def onlyPair (hd : Bytes) : NlPair := (coalHeaderOf hd).nlPairs.headD ⟨0, 0, 0⟩

theorem framePairs_one {hd : Bytes} (h : (coalHeaderOf hd).numNlos = 1) : framePairs hd = [onlyPair hd] := by
  rw [framePairs, h, onlyPair]
  rfl

/-- The descriptor that the fast path reuses. -/
def fastDesc (a : ℕ) (frags : List SkbFrag) (dev : NetDevice) (m : CoalMeta) (p : NlPair) : RmnetFragDescriptor :=
  ({ measuredDesc a frags dev m with csumValid := true } : RmnetFragDescriptor).asOneRun p

/-- The run that the loop finds in a frame with one good run. -/
def wholeRun (m : CoalMeta) (p : NlPair) : Emission := ⟨0, sub16 p.pktLen m.hlen, p.numPackets, 0, true⟩

section

variable {hd ip : Bytes} {m : CoalMeta} {mask : ℕ}

/-- The run is the whole payload. -/
theorem wholeRun_size (hx : ExactFrame m hd ip) (hone : (coalHeaderOf hd).numNlos = 1) :
    m.hlen + (wholeRun m (onlyPair hd)).size * (wholeRun m (onlyPair hd)).segs = ip.length := by
  have hmem : onlyPair hd ∈ framePairs hd := by
    rw [framePairs_one hone]
    exact List.mem_singleton_self _
  have hle := hx.pktLen _ hmem
  have hlt := coalHeaderOf_pktLen hd _ (List.mem_of_mem_take hmem)
  have hpayload := hx.payload
  rw [framePairs_one hone, List.map_singleton, List.sum_singleton] at hpayload
  rw [wholeRun, sub16_of_le hle hlt, Nat.mul_comm]
  exact hpayload

/-- **The loop** builds one descriptor, that of the run. -/
theorem segmentLoop_one {port : RmnetPort} (halloc : port.AllocOk) {frags : List SkbFrag}
    (hb : fragsBytes frags = ip) (hlt : ip.length < 65536) (hx : ExactFrame m hd ip) (a : ℕ) (dev : NetDevice)
    (list : List RmnetFragDescriptor) (hone : (coalHeaderOf hd).numNlos = 1)
    (hpos : 0 < (onlyPair hd).numPackets) (hgood : ∀ k < (onlyPair hd).numPackets, mask.testBit k = false) :
    ∃ b, (segmentLoop port { frameDesc a frags dev with
        ipProto := m.ipProto, ipLen := m.ipLen, transProto := m.transProto, transLen := m.transLen }
        (coalHeaderOf hd) mask true list).list
      = list ++ [segDesc (measuredDesc a frags dev m) m b (wholeRun m (onlyPair hd))] := by
  have hsize : fragsSize frags = ip.length := by
    rw [← hb, fragsBytes_length]
  have hc : Measured (measuredDesc a frags dev m) m :=
    measuredDesc_measured (by rw [hsize]; exact hlt) (by rw [hb]; exact hx.measured)
  have hsim : FragSim (measuredDesc a frags dev m) m list
      (segNlos fragSegOps true m.hlen (framePairs hd) 0 mask ⟨port, measuredDesc a frags dev m, list⟩)
      (segmentPlan true m.hlen (framePairs hd) mask) := by
    refine (fragSim hc list).run _ ⟨halloc, rfl, [], (List.append_nil list).symm, .nil⟩ ?_
    show PlanFits m.hlen (fragsSize frags) (segmentPlan true m.hlen (framePairs hd) mask)
    rw [hsize]
    exact hx.planFits true mask
  obtain ⟨-, -, descs, hlist, hdescs⟩ := hsim
  rw [framePairs_one hone, plan_one_run m.hlen hpos hgood] at hdescs
  obtain ⟨d, descs, ⟨b, rfl⟩, hnil, rfl⟩ := List.forall₂_cons_right_iff.mp hdescs
  rw [List.forall₂_nil_right_iff.mp hnil] at hlist
  exact ⟨b, hlist⟩

/-- The overrides of the run are the values of the packet. -/
theorem wholeRun_overrides {coal : RmnetFragDescriptor} (hip : coal.ipLen = m.ipLen) (hbytes : coal.bytes = ip)
    (hx : ExactFrame m hd ip) (hplain : m.plain = true) (hone : (coalHeaderOf hd).numNlos = 1) (b n : ℕ) :
    SameButCheck (ip.take n) (fragOverrides (ip.take n) (segDesc coal m b (wholeRun m (onlyPair hd)))) ∧
      (m.ipProto ≠ 4 →
        fragOverrides (ip.take n) (segDesc coal m b (wholeRun m (onlyPair hd))) = ip.take n) := by
  have hwhole := wholeRun_size hx hone
  have hid : decide (m.ipProto = 4) = true →
      (if m.ipProto = 4 then u16 (be16At coal.bytes 4 + 0) else 0) = be16At ip 4 ∧ 8 ≤ coal.ipLen := by
    intro hset
    have hv : m.ipProto = 4 := of_decide_eq_true hset
    have hlen : coal.ipLen = 20 := hip.trans (coalMeta_plain hx.measured hv hplain)
    rw [if_pos hv, hbytes, Nat.add_zero, u16_of_lt (be16At_lt ip 4), hlen]
    exact ⟨rfl, by decide⟩
  have hseq : decide (m.transProto = ipprotoTcp) = true →
      (if decide (m.transProto = ipprotoTcp) = true then u32 (be32At coal.bytes (m.ipLen + 4) + 0) else 0)
        = be32At ip (coal.ipLen + 4) := by
    intro hset
    have hlt : be32At ip (m.ipLen + 4) < 4294967296 := by
      have h₁ := be16At_lt ip (m.ipLen + 4)
      have h₂ := be16At_lt ip (m.ipLen + 4 + 2)
      rw [be32At]
      omega
    rw [if_pos hset, hbytes, hip, Nat.add_zero, u32_of_lt hlt]
  -- nothing is left behind the run
  have hflags : clearsFlags m coal.bytes (wholeRun m (onlyPair hd)) = false := by
    have hend : ¬ (m.hlen + 0 + (wholeRun m (onlyPair hd)).size * (wholeRun m (onlyPair hd)).segs < ip.length) := by
      omega
    rw [clearsFlags, hbytes]
    exact Bool.and_eq_false_iff.mpr (.inr (decide_eq_false hend))
  obtain ⟨hcheck, hsame⟩ := @fragOverrides_original ip
    (segDesc coal m b (wholeRun m (onlyPair hd))) n hid hseq hflags
  exact ⟨hcheck, fun hv => hsame (decide_eq_false hv)⟩

/-- The IP header of a good packet is the same with the overrides of the run. -/
theorem wholeRun_network {coal : RmnetFragDescriptor} (hip : coal.ipLen = m.ipLen) (hbytes : coal.bytes = ip)
    (hx : ExactFrame m hd ip) (hplain : m.plain = true) (hone : (coalHeaderOf hd).numNlos = 1) (b n len : ℕ) :
    partialNetwork (ip.take n) m.ipProto len
      = partialNetwork (fragOverrides (ip.take n) (segDesc coal m b (wholeRun m (onlyPair hd)))) m.ipProto len := by
  obtain ⟨hcheck, hsame⟩ := wholeRun_overrides hip hbytes hx hplain hone b n
  by_cases hv : m.ipProto = 4
  · rw [hv]
    exact (hcheck.partialNetwork len).symm
  · rw [hsame hv]

/-- **The buffers** of the two descriptors hold the same packet. -/
theorem fast_buffers {frags : List SkbFrag} (hb : fragsBytes frags = ip) (hlt : ip.length < 65536)
    (hx : ExactFrame m hd ip) (hplain : m.plain = true) (hone : (coalHeaderOf hd).numNlos = 1) (a b : ℕ)
    (dev : NetDevice) {q r : RmnetPort} (hq : q.AllocOk) (hr : r.AllocOk) :
    ∃ s t, (rmnetAllocSkb q (fastDesc a frags dev m (onlyPair hd))).2.2 = some s ∧
      (rmnetAllocSkb r (segDesc (measuredDesc a frags dev m) m b (wholeRun m (onlyPair hd)))).2.2 = some t ∧
      s.contents = t.contents := by
  have hwhole := wholeRun_size hx hone
  have hsize : fragsSize frags = ip.length := by
    rw [← hb, fragsBytes_length]
  have hbytes : (measuredDesc a frags dev m).bytes = ip := hb
  have hsized : (measuredDesc a frags dev m).Sized := ⟨rfl, show fragsSize frags < _ by omega⟩
  have hfit : m.ipLen + m.transLen ≤ ip.length := by
    rw [← hwhole]
    exact Nat.le_add_right _ _
  -- the fast path
  obtain ⟨fast', head, chain, hfast, hbehind⟩ := rmnetAllocSkb_valid hq
    (d := fastDesc a frags dev m (onlyPair hd)) ⟨rfl, hsized.len_lt⟩ rfl
    (show m.ipLen + m.transLen ≤ fragsSize frags by omega) (show fragsSize frags < 65536 by omega)
  -- the loop
  have hsegBytes : (segDesc (measuredDesc a frags dev m) m b (wholeRun m (onlyPair hd))).bytes = ip := by
    have hoff : m.hlen + (wholeRun m (onlyPair hd)).off = m.hlen := rfl
    have hrest : (ip.drop m.hlen).take ((wholeRun m (onlyPair hd)).size * (wholeRun m (onlyPair hd)).segs)
        = ip.drop m.hlen := by
      apply List.take_of_length_le
      rw [List.length_drop]
      omega
    rw [segDesc_bytes, hbytes, hoff, hrest, List.take_append_drop]
  have hsegLen : (segDesc (measuredDesc a frags dev m) m b (wholeRun m (onlyPair hd))).len = ip.length := hwhole
  obtain ⟨general', head', chain', hgeneral, hbehind'⟩ := rmnetAllocSkb_valid hr
    (d := segDesc (measuredDesc a frags dev m) m b (wholeRun m (onlyPair hd)))
    (segDesc_sized hsized (show m.hlen + 0 + _ ≤ fragsSize frags by omega) b) rfl
    (by rw [hsegLen]; exact hfit) (by rw [hsegLen]; exact hlt)
  rw [hfast, hgeneral, hsegBytes]
  rw [hsegBytes] at hbehind'
  refine ⟨_, _, rfl, rfl, ?_⟩
  have hfastBytes : (fastDesc a frags dev m (onlyPair hd)).bytes = ip := hb
  rw [hfastBytes] at hbehind ⊢
  apply fillSkb_same
  · exact hbehind.trans hbehind'.symm
  · exact ⟨rfl, rfl⟩
  · exact ⟨rfl, rfl⟩
  · exact ⟨rfl, rfl⟩
  · rfl
  · exact ⟨rfl, rfl⟩
  · intro len
    exact wholeRun_network rfl hbytes hx hplain hone b _ len

end

/-! ### The whole function -/

/-- **The fast path equals the general path.**  For a frame with one NL pair of good packets, a good checksum and
GRO, the buffer of the descriptor that is passed on as it is and the buffer of the one descriptor that the loop
would build hold the same packet, with the same checksum status and GSO fields. -/
theorem fast_path_general {port : RmnetPort} (halloc : port.AllocOk) {frags : List SkbFrag} {hd ip : Bytes}
    (hf : CoalFrame frags hd ip) {m : CoalMeta} (hx : ExactFrame m hd ip) (a : ℕ) (dev : NetDevice) {mask : ℕ}
    (list : List RmnetFragDescriptor) (hbuggy : (rmnetMapV5CsumBuggy (coalHeaderOf hd) && !m.zeroCsum) = false)
    (hfast : (dev.groHw && m.plain && (coalHeaderOf hd).numNlos = 1 && (coalHeaderOf hd).csumValid) = true)
    (hpos : 0 < (onlyPair hd).numPackets) (hgood : ∀ k < (onlyPair hd).numPackets, mask.testBit k = false) :
    ∃ port' coal zeroCsum fast general,
      segmentStart port (frameDesc a frags dev) = some (port', coal, coalHeaderOf hd, true, zeroCsum) ∧
      (rmnetFragSegmentCoalData port (frameDesc a frags dev) mask list).list = list ++ [fast] ∧
      (segmentLoop port' coal (coalHeaderOf hd) mask true list).list = list ++ [general] ∧
      ∀ q r : RmnetPort, q.AllocOk → r.AllocOk → ∃ s t, (rmnetAllocSkb q fast).2.2 = some s ∧
        (rmnetAllocSkb r general).2.2 = some t ∧ s.contents = t.contents := by
  obtain ⟨frags', stats, hb, hstart⟩ := segmentStart_frame port hf a dev hx.measured
  obtain ⟨⟨⟨hgro, hplain⟩, hone⟩, hvalid⟩ := by
    simpa only [Bool.and_eq_true, decide_eq_true_eq] using hfast
  obtain ⟨b, hgeneral⟩ := @segmentLoop_one hd ip m mask { port with stats := stats } halloc frags' hb hf.ip_length hx a
    dev list hone hpos hgood
  rw [hgro, hplain, Bool.true_and] at hstart
  refine ⟨_, _, m.zeroCsum, fastDesc a frags' dev m (onlyPair hd), _, hstart, ?_, hgeneral,
    fun q r hq hr => fast_buffers hb hf.ip_length hx hplain hone a b dev hq hr⟩
  have hbranch : (true && (coalHeaderOf hd).numNlos = 1 && (coalHeaderOf hd).csumValid) = true := by
    rw [hone, hvalid]
    rfl
  rw [segmentCoalData_start hstart, segmentMeasured]
  simp only [hbuggy, hbranch, Bool.false_eq_true, if_false, if_true]
  rfl

/-- The headers of a frame with two good UDP packets of 30 bytes. -/
def goodHd : Bytes :=
  [0x40, 1, 0, 60, 0x02, 0x90, 0, 0, 0, 30, 0, 2] ++ List.replicate 20 0

theorem fast_path_udp :
    ∃ port' coal zeroCsum fast general,
      segmentStart (rmnetDescriptorInit 48 (fun _ => none) fun _ => true)
          (frameDesc 0 [.ofBytes (goodHd ++ udpIp)] groDevice)
        = some (port', coal, coalHeaderOf goodHd, true, zeroCsum) ∧
      (rmnetFragSegmentCoalData (rmnetDescriptorInit 48 (fun _ => none) fun _ => true)
        (frameDesc 0 [.ofBytes (goodHd ++ udpIp)] groDevice) 0 []).list = [fast] ∧
      (segmentLoop port' coal (coalHeaderOf goodHd) 0 true []).list = [general] ∧
      ∃ s t, (rmnetAllocSkb (rmnetDescriptorInit 0 (fun _ => none) fun _ => true) fast).2.2 = some s ∧
        (rmnetAllocSkb (rmnetDescriptorInit 0 (fun _ => none) fun _ => true) general).2.2 = some t ∧
        s.contents = t.contents := by
  have halloc : ∀ n, (rmnetDescriptorInit n (fun _ => none) fun _ => true).AllocOk := fun _ _ => rfl
  have hframe : CoalFrame [.ofBytes (goodHd ++ udpIp)] goodHd udpIp := by
    refine ⟨by decide, ?_, by decide, by decide, by decide⟩
    rw [fragsBytes_cons, fragsBytes_nil, SkbFrag.ofBytes_bytes, List.append_nil]
  have hexact : ExactFrame ⟨4, 20, 17, 8, true, false⟩ goodHd udpIp :=
    ⟨by decide, by decide, by decide, by decide⟩
  obtain ⟨port', coal, zeroCsum, fast, general, hstart, hfast, hgeneral, hsame⟩ :=
    @fast_path_general _ (halloc 48) _ _ _ hframe _ hexact 0 groDevice 0 [] (by decide) (by decide) (by decide)
      (by decide)
  exact ⟨port', coal, zeroCsum, fast, general, hstart, hfast, hgeneral, hsame _ _ (halloc 0) (halloc 0)⟩

end Rmnet
