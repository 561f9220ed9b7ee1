import Rmnet.Coalesce.PktId
import Rmnet.Linear.Agree

/-!
# IPv4 identifications after segmentation

What is emitted for a run of packets should carry the identification of the first of them: that of the
coalesced header plus the number of packets before it (`IdsFollow`).  Both paths compute it from the packet
id of the emission, so that they are right and wrong together (`ids_follow_iff`): with GRO whatever follows a
good run is one too high, a bad packet or the first packet of the next NL pair.

The linear path is treated for every buffer whose headers lie in one piece at its data pointer, in the linear
part or in the first page fragment (`CoalSkb`).
-/

namespace Rmnet

open Word Field Checksum

/-! ### Identifications -/

/-- The IPv4 identification that a descriptor stands for, from its override or its header. -/
def RmnetFragDescriptor.ipv4Id (desc : RmnetFragDescriptor) : ℕ :=
  if desc.ipIdSet then desc.ipId else be16At desc.bytes 4

/-- The IPv4 identification of a buffer. -/
def SkBuff.ipv4Id (skb : SkBuff) : ℕ := be16At skb.bytes 4

/-- The number of packets in a buffer; only more than one packet is stamped. -/
def SkBuff.packets (skb : SkBuff) : ℕ := if skb.gsoSegs = 0 then 1 else skb.gsoSegs

/-- A list of identifications with numbers of packets: each identification is `id` plus the number of packets
before it. -/
def IdsFollow (id : ℕ) (xs : List (ℕ × ℕ)) : Prop :=
  ∀ k x, xs[k]? = some x → x.1 = u16 (id + ((xs.take k).map Prod.snd).sum)

theorem idsFollow_single {id n : ℕ} (h : id < 65536) : IdsFollow id [(id, n)] := by
  intro k x hx
  cases k with
  | zero =>
    rw [List.getElem?_cons_zero, Option.some.injEq] at hx
    rw [← hx]
    exact (u16_of_lt h).symm
  | succ k => cases hx

/-- Identifications follow when the packet ids are right. -/
theorem idsFollow_emissions (id : ℕ) {es : List Emission} (hid : ∀ e ∈ es, e.pktId < 65536)
    (hsum : segsSum es < 65536) :
    IdsFollow id (es.map fun e => (u16 (id + e.pktId), e.segs)) ↔ PktIds segsSum es := by
  have hk : ∀ k, (((es.map fun e => (u16 (id + e.pktId), e.segs)).take k).map Prod.snd).sum
      = segsSum (es.take k) := by
    intro k
    rw [← List.map_take, List.map_map]
    rfl
  constructor
  · intro h k e he
    have hfollow := h k (u16 (id + e.pktId), e.segs) (by rw [List.getElem?_map, he]; rfl)
    rw [hk] at hfollow
    have hlt := hid e (List.mem_of_getElem? he)
    have hle := segsSum_take_le es k
    unfold u16 at hfollow
    simp only at hfollow
    omega
  · intro h k x hx
    rw [List.getElem?_map] at hx
    obtain ⟨e, he, rfl⟩ := Option.map_eq_some_iff.mp hx
    rw [hk, ← h k e he]

/-! ### Headers in one piece -/

/-- How much of a buffer lies in one piece from its data pointer on. -/
def SkBuff.headLen (skb : SkBuff) : ℕ :=
  if skb.linear.length = 0 then (skb.frags.map SkbFrag.size).headD 0 else skb.linear.length

/-- What is left of a first fragment that is pulled. -/
theorem pullFrags_headD (fs : List SkbFrag) (size len : ℕ) :
    (fs.map SkbFrag.size).headD 0 ≤ ((pullFrags fs size len).1.map SkbFrag.size).headD 0 + size := by
  cases fs with
  | nil => exact Nat.zero_le _
  | cons f fs =>
    rw [pullFrags]
    split
    · exact Nat.le_add_right _ _
    · split
      · rename_i hle
        exact Nat.le_trans hle (Nat.le_add_left _ _)
      · show f.size ≤ f.size - size + size
        omega

theorem headD_le_bytes (fs : List SkbFrag) : (fs.map SkbFrag.size).headD 0 ≤ (fragsBytes fs).length := by
  cases fs with
  | nil => exact Nat.zero_le _
  | cons f fs =>
    rw [fragsBytes_length, fragsSize_cons]
    exact Nat.le_add_right _ _

theorem SkBuff.headLen_le (skb : SkBuff) : skb.headLen ≤ skb.bytes.length := by
  have hfrag := headD_le_bytes skb.frags
  rw [SkBuff.bytes, List.length_append, List.length_append, SkBuff.headLen]
  split
  · omega
  · omega

/-- The data pointer reads the bytes of the buffer, as far as they lie in one piece. -/
theorem dataPtr_head {skb : SkBuff} (h : skb.Coherent) {i : ℕ} (hi : i < skb.headLen) :
    rmnetMapDataPtr skb i = skb.bytes.getD i 0 := by
  have hlen := h.len_eq
  have hdata := h.dataLen_eq
  have hle := skb.headLen_le
  unfold rmnetMapDataPtr
  by_cases hz : skb.linear.length = 0
  · have hnil : skb.linear = [] := List.length_eq_zero_iff.mp hz
    rw [SkBuff.headLen, if_pos hz] at hi hle
    cases hf : skb.frags with
    | nil =>
      rw [hf] at hi
      cases hi
    | cons f fs =>
      rw [hf] at hi hle
      have hif : i < f.size := hi
      have hfle : f.size ≤ skb.bytes.length := hle
      have hpage : skb.nonlinear = true ∧ skb.len = skb.dataLen := by
        rw [SkBuff.nonlinear]
        exact ⟨decide_eq_true (by omega), by omega⟩
      simp only [if_pos hpage]
      rw [SkBuff.bytes, hnil, hf, fragsBytes_cons, List.nil_append, List.append_assoc,
        List.getD_append _ _ _ _ (by rw [SkbFrag.bytes_length]; exact hif)]
      simp [SkbFrag.bytes, List.getD, hif]
  · rw [SkBuff.headLen, if_neg hz] at hi
    have hlin : skb.linear.length ≤ skb.bytes.length := by
      rw [SkBuff.bytes, List.length_append, List.length_append]
      omega
    have hread : skb.linear.getD i 0 = skb.bytes.getD i 0 := by
      rw [SkBuff.bytes, List.append_assoc, List.getD_append _ _ _ _ hi]
    cases skb.frags with
    | nil => exact hread
    | cons f fs =>
      simp only
      rw [if_neg (fun hp => by omega)]
      exact hread

theorem memBytes_head {skb : SkBuff} (h : skb.Coherent) {off n : ℕ} (hn : off + n ≤ skb.headLen) :
    memBytes (rmnetMapDataPtr skb) off n = (skb.bytes.drop off).take n := by
  have hle := skb.headLen_le
  apply List.ext_getElem
  · simp only [memBytes, List.length_map, List.length_range, List.length_take, List.length_drop]
    omega
  · intro i h₁ h₂
    have hi : i < n := by simpa [memBytes] using h₁
    simp only [memBytes, List.getElem_map, List.getElem_range, List.getElem_take, List.getElem_drop]
    rw [dataPtr_head h (by omega), List.getD_eq_getElem _ _ (by omega)]

theorem byteAt_memBytes_head {skb : SkBuff} (h : skb.Coherent) {off n i : ℕ} (hi : i < n)
    (hhead : off + i < skb.headLen) :
    byteAt (memBytes (rmnetMapDataPtr skb) off n) i = byteAt skb.bytes (off + i) := by
  rw [byteAt, byteAt, ← dataPtr_head h hhead]
  simp [memBytes, List.getD, hi]

theorem be16At_memBytes_head {skb : SkBuff} (h : skb.Coherent) {off n i : ℕ} (hi : i + 1 < n)
    (hhead : off + i + 1 < skb.headLen) :
    be16At (memBytes (rmnetMapDataPtr skb) off n) i = be16At skb.bytes (off + i) := by
  rw [be16At, be16At, byteAt_memBytes_head h (by omega) (by omega), byteAt_memBytes_head h hi (by omega),
    Nat.add_assoc off]

/-- `pskb_pull` of a part of the piece. -/
theorem pskbPull_head {skb : SkBuff} (h : skb.Coherent) {n : ℕ} (hn : n ≤ skb.headLen) :
    (pskbPull skb n).Coherent ∧ (pskbPull skb n).bytes = skb.bytes.drop n ∧
      skb.headLen ≤ (pskbPull skb n).headLen + n := by
  have hle := skb.headLen_le
  have hlen := h.len_eq
  have hdata := h.dataLen_eq
  have hlt := h.len_lt
  have hbytes : (pskbPull skb n).bytes = skb.bytes.drop n := by
    unfold pskbPull
    rw [if_neg (by omega)]
    simp only [SkBuff.bytes]
    rw [pullFrags_bytes, List.append_assoc, List.append_assoc, List.drop_append]
    by_cases hz : skb.linear.length = 0
    · rw [SkBuff.headLen, if_pos hz] at hn
      have hfrag := headD_le_bytes skb.frags
      rw [List.drop_append_of_le_length (by omega)]
    · rw [SkBuff.headLen, if_neg hz] at hn
      rw [Nat.sub_eq_zero_of_le hn, List.drop_zero, List.drop_zero]
  have hlen' : (pskbPull skb n).len = skb.len - n := by
    rw [pskbPull, if_neg (by omega)]
  have hdata' : (pskbPull skb n).dataLen = skb.dataLen - (n - skb.linear.length) := by
    rw [pskbPull, if_neg (by omega)]
  have hlin' : (pskbPull skb n).linear.length = skb.linear.length - n := by
    rw [pskbPull, if_neg (by omega)]
    exact List.length_drop
  refine ⟨⟨?_, ?_, by omega⟩, hbytes, ?_⟩
  · rw [hbytes, List.length_drop]
    omega
  · have hall : skb.linear.length ≤ skb.bytes.length := by
      rw [SkBuff.bytes, List.length_append, List.length_append]
      omega
    omega
  · rw [SkBuff.headLen, SkBuff.headLen, hlin']
    by_cases hz : skb.linear.length = 0
    · rw [if_pos hz, if_pos (by omega)]
      have hrest : n - skb.linear.length = n := by omega
      have hhead := pullFrags_headD skb.frags n skb.dataLen
      rw [pskbPull, if_neg (by omega)]
      simp only [hrest]
      exact hhead
    · rw [if_neg hz]
      split
      · omega
      · omega

theorem pskbPullTail_bytes (skb : SkBuff) (delta : ℕ) : (pskbPullTail skb delta).bytes = skb.bytes := by
  unfold pskbPullTail
  simp only [SkBuff.bytes]
  rw [pullFrags_bytes, List.append_assoc skb.linear, List.take_append_drop]

/-- Moving the headers leaves the packet alone. -/
theorem rmnetMapMoveHeaders_bytes (skipExthdr : Bytes → ℕ → ℕ → SkipExthdr) (skb : SkBuff) :
    (rmnetMapMoveHeaders skipExthdr skb).bytes = skb.bytes := by
  unfold rmnetMapMoveHeaders
  simp only
  split
  · rfl
  · split
    · split
      · exact pskbPullTail_bytes _ _
      · exact pskbPullTail_bytes _ _
    · split
      · exact pskbPullTail_bytes _ _
      · rfl

/-- What the header checks read of a packet: the IP header and the fixed part of the transport header. -/
def CoalMeta.readLen (m : CoalMeta) : ℕ := m.ipLen + transFixed m.transProto

/-- A coalesced frame as a buffer: QMAP and coalescing header `hd`, then the packet `ip`.  What the code reads
through the data pointer, the headers, lies in one piece there. -/
structure CoalSkb (skb : SkBuff) (m : CoalMeta) (hd ip : Bytes) : Prop where
  coherent : skb.Coherent
  bytes : skb.bytes = hd ++ ip
  hd_length : hd.length = mapHeaderSize + v5CoalHeaderSize
  ip_length : ip.length < 65536
  head : hd.length + m.readLen ≤ skb.headLen

/-- A buffer without fragments is in one piece. -/
theorem coalSkb_linear {m : CoalMeta} {hd ip : Bytes} (hhd : hd.length = mapHeaderSize + v5CoalHeaderSize)
    (hip : ip.length < 65536) (hm : m.Measures ip) : CoalSkb (linearSkb (hd ++ ip)) m hd ip := by
  have hl : hd.length = 32 := hhd
  have hne : (hd ++ ip).length ≠ 0 := by
    rw [List.length_append]
    omega
  have hhead : (linearSkb (hd ++ ip)).headLen = (hd ++ ip).length := if_neg hne
  refine ⟨⟨?_, ?_, ?_⟩, linearSkb_bytes _, hhd, hip, ?_⟩
  · rw [linearSkb_len, linearSkb_bytes]
  · exact (Nat.sub_self _).symm
  · rw [linearSkb_len, List.length_append]
    omega
  · rw [hhead, List.length_append, CoalMeta.readLen, transFixed]
    rcases hm.proto with hp | hp
    · have := hm.tcp hp
      rw [if_pos hp]
      omega
    · have := (hm.udp hp).1
      rw [if_neg (by rw [hp]; decide)]
      omega

section Linear

variable {skb : SkBuff} {m : CoalMeta} {hd ip : Bytes} {skipExthdr : Bytes → ℕ → ℕ → SkipExthdr}

/-- The buffer after the two headers are pulled. -/
theorem CoalSkb.pulled (h : CoalSkb skb m hd ip) :
    let skb₁ := pskbPull skb mapHeaderSize
    let skb₂ := pskbPull skb₁ v5CoalHeaderSize
    memBytes (rmnetMapDataPtr skb₁) 0 v5CoalHeaderSize = hd.drop mapHeaderSize ∧
      skb₂.Coherent ∧ skb₂.bytes = ip ∧ m.readLen ≤ skb₂.headLen := by
  intro skb₁ skb₂
  have hl : hd.length = 32 := h.hd_length
  have hhead := h.head
  have hdrop : (hd.drop mapHeaderSize).length = v5CoalHeaderSize := by
    rw [List.length_drop, hl]
    rfl
  obtain ⟨hc₁, hb₁, hh₁⟩ := pskbPull_head h.coherent (n := mapHeaderSize) (by show 4 ≤ _; omega)
  have hb₁' : skb₁.bytes = hd.drop mapHeaderSize ++ ip := by
    rw [show skb₁.bytes = _ from hb₁, h.bytes, List.drop_append_of_le_length (by rw [hl]; decide)]
  have hh₁' : 28 + m.readLen ≤ skb₁.headLen := by
    have h4 : skb.headLen ≤ skb₁.headLen + 4 := hh₁
    omega
  obtain ⟨hc₂, hb₂, hh₂⟩ := pskbPull_head hc₁ (n := v5CoalHeaderSize) (by show 28 ≤ skb₁.headLen; omega)
  refine ⟨?_, hc₂, ?_, ?_⟩
  · rw [memBytes_head hc₁ (by show 0 + 28 ≤ skb₁.headLen; omega), hb₁', List.drop_zero, ← hdrop, List.take_left]
  · rw [show skb₂.bytes = _ from hb₂, hb₁', ← hdrop, List.drop_left]
  · have h28 : skb₁.headLen ≤ skb₂.headLen + 28 := hh₂
    omega

/-- The linear path up to the branch on the coalescing header. -/
theorem CoalSkb.segment_measured (h : CoalSkb skb m hd ip)
    (hskip : byteAt ip 0 / 16 = 6 → ∀ b start nexthdr r, ipv6SkipExthdr b start nexthdr = some r →
      skipExthdr b start nexthdr = r)
    (hm : coalMeta ip = some m) (h20 : 20 ≤ m.ipLen) (port : RmnetPort) (dev : NetDevice) (mask : ℕ)
    (list : List SkBuff) :
    ∃ skb₂, skb₂.bytes = ip ∧ 20 ≤ skb₂.headLen ∧ skb₂.Coherent ∧
      rmnetMapSegmentCoalSkb skipExthdr port dev skb mask list
        = mapSegmentMeasured skipExthdr port dev skb₂ (coalHeaderOf hd) mask
            (emissionMeta m (rmnetMapDataPtr skb₂) ⟨0, 0, 0, 0, false⟩) (dev.groHw && m.plain) m.zeroCsum
            list := by
  obtain ⟨hhdr, hc, hb, hread⟩ := h.pulled
  have hroom : m.ipLen + transFixed m.transProto ≤ _ := hread
  have hfixed : transFixed m.transProto ≤ 20 := by
    unfold transFixed
    split
    · omega
    · omega
  refine ⟨_, hb, by omega, hc, mapSegmentCoalSkb_measured hskip port dev hhdr rfl hb ?_ hm ?_ mask list⟩
  · intro i hi
    rw [byteAt_memBytes_head hc (by omega) (by omega), hb, Nat.zero_add]
  · intro i hi
    rw [byteAt_memBytes_head hc (by omega) (by omega), hb]

/-! ### The identification of a new buffer -/

/-- A field before the place of a write. -/
theorem be16At_overwrite_before (b c xs : Bytes) {i j : ℕ} (hj : j + 2 ≤ i) :
    be16At (overwrite b i xs ++ c) j = be16At (b ++ c) j := by
  have hbyte : ∀ k < i, byteAt (overwrite b i xs ++ c) k = byteAt (b ++ c) k := by
    intro k hk
    by_cases hlt : k < b.length
    · rw [byteAt_append_left _ (by rw [overwrite_length]; exact hlt), byteAt_append_left _ hlt,
        byteAt_overwrite _ _ _ hlt, if_neg (by omega)]
    · obtain ⟨n, rfl⟩ : ∃ n, k = b.length + n := ⟨k - b.length, by omega⟩
      have hover := byteAt_append_right (overwrite b i xs) c n
      rw [overwrite_length] at hover
      rw [hover, byteAt_append_right]
  rw [be16At, be16At, hbyte j (by omega), hbyte (j + 1) (by omega)]

theorem segmentNetwork_id {c : CoalMetadata} {hdr : Bytes} (h4 : c.ipProto = 4) (hlen : 20 ≤ hdr.length)
    (len : ℕ) : be16At (segmentNetwork c hdr len) 4 = u16 (be16At hdr 4 + c.pktId) := by
  unfold segmentNetwork
  rw [if_pos h4]
  simp only
  rw [be16At_overwrite_of_disjoint (by simp only [overwrite_length]; omega) (.inr (by omega)),
    be16At_overwrite_of_disjoint (by simp only [overwrite_length]; omega) (.inr (by omega)),
    be16At_overwrite_of_disjoint (by simp only [overwrite_length]; omega) (.inl (by rw [be16_length])),
    be16At_overwrite_self (by omega)]
  rfl

/-- Rewriting the checksum leaves the identification alone. -/
theorem checksum_id (skb : SkBuff) (c : CoalMetadata) (h20 : 20 ≤ c.ipLen) :
    (rmnetMapPartialCsum skb c).ipv4Id = skb.ipv4Id ∧ (mapBadCsum skb c).ipv4Id = skb.ipv4Id := by
  constructor
  · unfold rmnetMapPartialCsum SkBuff.ipv4Id SkBuff.bytes
    simp only [List.append_assoc]
    exact be16At_overwrite_before _ _ _ (by omega)
  · unfold mapBadCsum SkBuff.ipv4Id
    simp only [SkBuff.bytes, List.append_assoc]
    rw [be16At_overwrite_before _ _ _ (by omega), be16At_overwrite_before _ _ _ (by omega)]

/-- **The identification of a new buffer** is counted on by the packet id. -/
theorem segmentSkb_id (hc : skb.Coherent) (hb : skb.bytes = ip) (hhead : 20 ≤ skb.headLen) (h4 : m.ipProto = 4)
    (h20 : 20 ≤ m.ipLen) (e : Emission) :
    (segmentSkb skb (emissionMeta m (rmnetMapDataPtr skb) e) e.csum).ipv4Id
      = u16 (be16At ip 4 + e.pktId) := by
  set c := emissionMeta m (rmnetMapDataPtr skb) e with hcdef
  set hdr := memBytes c.ipHeader 0 c.ipLen with hhdr
  have hl : hdr.length = m.ipLen := by
    rw [hhdr, memBytes, List.length_map, List.length_range]
    rfl
  have hid : be16At hdr 4 = be16At ip 4 := by
    rw [← hb, hhdr]
    show be16At (memBytes (rmnetMapDataPtr skb) 0 m.ipLen) 4 = _
    rw [be16At_memBytes_head hc (by omega) (by omega)]
  -- the buffer behind the IP header does not matter
  have hraw : ∀ (s : SkBuff) (len : ℕ),
      (s.pushHeader (segmentNetwork c hdr len)).ipv4Id = u16 (be16At ip 4 + e.pktId) := by
    intro s len
    have hlen : (segmentNetwork c hdr len).length = m.ipLen := by
      rw [segmentNetwork_length, hl]
    rw [SkBuff.ipv4Id, SkBuff.bytes, SkBuff.pushHeader, List.append_assoc, List.append_assoc,
      be16At_append_left _ (by omega), segmentNetwork_id h4 (by omega), hid]
    rfl
  unfold segmentSkb
  simp only [← hhdr]
  have hstamp : ∀ s : SkBuff, (if 1 < c.pktCount then rmnetMapGsoStamp s c else s).ipv4Id = s.ipv4Id := by
    intro s
    split
    · rfl
    · rfl
  rw [hstamp]
  split
  · rw [(checksum_id _ c h20).1]
    exact hraw _ _
  · split
    · rw [(checksum_id _ c h20).2]
      exact hraw _ _
    · exact hraw _ _

/-- The number of packets of a new buffer. -/
theorem segmentSkb_packets (skb : SkBuff) (c : CoalMetadata) (csum : Bool) (hpos : 1 ≤ c.pktCount) :
    (segmentSkb skb c csum).packets = c.pktCount := by
  have hcopy : (rmnetMapNonlinearCopy skb c { linear := [], len := 0 }).gsoSegs = 0 := by
    unfold rmnetMapNonlinearCopy
    simp only
    split
    · split
      · rfl
      · rfl
    · rfl
  unfold segmentSkb SkBuff.packets
  simp only
  by_cases hone : 1 < c.pktCount
  · rw [if_pos hone]
    show (if c.pktCount = 0 then 1 else c.pktCount) = _
    rw [if_neg (by omega)]
  · have hzero : ∀ s : SkBuff, s.gsoSegs = 0 → (if s.gsoSegs = 0 then 1 else s.gsoSegs) = c.pktCount := by
      intro s hs
      rw [if_pos hs]
      omega
    rw [if_neg hone]
    split
    · exact hzero _ hcopy
    · split
      · exact hzero _ hcopy
      · exact hzero _ hcopy

end Linear

/-! ### Both paths -/

/-- Every emission has packets. -/
theorem plan_segs_pos (gro : Bool) (hlen : ℕ) (pairs : List NlPair) (mask : ℕ) :
    ∀ e ∈ (segmentPlan gro hlen pairs mask).out, 1 ≤ e.segs := by
  obtain ⟨bs, -, hout, -, hkind⟩ := plan_batches gro hlen pairs mask
  have hpos : ∀ b ∈ bs, 1 ≤ b.segs := by
    cases gro with
    | false =>
      intro b hb
      exact (hkind b hb).ge
    | true => exact hkind.pos
  intro e he
  have hmem : (e.segs, e.csum) ∈ bs.map fun b => (b.segs, !b.pkt.err) := by
    rw [← emission_kinds hout]
    exact List.mem_map_of_mem (f := fun e : Emission => (e.segs, e.csum)) he
  obtain ⟨b, hb, heq⟩ := List.mem_map.mp hmem
  have hsegs := congrArg Prod.fst heq
  simp only at hsegs
  rw [← hsegs]
  exact hpos b hb

/-- The fragment path passes the frame on as it is. -/
theorem segmentCoalData_fast (port : RmnetPort) {frags : List SkbFrag} {hd ip : Bytes}
    (h : CoalFrame frags hd ip) (a : ℕ) (dev : NetDevice) {m : CoalMeta} (hm : coalMeta ip = some m)
    (mask : ℕ) (list : List RmnetFragDescriptor)
    (hbuggy : (rmnetMapV5CsumBuggy (coalHeaderOf hd) && !m.zeroCsum) = false)
    (hfast : (dev.groHw && m.plain && (coalHeaderOf hd).numNlos = 1 && (coalHeaderOf hd).csumValid) = true) :
    ∃ frags', fragsBytes frags' = ip ∧
      (rmnetFragSegmentCoalData port (frameDesc a frags dev) mask list).list
        = list ++ [({ measuredDesc a frags' dev m with csumValid := true } : RmnetFragDescriptor).asOneRun
            ((coalHeaderOf hd).nlPairs.headD ⟨0, 0, 0⟩)] := by
  obtain ⟨frags', stats, hb, heq⟩ := segmentCoalData_measured port h a dev hm mask list
  refine ⟨frags', hb, ?_⟩
  rw [heq]
  unfold segmentMeasured
  rw [if_neg (by rw [hbuggy]; exact Bool.false_ne_true), if_pos hfast]
  rfl

/-- The linear path passes the frame on as it is. -/
theorem mapSegmentMeasured_fast (skipExthdr : Bytes → ℕ → ℕ → SkipExthdr) (port : RmnetPort) (dev : NetDevice)
    (skb : SkBuff) (hd : Bytes) {c : CoalMetadata} (h20 : 20 ≤ c.ipLen) (mask : ℕ) {gro zeroCsum : Bool}
    (hbuggy : (rmnetMapV5CsumBuggy (coalHeaderOf hd) && !zeroCsum) = false)
    (hfast : (gro && (coalHeaderOf hd).numNlos = 1 && (coalHeaderOf hd).csumValid) = true) :
    ∃ s, (mapSegmentMeasured skipExthdr port dev skb (coalHeaderOf hd) mask c gro zeroCsum []).list = [s] ∧
      s.ipv4Id = be16At skb.bytes 4 := by
  have hmoved : ({ rmnetMapMoveHeaders skipExthdr skb with ipSummed := .checksumUnnecessary } : SkBuff).ipv4Id
      = be16At skb.bytes 4 := by
    rw [← rmnetMapMoveHeaders_bytes skipExthdr skb]
    rfl
  unfold mapSegmentMeasured
  rw [if_neg (by rw [hbuggy]; exact Bool.false_ne_true), if_pos hfast]
  refine ⟨_, rfl, ?_⟩
  split
  · show (rmnetMapPartialCsum _ _).ipv4Id = _
    exact (checksum_id _ _ h20).1.trans hmoved
  · exact hmoved

/-- The identifications of the descriptors of emissions. -/
theorem segDescs_ids {coal : RmnetFragDescriptor} {m : CoalMeta} {descs : List RmnetFragDescriptor}
    {es : List Emission} (h : List.Forall₂ (fun d e => ∃ b, d = segDesc coal m b e) descs es) (h4 : m.ipProto = 4) :
    descs.map (fun desc => (desc.ipv4Id, desc.gsoSegs))
      = es.map fun e => (u16 (be16At coal.bytes 4 + e.pktId), e.segs) := by
  induction h with
  | nil => rfl
  | @cons d e ds es hd _ ih =>
    obtain ⟨b, rfl⟩ := hd
    have hid : (segDesc coal m b e).ipv4Id = u16 (be16At coal.bytes 4 + e.pktId) := by
      simp [RmnetFragDescriptor.ipv4Id, segDesc, h4]
    rw [List.map_cons, List.map_cons, ih, hid]
    rfl

/-- Every IPv4 identification is right: GRO is off for the frame because of IP options, or the frame is passed
on as it is, or nothing follows a good run. -/
def IdsKept (m : CoalMeta) (hd : Bytes) (mask : ℕ) : Prop :=
  m.plain = false ∨ ((coalHeaderOf hd).numNlos = 1 ∧ (coalHeaderOf hd).csumValid = true) ∨
    GoodRunLast (framePackets m.hlen 0 (framePairs hd) mask)

end Rmnet
