import Rmnet.Frag.Deaggregate
import Rmnet.Linear.Segment

/-!
# De-aggregation of linear buffers

`rmnet_map_deaggregate` copies the packet at the front of a received buffer into a new one and pulls it
off the old one; its caller goes on until it returns `NULL`.  It has rules of its own for the length of a
packet, tests a frame for truncation before it tests it for emptiness, and reads a header before it knows
that the buffer holds one: `behind` is what memory holds after the linear part.

* `mapDeaggregate_packet`, `mapDeaggregate_null` — one call cuts off the packet of the reference parser
  `qmapSize`, or returns `NULL` where that parser finds none.
* `deaggregations_agree` — the two de-aggregations yield the same packets from the same bytes.
-/

namespace Rmnet

open Word Field

/-! ### The code -/

/-- `rmnet_map_data_ptr` again, over a memory that goes on behind the linear part. -/
def mapDataMem (behind : ℕ → UInt8) (skb : SkBuff) : ℕ → UInt8 :=
  let linear := fun i => if i < skb.linear.length then skb.linear.getD i 0 else behind (i - skb.linear.length)
  match skb.frags with
  | frag₀ :: _ =>
      if skb.nonlinear ∧ skb.len = skb.dataLen then fun i => frag₀.page (frag₀.off + i) else linear
  | [] => linear

/-- What `rmnet_map_deaggregate` returns: `NULL`, the buffer it was called with, or a new buffer, with
what it left of the old one. -/
inductive Deaggregated
  | null
  | same
  | packet (skbn skb : SkBuff)

/-- `next_hdr` is set: a data frame is expected to have a v5 header. -/
def mapNextHdr (dataFormat : ℕ) (maph : MapHeader) : Bool :=
  !ingressMapCksumv4 dataFormat && ingressMapCksumv5 dataFormat && !maph.cdBit

/-- `packet_len`. -/
def mapPacketLen (dataFormat : ℕ) (maph : MapHeader) : ℕ :=
  let packetLen := maph.pktLen + mapHeaderSize
  if ingressMapCksumv4 dataFormat then packetLen + dlCsumTrailerSize
  else if mapNextHdr dataFormat maph then packetLen + v5CsumHeaderSize
  else packetLen

/-- The buffer of `rmnet_map_deaggregate` for the packet. -/
def mapPacketSkb (data : ℕ → UInt8) (skb : SkBuff) (packetLen : ℕ) : SkBuff :=
  if skb.nonlinear then
    { linear := []
      frags := (skb.frags.take 1).map fun frag₀ => frag₀.slice 0 packetLen
      len := packetLen
      dataLen := packetLen }
  else { linear := memBytes data 0 packetLen, len := packetLen }

/-- `rmnet_map_deaggregate`. -/
def rmnetMapDeaggregate (behind : ℕ → UInt8) (port : RmnetPort) (skb : SkBuff) : RmnetPort × Deaggregated :=
  let data := mapDataMem behind skb
  let maph := MapHeader.parse (memBytes data 0 mapHeaderSize)
  let packetLen := mapPacketLen port.dataFormat maph
  if skb.len = 0 then (port, .null)
  -- the sign of an `int` difference
  else if 2147483648 ≤ sub32 skb.len packetLen then (port, .null)
  else if maph.pktLen = 0 then (port, .null)
  else if mapNextHdr port.dataFormat maph ∧ byteAt (memBytes data mapHeaderSize 1) 0 / 2 = headerTypeCoalescing
  then (port, .same)
  else
    match port.kalloc with
    | (false, port) => (port, .null)
    | (true, port) => (port, .packet (mapPacketSkb data skb packetLen) (pskbPull skb packetLen))

/-- The loop over `rmnet_map_deaggregate` of `rmnet_map_ingress_handler`: the buffers that it hands on.
`none` is running out of fuel. -/
def mapDeaggregateLoop (behind : ℕ → UInt8) : ℕ → RmnetPort → SkBuff → Option (RmnetPort × List SkBuff)
  | 0, _, _ => none
  | fuel + 1, port, skb =>
      match rmnetMapDeaggregate behind port skb with
      | (port, .null) => some (port, [])
      | (port, .same) => some (port, [skb])
      | (port, .packet skbn skb) =>
          (mapDeaggregateLoop behind fuel port skb).map fun r => (r.1, skbn :: r.2)

/-! ### What a linear buffer holds -/

/-- The data of a linear buffer.  Its length is compared as an `int`. -/
structure LinearData where
  bytes : Bytes
  short : bytes.length < 2147483648

/-- What a packet leaves behind it. -/
def LinearData.drop (s : LinearData) (n : ℕ) : LinearData where
  bytes := s.bytes.drop n
  short := by
    have := s.short
    rw [List.length_drop]
    omega

/-- The memory from a linear buffer on: its bytes, then what lies behind them. -/
theorem mapDataMem_linear (behind : ℕ → UInt8) (b : Bytes) {i : ℕ} (h : i < b.length) :
    mapDataMem behind (linearSkb b) i = b.getD i 0 := by
  simp [mapDataMem, linearSkb, h]

theorem memBytes_dataMem (behind : ℕ → UInt8) {b : Bytes} {off n : ℕ} (h : off + n ≤ b.length) :
    memBytes (mapDataMem behind (linearSkb b)) off n = (b.drop off).take n := by
  apply List.ext_getElem
  · simp [memBytes]
    omega
  · intro i h₁ h₂
    have hi : i < n := by simpa [memBytes] using h₁
    simp [memBytes, mapDataMem_linear behind b (show off + i < b.length by omega),
      show off + i < b.length by omega]

/-- The header that the code reads is the one in the buffer, if that has one. -/
theorem header_dataMem (behind : ℕ → UInt8) {b : Bytes} (h : 4 ≤ b.length) :
    MapHeader.parse (memBytes (mapDataMem behind (linearSkb b)) 0 mapHeaderSize) = MapHeader.parse b := by
  rw [memBytes_dataMem behind (by rw [mapHeaderSize]; omega), List.drop_zero, MapHeader.parse_take]

/-! ### The two rules for the length of a packet -/

/-- The packet at the front of `s`, if it is a data packet that is all there, has a checksum-offload header. -/
def CarriesCsumOffload (s : Bytes) : Prop :=
  (MapHeader.parse s).cdBit = false → (MapHeader.parse s).pktLen ≠ 0 →
    mapHeaderSize + (MapHeader.parse s).pktLen ≤ s.length →
    (V5CsumHeader.parse (s.drop mapHeaderSize)).headerType = headerTypeCsumOffload

/-- The places of a byte string that the parser comes to. -/
inductive Reached (dataFormat : ℕ) (s : Bytes) : Bytes → Prop
  | start : Reached dataFormat s s
  | next {t : Bytes} {n : ℕ} : Reached dataFormat s t → qmapSize dataFormat t = some n → n ≤ t.length →
      Reached dataFormat s (t.drop n)

theorem Reached.of_drop {dataFormat : ℕ} {s t : Bytes} {n : ℕ} (hsize : qmapSize dataFormat s = some n)
    (hfit : n ≤ s.length) (h : Reached dataFormat (s.drop n) t) : Reached dataFormat s t := by
  induction h with
  | start => exact .next .start hsize hfit
  | next _ hn hle ih => exact .next ih hn hle

/-- The formats for which the two de-aggregations use the same length of a packet: no v5 headers at all, or
a checksum-offload header in every data packet. -/
def SameLengths (dataFormat : ℕ) (s : Bytes) : Prop :=
  (ingressMapCksumv5 dataFormat = false ∧ ingressCoalesce dataFormat = false) ∨
    (ingressMapCksumv5 dataFormat = true ∧ ingressMapCksumv4 dataFormat = false ∧
      ∀ t, Reached dataFormat s t → CarriesCsumOffload t)

theorem SameLengths.drop {dataFormat : ℕ} {s : Bytes} {n : ℕ} (h : SameLengths dataFormat s)
    (hsize : qmapSize dataFormat s = some n) (hfit : n ≤ s.length) : SameLengths dataFormat (s.drop n) := by
  rcases h with h | ⟨hv5, hv4, hall⟩
  · exact .inl h
  · exact .inr ⟨hv5, hv4, fun t ht => hall t (ht.of_drop hsize hfit)⟩

/-- The code's length is the reference's for a packet that has its `pkt_len` bytes. -/
theorem mapPacketLen_eq {dataFormat : ℕ} {s : Bytes} (h : SameLengths dataFormat s)
    (hz : (MapHeader.parse s).pktLen ≠ 0) (hfit : mapHeaderSize + (MapHeader.parse s).pktLen ≤ s.length) :
    qmapSize dataFormat s = some (mapPacketLen dataFormat (MapHeader.parse s)) ∧
      (mapNextHdr dataFormat (MapHeader.parse s) = true → byteAt s 4 / 2 = headerTypeCsumOffload) := by
  rw [mapHeaderSize] at hfit
  unfold qmapSize mapPacketLen mapNextHdr
  simp only [mapHeaderSize, dlCsumTrailerSize, v5CsumHeaderSize]
  rw [if_neg (by omega)]
  rcases h with ⟨hv5, hco⟩ | ⟨hv5, hv4, hall⟩
  · simp only [hv5, hco]
    cases ingressMapCksumv4 dataFormat <;> simp <;> omega
  · have hcarry := hall s .start
    cases hcd : (MapHeader.parse s).cdBit with
    | true =>
      simp [hv5, hv4]
      omega
    | false =>
      have htype : byteAt s 4 / 2 = headerTypeCsumOffload := by
        have := hcarry hcd hz (by rw [mapHeaderSize]; omega)
        rwa [V5CsumHeader.parse, mapHeaderSize, byteAt_drop] at this
      have hv5size : v5HeaderSize (byteAt s 4) = 4 := by
        unfold v5HeaderSize
        rw [htype]
        rfl
      simp only [hv5, hv4, hv5size, htype, Bool.false_eq_true, if_false, Bool.true_or, Bool.not_false,
        Bool.and_self, if_true, implies_true, and_true]
      rw [if_neg (by omega)]
      congr 1
      omega

/-- A packet without its `pkt_len` bytes is cut off by neither. -/
theorem mapPacketLen_ge (dataFormat : ℕ) (maph : MapHeader) :
    mapHeaderSize + maph.pktLen ≤ mapPacketLen dataFormat maph ∧
      mapPacketLen dataFormat maph ≤ maph.pktLen + 12 := by
  unfold mapPacketLen
  simp only [mapHeaderSize, dlCsumTrailerSize, v5CsumHeaderSize]
  split
  · omega
  · split <;> omega

theorem qmapSize_ge {dataFormat : ℕ} {s : Bytes} {n : ℕ} (h : qmapSize dataFormat s = some n) :
    4 ≤ s.length ∧ (MapHeader.parse s).pktLen ≠ 0 ∧ mapHeaderSize + (MapHeader.parse s).pktLen ≤ n := by
  unfold qmapSize at h
  simp only [mapHeaderSize] at h ⊢
  split at h
  · cases h
  · rename_i hfront
    refine ⟨by omega, by omega, ?_⟩
    split at h
    · have := Option.some.inj h
      omega
    · split at h
      · split at h
        · cases h
        · have := Option.some.inj h
          omega
      · have := Option.some.inj h
        omega

/-! ### One call -/

/-- The difference of two lengths has its sign bit set just when it is negative. -/
theorem sub32_negative {a b : ℕ} (ha : a < 2147483648) (hb : b < 2147483648) :
    2147483648 ≤ sub32 a b ↔ a < b := by
  unfold sub32 u32
  omega

theorem MapHeader.parse_pktLen_lt (b : Bytes) : (MapHeader.parse b).pktLen < 65536 := be16At_lt b 2

/-- Nothing to cut off at the front: the call returns `NULL`. -/
theorem mapDeaggregate_null (behind : ℕ → UInt8) (port : RmnetPort) (s : LinearData)
    (hfmt : SameLengths port.dataFormat s.bytes)
    (h : ∀ n, qmapSize port.dataFormat s.bytes = some n → s.bytes.length < n) :
    rmnetMapDeaggregate behind port (linearSkb s.bytes) = (port, .null) := by
  have hshort := s.short
  unfold rmnetMapDeaggregate
  simp only
  by_cases hz : (linearSkb s.bytes).len = 0
  · rw [if_pos hz]
  rw [if_neg hz]
  have hlt := MapHeader.parse_pktLen_lt (memBytes (mapDataMem behind (linearSkb s.bytes)) 0 mapHeaderSize)
  have hheader := fun h => header_dataMem behind (b := s.bytes) h
  generalize MapHeader.parse (memBytes (mapDataMem behind (linearSkb s.bytes)) 0 mapHeaderSize) = maph
    at hlt hheader ⊢
  obtain ⟨hge, hle⟩ := mapPacketLen_ge port.dataFormat maph
  have hsign : 2147483648 ≤ sub32 (linearSkb s.bytes).len (mapPacketLen port.dataFormat maph) ↔
      s.bytes.length < mapPacketLen port.dataFormat maph := by
    rw [linearSkb_len]
    exact sub32_negative hshort (by omega)
  by_cases hneg : s.bytes.length < mapPacketLen port.dataFormat maph
  · rw [if_pos (hsign.mpr hneg)]
  · rw [if_neg (fun hc => hneg (hsign.mp hc))]
    -- a header that is not cut short lies in the buffer, whatever memory holds behind it
    have hmaph : maph = MapHeader.parse s.bytes := hheader (by rw [mapHeaderSize] at hge; omega)
    by_cases hpkt : maph.pktLen = 0
    · rw [if_pos hpkt]
    · subst hmaph
      have hsize := (mapPacketLen_eq hfmt hpkt (by omega)).1
      exact absurd (h _ hsize) hneg

/-- A packet that is all there and not coalesced is cut off. -/
theorem mapDeaggregate_cut (behind : ℕ → UInt8) {port : RmnetPort} (halloc : port.AllocOk) (s : LinearData)
    {n : ℕ} (hn : mapPacketLen port.dataFormat (MapHeader.parse s.bytes) = n)
    (hz : (MapHeader.parse s.bytes).pktLen ≠ 0) (hfit : n ≤ s.bytes.length)
    (htype : mapNextHdr port.dataFormat (MapHeader.parse s.bytes) = true →
      byteAt s.bytes 4 / 2 ≠ headerTypeCoalescing) :
    rmnetMapDeaggregate behind port (linearSkb s.bytes)
      = (port, .packet (linearSkb (s.bytes.take n)) (linearSkb (s.bytes.drop n))) := by
  have hshort := s.short
  have hlt := MapHeader.parse_pktLen_lt s.bytes
  obtain ⟨hge, hle⟩ := mapPacketLen_ge port.dataFormat (MapHeader.parse s.bytes)
  rw [hn, mapHeaderSize] at hge
  rw [hn] at hle
  have hnotcoal : ¬ (mapNextHdr port.dataFormat (MapHeader.parse s.bytes) = true ∧
      byteAt (memBytes (mapDataMem behind (linearSkb s.bytes)) mapHeaderSize 1) 0 / 2 = headerTypeCoalescing) := by
    rintro ⟨hnext, hcoal⟩
    rw [memBytes_dataMem behind (by rw [mapHeaderSize]; omega), byteAt_take (by omega), byteAt_drop,
      mapHeaderSize] at hcoal
    exact htype hnext hcoal
  have hsign : ¬ 2147483648 ≤ sub32 (linearSkb s.bytes).len n := by
    rw [linearSkb_len, sub32_negative hshort (by omega)]
    omega
  unfold rmnetMapDeaggregate
  simp only [header_dataMem behind (show 4 ≤ s.bytes.length by omega), hn]
  rw [if_neg (by rw [linearSkb_len]; omega), if_neg hsign, if_neg hz, if_neg hnotcoal, kalloc_of_allocOk halloc]
  simp only [pskbPull_linear hfit, mapPacketSkb, linearSkb_nonlinear, Bool.false_eq_true, if_false]
  rw [memBytes_dataMem behind (by omega), List.drop_zero]
  simp only [linearSkb, List.length_take, Nat.min_eq_left hfit]

/-- A packet of the reference parser at the front: the call cuts it off. -/
theorem mapDeaggregate_packet (behind : ℕ → UInt8) {port : RmnetPort} (halloc : port.AllocOk) (s : LinearData)
    (hfmt : SameLengths port.dataFormat s.bytes) {n : ℕ} (hsize : qmapSize port.dataFormat s.bytes = some n)
    (hfit : n ≤ s.bytes.length) :
    rmnetMapDeaggregate behind port (linearSkb s.bytes)
      = (port, .packet (linearSkb (s.bytes.take n)) (linearSkb (s.bytes.drop n))) := by
  obtain ⟨-, hz, hge⟩ := qmapSize_ge hsize
  obtain ⟨hlen, htype⟩ := mapPacketLen_eq hfmt hz (by omega)
  rw [hsize, Option.some.injEq] at hlen
  refine mapDeaggregate_cut behind halloc s hlen.symm hz hfit ?_
  intro hnext
  rw [htype hnext]
  decide

/-! ### The loop -/

/-- The loop, with fuel for every byte: by induction on the fuel, as for the fragments. -/
theorem mapDeaggregateLoop_parses (behind : ℕ → UInt8) {port : RmnetPort} (halloc : port.AllocOk) (fuel : ℕ) :
    ∀ s : LinearData, SameLengths port.dataFormat s.bytes → s.bytes.length < fuel →
      mapDeaggregateLoop behind fuel port (linearSkb s.bytes)
        = some (port, (qmapPackets port.dataFormat s.bytes).map linearSkb) := by
  induction fuel with
  | zero =>
    intro s _ hfuel
    omega
  | succ fuel ih =>
    intro s hfmt hfuel
    rw [mapDeaggregateLoop]
    by_cases hpkt : ∃ n, qmapSize port.dataFormat s.bytes = some n ∧ n ≤ s.bytes.length
    · obtain ⟨n, hsize, hfit⟩ := hpkt
      have hn := (qmapSize_pos hsize).1
      have hrest := ih (s.drop n) (hfmt.drop hsize hfit)
        (show (s.bytes.drop n).length < fuel by rw [List.length_drop]; omega)
      rw [LinearData.drop] at hrest
      rw [mapDeaggregate_packet behind halloc s hfmt hsize hfit, qmapPackets_some hsize,
        if_neg (Nat.not_lt.mpr hfit)]
      simp only [hrest, Option.map_some, List.map_cons]
    · have hstop : ∀ n, qmapSize port.dataFormat s.bytes = some n → s.bytes.length < n := by
        intro n hn
        by_contra hle
        exact hpkt ⟨n, hn, by omega⟩
      have hnil : qmapPackets port.dataFormat s.bytes = [] := by
        cases hsize : qmapSize port.dataFormat s.bytes with
        | none => exact qmapPackets_none hsize
        | some n => rw [qmapPackets_some hsize, if_pos (hstop n hsize)]
      rw [mapDeaggregate_null behind port s hfmt hstop, hnil]
      rfl

/-- **The two de-aggregations agree.**  Where they use the same length of a packet, with allocations
succeeding, `rmnet_map_deaggregate` called until it returns `NULL` on a linear buffer terminates and yields
the packets that `rmnet_frag_deaggregate` yields from any fragments with the same bytes: the packets of the
reference parser, which stops at a truncated packet, an empty one, or too few bytes for a header. -/
theorem deaggregations_agree (behind : ℕ → UInt8) (port : RmnetPort) (halloc : port.AllocOk) (s : LinearData)
    (hfmt : SameLengths port.dataFormat s.bytes) (frags : List SkbFrag)
    (hsplit : fragsBytes frags = s.bytes) (fuel : ℕ) (hfuel : s.bytes.length < fuel) :
    ∃ skbs port' descs, mapDeaggregateLoop behind fuel port (linearSkb s.bytes) = some (port, skbs) ∧
      rmnetFragDeaggregate port { frags := frags } [] = some (port', descs) ∧
      skbs.map SkBuff.bytes = descs.map RmnetFragDescriptor.bytes := by
  obtain ⟨port', descs, hfrag, hbytes, -⟩ :=
    deaggregateLoop_parses (fragsSize frags + 1) port frags [] halloc (Nat.lt_succ_self _)
  refine ⟨_, port', descs, mapDeaggregateLoop_parses behind halloc fuel s hfmt hfuel, hfrag, ?_⟩
  have hid : SkBuff.bytes ∘ linearSkb = id := by
    funext b
    exact linearSkb_bytes b
  rw [hbytes, hsplit, List.map_map, hid, List.map_id]

/-- A data packet with a checksum-offload header, and two stray bytes. -/
def csumOffloadSample : LinearData := ⟨[64, 1, 0, 1, 4, 0, 0, 0, 7, 9, 9], by decide⟩

theorem csumOffloadSample_sameLengths : SameLengths 32 csumOffloadSample.bytes := by
  refine .inr ⟨by decide, by decide, ?_⟩
  have hfirst : qmapSize 32 csumOffloadSample.bytes = some 9 := by decide
  have hstray : qmapSize 32 [9, 9] = none := by decide
  have hplaces : ∀ t, Reached 32 csumOffloadSample.bytes t → t = csumOffloadSample.bytes ∨ t = [9, 9] := by
    intro t ht
    induction ht with
    | start => exact .inl rfl
    | next _ hn _ ih =>
      rcases ih with rfl | rfl
      · rw [hfirst, Option.some.injEq] at hn
        subst hn
        exact .inr rfl
      · rw [hstray] at hn
        cases hn
  intro t ht
  rcases hplaces t ht with rfl | rfl
  · intro _ _ _
    decide
  · intro _ _ hfit
    exact absurd hfit (by decide)

/-- The packet lies in two pages, and memory behind the linear buffer holds ones. -/
theorem deaggregations_agree_sample :
    ∃ skbs port' descs,
      mapDeaggregateLoop (fun _ => 1) 12 (rmnetDescriptorInit 32 (fun _ => none) fun _ => true)
          (linearSkb csumOffloadSample.bytes)
        = some (rmnetDescriptorInit 32 (fun _ => none) fun _ => true, skbs) ∧
      rmnetFragDeaggregate (rmnetDescriptorInit 32 (fun _ => none) fun _ => true)
          { frags := [.ofBytes [64, 1, 0, 1, 4, 0], .ofBytes [0, 0, 7, 9, 9]] } [] = some (port', descs) ∧
      skbs.map SkBuff.bytes = descs.map RmnetFragDescriptor.bytes :=
  deaggregations_agree _ _ (fun _ => rfl) csumOffloadSample csumOffloadSample_sameLengths _ (by decide) _
    (by decide)

end Rmnet
