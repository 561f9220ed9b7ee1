import Rmnet.Frag.Pool
import Rmnet.Linear.Ingress
import Rmnet.Linear.IpId

/-!
# Padding

A QMAP header gives the number of padding bytes at the end of its frame.  Both ingress handlers subtract it
from `pkt_len` in 16 bits and cut the packet to the difference: the linear path with `pskb_trim`, which leaves
a shorter buffer alone and accepts the length 0, the fragment path with `rmnet_frag_trim`, which leaves a
shorter descriptor alone and drops the packet at the length 0.

`Unpadded` says that a frame is delivered without its padding, and not at all when nothing else is in it.
`padding_removed_iff` says for each path which frames are: with more padding than packet the difference wraps,
and the padding is delivered.
-/

namespace Rmnet

open Word Field

/-! ### Frames -/

/-- The length of the headers in front of the packet. -/
def MapHeader.headersLen (qmap : MapHeader) : ℕ :=
  if qmap.nextHdr then mapHeaderSize + v5CsumHeaderSize else mapHeaderSize

/-- A complete data frame for a device: with no next header, or with a checksum-offload header under
`RMNET_FLAGS_INGRESS_MAP_CKSUMV5`.  More bytes may follow it, such as a checksum trailer. -/
structure DataFrame (port : RmnetPort) (dev : NetDevice) (frame : Bytes) : Prop where
  cd : (MapHeader.parse frame).cdBit = false
  mux_lt : (MapHeader.parse frame).muxId < maxLogicalEp
  endpoint : port.endpoint (MapHeader.parse frame).muxId = some dev
  next : (MapHeader.parse frame).nextHdr = true → ingressMapCksumv5 port.dataFormat = true ∧
    (V5CsumHeader.parse (frame.drop mapHeaderSize)).headerType = headerTypeCsumOffload
  complete : (MapHeader.parse frame).headersLen + (MapHeader.parse frame).pktLen ≤ frame.length

/-- What a handler delivers of a frame: the packet without its padding, nothing when there is only padding. -/
def Unpadded (frame : Bytes) (out : List Bytes) : Prop :=
  let qmap := MapHeader.parse frame
  (qmap.padLen < qmap.pktLen → out = [(frame.drop qmap.headersLen).take (qmap.pktLen - qmap.padLen)]) ∧
    (qmap.pktLen ≤ qmap.padLen → out = [])

instance (frame : Bytes) (out : List Bytes) : Decidable (Unpadded frame out) :=
  inferInstanceAs (Decidable ((_ → _) ∧ (_ → _)))

theorem MapHeader.padLen_lt (frame : Bytes) : (MapHeader.parse frame).padLen < 64 := Nat.mod_lt _ (by decide)

theorem MapHeader.pktLen_lt (frame : Bytes) : (MapHeader.parse frame).pktLen < 65536 := be16At_lt frame 2

/-- The length to which a frame is cut: the difference, or with more padding than packet at least 65473. -/
theorem unpadded_cases (frame : Bytes) :
    let qmap := MapHeader.parse frame
    (qmap.padLen ≤ qmap.pktLen ∧ qmap.unpadded = qmap.pktLen - qmap.padLen) ∨
      (qmap.pktLen < qmap.padLen ∧ 65473 ≤ qmap.unpadded) := by
  intro qmap
  have hpad : qmap.padLen < 64 := MapHeader.padLen_lt frame
  have hpkt : qmap.pktLen < 65536 := MapHeader.pktLen_lt frame
  by_cases hle : qmap.padLen ≤ qmap.pktLen
  · exact .inl ⟨hle, sub16_of_le hle hpkt⟩
  · refine .inr ⟨by omega, ?_⟩
    show 65473 ≤ sub16 qmap.pktLen qmap.padLen
    unfold sub16 u16
    omega

theorem MapHeader.le_headersLen (qmap : MapHeader) : mapHeaderSize ≤ qmap.headersLen := by
  rw [MapHeader.headersLen]
  split
  · exact Nat.le_add_right _ _
  · exact Nat.le_refl _

section

variable {port : RmnetPort} {dev : NetDevice} {frame : Bytes}

theorem DataFrame.headers_le (h : DataFrame port dev frame) : (MapHeader.parse frame).headersLen ≤ frame.length :=
  Nat.le_trans (Nat.le_add_right _ _) h.complete

/-- A next header is processed as such. -/
theorem DataFrame.nextHdrFrame_eq (h : DataFrame port dev frame) :
    nextHdrFrame port.dataFormat (MapHeader.parse frame) = (MapHeader.parse frame).nextHdr := by
  rw [nextHdrFrame]
  cases hn : (MapHeader.parse frame).nextHdr with
  | false => exact Bool.false_and _
  | true => rw [(h.next hn).1, Bool.or_true, Bool.and_true]

/-! ### Trimming a buffer -/

theorem trimFrags_bytes (fs : List SkbFrag) : ∀ n, fragsBytes (trimFrags fs n) = (fragsBytes fs).take n := by
  induction fs with
  | nil =>
    intro n
    rw [trimFrags, fragsBytes_nil, List.take_nil]
  | cons f fs ih =>
    intro n
    rw [trimFrags]
    by_cases hz : n = 0
    · rw [if_pos hz, hz, List.take_zero, fragsBytes_nil]
    · rw [if_neg hz, fragsBytes_cons, fragsBytes_cons, ih, List.take_append, SkbFrag.bytes_length,
        SkbFrag.slice_bytes f (by omega), List.drop_zero]
      congr 1
      rcases Nat.le_total f.size n with hle | hle
      · rw [Nat.min_eq_left hle, List.take_of_length_le (by rw [SkbFrag.bytes_length]),
          List.take_of_length_le (by rw [SkbFrag.bytes_length]; exact hle)]
      · rw [Nat.min_eq_right hle]

theorem trimChain_bytes (chain : List (List SkbFrag)) :
    ∀ n, ((trimChain chain n).map fragsBytes).flatten = ((chain.map fragsBytes).flatten).take n := by
  induction chain with
  | nil =>
    intro n
    exact List.take_nil.symm
  | cons fs chain ih =>
    intro n
    rw [trimChain]
    by_cases hz : n = 0
    · rw [if_pos hz, hz, List.take_zero, List.map_nil, List.flatten_nil]
    · rw [if_neg hz, List.map_cons, List.flatten_cons, List.map_cons, List.flatten_cons, trimFrags_bytes, ih,
        List.take_append, fragsBytes_length]

/-- **`pskb_trim`** leaves the first bytes of a buffer. -/
theorem pskbTrim_bytes {skb : SkBuff} (h : skb.len = skb.bytes.length) (n : ℕ) :
    (pskbTrim skb n).bytes = skb.bytes.take n := by
  rw [pskbTrim]
  split
  · rename_i hle
    exact (List.take_of_length_le (by omega)).symm
  · simp only [SkBuff.bytes]
    rw [trimFrags_bytes, trimChain_bytes, List.take_append, List.take_append, List.length_append,
      fragsBytes_length, Nat.sub_sub n]

theorem pskbPullTail_len (skb : SkBuff) (delta : ℕ) : (pskbPullTail skb delta).len = skb.len := rfl

theorem rmnetMapMoveHeaders_len (skipExthdr : Bytes → ℕ → ℕ → SkipExthdr) (skb : SkBuff) :
    (rmnetMapMoveHeaders skipExthdr skb).len = skb.len := by
  unfold rmnetMapMoveHeaders
  simp only
  split
  · rfl
  · split
    · split
      · exact pskbPullTail_len _ _
      · exact pskbPullTail_len _ _
    · split
      · exact pskbPullTail_len _ _
      · rfl

/-- The checksum status of a buffer is none of its bytes. -/
theorem ipSummed_bytes (skb : SkBuff) (ok : Bool) :
    (if ok then { skb with ipSummed := .checksumUnnecessary } else skb).bytes = skb.bytes := by
  cases ok with
  | false => rfl
  | true => rfl

theorem ipSummed_len (skb : SkBuff) (ok : Bool) :
    (if ok then { skb with ipSummed := .checksumUnnecessary } else skb).len = skb.len := by
  cases ok with
  | false => rfl
  | true => rfl

theorem ipSummed_headLen (skb : SkBuff) (ok : Bool) :
    (if ok then { skb with ipSummed := .checksumUnnecessary } else skb).headLen = skb.headLen := by
  cases ok with
  | false => rfl
  | true => rfl

theorem ipSummed_coherent {skb : SkBuff} (h : skb.Coherent) (ok : Bool) :
    (if ok then { skb with ipSummed := .checksumUnnecessary } else skb).Coherent := by
  cases ok with
  | false => exact h
  | true => exact ⟨h.len_eq, h.dataLen_eq, h.len_lt⟩

/-! ### The linear path -/

section Linear

variable {skb : SkBuff} (skipExthdr : Bytes → ℕ → ℕ → SkipExthdr)
  (dlCsum : RmnetPort → NetDevice → SkBuff → ℕ → RmnetPort × Bool)

/-- A checksum-offload frame: its packet is cut to the length it is told. -/
theorem mapProcessNextHdr_trim (hdata : DataFrame port dev frame) (hnext : (MapHeader.parse frame).nextHdr = true)
    (hc : skb.Coherent) (hb : skb.bytes = frame) (hhead : mapHeaderSize + v5CsumHeaderSize ≤ skb.headLen) (len : ℕ) :
    ∃ port' skb', rmnetMapProcessNextHdrPacket skipExthdr port dev skb len = (port', some [skb']) ∧
      skb'.bytes = (frame.drop (mapHeaderSize + v5CsumHeaderSize)).take len := by
  have hread : V5CsumHeader.parse (memBytes (rmnetMapDataPtr skb) mapHeaderSize v5CsumHeaderSize)
      = V5CsumHeader.parse (frame.drop mapHeaderSize) := by
    rw [memBytes_head hc hhead, hb, V5CsumHeader.parse_take]
  have htype := (hdata.next hnext).2
  unfold rmnetMapProcessNextHdrPacket
  simp only [hread]
  rw [if_neg (by rw [htype]; decide), if_pos htype]
  generalize csumOffloadStat (some dev) (V5CsumHeader.parse (frame.drop mapHeaderSize)) = r
  obtain ⟨stat, valid⟩ := r
  obtain ⟨hc', hb', -⟩ := pskbPull_head (ipSummed_coherent hc valid)
    (n := mapHeaderSize + v5CsumHeaderSize) (by rw [ipSummed_headLen]; exact hhead)
  rw [ipSummed_bytes, hb] at hb'
  refine ⟨_, _, rfl, ?_⟩
  rw [pskbTrim_bytes, rmnetMapMoveHeaders_bytes, hb']
  rw [rmnetMapMoveHeaders_len, rmnetMapMoveHeaders_bytes]
  exact hc'.len_eq

/-- **The linear path** delivers one packet of every data frame, cut to the difference of the two lengths. -/
theorem mapIngressSkb_data (hdata : DataFrame port dev frame) (hc : skb.Coherent) (hb : skb.bytes = frame)
    (hhead : (MapHeader.parse frame).headersLen ≤ skb.headLen) :
    (rmnetMapIngressSkb skipExthdr dlCsum port skb).2.map (fun d => d.2.bytes)
      = [(frame.drop (MapHeader.parse frame).headersLen).take (MapHeader.parse frame).unpadded] := by
  have hhdr : mapHeaderOf skb = MapHeader.parse frame := by
    have hsize := MapHeader.le_headersLen (MapHeader.parse frame)
    rw [mapHeaderOf, memBytes_head hc (by omega), hb, List.drop_zero, MapHeader.parse_take]
  unfold rmnetMapIngressSkb
  simp only [hhdr, hdata.cd, hdata.endpoint, hdata.nextHdrFrame_eq]
  rw [if_neg Bool.false_ne_true, if_neg (Nat.not_le.mpr hdata.mux_lt)]
  cases hnext : (MapHeader.parse frame).nextHdr with
  | true =>
    rw [MapHeader.headersLen, hnext, if_pos rfl] at hhead
    obtain ⟨port', skb', hproc, hbytes⟩ := mapProcessNextHdr_trim skipExthdr hdata hnext hc hb hhead
      (MapHeader.parse frame).unpadded
    rw [if_pos rfl, hproc, MapHeader.headersLen, hnext, if_pos rfl, ← hbytes]
    rfl
  | false =>
    rw [MapHeader.headersLen, hnext, if_neg Bool.false_ne_true] at hhead
    obtain ⟨hc', hb', -⟩ := pskbPull_head hc hhead
    rw [if_neg Bool.false_ne_true]
    generalize (if ingressMapCksumv4 port.dataFormat = true then _ else _) = r
    obtain ⟨port', ok⟩ := r
    simp only [List.map_cons, List.map_nil]
    rw [pskbTrim_bytes (by rw [ipSummed_len, ipSummed_bytes]; exact hc'.len_eq), ipSummed_bytes, hb', hb,
      MapHeader.headersLen, hnext, if_neg Bool.false_ne_true]

end Linear

/-! ### The fragment path -/

section Frag

variable {desc : RmnetFragDescriptor}

/-- What a call of the handler delivers. -/
def fragDelivered (port : RmnetPort) (desc : RmnetFragDescriptor) : List Bytes :=
  ((rmnetFragIngressDesc port desc).delivered.drop port.delivered.length).map SkBuff.bytes

theorem overwrite_nil (i : ℕ) (xs : Bytes) : overwrite [] i xs = [] :=
  List.length_eq_zero_iff.mp (overwrite_length xs [] i)

/-- A buffer with no linear part, for a descriptor with no measured headers, is filled with nothing. -/
theorem fillSkb_bytes (hv : desc.hdrsValid = false) {s : SkBuff} (hs : s.linear = []) :
    (fillSkb s desc).bytes = s.bytes := by
  have hover : fragOverrides s.linear desc = [] := by
    rw [hs, fragOverrides]
    simp only [overwrite_nil, ite_self]
  have hfill : ∀ t : SkBuff, (if 1 < desc.gsoSegs
      then gsoStamp t desc.ipProto desc.transProto desc.gsoSize desc.gsoSegs else t).bytes = t.bytes := by
    intro t
    split
    · rfl
    · rfl
  unfold fillSkb
  simp only [hover, hv, Bool.and_false, Bool.false_and, Bool.false_eq_true, if_false]
  rw [hfill]
  split
  · rw [SkBuff.bytes, SkBuff.bytes, hs]
  · rw [SkBuff.bytes, SkBuff.bytes, hs]

/-- **`rmnet_frag_deliver`** hands on the bytes of a descriptor with no measured headers. -/
theorem rmnetFragDeliver_bytes (halloc : port.AllocOk) (hv : desc.hdrsValid = false) :
    ∃ s, (rmnetFragDeliver port desc).delivered = port.delivered ++ [s] ∧ s.bytes = desc.bytes := by
  obtain ⟨head, chain, hadd, hb⟩ := addRxFrags_bytes halloc desc.frags [] []
  have halloc' : rmnetAllocSkb port desc = (port, desc, some (fillSkb (.ofFrags [] head chain) desc)) := by
    unfold rmnetAllocSkb
    simp only [kalloc_of_allocOk halloc, hv, Bool.false_eq_true, if_false, hadd]
  refine ⟨fillSkb (.ofFrags [] head chain) desc, ?_, ?_⟩
  · rw [rmnetFragDeliver, halloc']
    rfl
  · rw [fillSkb_bytes hv rfl]
    exact hb

/-- What pulling the headers of a descriptor and cutting it to `n` bytes comes to: there is nothing behind the
headers, nothing is to be left, or what is left are the bytes asked for. -/
inductive FragCut (port : RmnetPort) (desc : RmnetFragDescriptor) (headers n : ℕ) : Prop
  | emptied {port' : RmnetPort} {desc' : RmnetFragDescriptor} (hlen : desc.len ≤ headers)
      (hpull : rmnetFragPull port desc headers = (port', desc', false)) (hsame : port'.delivered = port.delivered)
  | dropped {port' : RmnetPort} {desc₁ desc' : RmnetFragDescriptor} (hzero : n = 0)
      (hpull : rmnetFragPull port desc headers = (port, desc₁, true))
      (htrim : rmnetFragTrim port desc₁ n = (port', desc', false)) (hsame : port'.delivered = port.delivered)
  | cut {desc₁ desc' : RmnetFragDescriptor} (hlen : headers < desc.len) (hpos : 0 < n)
      (hpull : rmnetFragPull port desc headers = (port, desc₁, true))
      (htrim : rmnetFragTrim port desc₁ n = (port, desc', true))
      (hbytes : desc'.bytes = (desc.bytes.drop headers).take n) (hvalid : desc'.hdrsValid = desc.hdrsValid)

theorem fragCut (port : RmnetPort) (hs : desc.Sized) (headers n : ℕ) : FragCut port desc headers n := by
  by_cases hlen : desc.len ≤ headers
  · exact .emptied hlen (rmnetFragPull_of_le hlen) rfl
  · have hlt : headers < desc.len := Nat.not_le.mp hlen
    obtain ⟨frags, hpull, hb, -⟩ := rmnetFragPull_eq port hs hlt
    by_cases hz : n = 0
    · subst hz
      exact .dropped rfl hpull (rmnetFragTrim_zero _) rfl
    · obtain ⟨frags', htrim, hb'⟩ := rmnetFragTrim_eq port (sized_of_drop hs hb) (Nat.sub_pos_of_lt hlt)
        (Nat.pos_of_ne_zero hz)
      refine .cut hlt (Nat.pos_of_ne_zero hz) hpull htrim ?_ rfl
      rw [← hb]
      exact hb'

/-- What the fragment path delivers of a frame: nothing when nothing is left of it. -/
def fragPackets (frame : Bytes) (headers n : ℕ) : List Bytes :=
  if frame.length ≤ headers ∨ n = 0 then [] else [(frame.drop headers).take n]

/-- A call of the handler that pulls and cuts its descriptor, and delivers it if both succeed. -/
theorem fragDelivered_cut {port₁ : RmnetPort} {desc₁ : RmnetFragDescriptor} {headers n : ℕ} (hs : desc₁.Sized)
    (hb : desc₁.bytes = frame) (hv : desc₁.hdrsValid = false) (halloc : port₁.AllocOk)
    (hsame : port₁.delivered = port.delivered)
    (hempty : ∀ p d, rmnetFragPull port₁ desc₁ headers = (p, d, false) →
      (rmnetFragIngressDesc port desc).delivered = p.delivered)
    (hdrop : ∀ d p d', rmnetFragPull port₁ desc₁ headers = (port₁, d, true) →
      rmnetFragTrim port₁ d n = (p, d', false) → (rmnetFragIngressDesc port desc).delivered = p.delivered)
    (hcut : ∀ d d', rmnetFragPull port₁ desc₁ headers = (port₁, d, true) →
      rmnetFragTrim port₁ d n = (port₁, d', true) → rmnetFragIngressDesc port desc = rmnetFragDeliver port₁ d') :
    fragDelivered port desc = fragPackets frame headers n := by
  have hlen : desc₁.len = frame.length := by rw [← hs.length_bytes, hb]
  rw [fragDelivered, fragPackets]
  cases fragCut port₁ hs headers n with
  | emptied hle hpull hport =>
    rw [if_pos (.inl (hlen ▸ hle)), hempty _ _ hpull, hport, hsame, List.drop_length, List.map_nil]
  | dropped hzero hpull htrim hport =>
    rw [if_pos (.inr hzero), hdrop _ _ _ hpull htrim, hport, hsame, List.drop_length, List.map_nil]
  | cut hlt hpos hpull htrim hbytes hvalid =>
    obtain ⟨s, hdel, hsb⟩ := rmnetFragDeliver_bytes halloc (hvalid.trans hv)
    rw [if_neg (by omega), hcut _ _ hpull htrim, hdel, hsame, List.drop_left, List.map_cons, List.map_nil, hsb,
      hbytes, hb]

/-- **The fragment path** delivers one packet, cut to the difference of the two lengths, unless that is zero. -/
theorem fragIngressDesc_data (hdata : DataFrame port dev frame) (halloc : port.AllocOk) (hs : desc.Sized)
    (hb : desc.bytes = frame) (hv : desc.hdrsValid = false) :
    fragDelivered port desc
      = fragPackets frame (MapHeader.parse frame).headersLen (MapHeader.parse frame).unpadded := by
  have hfit := hdata.headers_le
  have hsdev : ({ desc with dev := some dev } : RmnetFragDescriptor).Sized := ⟨hs.len_eq, hs.len_lt⟩
  have hbdev : ({ desc with dev := some dev } : RmnetFragDescriptor).bytes = frame := hb
  have hhdr : (rmnetFragHeaderPtr desc 0 mapHeaderSize).map MapHeader.parse = some (MapHeader.parse frame) := by
    have hsize := MapHeader.le_headersLen (MapHeader.parse frame)
    rw [rmnetFragHeaderPtr_eq hs, hb, readBytes_of_le (by omega), List.drop_zero, Option.map_some,
      MapHeader.parse_take]
  -- the call, reduced to pulling, cutting and delivering
  have hcall : rmnetFragIngressDesc port desc = rmnetFragIngressDesc port desc := rfl
  conv_rhs at hcall => unfold rmnetFragIngressDesc
  simp only [hhdr, hdata.cd, hdata.endpoint, hdata.nextHdrFrame_eq] at hcall
  rw [if_neg Bool.false_ne_true, if_neg (Nat.not_le.mpr hdata.mux_lt)] at hcall
  generalize (MapHeader.parse frame).unpadded = n at hcall ⊢
  cases hnext : (MapHeader.parse frame).nextHdr with
  | true =>
    have hhl : (MapHeader.parse frame).headersLen = mapHeaderSize + v5CsumHeaderSize := by
      rw [MapHeader.headersLen, hnext, if_pos rfl]
    rw [hhl] at hfit ⊢
    have hread : rmnetFragHeaderPtr { desc with dev := some dev } mapHeaderSize v5CsumHeaderSize
        = some ((frame.drop mapHeaderSize).take v5CsumHeaderSize) := by
      rw [rmnetFragHeaderPtr_eq hsdev, hbdev, readBytes_of_le hfit]
    have htype := (hdata.next hnext).2
    rw [hnext, if_pos rfl] at hcall
    unfold rmnetFragProcessNextHdrPacket at hcall
    simp only [hread, V5CsumHeader.parse_take] at hcall
    rw [if_neg (by rw [htype]; decide), if_pos htype] at hcall
    generalize csumOffloadStat (some dev) (V5CsumHeader.parse (frame.drop mapHeaderSize)) = r at hcall
    obtain ⟨stat, valid⟩ := r
    simp only at hcall
    have hs₁ : ({ desc with dev := some dev, csumValid := desc.csumValid || valid } : RmnetFragDescriptor).Sized :=
      ⟨hs.len_eq, hs.len_lt⟩
    have halloc₁ : (port.bump (some dev) stat 1).AllocOk := halloc
    have hsame : (port.bump (some dev) stat 1).delivered = port.delivered := rfl
    apply fragDelivered_cut hs₁ hb hv halloc₁ hsame
    · intro p d hpull
      simp only [hpull] at hcall
      rw [hcall]
      rfl
    · intro d p d' hpull htrim
      simp only [hpull, htrim] at hcall
      rw [hcall]
      rfl
    · intro d d' hpull htrim
      simp only [hpull, htrim] at hcall
      exact hcall
  | false =>
    rw [show (MapHeader.parse frame).headersLen = mapHeaderSize by
      rw [MapHeader.headersLen, hnext, if_neg Bool.false_ne_true]]
    rw [hnext, if_neg Bool.false_ne_true] at hcall
    apply fragDelivered_cut hsdev hb hv halloc rfl
    · intro p d hpull
      simp only [hpull] at hcall
      rw [hcall]
    · intro d p d' hpull htrim
      simp only [hpull, htrim] at hcall
      rw [hcall]
    · intro d d' hpull htrim
      simp only [hpull, htrim] at hcall
      exact hcall

end Frag

/-! ### When the padding is removed -/

/-- **Where padding is removed.**  The linear path delivers a data frame as it should be exactly when there is
less padding than packet; the fragment path also when the two are equal, or when there is nothing behind the
headers.  With more padding than packet both deliver the padding. -/
theorem padding_removed_iff (skipExthdr : Bytes → ℕ → ℕ → SkipExthdr)
    (dlCsum : RmnetPort → NetDevice → SkBuff → ℕ → RmnetPort × Bool) (hdata : DataFrame port dev frame) :
    (∀ skb : SkBuff, skb.Coherent → skb.bytes = frame → (MapHeader.parse frame).headersLen ≤ skb.headLen →
      (Unpadded frame ((rmnetMapIngressSkb skipExthdr dlCsum port skb).2.map fun d => d.2.bytes) ↔
        (MapHeader.parse frame).padLen < (MapHeader.parse frame).pktLen)) ∧
    (∀ desc : RmnetFragDescriptor, desc.Sized → desc.bytes = frame → desc.hdrsValid = false → port.AllocOk →
      (Unpadded frame (fragDelivered port desc) ↔
        (MapHeader.parse frame).padLen ≤ (MapHeader.parse frame).pktLen ∨
          frame.length = (MapHeader.parse frame).headersLen)) := by
  have hfit := hdata.complete
  refine ⟨?_, ?_⟩
  · intro skb hc hb hhead
    rw [mapIngressSkb_data skipExthdr dlCsum hdata hc hb hhead]
    constructor
    · intro h
      apply Nat.not_le.mp
      intro hle
      exact List.cons_ne_nil _ _ (h.2 hle)
    · intro hlt
      refine ⟨fun _ => ?_, fun hle => absurd hlt (Nat.not_lt.mpr hle)⟩
      rcases unpadded_cases frame with ⟨-, hun⟩ | ⟨hgt, -⟩
      · rw [hun]
      · exact absurd hlt (Nat.lt_asymm hgt)
  · intro desc hs hb hv halloc
    rw [fragIngressDesc_data hdata halloc hs hb hv, fragPackets]
    rcases unpadded_cases frame with ⟨hle, hun⟩ | ⟨hgt, hun⟩
    · rw [hun]
      refine ⟨fun _ => .inl hle, fun _ => ⟨?_, ?_⟩⟩
      · intro hlt
        rw [if_neg (by omega)]
      · intro hge
        rw [if_pos (.inr (by omega))]
    · constructor
      · intro h
        have hnil := h.2 (Nat.le_of_lt hgt)
        split at hnil
        · omega
        · cases hnil
      · intro h
        refine ⟨fun hlt => absurd hlt (Nat.lt_asymm hgt), fun _ => ?_⟩
        rw [if_pos (by omega)]

end

/-- A port with one device, at mux id 1, and no flags. -/
def paddingPort : RmnetPort :=
  rmnetDescriptorInit 0 (fun muxId => if muxId = 1 then some { id := 0, groHw := false, rxcsum := false } else none)
    fun _ => true

/-- A data frame of four bytes for mux id 1, with `pad` bytes of padding. -/
def paddingFrame (pad : UInt8) : Bytes := [pad, 1, 0, 4, 0x45, 0x46, 0x47, 0]

theorem padding_removed_byte :
    Unpadded (paddingFrame 1)
        ((rmnetMapIngressSkb (fun _ _ _ => ⟨none, 0, 0⟩) (fun port _ _ _ => (port, false)) paddingPort
          (linearSkb (paddingFrame 1))).2.map fun d => d.2.bytes) ∧
      Unpadded (paddingFrame 1)
        (fragDelivered paddingPort
          { addr := 0, frags := [SkbFrag.ofBytes (paddingFrame 1)], len := 8 }) := by
  have hdata : DataFrame paddingPort { id := 0, groHw := false, rxcsum := false } (paddingFrame 1) :=
    ⟨by decide, by decide, rfl, by decide, by decide⟩
  obtain ⟨hmap, hfrag⟩ := padding_removed_iff (fun _ _ _ => ⟨none, 0, 0⟩) (fun port _ _ _ => (port, false)) hdata
  exact ⟨(hmap (linearSkb (paddingFrame 1)) ⟨rfl, rfl, by decide⟩ rfl (by decide)).mpr (by decide),
    (hfrag { addr := 0, frags := [SkbFrag.ofBytes (paddingFrame 1)], len := 8 } ⟨rfl, by decide⟩ (by decide) rfl
      (fun _ => rfl)).mpr (.inl (by decide))⟩

/-- With five bytes of padding in a frame of four, both paths deliver the four bytes. -/
theorem padding_delivered :
    DataFrame paddingPort { id := 0, groHw := false, rxcsum := false } (paddingFrame 5) ∧
      ¬ Unpadded (paddingFrame 5)
        ((rmnetMapIngressSkb (fun _ _ _ => ⟨none, 0, 0⟩) (fun port _ _ _ => (port, false)) paddingPort
          (linearSkb (paddingFrame 5))).2.map fun d => d.2.bytes) ∧
      ¬ Unpadded (paddingFrame 5)
        (fragDelivered paddingPort { addr := 0, frags := [SkbFrag.ofBytes (paddingFrame 5)], len := 8 }) :=
  ⟨⟨by decide, by decide, rfl, by decide, by decide⟩, by decide, by decide⟩

end Rmnet
