import Rmnet.Frag.SegmentLoop

/-!
# Un-coalescing inverts coalescing

The hardware takes a list of packets of one stream, keeps the headers of the first one (with the FIN and
PSH flags of the last one) and puts all payloads behind them.  Segmentation has to undo this: one
descriptor a packet, whose fragments hold the shared headers and the packet's payload, and whose
`ip_id`, `tcp_seq` and `tcp_flags` say what has to be written over the shared headers
(`RmnetFragDescriptor.headerBytes`).

`uncoalesce_iff` says when it does.  FIN and PSH are cleared from a segment when there is payload behind
it, which misses the segments in front of a last packet without payload.
-/

namespace Rmnet

open Word Field

/-! ### The headers of a descriptor -/

/-- The headers of a descriptor with its overrides applied, as `rmnet_alloc_skb` writes them. -/
def RmnetFragDescriptor.headerBytes (desc : RmnetFragDescriptor) : Bytes :=
  let h := desc.bytes.take (desc.ipLen + desc.transLen)
  let h := if desc.ipIdSet then overwrite h 4 (be16 desc.ipId) else h
  let h := if desc.tcpSeqSet then overwrite h (desc.ipLen + 4) (be32 desc.tcpSeq) else h
  if desc.tcpFlagsSet then overwrite h (desc.ipLen + 12) (be16 desc.tcpFlags) else h

/-- The payload of a descriptor. -/
def RmnetFragDescriptor.payloadBytes (desc : RmnetFragDescriptor) : Bytes :=
  desc.bytes.drop (desc.ipLen + desc.transLen)

/-- Where the headers of a packet are: all of the header string, and behind the fixed IPv4 header. -/
structure CoalMeta.WellFormed (m : CoalMeta) (h : Bytes) : Prop where
  measured : coalMeta h = some m
  length : h.length = m.hlen
  v4 : m.ipProto = 4 → 20 ≤ m.ipLen

/-- Headers are measured alike with a payload behind them. -/
theorem ipMetaOf_append {version : ℕ} {b : Bytes} (c : Bytes) {r : ℕ × ℕ × ℕ × Bool}
    (h : ipMetaOf version b = some r) : 20 ≤ b.length ∧ ipMetaOf version (b ++ c) = some r := by
  unfold ipMetaOf at h ⊢
  have hpos : 20 ≤ b.length := by
    split at h
    · split at h
      · cases h
      · omega
    · split at h
      · split at h
        · cases h
        · omega
      · cases h
  refine ⟨hpos, ?_⟩
  rw [byteAt_append_left c (show 0 < b.length by omega), byteAt_append_left c (show 9 < b.length by omega),
    byteAt_append_left c (show 6 < b.length by omega), List.length_append]
  split at h
  · rename_i h4
    rw [if_pos h4, if_neg (by omega)]
    rw [if_neg (by omega)] at h
    exact h
  · rename_i h4
    rw [if_neg h4]
    split at h
    · rename_i h6
      rw [if_pos h6]
      split at h
      · cases h
      · rw [if_neg (by omega)]
        cases hskip : ipv6SkipExthdr b 40 (byteAt b 6) with
        | none =>
          rw [hskip] at h
          cases h
        | some skip =>
          rw [hskip] at h
          simp only at h
          cases hstart : skip.start with
          | none =>
            rw [hstart] at h
            cases h
          | some l =>
            rw [ipv6SkipExthdr_append c hskip (by rw [hstart]; exact Option.some_ne_none l)]
            exact h
    · cases h

theorem coalMeta_append {b : Bytes} (c : Bytes) {m : CoalMeta} (h : coalMeta b = some m) :
    coalMeta (b ++ c) = some m := by
  unfold coalMeta coalMetaOf at h ⊢
  cases hip : ipMetaOf (byteAt b 0 / 16) b with
  | none =>
    rw [hip] at h
    cases h
  | some r =>
    obtain ⟨ipProto, ipLen, transProto, plain⟩ := r
    rw [hip] at h
    obtain ⟨hpos, happ⟩ := ipMetaOf_append c hip
    rw [byteAt_append_left c (show 0 < b.length by omega), happ]
    simp only [List.length_append] at h ⊢
    split at h
    · rename_i htcp
      split at h
      · cases h
      · rw [if_pos htcp, if_neg (by omega), byteAt_append_left c (by omega)]
        exact h
    · rename_i htcp
      split at h
      · rename_i hudp
        split at h
        · cases h
        · rw [if_neg htcp, if_pos hudp, if_neg (by omega), be16At_append_left c (by omega)]
          exact h
      · cases h

theorem byteAt_of_length_le {b : Bytes} {i : ℕ} (h : b.length ≤ i) : byteAt b i = 0 := by
  simp [byteAt, List.getD, List.getElem?_eq_none h]

/-- A conditional override, read back. -/
theorem byteAt_ite_overwrite {b xs : Bytes} {c : Bool} {off i : ℕ} (hi : i < b.length) :
    byteAt (if c then overwrite b off xs else b) i
      = if c = true ∧ off ≤ i ∧ i < off + xs.length then byteAt xs (i - off) else byteAt b i := by
  cases c with
  | false => simp
  | true =>
    simp only [if_true, true_and]
    exact byteAt_overwrite xs b off hi

theorem length_ite_overwrite (b xs : Bytes) (c : Bool) (off : ℕ) :
    (if c then overwrite b off xs else b).length = b.length := by
  cases c with
  | false => rfl
  | true => exact overwrite_length xs b off

theorem headerBytes_segDesc {coal : RmnetFragDescriptor} {m : CoalMeta} (hc : Measured coal m)
    (hlen : m.hlen ≤ coal.bytes.length) (a : ℕ) (e : Emission) :
    let h₁ := if decide (m.ipProto = 4) then
        overwrite (coal.bytes.take m.hlen) 4 (be16 (if m.ipProto = 4 then u16 (be16At coal.bytes 4 + e.pktId) else 0))
      else coal.bytes.take m.hlen
    let h₂ := if decide (m.transProto = ipprotoTcp) then
        overwrite h₁ (m.ipLen + 4) (be32
          (if decide (m.transProto = ipprotoTcp) then u32 (be32At coal.bytes (m.ipLen + 4) + e.off) else 0))
      else h₁
    (segDesc coal m a e).headerBytes
      = if clearsFlags m coal.bytes e then
          overwrite h₂ (m.ipLen + 12) (be16
            (if clearsFlags m coal.bytes e then clearFinPsh (be16At coal.bytes (m.ipLen + 12)) else 0))
        else h₂ := by
  intro h₁ h₂
  have htake : (segDesc coal m a e).bytes.take ((segDesc coal m a e).ipLen + (segDesc coal m a e).transLen)
      = coal.bytes.take m.hlen := by
    rw [segDesc_bytes]
    show List.take (coal.ipLen + coal.transLen) _ = _
    rw [hc.ipLen, hc.transLen]
    exact List.take_left' (List.length_take_of_le hlen)
  have hip : (segDesc coal m a e).ipLen = m.ipLen := hc.ipLen
  unfold RmnetFragDescriptor.headerBytes
  rw [htake, hip]
  rfl

/-- What the overrides of a segment make of its headers. -/
theorem byteAt_headerBytes {coal : RmnetFragDescriptor} {m : CoalMeta} (hc : Measured coal m)
    (h4 : m.ipProto = 4 → 20 ≤ m.ipLen) (hlen : m.hlen ≤ coal.bytes.length) (a : ℕ)
    (e : Emission) {i : ℕ} (hi : i < m.hlen) :
    byteAt (segDesc coal m a e).headerBytes i
      = if m.ipProto = 4 ∧ 4 ≤ i ∧ i < 6 then byteAt (be16 (u16 (be16At coal.bytes 4 + e.pktId))) (i - 4)
        else if m.transProto = ipprotoTcp ∧ m.ipLen + 4 ≤ i ∧ i < m.ipLen + 8 then
          byteAt (be32 (u32 (be32At coal.bytes (m.ipLen + 4) + e.off))) (i - (m.ipLen + 4))
        else if clearsFlags m coal.bytes e = true ∧ i = m.ipLen + 13 then byteAt coal.bytes i &&& 0xF6
        else byteAt coal.bytes i := by
  have hH : (coal.bytes.take m.hlen).length = m.hlen := List.length_take_of_le hlen
  rw [headerBytes_segDesc hc hlen a e,
    byteAt_ite_overwrite (by simpa only [length_ite_overwrite, hH] using hi),
    byteAt_ite_overwrite (by simpa only [length_ite_overwrite, hH] using hi),
    byteAt_ite_overwrite (by simpa only [hH] using hi), byteAt_take hi]
  simp only [be16_length, be32_length, decide_eq_true_eq]
  by_cases hid : m.ipProto = 4 ∧ 4 ≤ i ∧ i < 6
  · have hip := h4 hid.1
    rw [if_neg (by omega), if_neg (by omega), if_pos hid, if_pos hid, if_pos hid.1]
  · rw [if_neg hid, if_neg hid]
    by_cases hseq : m.transProto = ipprotoTcp ∧ m.ipLen + 4 ≤ i ∧ i < m.ipLen + 8
    · rw [if_neg (by omega), if_pos hseq, if_pos hseq, if_pos hseq.1]
    · rw [if_neg hseq, if_neg hseq]
      by_cases hfl : clearsFlags m coal.bytes e = true ∧ m.ipLen + 12 ≤ i ∧ i < m.ipLen + 12 + 2
      · rw [if_pos hfl, if_pos hfl.1, clearFinPsh_bytes _ _ _ (by omega)]
        by_cases h12 : i = m.ipLen + 12
        · rw [if_pos (by omega), if_neg (by omega), h12]
        · have h13 : i = m.ipLen + 13 := by omega
          rw [if_neg (by omega), if_pos ⟨hfl.1, h13⟩, h13]
      · rw [if_neg hfl, if_neg (fun h => hfl ⟨h.1, by omega, by omega⟩)]

/-! ### Original packets -/

/-- An original packet: its headers and its payload. -/
structure Packet where
  header : Bytes
  payload : Bytes
  deriving DecidableEq, Repr

/-- The payload bytes of some packets. -/
def payloads (pkts : List Packet) : Bytes := (pkts.map Packet.payload).flatten

/-- The offsets of the length and checksum fields of the headers. -/
def lengthFields (m : CoalMeta) : List ℕ :=
  (if m.ipProto = 4 then [2, 3, 10, 11] else [4, 5]) ++
    (if m.transProto = ipprotoTcp then [m.ipLen + 16, m.ipLen + 17]
      else [m.ipLen + 4, m.ipLen + 5, m.ipLen + 6, m.ipLen + 7])

/-- The offsets of the fields that tell the packets of a stream apart: IPv4 identification, TCP sequence
number, and the byte of the TCP flags. -/
def streamFields (m : CoalMeta) : List ℕ :=
  (if m.ipProto = 4 then [4, 5] else []) ++
    (if m.transProto = ipprotoTcp then
      [m.ipLen + 4, m.ipLen + 5, m.ipLen + 6, m.ipLen + 7, m.ipLen + 13] else [])

/-- Two headers of one length that agree at all other offsets. -/
def SameExcept (fields : List ℕ) (b c : Bytes) : Prop :=
  b.length = c.length ∧ ∀ i, i ∉ fields → byteAt b i = byteAt c i

/-- The flags byte of a TCP packet. -/
def flagsByte (m : CoalMeta) (h : Bytes) : ℕ := byteAt h (m.ipLen + 13)

/-- A packet of the stream that starts with `first`: number `k`, behind `off` payload bytes. -/
structure FollowsFirst (m : CoalMeta) (first : Bytes) (k off : ℕ) (h : Bytes) : Prop where
  same : SameExcept (lengthFields m ++ streamFields m) h first
  ipId : m.ipProto = 4 → be16At h 4 = u16 (be16At first 4 + k)
  seq : m.transProto = ipprotoTcp → be32At h (m.ipLen + 4) = u32 (be32At first (m.ipLen + 4) + off)
  flags : m.transProto = ipprotoTcp → flagsByte m h &&& 0xF6 = flagsByte m first &&& 0xF6

/-- The packets of one stream; only the last one may have FIN or PSH set. -/
structure Stream (m : CoalMeta) (first : Packet) (pkts : List Packet) : Prop where
  follows : ∀ k p, pkts[k]? = some p →
    FollowsFirst m first.header k (payloads (pkts.take k)).length p.header
  onlyLast : m.transProto = ipprotoTcp → ∀ k p, pkts[k]? = some p → k + 1 < pkts.length →
    flagsByte m p.header &&& 9 = 0

/-- The headers of the first packet with FIN and PSH of the last. -/
def coalescedHeader (m : CoalMeta) (first last : Bytes) : Bytes :=
  if m.transProto = ipprotoTcp then
    overwrite first (m.ipLen + 13) [UInt8.ofNat (flagsByte m first &&& 0xF6 ||| flagsByte m last &&& 9)]
  else first

/-- An NL pair for a run of packets of one length. -/
structure RunPair (hlen : ℕ) (pair : NlPair) (run : List Packet) : Prop where
  count : pair.numPackets = run.length
  length : ∀ p ∈ run, pair.pktLen = hlen + p.payload.length

/-- The checksum-error bit of packet `k` of the frame: byte `k / 8`, bit `k % 8` of the six bitmaps. -/
def errBit (coalHdr : V5CoalHeader) (k : ℕ) : Bool :=
  ((coalHdr.nlPairs[k / 8]?.map NlPair.csumErrorBitmap).getD 0).testBit (k % 8)

/-- A frame whose coalescing header and packet were made from runs of packets. -/
structure CoalescedFrom (m : CoalMeta) (runs : List (List Packet)) (first last : Packet) (hd ip : Bytes) :
    Prop where
  isFirst : runs.flatten.head? = some first
  isLast : runs.flatten.getLast? = some last
  count : runs.flatten.length ≤ v5MaxPackets
  stream : Stream m first runs.flatten
  wellFormed : m.WellFormed (coalescedHeader m first.header last.header)
  numNlos : (coalHeaderOf hd).numNlos = runs.length
  used : List.Forall₂ (RunPair m.hlen) ((coalHeaderOf hd).nlPairs.take runs.length) runs
  unused : ∀ p ∈ (coalHeaderOf hd).nlPairs.drop runs.length, p.numPackets = 0
  packet : ip = coalescedHeader m first.header last.header ++ payloads runs.flatten

/-- A descriptor that restores an original packet: its payload, its headers outside the length and
checksum fields (which are written when the socket buffer is built), one packet, and the checksum
status of its error bit. -/
structure Restores (m : CoalMeta) (p : Packet) (err : Bool) (d : RmnetFragDescriptor) : Prop where
  header : SameExcept (lengthFields m) d.headerBytes p.header
  payload : d.payloadBytes = p.payload
  gsoSize : d.gsoSize = p.payload.length
  gsoSegs : d.gsoSegs = 1
  csumValid : d.csumValid = (!err || m.zeroCsum)

/-! ### The error mask -/

theorem checkNlPairs_testBit (ps : List NlPair) :
    ∀ (i mask pkts mask' pkts' : ℕ), (∀ p ∈ ps, p.csumErrorBitmap < 256) →
      checkNlPairs ps i mask pkts = some (mask', pkts') →
      ∀ k, mask'.testBit k = (mask.testBit k ||
        (decide (8 * i ≤ k) && ((ps[k / 8 - i]?.map NlPair.csumErrorBitmap).getD 0).testBit (k % 8))) := by
  induction ps with
  | nil =>
    intro i mask pkts mask' pkts' _ h k
    simp only [checkNlPairs, Option.some.injEq, Prod.mk.injEq] at h
    simp [h.1]
  | cons p ps ih =>
    intro i mask pkts mask' pkts' hlt h k
    rw [checkNlPairs] at h
    split at h
    · cases h
    · have hp := hlt p List.mem_cons_self
      rw [ih _ _ _ _ _ (fun q hq => hlt q (List.mem_cons_of_mem _ hq)) h k, Nat.testBit_or,
        Nat.testBit_shiftLeft, Bool.or_assoc]
      congr 1
      -- the bit lies in this byte, before it or behind it
      rcases Nat.lt_trichotomy (k / 8) i with hk | hk | hk
      · simp [show ¬ 8 * i ≤ k by omega, show ¬ 8 * (i + 1) ≤ k by omega]
      · have h₁ : 8 * i ≤ k := by omega
        have h₂ : ¬ 8 * (i + 1) ≤ k := by omega
        have h₃ : k - 8 * i = k % 8 := by omega
        simp [h₁, h₂, h₃, hk]
      · have h₁ : 8 * i ≤ k := by omega
        have h₂ : 8 * (i + 1) ≤ k := by omega
        have h₃ : k / 8 - i = (k / 8 - (i + 1)) + 1 := by omega
        have hbit : p.csumErrorBitmap.testBit (k - 8 * i) = false :=
          Nat.testBit_lt_two_pow (Nat.lt_of_lt_of_le hp
            (Nat.pow_le_pow_right (show 0 < 2 by omega) (show 8 ≤ k - 8 * i by omega)))
        simp [h₁, h₂, h₃, hbit]

theorem checkNlPairs_accepts (ps : List NlPair) :
    ∀ (i mask pkts : ℕ), pkts + (ps.map NlPair.numPackets).sum ≤ v5MaxPackets →
      ∃ mask' pkts', checkNlPairs ps i mask pkts = some (mask', pkts') := by
  induction ps with
  | nil =>
    intro i mask pkts _
    exact ⟨mask, pkts, rfl⟩
  | cons p ps ih =>
    intro i mask pkts h
    rw [List.map_cons, List.sum_cons] at h
    have hmax : v5MaxPackets = 48 := rfl
    have hu8 : u8 (pkts + p.numPackets) = pkts + p.numPackets := u8_of_lt (by omega)
    rw [checkNlPairs, hu8, if_neg (by omega)]
    exact ih _ _ _ (by omega)

theorem coalHeaderOf_bitmap (hd : Bytes) : ∀ p ∈ (coalHeaderOf hd).nlPairs, p.csumErrorBitmap < 256 := by
  intro p hp
  obtain ⟨i, -, rfl⟩ := List.mem_map.mp hp
  exact byteAt_lt _ _

/-- An accepted header: the number of pairs is in range, and the mask collects the bitmaps. -/
theorem checkCoalHeader_some {port port' : RmnetPort} {dev : NetDevice} {coalHdr : V5CoalHeader} {mask : ℕ}
    (h : checkCoalHeader port (some dev) coalHdr = (port', some mask)) :
    1 ≤ coalHdr.numNlos ∧ coalHdr.numNlos ≤ v5MaxNlos ∧
      (∃ pkts, checkNlPairs coalHdr.nlPairs 0 0 0 = some (mask, pkts)) ∧
      ∃ stats, port' = { port with stats := stats } := by
  obtain ⟨stats, hstats⟩ := checkCoalHeader_stats port (some dev) coalHdr
  rw [h] at hstats
  unfold checkCoalHeader at h
  split at h
  · cases h
  · rename_i hn
    split at h
    · cases h
    · rename_i mask' pkts hpairs
      cases (Prod.mk.inj h).2
      exact ⟨by omega, by omega, ⟨pkts, hpairs⟩, stats, hstats⟩

/-! ### The packets of the frame -/

theorem runPairs_counts {hlen : ℕ} {pairs : List NlPair} {runs : List (List Packet)}
    (h : List.Forall₂ (RunPair hlen) pairs runs) : pairs.map NlPair.numPackets = runs.map List.length := by
  induction h with
  | nil => rfl
  | cons hp _ ih => rw [List.map_cons, List.map_cons, hp.count, ih]

theorem framePackets_runs_length {hlen : ℕ} {pairs : List NlPair} {runs : List (List Packet)}
    (h : List.Forall₂ (RunPair hlen) pairs runs) (nlo mask : ℕ) :
    (framePackets hlen nlo pairs mask).length = runs.flatten.length := by
  rw [framePackets_length, runPairs_counts h, List.length_flatten]

/-- The packets that the loop sees are the original ones, with their bits of the mask. -/
theorem framePackets_runs {hlen : ℕ} {pairs : List NlPair} {runs : List (List Packet)}
    (h : List.Forall₂ (RunPair hlen) pairs runs) (hlt : ∀ p ∈ pairs, p.pktLen < 65536) :
    ∀ nlo mask k, ((framePackets hlen nlo pairs mask)[k]?).map (fun p => (p.size, p.err))
      = (runs.flatten[k]?).map fun q => (q.payload.length, mask.testBit k) := by
  induction h with
  | nil =>
    intro nlo mask k
    rfl
  | @cons pair run pairs runs hpair _ ih =>
    intro nlo mask k
    rw [framePackets, List.flatten_cons, List.getElem?_append, List.getElem?_append, nloPackets_length,
      hpair.count]
    split
    · rename_i hk
      rw [nloPackets_getElem?, if_pos hk, List.getElem?_eq_getElem hk, Option.map_some, Option.map_some,
        hpair.length _ (List.getElem_mem hk),
        sub16_of_le (by omega) (by rw [← hpair.length _ (List.getElem_mem hk)]; exact hlt pair List.mem_cons_self),
        Nat.add_sub_cancel_left]
    · rename_i hk
      rw [ih (fun p hp => hlt p (List.mem_cons_of_mem _ hp)), Nat.testBit_div_two_pow,
        Nat.sub_add_cancel (by omega)]

theorem payloads_append (ps qs : List Packet) : payloads (ps ++ qs) = payloads ps ++ payloads qs := by
  simp [payloads]

theorem payloads_cons (p : Packet) (ps : List Packet) : payloads (p :: ps) = p.payload ++ payloads ps := rfl

theorem split_at {pkts : List Packet} {k : ℕ} {p : Packet} (h : pkts[k]? = some p) :
    pkts = pkts.take k ++ p :: pkts.drop (k + 1) := by
  obtain ⟨hk, rfl⟩ := List.getElem?_eq_some_iff.mp h
  rw [List.getElem_cons_drop, List.take_append_drop]

/-- A payload lies behind those of the packets before it. -/
theorem payloads_slice {pkts : List Packet} {k : ℕ} {p : Packet} (h : pkts[k]? = some p) :
    ((payloads pkts).drop (payloads (pkts.take k)).length).take p.payload.length = p.payload := by
  have hsplit : payloads pkts = payloads (pkts.take k) ++ (p.payload ++ payloads (pkts.drop (k + 1))) := by
    conv_lhs => rw [split_at h]
    rw [payloads_append, payloads_cons]
  rw [hsplit, List.drop_left, List.take_left]

theorem payloads_length_split {pkts : List Packet} {k : ℕ} {p : Packet} (h : pkts[k]? = some p) :
    (payloads pkts).length
      = (payloads (pkts.take k)).length + p.payload.length + (payloads (pkts.drop (k + 1))).length := by
  conv_lhs => rw [split_at h]
  rw [payloads_append, payloads_cons, List.length_append, List.length_append, Nat.add_assoc]

/-- The payload sizes of the packets that the loop sees. -/
theorem pktBytes_take {pkts : List Pkt} {orig : List Packet} {mask : ℕ}
    (h : ∀ k, (pkts[k]?).map (fun p => (p.size, p.err))
      = (orig[k]?).map fun q => (q.payload.length, mask.testBit k)) (n : ℕ) :
    pktBytes (pkts.take n) = (payloads (orig.take n)).length := by
  have hsizes : pkts.map Pkt.size = orig.map fun q => q.payload.length := by
    apply List.ext_getElem?
    intro k
    have hk := congrArg (Option.map Prod.fst) (h k)
    rw [Option.map_map, Option.map_map] at hk
    rw [List.getElem?_map, List.getElem?_map]
    exact hk
  unfold pktBytes payloads
  rw [List.map_take, hsizes, List.length_flatten, List.map_map, List.map_take]
  rfl

/-- The plan without GRO is one emission for each original packet. -/
theorem plan_runs {hlen : ℕ} {pairs : List NlPair} {runs : List (List Packet)}
    (h : List.Forall₂ (RunPair hlen) pairs runs) (hlt : ∀ p ∈ pairs, p.pktLen < 65536)
    (hcount : runs.flatten.length ≤ v5MaxPackets) (mask k : ℕ) :
    (segmentPlan false hlen pairs mask).out[k]? = runs.flatten[k]?.map fun q =>
      ⟨(payloads (runs.flatten.take k)).length, q.payload.length, 1, k, !mask.testBit k⟩ := by
  have hpk := framePackets_runs h hlt 0 mask
  have hmax : v5MaxPackets = 48 := rfl
  rw [(plan_single hlen pairs mask).1]
  by_cases hk : k < runs.flatten.length
  · rw [perPacket_getElem? _ _ _ _ (by omega), pktBytes_take hpk, Nat.zero_add, Nat.zero_add]
    have hk' := hpk k
    cases hp : (framePackets hlen 0 pairs mask)[k]? with
    | none =>
      rw [hp, List.getElem?_eq_getElem hk] at hk'
      cases hk'
    | some p =>
      rw [hp, List.getElem?_eq_getElem hk] at hk'
      simp only [Option.map_some, Option.some.injEq, Prod.mk.injEq] at hk'
      rw [List.getElem?_eq_getElem hk, Option.map_some, Option.map_some, hk'.1, hk'.2]
  · have hnone : runs.flatten[k]? = none := List.getElem?_eq_none (by omega)
    rw [hnone, Option.map_none]
    apply List.getElem?_eq_none
    rw [perPacket_length, framePackets_runs_length h]
    omega

/-! ### The headers of the segments -/

theorem flags_split (x : ℕ) (hx : x < 256) : x = (x &&& 0xF6) ||| (x &&& 9) := by
  rw [← Nat.and_or_distrib_left, show (0xF6 : ℕ) ||| 9 = 2 ^ 8 - 1 from rfl,
    Nat.and_two_pow_sub_one_of_lt_two_pow hx]

theorem finPsh_iff (x : ℕ) : (x.testBit 0 || x.testBit 3) = false ↔ x &&& 9 = 0 := by
  have hsplit : x &&& 9 = (x.testBit 0).toNat * 2 ^ 0 ||| (x.testBit 3).toNat * 2 ^ 3 := by
    rw [show (9 : ℕ) = 2 ^ 0 ||| 2 ^ 3 from rfl, Nat.and_or_distrib_left, Nat.and_two_pow, Nat.and_two_pow]
  rw [hsplit]
  cases x.testBit 0 <;> cases x.testBit 3 <;> decide

/-- The flags byte of the coalesced header. -/
theorem mixed_flags (x y : ℕ) : ((x &&& 0xF6) ||| (y &&& 9)) &&& 0xF6 = x &&& 0xF6 ∧
    ((x &&& 0xF6) ||| (y &&& 9)) &&& 9 = y &&& 9 := by
  constructor
  · rw [Nat.and_or_distrib_right, Nat.and_assoc, Nat.and_assoc]
    show (x &&& 0xF6) ||| (y &&& 0) = _
    rw [Nat.and_zero, Nat.or_zero]
  · rw [Nat.and_or_distrib_right, Nat.and_assoc, Nat.and_assoc]
    show (x &&& 0) ||| (y &&& 9) = _
    rw [Nat.and_zero, Nat.zero_or]

theorem mixed_flags_lt (x y : ℕ) : ((x &&& 0xF6) ||| (y &&& 9)) < 256 :=
  Nat.or_lt_two_pow (n := 8) (Nat.lt_of_le_of_lt Nat.and_le_right (by decide))
    (Nat.lt_of_le_of_lt Nat.and_le_right (by decide))

theorem coalescedHeader_length (m : CoalMeta) (first last : Bytes) :
    (coalescedHeader m first last).length = first.length := by
  unfold coalescedHeader
  split
  · exact overwrite_length _ _ _
  · rfl

/-- The coalesced header differs from the first packet's in the flags byte. -/
theorem byteAt_coalescedHeader {m : CoalMeta} {first : Bytes} (last : Bytes) {i : ℕ} (hi : i < first.length)
    (hne : m.transProto = ipprotoTcp → i ≠ m.ipLen + 13) :
    byteAt (coalescedHeader m first last) i = byteAt first i := by
  unfold coalescedHeader
  split
  · rename_i htcp
    rw [byteAt_overwrite _ _ _ hi, if_neg (by have := hne htcp; simp only [List.length_singleton]; omega)]
  · rfl

theorem flagsByte_coalescedHeader {m : CoalMeta} {first : Bytes} (last : Bytes)
    (htcp : m.transProto = ipprotoTcp) (hi : m.ipLen + 13 < first.length) :
    flagsByte m (coalescedHeader m first last) = flagsByte m first &&& 0xF6 ||| flagsByte m last &&& 9 := by
  unfold coalescedHeader
  rw [if_pos htcp]
  show byteAt _ (m.ipLen + 13) = _
  rw [byteAt_overwrite _ _ _ hi, if_pos (by simp), Nat.sub_self]
  have hlt := mixed_flags_lt (flagsByte m first) (flagsByte m last)
  show (UInt8.ofNat _).toNat = _
  rw [UInt8.toNat_ofNat', Nat.mod_eq_of_lt hlt]

theorem headerBytes_segDesc_length {coal : RmnetFragDescriptor} {m : CoalMeta} (hc : Measured coal m)
    (hlen : m.hlen ≤ coal.bytes.length) (a : ℕ) (e : Emission) :
    (segDesc coal m a e).headerBytes.length = m.hlen := by
  rw [headerBytes_segDesc hc hlen a e, length_ite_overwrite, length_ite_overwrite, length_ite_overwrite,
    List.length_take_of_le hlen]

/-- A segment that is to be packet `k` of a stream, with header `h`. -/
structure SegmentOf (m : CoalMeta) (first last : Bytes) (coal : RmnetFragDescriptor) (k : ℕ) (h : Bytes)
    (e : Emission) : Prop where
  measured : Measured coal m
  wellFormed : m.WellFormed (coalescedHeader m first last)
  bytes : coal.bytes.take m.hlen = coalescedHeader m first last
  follows : FollowsFirst m first k e.off h
  pktId : e.pktId = k

section

variable {m : CoalMeta} {first last : Bytes} {coal : RmnetFragDescriptor} {k : ℕ} {h : Bytes} {e : Emission}

theorem SegmentOf.first_length (hs : SegmentOf m first last coal k h e) : first.length = m.hlen := by
  rw [← coalescedHeader_length m first last]
  exact hs.wellFormed.length

theorem SegmentOf.hlen_le (hs : SegmentOf m first last coal k h e) : m.hlen ≤ coal.bytes.length := by
  rw [← hs.wellFormed.length, ← hs.bytes]
  exact List.length_take_le' _ _

theorem SegmentOf.tcp_le (hs : SegmentOf m first last coal k h e) (ht : m.transProto = ipprotoTcp) :
    m.ipLen + 20 ≤ m.hlen := by
  rw [← hs.wellFormed.length]
  exact (coalMeta_measures hs.wellFormed.measured).tcp ht

theorem SegmentOf.byte_coalesced (hs : SegmentOf m first last coal k h e) {i : ℕ} (hi : i < m.hlen) :
    byteAt coal.bytes i = byteAt (coalescedHeader m first last) i := by
  rw [← hs.bytes, byteAt_take hi]

/-- Its headers are copied from those of the first packet, but for the flags. -/
theorem SegmentOf.byte_first (hs : SegmentOf m first last coal k h e) {i : ℕ} (hi : i < m.hlen)
    (hne : m.transProto = ipprotoTcp → i ≠ m.ipLen + 13) : byteAt coal.bytes i = byteAt first i := by
  rw [hs.byte_coalesced hi, byteAt_coalescedHeader last (by rw [hs.first_length]; exact hi) hne]

/-- The flags byte of a segment. -/
theorem SegmentOf.byte_flags (hs : SegmentOf m first last coal k h e) (a : ℕ) (ht : m.transProto = ipprotoTcp) :
    byteAt (segDesc coal m a e).headerBytes (m.ipLen + 13)
      = if clearsFlags m coal.bytes e then flagsByte m first &&& 0xF6
        else flagsByte m first &&& 0xF6 ||| flagsByte m last &&& 9 := by
  have hin := hs.tcp_le ht
  have hfirst := hs.first_length
  have h4 := hs.wellFormed.v4
  have hmix := flagsByte_coalescedHeader last ht (show m.ipLen + 13 < first.length by omega)
  rw [byteAt_headerBytes hs.measured h4 hs.hlen_le a e (by omega), if_neg (by omega), if_neg (by omega),
    hs.byte_coalesced (by omega), show byteAt (coalescedHeader m first last) (m.ipLen + 13) = _ from hmix,
    (mixed_flags _ _).1]
  simp only [and_true]

/-- The bytes of the IP id of a segment. -/
theorem SegmentOf.byte_ipId (hs : SegmentOf m first last coal k h e) (a : ℕ) {i : ℕ} (hip : m.ipProto = 4)
    (hi : 4 ≤ i ∧ i < 6) : byteAt (segDesc coal m a e).headerBytes i = byteAt h i := by
  have h4 := hs.wellFormed.v4 hip
  have hle : m.ipLen ≤ m.hlen := Nat.le_add_right _ _
  have hId : be16At coal.bytes 4 = be16At first 4 := by
    rw [be16At, be16At, hs.byte_first (by omega) (by omega), hs.byte_first (by omega) (by omega)]
  rw [byteAt_headerBytes hs.measured hs.wellFormed.v4 hs.hlen_le a e (by omega), if_pos ⟨hip, hi⟩, hId, hs.pktId,
    byteAt_be16_of_eq (hs.follows.ipId hip) _ (by omega)]
  congr 1
  omega

/-- The bytes of the sequence number of a segment. -/
theorem SegmentOf.byte_seq (hs : SegmentOf m first last coal k h e) (a : ℕ) {i : ℕ}
    (ht : m.transProto = ipprotoTcp) (hi : m.ipLen + 4 ≤ i ∧ i < m.ipLen + 8) :
    byteAt (segDesc coal m a e).headerBytes i = byteAt h i := by
  have hin := hs.tcp_le ht
  have h4 := hs.wellFormed.v4
  have hSeq : be32At coal.bytes (m.ipLen + 4) = be32At first (m.ipLen + 4) := by
    have hb : ∀ j, j < 4 → byteAt coal.bytes (m.ipLen + 4 + j) = byteAt first (m.ipLen + 4 + j) :=
      fun j hj => hs.byte_first (by omega) (by omega)
    have h₀ := hb 0 (by omega)
    have h₁ := hb 1 (by omega)
    have h₂ := hb 2 (by omega)
    have h₃ := hb 3 (by omega)
    simp only [be32At, be16At, Nat.add_assoc] at h₀ h₁ h₂ h₃ ⊢
    rw [h₀, h₁, h₂, h₃]
  rw [byteAt_headerBytes hs.measured h4 hs.hlen_le a e (by omega), if_neg (by omega), if_pos ⟨ht, hi⟩, hSeq,
    byteAt_be32_of_eq (hs.follows.seq ht) _ (by omega)]
  congr 1
  omega

/-- Any other byte of the headers of a segment, but for the lengths and the flags. -/
theorem SegmentOf.byte_rest (hs : SegmentOf m first last coal k h e) (a : ℕ) {i : ℕ} (hi : i < m.hlen)
    (hni : i ∉ lengthFields m) (hid : ¬ (m.ipProto = 4 ∧ 4 ≤ i ∧ i < 6))
    (hsq : ¬ (m.transProto = ipprotoTcp ∧ m.ipLen + 4 ≤ i ∧ i < m.ipLen + 8))
    (h13 : ¬ (m.transProto = ipprotoTcp ∧ i = m.ipLen + 13)) :
    byteAt (segDesc coal m a e).headerBytes i = byteAt h i := by
  have hkept : ¬ (clearsFlags m coal.bytes e = true ∧ i = m.ipLen + 13) := by
    rintro ⟨hc, hi13⟩
    simp only [clearsFlags, Bool.and_eq_true, decide_eq_true_eq] at hc
    exact h13 ⟨hc.1.1, hi13⟩
  rw [byteAt_headerBytes hs.measured hs.wellFormed.v4 hs.hlen_le a e hi, if_neg hid, if_neg hsq, if_neg hkept,
    hs.byte_first hi fun ht hi13 => h13 ⟨ht, hi13⟩]
  refine (hs.follows.same.2 i fun hmem => ?_).symm
  rcases List.mem_append.mp hmem with hmem | hmem
  · exact hni hmem
  · unfold streamFields at hmem
    rcases List.mem_append.mp hmem with hmem | hmem
    · split at hmem
      · simp only [List.mem_cons, List.not_mem_nil, or_false] at hmem
        omega
      · cases hmem
    · split at hmem
      · simp only [List.mem_cons, List.not_mem_nil, or_false] at hmem
        omega
      · cases hmem

/-- The headers of a segment are those of the original packet, if the flags are. -/
theorem SegmentOf.same_iff (hs : SegmentOf m first last coal k h e) (a : ℕ) :
    SameExcept (lengthFields m) (segDesc coal m a e).headerBytes h ↔
      (m.transProto = ipprotoTcp →
        (if clearsFlags m coal.bytes e then flagsByte m first &&& 0xF6
          else flagsByte m first &&& 0xF6 ||| flagsByte m last &&& 9) = flagsByte m h) := by
  have h4 := hs.wellFormed.v4
  have hseg := headerBytes_segDesc_length hs.measured hs.hlen_le a e
  have hhl : h.length = m.hlen := by rw [hs.follows.same.1, hs.first_length]
  constructor
  · intro hsame ht
    rw [← hs.byte_flags a ht, flagsByte]
    apply hsame.2
    unfold lengthFields
    rw [if_pos ht]
    split
    · have := h4 ‹_›
      simp only [List.mem_append, List.mem_cons, List.not_mem_nil, or_false]
      omega
    · simp only [List.mem_append, List.mem_cons, List.not_mem_nil, or_false]
      omega
  · intro hfl
    refine ⟨by rw [hseg, hhl], fun i hni => ?_⟩
    by_cases hi : i < m.hlen
    · by_cases h13 : m.transProto = ipprotoTcp ∧ i = m.ipLen + 13
      · rw [h13.2, hs.byte_flags a h13.1, hfl h13.1]
        rfl
      · by_cases hid : m.ipProto = 4 ∧ 4 ≤ i ∧ i < 6
        · exact hs.byte_ipId a hid.1 hid.2
        · by_cases hsq : m.transProto = ipprotoTcp ∧ m.ipLen + 4 ≤ i ∧ i < m.ipLen + 8
          · exact hs.byte_seq a hsq.1 hsq.2
          · exact hs.byte_rest a hi hni hid hsq h13
    · rw [byteAt_of_length_le (by rw [hseg]; omega), byteAt_of_length_le (by omega)]

end

/-! ### The frame -/

section Frame

variable {m : CoalMeta} {runs : List (List Packet)} {first last : Packet} {hd ip : Bytes}

theorem CoalescedFrom.coalMeta_ip (h : CoalescedFrom m runs first last hd ip) : coalMeta ip = some m := by
  rw [h.packet]
  exact coalMeta_append _ h.wellFormed.measured

theorem CoalescedFrom.ip_length (h : CoalescedFrom m runs first last hd ip) :
    ip.length = m.hlen + (payloads runs.flatten).length := by
  rw [h.packet, List.length_append, h.wellFormed.length]

/-- The pairs count the packets, so the header is accepted. -/
theorem CoalescedFrom.accepted (h : CoalescedFrom m runs first last hd ip) (port : RmnetPort)
    (dev : NetDevice) :
    ∃ stats mask, checkCoalHeader port (some dev) (coalHeaderOf hd) = ({ port with stats := stats }, some mask) ∧
      ∀ k, k < 48 → mask.testBit k = errBit (coalHeaderOf hd) k := by
  have hsplit : ((coalHeaderOf hd).nlPairs.map NlPair.numPackets).sum = runs.flatten.length := by
    have hunused : (((coalHeaderOf hd).nlPairs.drop runs.length).map NlPair.numPackets).sum = 0 := by
      apply List.sum_eq_zero
      intro x hx
      obtain ⟨p, hp, rfl⟩ := List.mem_map.mp hx
      exact h.unused p hp
    conv_lhs => rw [← List.take_append_drop runs.length (coalHeaderOf hd).nlPairs]
    rw [List.map_append, List.sum_append, runPairs_counts h.used, hunused, List.length_flatten, Nat.add_zero]
  have hrange : ¬ ((coalHeaderOf hd).numNlos = 0 ∨ v5MaxNlos < (coalHeaderOf hd).numNlos) := by
    rw [h.numNlos]
    have hlen := h.used.length_eq
    have h6 : (coalHeaderOf hd).nlPairs.length = v5MaxNlos := V5CoalHeader.parse_nlPairs_length _
    rw [List.length_take, h6] at hlen
    have hne : runs.length ≠ 0 := by
      intro hz
      rw [List.length_eq_zero_iff.mp hz] at h
      cases h.isFirst
    omega
  obtain ⟨mask, pkts, hcheck⟩ := checkNlPairs_accepts (coalHeaderOf hd).nlPairs 0 0 0
    (by rw [hsplit, Nat.zero_add]; exact h.count)
  cases hres : checkCoalHeader port (some dev) (coalHeaderOf hd) with
  | mk port' r =>
    have hr : r = some mask := by
      unfold checkCoalHeader at hres
      rw [if_neg hrange, hcheck] at hres
      exact (Prod.mk.inj hres).2.symm
    subst hr
    obtain ⟨-, -, -, stats, rfl⟩ := checkCoalHeader_some hres
    refine ⟨stats, mask, rfl, ?_⟩
    intro k _
    rw [checkNlPairs_testBit _ _ _ _ _ _ (coalHeaderOf_bitmap hd) hcheck k]
    simp [errBit]

/-- Every emission of the frame lies inside it. -/
theorem CoalescedFrom.planFits (h : CoalescedFrom m runs first last hd ip) (mask : ℕ) :
    PlanFits m.hlen ip.length
      (segmentPlan false m.hlen (framePairs hd) mask) := by
  have hlt : ∀ p ∈ (coalHeaderOf hd).nlPairs.take runs.length, p.pktLen < 65536 :=
    fun p hp => coalHeaderOf_pktLen hd p (List.mem_of_mem_take hp)
  rw [framePairs, h.numNlos]
  constructor
  · intro e he
    obtain ⟨k, hk⟩ := List.mem_iff_getElem?.mp he
    rw [plan_runs h.used hlt h.count] at hk
    obtain ⟨p, hp, rfl⟩ := Option.map_eq_some_iff.mp hk
    have hsplit := payloads_length_split hp
    rw [h.ip_length]
    simp only
    omega
  · have hpeak := (plan_single m.hlen ((coalHeaderOf hd).nlPairs.take runs.length) mask).2
    rw [framePackets_runs_length h.used] at hpeak
    have hcount := h.count
    have hmax : v5MaxPackets = 48 := rfl
    omega

/-- The descriptors restore the packets, one for one. -/
def RestoresAll (m : CoalMeta) (coalHdr : V5CoalHeader) (pkts : List Packet)
    (out : List RmnetFragDescriptor) : Prop :=
  out.length = pkts.length ∧
    ∀ k p d, pkts[k]? = some p → out[k]? = some d → Restores m p (errBit coalHdr k) d

/-- The last of several TCP packets has FIN or PSH set and no payload. -/
def BareLast (m : CoalMeta) (pkts : List Packet) (last : Packet) : Prop :=
  m.transProto = ipprotoTcp ∧ 2 ≤ pkts.length ∧ last.payload = [] ∧
    (tcpFin (last.header.drop m.ipLen) || tcpPsh (last.header.drop m.ipLen)) = true

theorem finPsh_flagsByte (m : CoalMeta) (h : Bytes) :
    (tcpFin (h.drop m.ipLen) || tcpPsh (h.drop m.ipLen)) = false ↔ flagsByte m h &&& 9 = 0 := by
  rw [tcpFin, tcpPsh, byteAt_drop]
  exact finPsh_iff _

/-- FIN and PSH are cleared from a segment when they are set and there is payload behind it. -/
theorem CoalescedFrom.clears_iff (h : CoalescedFrom m runs first last hd ip)
    (htcp : m.transProto = ipprotoTcp) {k : ℕ} {p : Packet} (hp : runs.flatten[k]? = some p) (i : ℕ)
    (c : Bool) :
    clearsFlags m ip ⟨(payloads (runs.flatten.take k)).length, p.payload.length, 1, i, c⟩ = true ↔
      flagsByte m last.header &&& 9 ≠ 0 ∧ 0 < (payloads (runs.flatten.drop (k + 1))).length := by
  have hlen := h.wellFormed.length
  have hin : m.ipLen + 20 ≤ m.hlen := by
    rw [← hlen]
    exact (coalMeta_measures h.wellFormed.measured).tcp htcp
  have hfirst : m.ipLen + 13 < first.header.length := by
    rw [← coalescedHeader_length m first.header last.header, hlen]
    omega
  have hflags : flagsByte m ip = flagsByte m first.header &&& 0xF6 ||| flagsByte m last.header &&& 9 := by
    rw [← flagsByte_coalescedHeader last.header htcp hfirst, h.packet]
    exact byteAt_append_left _ (by rw [hlen]; omega)
  have hsplit := payloads_length_split hp
  have hfp := finPsh_flagsByte m ip
  rw [hflags, (mixed_flags _ _).2] at hfp
  unfold clearsFlags
  rw [Bool.and_eq_true, Bool.and_eq_true, decide_eq_true_eq, decide_eq_true_eq, h.ip_length,
    ← Bool.not_eq_false, hfp]
  constructor
  · rintro ⟨⟨-, hne⟩, hlt⟩
    simp only at hlt
    exact ⟨hne, by omega⟩
  · rintro ⟨hne, hpos⟩
    exact ⟨⟨htcp, hne⟩, by simp only; omega⟩

/-- The segment of an original packet restores it, unless FIN or PSH of the last packet stays on it. -/
theorem CoalescedFrom.restores_iff (h : CoalescedFrom m runs first last hd ip)
    {coal : RmnetFragDescriptor} (hcoal : Measured coal m) (hbytes : coal.bytes = ip) {k : ℕ} {p : Packet}
    (hp : runs.flatten[k]? = some p) (a : ℕ) (err : Bool) :
    Restores m p err
        (segDesc coal m a ⟨(payloads (runs.flatten.take k)).length, p.payload.length, 1, k, !err⟩) ↔
      ¬ (m.transProto = ipprotoTcp ∧ k + 1 < runs.flatten.length ∧ flagsByte m last.header &&& 9 ≠ 0 ∧
        (payloads (runs.flatten.drop (k + 1))).length = 0) := by
  set e : Emission := ⟨(payloads (runs.flatten.take k)).length, p.payload.length, 1, k, !err⟩ with he
  have hlen := h.wellFormed.length
  have hfol := h.stream.follows k p hp
  have hseg : SegmentOf m first.header last.header coal k p.header e :=
    ⟨hcoal, h.wellFormed, by rw [hbytes, h.packet, ← hlen, List.take_left], hfol, rfl⟩
  have hpay : (segDesc coal m a e).payloadBytes = p.payload := by
    unfold RmnetFragDescriptor.payloadBytes
    rw [segDesc_bytes, hbytes]
    show List.drop (coal.ipLen + coal.transLen) _ = _
    have htake : (ip.take m.hlen).length = m.hlen :=
      List.length_take_of_le (by rw [h.ip_length]; omega)
    rw [hcoal.ipLen, hcoal.transLen, show m.ipLen + m.transLen = (ip.take m.hlen).length from htake.symm,
      List.drop_left, h.packet, ← List.drop_drop, ← hlen, List.drop_left, he, Nat.mul_one]
    exact payloads_slice hp
  have hrest : Restores m p err (segDesc coal m a e) ↔
      SameExcept (lengthFields m) (segDesc coal m a e).headerBytes p.header :=
    ⟨Restores.header, fun hh => ⟨hh, hpay, rfl, rfl, rfl⟩⟩
  rw [hrest, hseg.same_iff a, hbytes]
  by_cases htcp : m.transProto = ipprotoTcp
  · have hclear := h.clears_iff htcp hp k (!err)
    rw [← he] at hclear
    have hlt : flagsByte m p.header < 256 := byteAt_lt _ _
    have hmask := hfol.flags htcp
    simp only [htcp, true_and, forall_const]
    by_cases hk : k + 1 < runs.flatten.length
    · -- a packet before the last one has neither flag
      have hzero := h.stream.onlyLast htcp k p hp hk
      have hp6 : flagsByte m p.header = flagsByte m first.header &&& 0xF6 := by
        rw [flags_split _ hlt, hzero, Nat.or_zero, hmask]
      by_cases hF : flagsByte m last.header &&& 9 = 0
      · have hc : ¬ clearsFlags m ip e = true := fun hc => (hclear.mp hc).1 hF
        simp [hc, hF, hp6]
      · by_cases hbehind : (payloads (runs.flatten.drop (k + 1))).length = 0
        · have hc : ¬ clearsFlags m ip e = true := fun hc => by have := (hclear.mp hc).2; omega
          simp only [hc, hk, hF, hbehind, ne_eq, not_false_eq_true, and_self, not_true, iff_false]
          intro heq
          rw [if_neg Bool.false_ne_true] at heq
          have h9 := congrArg (· &&& 9) heq
          simp only [(mixed_flags _ _).2, hzero] at h9
          exact hF h9
        · have hc : clearsFlags m ip e = true := hclear.mpr ⟨hF, Nat.pos_of_ne_zero hbehind⟩
          simp [hc, hp6, hbehind]
    · -- the last packet
      have hlast : p = last := by
        have hl := h.isLast
        rw [List.getLast?_eq_getElem?] at hl
        obtain ⟨hkl, -⟩ := List.getElem?_eq_some_iff.mp hp
        rw [show runs.flatten.length - 1 = k by omega, hp] at hl
        exact Option.some.inj hl
      have hbehind : (payloads (runs.flatten.drop (k + 1))).length = 0 := by
        rw [List.drop_eq_nil_of_le (by omega)]
        rfl
      have hc : ¬ clearsFlags m ip e = true := fun hc => by have := (hclear.mp hc).2; omega
      simp only [hc, hk, false_and, not_false_eq_true, iff_true]
      rw [if_neg Bool.false_ne_true, ← hmask, ← hlast]
      exact (flags_split _ hlt).symm
  · simp [htcp]

/-- Some packet before the last one has no payload behind it exactly when the last one has none. -/
theorem CoalescedFrom.bareLast_iff (h : CoalescedFrom m runs first last hd ip) :
    (∀ k, k < runs.flatten.length →
      ¬ (m.transProto = ipprotoTcp ∧ k + 1 < runs.flatten.length ∧ flagsByte m last.header &&& 9 ≠ 0 ∧
        (payloads (runs.flatten.drop (k + 1))).length = 0)) ↔ ¬ BareLast m runs.flatten last := by
  have hl := h.isLast
  constructor
  · rintro hall ⟨htcp, htwo, hempty, hflags⟩
    refine hall (runs.flatten.length - 2) (by omega) ⟨htcp, by omega, ?_, ?_⟩
    · rw [ne_eq, ← finPsh_flagsByte, hflags]
      exact Bool.true_eq_false_eq_False
    · have hdrop : runs.flatten.drop (runs.flatten.length - 2 + 1) = [last] := by
        obtain ⟨init, hinit⟩ : ∃ init, runs.flatten = init ++ [last] := by
          exact ⟨_, (List.dropLast_append_getLast? last hl).symm⟩
        rw [hinit, List.length_append, List.length_singleton] at htwo ⊢
        rw [show init.length + 1 - 2 + 1 = init.length by omega, List.drop_left]
      rw [hdrop, payloads_cons, hempty]
      rfl
  · rintro hbare k hk ⟨htcp, hk1, hflags, hbehind⟩
    refine hbare ⟨htcp, by omega, ?_, ?_⟩
    · have hmem : last ∈ runs.flatten.drop (k + 1) := by
        have hlast' : (runs.flatten.drop (k + 1)).getLast? = some last := by
          rw [List.getLast?_drop, if_neg (by omega), hl]
        exact List.mem_of_getLast? hlast'
      obtain ⟨s, t, hst⟩ := List.append_of_mem hmem
      rw [hst, payloads_append, payloads_cons, List.length_append, List.length_append] at hbehind
      exact List.length_eq_zero_iff.mp (by omega)
    · rw [← Bool.not_eq_false, finPsh_flagsByte]
      exact hflags

/-- The descriptors of the frame: one for each packet, cut from the same measured descriptor. -/
theorem CoalescedFrom.segments {port : RmnetPort} (halloc : port.AllocOk)
    (h : CoalescedFrom m runs first last hd ip) {frags : List SkbFrag} (hf : CoalFrame frags hd ip) (a : ℕ)
    {dev : NetDevice} (hgro : dev.groHw = false)
    (hbuggy : (rmnetMapV5CsumBuggy (coalHeaderOf hd) && !m.zeroCsum) = false) :
    ∃ port' mask coal, rmnetFragDataCheckCoalHeader port (frameDesc a frags dev) = (port', some mask) ∧
      Measured coal m ∧ coal.bytes = ip ∧
      (rmnetFragSegmentCoalData port' (frameDesc a frags dev) mask []).list.length = runs.flatten.length ∧
      ∀ k p, runs.flatten[k]? = some p → ∃ b,
        (rmnetFragSegmentCoalData port' (frameDesc a frags dev) mask []).list[k]?
          = some (segDesc coal m b ⟨(payloads (runs.flatten.take k)).length, p.payload.length, 1, k,
              !errBit (coalHeaderOf hd) k⟩) := by
  obtain ⟨stats, mask, hcheck, hmask⟩ := h.accepted port dev
  have halloc' : ({ port with stats := stats } : RmnetPort).AllocOk := halloc
  have hgro' : (dev.groHw && m.plain) = false := by rw [hgro, Bool.false_and]
  obtain ⟨frags', descs, hb, hlist, hdescs, -⟩ := segmentCoalData_plan halloc' hf a dev h.coalMeta_ip mask []
    hbuggy (by rw [hgro]; simp) (by rw [hgro']; exact h.planFits mask)
  rw [hgro', framePairs, h.numNlos] at hdescs
  have hlt : ∀ p ∈ (coalHeaderOf hd).nlPairs.take runs.length, p.pktLen < 65536 :=
    fun p hp => coalHeaderOf_pktLen hd p (List.mem_of_mem_take hp)
  have hcoal : Measured (measuredDesc a frags' dev m) m :=
    measuredDesc_measured (by rw [← fragsBytes_length, hb]; exact hf.ip_length)
      (by rw [hb]; exact h.coalMeta_ip)
  refine ⟨{ port with stats := stats }, mask, measuredDesc a frags' dev m, ?_, hcoal, hb, ?_, ?_⟩
  · rw [dataCheckCoalHeader_eq port hf a dev, hcheck]
  · rw [hlist, List.nil_append, hdescs.length_eq, (plan_single _ _ _).1, perPacket_length,
      framePackets_runs_length h.used]
  · intro k p hp
    have hk : k < runs.flatten.length := (List.getElem?_eq_some_iff.mp hp).1
    have hcount := h.count
    have hmax : v5MaxPackets = 48 := rfl
    have hplan := plan_runs h.used hlt h.count mask k
    rw [hp, Option.map_some, hmask k (by omega)] at hplan
    obtain ⟨hkp, hval⟩ := List.getElem?_eq_some_iff.mp hplan
    have hkd : k < descs.length := by rw [hdescs.length_eq]; exact hkp
    obtain ⟨b, hd⟩ := hdescs.get hkd hkp
    refine ⟨b, ?_⟩
    rw [hlist, List.nil_append, List.getElem?_eq_getElem hkd, ← hval]
    exact congrArg some hd

/-- **Un-coalescing inverts coalescing**, but for a bare last packet.  Take a frame made from the packets
of a stream, in any fragmentation, on a device without GRO.  The header check accepts it, and segmentation
emits one descriptor a packet, in order, that restores it; exactly when the last packet is not one of
several TCP packets with FIN or PSH set and no payload. -/
theorem uncoalesce_iff {port : RmnetPort} (halloc : port.AllocOk)
    (h : CoalescedFrom m runs first last hd ip) {frags : List SkbFrag} (hf : CoalFrame frags hd ip) (a : ℕ)
    {dev : NetDevice} (hgro : dev.groHw = false)
    (hbuggy : (rmnetMapV5CsumBuggy (coalHeaderOf hd) && !m.zeroCsum) = false) :
    (∃ port' mask, rmnetFragDataCheckCoalHeader port (frameDesc a frags dev) = (port', some mask) ∧
      RestoresAll m (coalHeaderOf hd) runs.flatten
        (rmnetFragSegmentCoalData port' (frameDesc a frags dev) mask []).list) ↔
      ¬ BareLast m runs.flatten last := by
  obtain ⟨port', mask, coal, hcheck, hcoal, hb, hlength, hget⟩ := h.segments halloc hf a hgro hbuggy
  rw [← h.bareLast_iff, hcheck]
  constructor
  · rintro ⟨_, _, heq, hres⟩ k hk
    cases heq
    obtain ⟨b, hd⟩ := hget k _ (List.getElem?_eq_getElem hk)
    exact (h.restores_iff hcoal hb (List.getElem?_eq_getElem hk) b _).mp
      (hres.2 k _ _ (List.getElem?_eq_getElem hk) hd)
  · intro hnot
    refine ⟨port', mask, rfl, hlength, ?_⟩
    intro k p d hp hd
    obtain ⟨b, hd'⟩ := hget k p hp
    rw [hd] at hd'
    rw [Option.some.inj hd']
    exact (h.restores_iff hcoal hb hp b _).mpr (hnot k (List.getElem?_eq_some_iff.mp hp).1)

end Frame

/-! ### Two packets -/

theorem sameExcept_of_lt {fields : List ℕ} {b c : Bytes} (hlen : b.length = c.length)
    (h : ∀ i < b.length, i ∉ fields → byteAt b i = byteAt c i) : SameExcept fields b c := by
  refine ⟨hlen, ?_⟩
  intro i hi
  by_cases hlt : i < b.length
  · exact h i hlt hi
  · rw [byteAt_of_length_le (by omega), byteAt_of_length_le (by omega)]

/-- A TCP header over IPv4, with identification, sequence number and flags. -/
def tcp4Header (id seq flags : UInt8) : Bytes :=
  [0x45, 0, 0, 40, 0, id, 0, 0, 64, 6, 0, 0, 10, 0, 0, 1, 10, 0, 0, 2,
    0, 80, 0, 90, 0, 0, 0, seq, 0, 0, 0, 0, 0x50, flags, 0, 0, 0, 0, 0, 0]

/-- What segmentation learns from it. -/
def tcp4Meta : CoalMeta := ⟨4, 20, 6, 20, true, false⟩

/-- A first packet with three payload bytes. -/
def firstPacket : Packet := ⟨tcp4Header 7 100 0x10, [1, 2, 3]⟩

/-- A last packet with FIN. -/
def finPacket (payload : Bytes) : Packet := ⟨tcp4Header 8 103 0x11, payload⟩

/-- The headers of a frame with these two packets, the second with a checksum error. -/
def finHeaders (payload : Bytes) : Bytes :=
  [0x40, 1, 0, 0] ++ [2, 0x20, 0, 0] ++ [0, 43, 2, 1] ++ [0, UInt8.ofNat (40 + payload.length), 0, 1] ++
    List.replicate 16 0

/-- The packet of the frame. -/
def finFrame (payload : Bytes) : Bytes := tcp4Header 7 100 0x11 ++ ([1, 2, 3] ++ payload)

theorem finFrame_header :
    coalescedHeader tcp4Meta (tcp4Header 7 100 0x10) (tcp4Header 8 103 0x11) = tcp4Header 7 100 0x11 := by
  decide

theorem finPacket_follows :
    FollowsFirst tcp4Meta (tcp4Header 7 100 0x10) 1 3 (tcp4Header 8 103 0x11) where
  same := sameExcept_of_lt rfl (show ∀ i < 40, i ∉ _ → _ by decide)
  ipId _ := by decide
  seq _ := by decide
  flags _ := by decide

theorem firstPacket_follows : FollowsFirst tcp4Meta (tcp4Header 7 100 0x10) 0 0 (tcp4Header 7 100 0x10) where
  same := ⟨rfl, fun _ _ => rfl⟩
  ipId _ := by decide
  seq _ := by decide
  flags _ := rfl

theorem finPacket_coalesced {payload : Bytes}
    (hhdr : (coalHeaderOf (finHeaders payload)).numNlos = 2 ∧
      (coalHeaderOf (finHeaders payload)).nlPairs
        = ⟨43, 2, 1⟩ :: ⟨40 + payload.length, 0, 1⟩ :: List.replicate 4 ⟨0, 0, 0⟩) :
    CoalescedFrom tcp4Meta [[firstPacket], [finPacket payload]] firstPacket (finPacket payload)
      (finHeaders payload) (finFrame payload) where
  isFirst := rfl
  isLast := rfl
  count := show 2 ≤ 48 by omega
  stream := by
    constructor
    · intro k p hp
      match k with
      | 0 =>
        cases hp
        exact firstPacket_follows
      | 1 =>
        cases hp
        exact finPacket_follows
      | k + 2 => cases hp
    · intro _ k p hp hk
      match k with
      | 0 =>
        cases hp
        show byteAt (tcp4Header 7 100 0x10) 33 &&& 9 = 0
        decide
      | k + 1 =>
        have : k + 1 + 1 < 2 := hk
        omega
  wellFormed := by
    show tcp4Meta.WellFormed (coalescedHeader tcp4Meta (tcp4Header 7 100 0x10) (tcp4Header 8 103 0x11))
    rw [finFrame_header]
    exact ⟨by decide, by decide, by decide⟩
  numNlos := hhdr.1
  used := by
    rw [hhdr.2]
    refine .cons ⟨rfl, ?_⟩ (.cons ⟨rfl, ?_⟩ .nil)
    · intro p hp
      rw [List.mem_singleton.mp hp]
      rfl
    · intro p hp
      rw [List.mem_singleton.mp hp]
      rfl
  unused := by
    intro p hp
    rw [hhdr.2] at hp
    rw [(List.mem_replicate.mp (show p ∈ List.replicate 4 _ from hp)).2]
  packet := by
    show _ = coalescedHeader tcp4Meta (tcp4Header 7 100 0x10) (tcp4Header 8 103 0x11) ++
      ([1, 2, 3] ++ (payload ++ []))
    rw [List.append_nil, finFrame_header]
    rfl

/-- A frame in two fragments, the second of which starts inside the IP header. -/
def twoFrags (hd ip : Bytes) : List SkbFrag := [.ofBytes (hd ++ ip.take 7), .ofBytes (ip.drop 7)]

theorem twoFrags_frame {hd ip : Bytes} (hhd : hd.length = mapHeaderSize + v5CoalHeaderSize)
    (hip : 7 < ip.length ∧ ip.length < 65536) : CoalFrame (twoFrags hd ip) hd ip where
  frags_pos := by
    have hlen : hd.length = 32 := hhd
    intro f hf
    simp only [twoFrags, List.mem_cons, List.not_mem_nil, or_false] at hf
    rcases hf with rfl | rfl
    · show 0 < (hd ++ ip.take 7).length
      rw [List.length_append]
      omega
    · show 0 < (ip.drop 7).length
      rw [List.length_drop]
      omega
  bytes := by
    show (SkbFrag.ofBytes _).bytes ++ ((SkbFrag.ofBytes _).bytes ++ []) = _
    rw [SkbFrag.ofBytes_bytes, SkbFrag.ofBytes_bytes, List.append_nil, List.append_assoc,
      List.take_append_drop]
  hd_length := hhd
  ip_ne := by
    intro hnil
    rw [hnil] at hip
    exact absurd hip.1 (by decide)
  ip_length := hip.2

/-- The frame of the two packets. -/
def finFrags (payload : Bytes) : List SkbFrag := twoFrags (finHeaders payload) (finFrame payload)

/-- A device without GRO. -/
def plainDevice : NetDevice := ⟨0, false, true⟩

/-- A port with a fresh pool whose allocations succeed. -/
def freshPort : RmnetPort := rmnetDescriptorInit 0x30 (fun _ => some plainDevice) fun _ => true

/-- The two packets with payload in both come back. -/
theorem uncoalesce_two_packets :
    ∃ port' mask, rmnetFragDataCheckCoalHeader freshPort (frameDesc 0 (finFrags [4, 5]) plainDevice)
        = (port', some mask) ∧
      RestoresAll tcp4Meta (coalHeaderOf (finHeaders [4, 5])) [firstPacket, finPacket [4, 5]]
        (rmnetFragSegmentCoalData port' (frameDesc 0 (finFrags [4, 5]) plainDevice) mask []).list :=
  (uncoalesce_iff (fun _ => rfl) (finPacket_coalesced (by decide)) (twoFrags_frame (by decide) (by decide)) 0 rfl
    (by decide)).mpr (by rintro ⟨-, -, hempty, -⟩; cases hempty)

/-- With an empty last packet, the first segment carries its FIN. -/
theorem uncoalesce_bare_fin :
    ¬ ∃ port' mask, rmnetFragDataCheckCoalHeader freshPort (frameDesc 0 (finFrags []) plainDevice)
        = (port', some mask) ∧
      RestoresAll tcp4Meta (coalHeaderOf (finHeaders [])) [firstPacket, finPacket []]
        (rmnetFragSegmentCoalData port' (frameDesc 0 (finFrags []) plainDevice) mask []).list := by
  have hc : CoalescedFrom tcp4Meta [[firstPacket], [finPacket []]] firstPacket (finPacket [])
      (finHeaders []) (finFrame []) := finPacket_coalesced (by decide)
  have halloc : freshPort.AllocOk := fun _ => rfl
  have hgro : plainDevice.groHw = false := rfl
  have hf : CoalFrame (finFrags []) (finHeaders []) (finFrame []) := twoFrags_frame (by decide) (by decide)
  obtain ⟨port', mask, coal, hcheck, hcoal, hb, -, hget⟩ := hc.segments halloc hf 0 hgro (by decide)
  rintro ⟨_, _, heq, hres⟩
  rw [hcheck] at heq
  cases heq
  obtain ⟨b, hd⟩ := hget 0 firstPacket rfl
  refine (hc.restores_iff hcoal hb rfl b _).mp (hres.2 0 _ _ rfl hd) ⟨rfl, by decide, ?_, rfl⟩
  show byteAt (tcp4Header 8 103 0x11) 33 &&& 9 ≠ 0
  decide

end Rmnet
