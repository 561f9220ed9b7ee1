import Rmnet.Frag.SegmentLoop
import Rmnet.Linear.Segment

/-!
# Two ways of rewriting headers

The fragment path keeps the new identification, sequence number and flags of a packet in its descriptor,
writes them when the buffer is built and patches the IPv4 checksum as it goes; the linear path rewrites
copies of the headers and computes the checksum anew.  Here both are compared on the headers alone: an IP
header `I` followed by a transport header `T`.

* `overrides_split` — the overrides of a descriptor, header by header.
* `ipv4_patched`, `ipv4_recomputed` — the IPv4 header, patched or recomputed, is the one that the linear
  path writes, if the checksum in the frame is valid and not written as ones.
-/

namespace Rmnet

open Word Field Checksum

/-! ### The IPv4 header -/

/-- A complete IPv4 header: all of the bytes, with a valid checksum that is not written as ones. -/
structure Ipv4Header (I : Bytes) : Prop where
  length : 20 ≤ I.length
  ihl : byteAt I 0 % 16 * 4 = I.length
  version : byteAt I 0 / 16 = 4
  valid : csumFold (wordSum I) = 0
  check : be16At I 10 ≠ 65535

/-- The header with a new identification and a new length. -/
def relabel (I : Bytes) (id len : ℕ) : Bytes := overwrite (overwrite I 4 (be16 id)) 2 (be16 len)

/-- The header with its checksum computed. -/
def withChecksum (I : Bytes) : Bytes :=
  overwrite I 10 (be16 (csumFold (wordSum (overwrite I 10 (be16 0)))))

theorem relabel_length (I : Bytes) (id len : ℕ) : (relabel I id len).length = I.length := by
  simp [relabel]

theorem byteAt_relabel_zero {I : Bytes} (h : 20 ≤ I.length) (id len : ℕ) :
    byteAt (relabel I id len) 0 = byteAt I 0 := by
  rw [relabel, byteAt_overwrite _ _ _ (by simp; omega), if_neg (by simp), byteAt_overwrite _ _ _ (by omega),
    if_neg (by simp)]

/-- `ip_fast_csum` of a header with something behind it. -/
theorem ipFastCsum_append {I : Bytes} (T : Bytes) (hpos : 0 < I.length) (h : byteAt I 0 % 16 * 4 = I.length) :
    ipFastCsum (I ++ T) = csumFold (wordSum I) := by
  rw [ipFastCsum, byteAt_append_left T hpos, h, List.take_left]

/-- The header with its checksum, identification and length cleared: what every version of it adds to. -/
theorem Ipv4Header.base {I : Bytes} (h : Ipv4Header I) :
    ∃ r, 0 < r ∧ wordSum I = r + be16At I 4 + be16At I 2 + be16At I 10 ∧
      ∀ id len, id < 65536 → len < 65536 →
        wordSum (overwrite (relabel I id len) 10 (be16 0)) = r + id + len := by
  have hlen := h.length
  have hsum : ∀ id len, id < 65536 → len < 65536 →
      wordSum (overwrite (relabel I id len) 10 (be16 0)) + be16At I 10 + be16At I 2 + be16At I 4
        = wordSum I + id + len := by
    intro id len hid hl
    have h₁ := wordSum_overwrite id 2 I (by omega)
    have h₂ := wordSum_overwrite len 1 (overwrite I 4 (be16 id)) (by simp; omega)
    have h₃ := wordSum_overwrite 0 5 (relabel I id len) (by rw [relabel_length]; omega)
    rw [be16At_overwrite_of_disjoint (by omega) (by simp)] at h₂
    have h₄ : be16At (relabel I id len) 10 = be16At I 10 := by
      rw [relabel, be16At_overwrite_of_disjoint (by simp; omega) (by simp),
        be16At_overwrite_of_disjoint (by omega) (by simp)]
    rw [Nat.mod_eq_of_lt hid] at h₁
    rw [Nat.mod_eq_of_lt hl] at h₂
    simp only [Nat.reduceMul, Nat.zero_mod, Nat.add_zero] at h₁ h₂ h₃
    rw [h₄] at h₃
    rw [relabel] at *
    omega
  refine ⟨wordSum (overwrite (relabel I 0 0) 10 (be16 0)), ?_, ?_, ?_⟩
  · apply wordSum_pos
    rw [byteAt_overwrite _ _ _ (by rw [relabel_length]; omega), if_neg (by simp), byteAt_relabel_zero hlen]
    have := h.version
    omega
  · have h₀ := hsum 0 0 (by omega) (by omega)
    omega
  · intro id len hid hl
    have h₀ := hsum 0 0 (by omega) (by omega)
    have h₁ := hsum id len hid hl
    omega

/-- The descriptor's header before its length is written: patched checksum, new identification. -/
def patchId (I : Bytes) (id : ℕ) : Bytes :=
  overwrite (overwrite I 10 (be16 (csumReplace2 (be16At I 10) (be16At I 4) id))) 4 (be16 id)

/-- **Recomputing**: whatever the checksum field was patched to. -/
theorem ipv4_recomputed (I : Bytes) (id len : ℕ) :
    overwrite (overwrite (patchId I id) 2 (be16 len)) 10 (be16 0)
      = overwrite (relabel I id len) 10 (be16 0) := by
  rw [patchId, relabel, overwrite_comm I (by simp), overwrite_comm _ (i := 10) (j := 2) (by simp),
    overwrite_overwrite _ _ (by simp)]

/-- **Patching**: two incremental updates give the computed checksum. -/
theorem ipv4_patched {I : Bytes} (h : Ipv4Header I) {id len : ℕ} (hid : id < 65536) (hl : len < 65536) :
    overwrite (overwrite (patchId I id) 10
        (be16 (csumReplace2 (be16At (patchId I id) 10) (be16At (patchId I id) 2) len))) 2 (be16 len)
      = withChecksum (relabel I id len) := by
  have hlen := h.length
  obtain ⟨r, hr, hI, hsum⟩ := h.base
  have hc : be16At I 10 < 65535 := by
    have h₁ := be16At_lt I 10
    have h₂ := h.check
    omega
  -- the checksum of the frame is the computed one
  have hold : be16At I 10 = csumFold (r + be16At I 2 + be16At I 4) := by
    refine eq_csumFold (by omega) hc ?_
    rw [← h.valid, hI, Nat.add_right_comm r (be16At I 4)]
  have h2 := be16At_lt I 2
  have h4 := be16At_lt I 4
  have hfirst : csumReplace2 (be16At I 10) (be16At I 4) id = csumFold (r + be16At I 2 + id) := by
    rw [hold]
    exact csumReplace2_csumFold (by omega) (by omega) (by omega)
  have hcheck : be16At (patchId I id) 10 = csumFold (r + id + be16At I 2) := by
    rw [patchId, be16At_overwrite_of_disjoint (by simp; omega) (by simp), be16At_overwrite_self (by omega),
      hfirst, Nat.mod_eq_of_lt (by unfold csumFold; omega), Nat.add_right_comm]
  have htot : be16At (patchId I id) 2 = be16At I 2 := by
    rw [patchId, be16At_overwrite_of_disjoint (by simp; omega) (by simp),
      be16At_overwrite_of_disjoint (by omega) (by simp)]
  have hsecond : csumReplace2 (be16At (patchId I id) 10) (be16At (patchId I id) 2) len
      = csumFold (wordSum (overwrite (relabel I id len) 10 (be16 0))) := by
    rw [hcheck, htot, csumReplace2_csumFold (by omega) (by omega) (by omega), hsum id len hid hl]
  rw [hsecond, withChecksum]
  generalize csumFold (wordSum (overwrite (relabel I id len) 10 (be16 0))) = c
  rw [patchId, relabel, overwrite_comm I (by simp), overwrite_overwrite _ _ (by simp),
    overwrite_comm _ (by simp)]

/-! ### The IP header of either version -/

/-- The identification that a descriptor carries, written. -/
def overrideNetwork (I : Bytes) (ipProto id : ℕ) : Bytes := if ipProto = 4 then patchId I id else I

/-- The IP header that the linear path writes. -/
theorem segmentNetwork_v4 {c : CoalMetadata} {I : Bytes} (h : Ipv4Header I) (h4 : c.ipProto = 4) (len : ℕ) :
    segmentNetwork c I len = withChecksum (relabel I (u16 (be16At I 4 + c.pktId)) len) := by
  have hlen := h.length
  have hihl : byteAt (overwrite (relabel I (u16 (be16At I 4 + c.pktId)) len) 10 (be16 0)) 0 % 16 * 4
      = (overwrite (relabel I (u16 (be16At I 4 + c.pktId)) len) 10 (be16 0)).length := by
    rw [byteAt_overwrite _ _ _ (by rw [relabel_length]; omega), if_neg (by simp), byteAt_relabel_zero hlen,
      overwrite_length, relabel_length, h.ihl]
  have hcsum := ipFastCsum_append [] (by rw [overwrite_length, relabel_length]; omega) hihl
  rw [List.append_nil] at hcsum
  unfold segmentNetwork
  rw [if_pos h4]
  simp only
  have hid : overwrite (overwrite I 4 (be16 (be16At I 4 + c.pktId))) 2 (be16 len)
      = relabel I (u16 (be16At I 4 + c.pktId)) len := by
    rw [relabel, u16, be16_mod]
  rw [hid, hcsum, overwrite_overwrite _ _ (by simp)]
  rfl

/-- The IP header with a good checksum. -/
theorem partialNetwork_eq {c : CoalMetadata} {I : Bytes} (T : Bytes) (len : ℕ)
    (h4 : c.ipProto = 4 → Ipv4Header I) (h6 : c.ipProto ≠ 4 → 40 ≤ I.length) :
    partialNetwork (overrideNetwork I c.ipProto (u16 (be16At I 4 + c.pktId)) ++ T) c.ipProto len
      = segmentNetwork c I len ++ T := by
  by_cases hv : c.ipProto = 4
  · have h := h4 hv
    have hlen := h.length
    have hpatch : (patchId I (u16 (be16At I 4 + c.pktId))).length = I.length := by simp [patchId]
    rw [segmentNetwork_v4 h hv, overrideNetwork, if_pos hv, partialNetwork, if_pos hv]
    simp only
    rw [overwrite_append_left _ _ _ _ (by simp [hpatch]; omega),
      overwrite_append_left _ _ _ _ (by simp [hpatch]; omega), ipv4_recomputed, ipFastCsum_append,
      overwrite_append_left _ _ _ _ (by simp [relabel_length]; omega), overwrite_overwrite _ _ (by simp)]
    · rfl
    · rw [overwrite_length, relabel_length]
      omega
    · rw [byteAt_overwrite _ _ _ (by rw [relabel_length]; omega), if_neg (by simp), byteAt_relabel_zero hlen,
        overwrite_length, relabel_length, h.ihl]
  · have hlen := h6 hv
    rw [overrideNetwork, if_neg hv, partialNetwork, if_neg hv, segmentNetwork, if_neg hv,
      overwrite_append_left _ _ _ _ (by simp; omega)]

/-- The IP header with a bad checksum. -/
theorem badNetwork_eq {c : CoalMetadata} {I : Bytes} (T : Bytes) {len : ℕ} (hl : len < 65536)
    (h4 : c.ipProto = 4 → Ipv4Header I) (h6 : c.ipProto ≠ 4 → 40 ≤ I.length) :
    badNetwork (overrideNetwork I c.ipProto (u16 (be16At I 4 + c.pktId)) ++ T) c.ipProto len
      = segmentNetwork c I len ++ T := by
  by_cases hv : c.ipProto = 4
  · have h := h4 hv
    have hlen := h.length
    have hid : u16 (be16At I 4 + c.pktId) < 65536 := Nat.mod_lt _ (by omega)
    have hpatch : (patchId I (u16 (be16At I 4 + c.pktId))).length = I.length := by simp [patchId]
    rw [segmentNetwork_v4 h hv, ← ipv4_patched h hid hl, overrideNetwork, if_pos hv, badNetwork, if_pos hv]
    simp only
    rw [be16At_append_left _ (by rw [hpatch]; omega), be16At_append_left _ (by rw [hpatch]; omega),
      overwrite_append_left _ _ _ _ (by simp [hpatch]; omega),
      overwrite_append_left _ _ _ _ (by simp [hpatch]; omega), u16_of_lt hl]
  · have hlen := h6 hv
    rw [overrideNetwork, if_neg hv, badNetwork, if_neg hv, segmentNetwork, if_neg hv,
      overwrite_append_left _ _ _ _ (by simp; omega)]

/-- The pseudo header is read from the IP header alone. -/
theorem pseudoSum_append {ipProto : ℕ} {I : Bytes} (T : Bytes) (h4 : ipProto = 4 → 20 ≤ I.length)
    (h6 : ipProto ≠ 4 → 40 ≤ I.length) (len proto : ℕ) :
    pseudoSum ipProto (I ++ T) len proto = pseudoSum ipProto I len proto := by
  have hslice : ∀ off n, off + n ≤ I.length → ((I ++ T).drop off).take n = (I.drop off).take n := by
    intro off n h
    rw [List.drop_append_of_le_length (by omega), List.take_append_of_le_length (by rw [List.length_drop]; omega)]
  unfold pseudoSum
  split
  · rename_i hv
    have := h4 hv
    rw [hslice 12 4 (by omega), hslice 16 4 (by omega)]
  · rename_i hv
    have := h6 hv
    rw [hslice 8 16 (by omega), hslice 24 16 (by omega)]

/-! ### The transport header -/

/-- Clearing the bits of the flag byte is masking the word it is in. -/
theorem clearFlagBits_eq (th : Bytes) :
    clearFlagBits th = overwrite th 12 (be16 (clearFinPsh (be16At th 12))) := by
  unfold clearFlagBits
  apply ext_byteAt (by simp)
  intro i hi
  rw [overwrite_length] at hi
  rw [byteAt_overwrite _ _ _ hi, byteAt_overwrite _ _ _ hi]
  have hone : [UInt8.ofNat (byteAt th 13 &&& 0xF6)].length = 1 := rfl
  have htwo := be16_length (clearFinPsh (be16At th 12))
  have hcases : i < 12 ∨ i = 12 ∨ i = 13 ∨ 14 ≤ i := by omega
  rcases hcases with hlt | rfl | rfl | hge
  · rw [if_neg (by omega), if_neg (by omega)]
  · rw [if_neg (by omega), if_pos (by omega), clearFinPsh_bytes _ _ _ (by omega), if_pos rfl]
  · rw [if_pos (by omega), if_pos (by omega), clearFinPsh_bytes _ _ _ (by omega), if_neg (by omega)]
    have hlt : byteAt th 13 &&& 0xF6 < 256 := Nat.and_lt_two_pow _ (show 0xF6 < 2 ^ 8 by omega)
    exact (UInt8.toNat_ofNat'.trans (Nat.mod_eq_of_lt hlt))
  · rw [if_neg (by omega), if_neg (by omega)]

/-- The sequence number and the flags that a descriptor carries, written. -/
def overrideTransport (T : Bytes) (d : RmnetFragDescriptor) : Bytes :=
  let T := if d.tcpSeqSet then overwrite T 4 (be32 d.tcpSeq) else T
  if d.tcpFlagsSet then overwrite T 12 (be16 d.tcpFlags) else T

/-- The overrides go to one header each. -/
theorem overrides_split {I : Bytes} (T : Bytes) {d : RmnetFragDescriptor} (hI : d.ipLen = I.length)
    (hset : d.ipIdSet = decide (d.ipProto = 4)) (h4 : d.ipProto = 4 → 20 ≤ I.length) :
    fragOverrides (I ++ T) d = overrideNetwork I d.ipProto d.ipId ++ overrideTransport T d := by
  have hnet : (if d.ipIdSet then
        overwrite (overwrite (I ++ T) 10 (be16 (csumReplace2 (be16At (I ++ T) 10) (be16At (I ++ T) 4) d.ipId)))
          4 (be16 d.ipId)
      else I ++ T) = overrideNetwork I d.ipProto d.ipId ++ T := by
    rw [hset, overrideNetwork]
    by_cases hv : d.ipProto = 4
    · have hlen := h4 hv
      rw [if_pos (by simpa using hv), if_pos hv, be16At_append_left T (by omega),
        be16At_append_left T (by omega), overwrite_append_left _ _ _ _ (by simp; omega),
        overwrite_append_left _ _ _ _ (by simp; omega)]
      rfl
    · rw [if_neg (by simpa using hv), if_neg hv]
  have hlen : (overrideNetwork I d.ipProto d.ipId).length = d.ipLen := by
    rw [hI, overrideNetwork]
    split
    · simp [patchId]
    · rfl
  unfold fragOverrides overrideTransport
  simp only
  rw [hnet, ← hlen]
  cases d.tcpSeqSet with
  | false =>
    cases d.tcpFlagsSet with
    | false => rfl
    | true => exact overwrite_append_right _ _ _ _
  | true =>
    simp only [if_true]
    rw [overwrite_append_right]
    cases d.tcpFlagsSet with
    | false => rfl
    | true => exact overwrite_append_right _ _ _ _

/-- The metadata of the linear path for an emission, with the headers at `data`. -/
def emissionMeta (m : CoalMeta) (data : ℕ → UInt8) (e : Emission) : CoalMetadata :=
  { ipHeader := data, transHeader := fun i => data (m.ipLen + i), ipLen := m.ipLen, transLen := m.transLen,
    dataOffset := e.off, dataLen := e.size, ipProto := m.ipProto, transProto := m.transProto, pktId := e.pktId,
    pktCount := e.segs }

/-- What makes headers complete: room for their fixed parts, and a valid IPv4 checksum that is not written
as ones. -/
structure CoalMeta.Complete (m : CoalMeta) (ip : Bytes) : Prop where
  v4 : m.ipProto = 4 → 20 ≤ m.ipLen ∧ csumFold (wordSum (ip.take m.ipLen)) = 0 ∧ be16At ip 10 ≠ 65535
  v6 : m.ipProto ≠ 4 → 40 ≤ m.ipLen
  tcp : m.transProto = ipprotoTcp → 20 ≤ m.transLen

/-- **The transport header** that both paths write. -/
theorem transport_eq {coal : RmnetFragDescriptor} {m : CoalMeta} (hm : m.Measures coal.bytes) {a : ℕ}
    {e : Emission} {data : ℕ → UInt8} {coalSkb : SkBuff} (hskb : coalSkb.len = coal.bytes.length)
    {T : Bytes} (hT : T = (coal.bytes.drop m.ipLen).take m.transLen) (hlen : T.length = m.transLen)
    (htcp : m.transProto = ipprotoTcp → 20 ≤ m.transLen) {I : Bytes} (hI : I.length = m.ipLen) (len : ℕ) :
    udpLength (I ++ overrideTransport T (segDesc coal m a e)) m.ipLen m.transProto len
      = I ++ segmentTransport coalSkb (emissionMeta m data e) T len := by
  rcases hm.proto with hp | hp
  · have htl := htcp hp
    have hseq : be32At T 4 = be32At coal.bytes (m.ipLen + 4) := by
      rw [hT, be32At_slice (by omega)]
    have hT₁ : ∀ v i, 12 ≤ i → i < 20 → byteAt (overwrite T 4 (be32 v)) i = byteAt T i := by
      intro v i h₁ h₂
      rw [byteAt_overwrite _ _ _ (by omega), if_neg (by rw [be32_length]; omega)]
    have hbyte : ∀ i, i < 20 → byteAt T i = byteAt (coal.bytes.drop m.ipLen) i := by
      intro i hi
      rw [hT, byteAt_take (by omega)]
    have hclear : ∀ v, ((tcpFin (overwrite T 4 (be32 v)) || tcpPsh (overwrite T 4 (be32 v))) = true ∧
        m.ipLen + m.transLen + e.off + e.size * e.segs < coalSkb.len) ↔ clearsFlags m coal.bytes e = true := by
      intro v
      have hfin : tcpFin (overwrite T 4 (be32 v)) = tcpFin (coal.bytes.drop m.ipLen) := by
        rw [tcpFin, tcpFin, hT₁ v 13 (by omega) (by omega), hbyte 13 (by omega)]
      have hpsh : tcpPsh (overwrite T 4 (be32 v)) = tcpPsh (coal.bytes.drop m.ipLen) := by
        rw [tcpPsh, tcpPsh, hT₁ v 13 (by omega) (by omega), hbyte 13 (by omega)]
      unfold clearsFlags
      rw [hfin, hpsh, hskb, show m.ipLen + m.transLen = m.hlen from rfl]
      simp only [hp, decide_true, Bool.true_and, Bool.and_eq_true, decide_eq_true_eq]
    have hfields : (segDesc coal m a e).tcpSeqSet = true ∧
        (segDesc coal m a e).tcpSeq = u32 (be32At T 4 + e.off) := by
      rw [hseq]
      simp [segDesc, hp]
    have hlin : segmentTransport coalSkb (emissionMeta m data e) T len
        = if clearsFlags m coal.bytes e then clearFlagBits (overwrite T 4 (be32 (u32 (be32At T 4 + e.off))))
          else overwrite T 4 (be32 (u32 (be32At T 4 + e.off))) := by
      have hp' : (emissionMeta m data e).transProto = ipprotoTcp := hp
      unfold segmentTransport
      simp only [if_pos hp']
      by_cases hc : clearsFlags m coal.bytes e = true
      · rw [if_pos hc]
        exact if_pos ((hclear _).mpr hc)
      · rw [if_neg hc]
        exact if_neg (fun h => hc ((hclear _).mp h))
    have hword : be16At (overwrite T 4 (be32 (u32 (be32At T 4 + e.off)))) 12
        = be16At coal.bytes (m.ipLen + 12) := by
      rw [be16At_overwrite_of_disjoint (by omega) (by simp), hT, be16At_slice (by omega)]
    rw [hlin, udpLength, if_pos hp]
    unfold overrideTransport
    simp only [hfields.1, hfields.2, if_true]
    by_cases hc : clearsFlags m coal.bytes e = true
    · have hflags : (segDesc coal m a e).tcpFlagsSet = true ∧
          (segDesc coal m a e).tcpFlags = clearFinPsh (be16At coal.bytes (m.ipLen + 12)) := by
        simp [segDesc, hc]
      rw [if_pos hflags.1, if_pos hc, hflags.2, clearFlagBits_eq, hword]
    · have hflags : ¬ (segDesc coal m a e).tcpFlagsSet = true := hc
      rw [if_neg hflags, if_neg hc]
  · have hne : ¬ m.transProto = ipprotoTcp := by
      rw [hp]
      decide
    have hnone : overrideTransport T (segDesc coal m a e) = T := by
      unfold overrideTransport
      have hseq : (segDesc coal m a e).tcpSeqSet = false := by simp [segDesc, hne]
      have hflags : (segDesc coal m a e).tcpFlagsSet = false := by simp [segDesc, clearsFlags, hne]
      rw [hseq, hflags]
      rfl
    have hudp : segmentTransport coalSkb (emissionMeta m data e) T len = overwrite T 4 (be16 len) := by
      have hne' : ¬ (emissionMeta m data e).transProto = ipprotoTcp := hne
      have hp' : (emissionMeta m data e).transProto = ipprotoUdp := hp
      unfold segmentTransport
      simp only [if_neg hne', if_pos hp']
    rw [hnone, hudp, udpLength, if_neg hne, ← hI, overwrite_append_right]

end Rmnet
