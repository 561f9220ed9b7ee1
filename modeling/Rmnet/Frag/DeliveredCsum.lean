import Rmnet.Frag.ValidateCsum
import Rmnet.Linear.Emission

/-!
# The checksums of a delivered packet

`rmnet_alloc_skb` rewrites the headers of a packet whose headers were measured.  With a good checksum it leaves
a partial one, which the stack completes; with a bad one it computes the right checksum and adds one to it.

A packet is taken apart into its network header and the transport part behind it.  Each step writes to one of
the two: `overrides_parts`, `partialNetwork_parts`, `badNetwork_parts` and `udpLength_parts` say what it leaves
of the sums, and `transport_residue` what any value in the checksum field makes of the transport sum.

* `delivered_csum_truthful` — a packet marked good verifies, with the right lengths, and one marked bad never
  does.
-/

namespace Rmnet

open Word Field Checksum

/-! ### What a packet should be -/

/-- `skb_checksum_help`: the packet in a buffer, its partial checksum completed. -/
def skbChecksumHelp (skb : SkBuff) : Bytes :=
  if skb.ipSummed = .checksumPartial then
    let csum := csumFold (wordSum (skb.bytes.drop skb.csumStart))
    overwrite skb.bytes (skb.csumStart + skb.csumOffset) (be16 (if csum = 0 then 65535 else csum))
  else skb.bytes

/-- A descriptor of a TCP or UDP packet whose headers were measured and are well formed. -/
structure RmnetFragDescriptor.WellFormed (desc : RmnetFragDescriptor) : Prop where
  valid : desc.hdrsValid = true
  fits : desc.ipLen + desc.transLen ≤ desc.len
  short : desc.len ≤ 65535
  v4 : desc.ipProto = 4 → byteAt desc.bytes 0 / 16 = 4 ∧ 20 ≤ desc.ipLen ∧ byteAt desc.bytes 0 % 16 * 4 = desc.ipLen
  v6 : desc.ipProto ≠ 4 → 40 ≤ desc.ipLen
  proto : desc.transProto = ipprotoTcp ∨ desc.transProto = ipprotoUdp
  tcp : desc.transProto = ipprotoTcp → 20 ≤ desc.transLen
  udp : desc.transProto = ipprotoUdp → 8 ≤ desc.transLen
  ip_id : desc.ipId < 65536

/-- A packet that is as good as it is marked: both checksums verify, and the lengths are the actual ones. -/
structure GoodPacket (ipProto ipLen transProto : ℕ) (packet : Bytes) : Prop where
  transport : TransportVerifies ipProto ipLen transProto packet
  header : ipProto = 4 → ipFastCsum packet = 0
  tot_len : ipProto = 4 → be16At packet 2 = packet.length
  payload_len : ipProto ≠ 4 → be16At packet 4 = packet.length - 40
  udp_len : transProto = ipprotoUdp → be16At packet (ipLen + 4) = packet.length - ipLen

/-- A packet that is as bad as it is marked: its transport checksum is there and does not verify. -/
structure BadPacket (ipProto ipLen transProto : ℕ) (packet : Bytes) : Prop where
  transport : ¬ TransportVerifies ipProto ipLen transProto packet
  check : be16At packet (ipLen + checkOffset transProto) ≠ 0

/-! ### The network header -/

/-- A network header of either version: room for its fields, and in an IPv4 header its own length. -/
structure NetworkHeader (ipProto : ℕ) (I : Bytes) : Prop where
  v4 : ipProto = 4 → byteAt I 0 / 16 = 4 ∧ 20 ≤ I.length ∧ byteAt I 0 % 16 * 4 = I.length
  v6 : ipProto ≠ 4 → 40 ≤ I.length

theorem NetworkHeader.length {ipProto : ℕ} {I : Bytes} (h : NetworkHeader ipProto I) : 20 ≤ I.length := by
  by_cases hv : ipProto = 4
  · exact (h.v4 hv).2.1
  · have := h.v6 hv
    omega

/-- A header with the same length and the same first byte. -/
theorem NetworkHeader.congr {ipProto : ℕ} {I I' : Bytes} (h : NetworkHeader ipProto I) (hlen : I'.length = I.length)
    (hfirst : byteAt I' 0 = byteAt I 0) : NetworkHeader ipProto I' := by
  refine ⟨?_, ?_⟩
  · rw [hlen, hfirst]
    exact h.v4
  · rw [hlen]
    exact h.v6

/-- An IPv4 header verifies when its sum is a multiple of 65535. -/
theorem NetworkHeader.verifies_iff {I : Bytes} (h : NetworkHeader 4 I) (rest : Bytes) :
    ipFastCsum (I ++ rest) = 0 ↔ wordSum I % 65535 = 0 := by
  obtain ⟨hversion, hlen, hihl⟩ := h.v4 rfl
  rw [ipFastCsum_append rest (by omega) hihl]
  apply csumFold_eq_zero
  apply wordSum_pos
  omega

/-- The overrides of a descriptor leave the header's length, its first byte and the residue of its sum. -/
theorem overrides_parts {I T : Bytes} {desc : RmnetFragDescriptor} (hI : desc.ipLen = I.length) (h20 : 20 ≤ I.length)
    (hid : desc.ipId < 65536) :
    ∃ I' T', fragOverrides (I ++ T) desc = I' ++ T' ∧ I'.length = I.length ∧ T'.length = T.length ∧
      byteAt I' 0 = byteAt I 0 ∧ wordSum I' % 65535 = wordSum I % 65535 := by
  have hnet : ∃ I', (if desc.ipIdSet then
        overwrite (overwrite (I ++ T) 10 (be16 (csumReplace2 (be16At (I ++ T) 10) (be16At (I ++ T) 4) desc.ipId)))
          4 (be16 desc.ipId)
      else I ++ T) = I' ++ T ∧ I'.length = I.length ∧ byteAt I' 0 = byteAt I 0 ∧
        wordSum I' % 65535 = wordSum I % 65535 := by
    cases desc.ipIdSet with
    | false => exact ⟨I, if_neg Bool.false_ne_true, rfl, rfl, rfl⟩
    | true =>
      refine ⟨overwrite (overwrite I 10 (be16 (csumReplace2 (be16At I 10) (be16At I 4) desc.ipId))) 4
        (be16 desc.ipId), ?_, ?_, ?_, ?_⟩
      · rw [if_pos rfl, be16At_append_left T (by omega), be16At_append_left T (by omega),
          overwrite_append_left _ _ _ _ (by rw [be16_length]; omega),
          overwrite_append_left _ _ _ _ (by rw [be16_length, overwrite_length]; omega)]
      · rw [overwrite_length, overwrite_length]
      · rw [byteAt_overwrite _ _ _ (by rw [overwrite_length]; omega), if_neg (by omega),
          byteAt_overwrite _ _ _ (by omega), if_neg (by omega)]
      · exact wordSum_replace (i := 5) (j := 2) (by omega) (by omega) (by omega) hid
  obtain ⟨I', hI', hlen, hfirst, hsum⟩ := hnet
  refine ⟨I', if desc.tcpFlagsSet then
      overwrite (if desc.tcpSeqSet then overwrite T 4 (be32 desc.tcpSeq) else T) 12 (be16 desc.tcpFlags)
    else (if desc.tcpSeqSet then overwrite T 4 (be32 desc.tcpSeq) else T), ?_, hlen, ?_, hfirst, hsum⟩
  · unfold fragOverrides
    simp only
    rw [hI', hI, ← hlen]
    cases desc.tcpSeqSet with
    | false =>
      cases desc.tcpFlagsSet with
      | false => rfl
      | true => exact overwrite_append_right _ _ _ _
    | true =>
      simp only [if_true]
      rw [overwrite_append_right]
      cases desc.tcpFlagsSet with
      | false => rfl
      | true => exact overwrite_append_right _ _ _ _
  · cases desc.tcpSeqSet <;> cases desc.tcpFlagsSet <;> simp

/-- The network header for a good checksum: it verifies and names the length. -/
theorem partialNetwork_parts {ipProto : ℕ} {I : Bytes} (h : NetworkHeader ipProto I) (T : Bytes) {len : ℕ}
    (hlen : len ≤ 65535) (hfit : I.length ≤ len) :
    ∃ I', partialNetwork (I ++ T) ipProto len = I' ++ T ∧ I'.length = I.length ∧ byteAt I' 0 = byteAt I 0 ∧
      (ipProto = 4 → wordSum I' % 65535 = 0 ∧ be16At I' 2 = len) ∧ (ipProto ≠ 4 → be16At I' 4 = len - 40) := by
  have h20 := h.length
  by_cases hv : ipProto = 4
  · subst hv
    obtain ⟨hversion, -, hihl⟩ := h.v4 rfl
    -- the header with its length, its checksum cleared
    generalize hZ : overwrite (overwrite I 2 (be16 len)) 10 (be16 0) = Z
    have hZlen : Z.length = I.length := by rw [← hZ, overwrite_length, overwrite_length]
    have hZfirst : byteAt Z 0 = byteAt I 0 := by
      rw [← hZ, byteAt_overwrite _ _ _ (by rw [overwrite_length]; omega), if_neg (by omega),
        byteAt_overwrite _ _ _ (by omega), if_neg (by omega)]
    have hZtot : be16At Z 2 = len := by
      rw [← hZ, be16At_overwrite_of_disjoint (by rw [overwrite_length]; omega) (by omega),
        be16At_overwrite_self (by omega), Nat.mod_eq_of_lt (by omega)]
    have hZcheck : be16At Z 10 = 0 := by
      rw [← hZ, be16At_overwrite_self (by rw [overwrite_length]; omega)]
    refine ⟨overwrite Z 10 (be16 (csumFold (wordSum Z))), ?_, ?_, ?_, fun _ => ⟨?_, ?_⟩, fun hne => absurd rfl hne⟩
    · rw [partialNetwork, if_pos rfl]
      simp only
      rw [overwrite_append_left _ _ _ _ (by rw [be16_length]; omega),
        overwrite_append_left _ _ _ _ (by rw [be16_length, overwrite_length]; omega), hZ,
        ipFastCsum_append T (by omega) (by rw [hZfirst, hZlen]; exact hihl),
        overwrite_append_left _ _ _ _ (by rw [be16_length]; omega)]
    · rw [overwrite_length, hZlen]
    · rw [byteAt_overwrite _ _ _ (by omega), if_neg (by omega), hZfirst]
    · have hsum := wordSum_overwrite (csumFold (wordSum Z)) 5 Z (by omega)
      have hfold := add_csumFold_mod (wordSum Z)
      have hle := csumFold_le (wordSum Z)
      rw [Nat.mod_eq_of_lt (by omega), hZcheck] at hsum
      rw [← hfold, ← hsum]
      rfl
    · rw [be16At_overwrite_of_disjoint (by omega) (by omega), hZtot]
  · have h40 := h.v6 hv
    refine ⟨overwrite I 4 (be16 (len - 40)), ?_, overwrite_length _ _ _, ?_, fun h4 => absurd h4 hv, fun _ => ?_⟩
    · rw [partialNetwork, if_neg hv, sub32_of_le (by omega) (by omega),
        overwrite_append_left _ _ _ _ (by rw [be16_length]; omega)]
    · rw [byteAt_overwrite _ _ _ (by omega), if_neg (by omega)]
    · rw [be16At_overwrite_self (by omega), Nat.mod_eq_of_lt (by omega)]

/-- The network header for a bad checksum: the residue of an IPv4 header's sum is what it was. -/
theorem badNetwork_parts {ipProto : ℕ} {I : Bytes} (h : NetworkHeader ipProto I) (T : Bytes) {len : ℕ}
    (hlen : len ≤ 65535) :
    ∃ I', badNetwork (I ++ T) ipProto len = I' ++ T ∧ I'.length = I.length ∧ byteAt I' 0 = byteAt I 0 ∧
      (ipProto = 4 → wordSum I' % 65535 = wordSum I % 65535) := by
  have h20 := h.length
  by_cases hv : ipProto = 4
  · refine ⟨overwrite (overwrite I 10 (be16 (csumReplace2 (be16At I 10) (be16At I 2) len))) 2 (be16 len),
      ?_, ?_, ?_, fun _ => ?_⟩
    · rw [badNetwork, if_pos hv]
      simp only
      rw [be16At_append_left T (by omega), be16At_append_left T (by omega), u16_of_lt (by omega),
        overwrite_append_left _ _ _ _ (by rw [be16_length]; omega),
        overwrite_append_left _ _ _ _ (by rw [be16_length, overwrite_length]; omega)]
    · rw [overwrite_length, overwrite_length]
    · rw [byteAt_overwrite _ _ _ (by rw [overwrite_length]; omega), if_neg (by omega),
        byteAt_overwrite _ _ _ (by omega), if_neg (by omega)]
    · exact wordSum_replace (i := 5) (j := 1) (by omega) (by omega) (by omega) (by omega)
  · refine ⟨overwrite I 4 (be16 (sub32 len 40)), ?_, overwrite_length _ _ _, ?_, fun h4 => absurd h4 hv⟩
    · rw [badNetwork, if_neg hv, overwrite_append_left _ _ _ _ (by rw [be16_length]; omega)]
    · rw [byteAt_overwrite _ _ _ (by omega), if_neg (by omega)]

/-! ### The transport part -/

theorem checkOffset_even (transProto : ℕ) : ∃ k, checkOffset transProto = 2 * k := by
  rw [checkOffset]
  split
  · exact ⟨8, rfl⟩
  · exact ⟨3, rfl⟩

/-- The length field is written in a UDP header. -/
theorem udpLength_parts {I T : Bytes} (transProto : ℕ) {n : ℕ} (hn : n ≤ 65535) (hT : 8 ≤ T.length) :
    ∃ T', udpLength (I ++ T) I.length transProto n = I ++ T' ∧ T'.length = T.length ∧
      (transProto = ipprotoUdp → be16At T' 4 = n) := by
  by_cases hp : transProto = ipprotoTcp
  · refine ⟨T, ?_, rfl, fun hu => ?_⟩
    · rw [udpLength, if_pos hp]
    · rw [hp] at hu
      cases hu
  · refine ⟨overwrite T 4 (be16 n), ?_, overwrite_length _ _ _, fun _ => ?_⟩
    · rw [udpLength, if_neg hp, overwrite_append_right]
    · rw [be16At_overwrite_self (by omega), Nat.mod_eq_of_lt (by omega)]

/-- **The transport sum.**  With the pseudo-header sum in the checksum field the transport part sums up to some
`W`; with `c` there, the packet verifies when `W + c` is a multiple of 65535. -/
theorem transport_residue {ipProto transProto c k : ℕ} {I X : Bytes} (h : NetworkHeader ipProto I)
    (hk : 2 * k + 1 < X.length) (hc : c ≤ 65535) :
    TransportVerifies ipProto I.length transProto (I ++ overwrite X (2 * k) (be16 c)) ↔
      (wordSum (overwrite X (2 * k) (be16 (pseudoSum ipProto I X.length transProto))) + c) % 65535 = 0 := by
  have hhdr : (if ipProto = 4 then 20 else 40) ≤ I.length := by
    split
    · rename_i hv
      exact (h.v4 hv).2.1
    · rename_i hv
      exact h.v6 hv
  have hlen : (I ++ overwrite X (2 * k) (be16 c)).length - I.length = X.length := by
    rw [List.length_append, overwrite_length]
    omega
  rw [TransportVerifies, List.drop_left, hlen, pseudoWords_append hhdr, pseudoSum_eq]
  have hp := fold_mod (pseudoWords ipProto I X.length transProto)
  have hple := fold_le (pseudoWords ipProto I X.length transProto)
  generalize fold (pseudoWords ipProto I X.length transProto) = pseudo at hp hple ⊢
  have h₁ := wordSum_overwrite c k X hk
  have h₂ := wordSum_overwrite pseudo k X hk
  rw [Nat.mod_eq_of_lt (by omega)] at h₁ h₂
  omega

/-! ### The buffer -/

section

variable {s : SkBuff} {desc : RmnetFragDescriptor} {I T : Bytes}

/-- A buffer for a descriptor before its checksum is dealt with: the headers, the network header first, are its
linear part. -/
structure RawBuffer (desc : RmnetFragDescriptor) (I T : Bytes) (s : SkBuff) : Prop where
  linear : s.linear = I ++ T
  len : s.len = s.bytes.length
  short : s.len ≤ 65535
  status : s.ipSummed = .checksumNone
  ip_len : desc.ipLen = I.length
  network : NetworkHeader desc.ipProto I
  proto : 0 < desc.transProto
  room : checkOffset desc.transProto + 2 ≤ T.length
  trans : 8 ≤ T.length
  set : desc.transLen ≠ 0

/-- The part of a raw buffer behind its linear part. -/
def SkBuff.behind (s : SkBuff) : Bytes := fragsBytes s.frags ++ (s.fragList.map fragsBytes).flatten

theorem RawBuffer.datagram_len (h : RawBuffer desc I T s) :
    sub32 s.len desc.ipLen = (T ++ s.behind).length ∧ s.len = I.length + (T ++ s.behind).length := by
  have hshort := h.short
  have hlen : s.len = I.length + (T ++ s.behind).length := by
    rw [h.len, SkBuff.bytes, h.linear, SkBuff.behind, List.append_assoc, List.append_assoc, List.length_append]
  refine ⟨?_, hlen⟩
  rw [h.ip_len, sub32_of_le (by omega) (by omega)]
  omega

/-- The bytes of a buffer with other headers. -/
theorem bytes_headers (s t : SkBuff) (I' T' : Bytes) (hl : t.linear = I' ++ T') (hf : t.frags = s.frags)
    (hc : t.fragList = s.fragList) : t.bytes = I' ++ (T' ++ s.behind) := by
  rw [SkBuff.bytes, hl, hf, hc, SkBuff.behind, List.append_assoc, List.append_assoc]

/-- A packet taken apart: a network header `I` and a transport part `X` with room for the checksum at `2 * k`. -/
structure Parts (desc : RmnetFragDescriptor) (I X : Bytes) (k len : ℕ) : Prop where
  network : NetworkHeader desc.ipProto I
  ip_len : desc.ipLen = I.length
  proto : 0 < desc.transProto
  check : checkOffset desc.transProto = 2 * k
  room : 2 * k + 1 < X.length
  total : I.length + X.length = len
  udp_len : desc.transProto = ipprotoUdp → be16At X 4 = X.length

/-- The transport part with its pseudo-header sum in the checksum field. -/
def seeded (desc : RmnetFragDescriptor) (I X : Bytes) (k : ℕ) : Bytes :=
  overwrite X (2 * k) (be16 (pseudoSum desc.ipProto I X.length desc.transProto))

theorem Parts.verifies_iff {X : Bytes} {k len c : ℕ} (h : Parts desc I X k len) (hc : c ≤ 65535) :
    TransportVerifies desc.ipProto desc.ipLen desc.transProto (I ++ overwrite X (2 * k) (be16 c)) ↔
      (wordSum (seeded desc I X k) + c) % 65535 = 0 := by
  rw [h.ip_len]
  exact transport_residue h.network h.room hc

/-- The seeded sum counts the protocol, so it is not zero. -/
theorem Parts.seeded_pos {X : Bytes} {k len : ℕ} (h : Parts desc I X k len) : 0 < wordSum (seeded desc I X k) := by
  have hproto := h.proto
  have hpos : 0 < pseudoSum desc.ipProto I X.length desc.transProto := by
    rw [pseudoSum_eq]
    apply fold_pos
    rw [pseudoWords]
    omega
  have hle : pseudoSum desc.ipProto I X.length desc.transProto ≤ 65535 := by
    rw [pseudoSum_eq]
    exact fold_le _
  have h₀ := wordSum_overwrite 0 k X h.room
  have h₁ := wordSum_overwrite (pseudoSum desc.ipProto I X.length desc.transProto) k X h.room
  rw [Nat.mod_eq_of_lt (by omega)] at h₁
  rw [seeded]
  omega

theorem Parts.length {X : Bytes} {k len : ℕ} (h : Parts desc I X k len) (c : ℕ) :
    (I ++ overwrite X (2 * k) (be16 c)).length = len := by
  rw [List.length_append, overwrite_length]
  exact h.total

/-- The length of a UDP header is not where the checksum is. -/
theorem Parts.udp_field {X : Bytes} {k len : ℕ} (h : Parts desc I X k len) (c : ℕ)
    (hu : desc.transProto = ipprotoUdp) :
    be16At (I ++ overwrite X (2 * k) (be16 c)) (desc.ipLen + 4) = len - desc.ipLen := by
  have hroom := h.room
  have htotal := h.total
  have hk : 2 * k = 6 := by
    rw [← h.check, hu]
    rfl
  rw [h.ip_len, be16At_append_right, hk, be16At_overwrite_of_disjoint (by omega) (by omega), h.udp_len hu]
  omega

/-- What is written behind the network header, for either kind of checksum: the UDP length and, in the checksum
field, the pseudo-header sum. -/
theorem RawBuffer.transport_parts (h : RawBuffer desc I T s) {I' : Bytes} (hlen : I'.length = I.length)
    (hfirst : byteAt I' 0 = byteAt I 0) :
    ∃ T' k, Parts desc I' (T' ++ s.behind) k s.len ∧ T'.length = T.length ∧
      overwrite (udpLength (I' ++ T) desc.ipLen desc.transProto (sub32 s.len desc.ipLen))
          (desc.ipLen + checkOffset desc.transProto)
          (be16 (pseudoSum desc.ipProto (I' ++ T) (sub32 s.len desc.ipLen) desc.transProto))
        = I' ++ overwrite T' (2 * k) (be16 (pseudoSum desc.ipProto I' (T' ++ s.behind).length desc.transProto)) := by
  obtain ⟨hdgram, htotal⟩ := h.datagram_len
  obtain ⟨k, hk⟩ := checkOffset_even desc.transProto
  have hshort := h.short
  have hroom := h.room
  have htrans := h.trans
  have hnetwork := h.network.congr hlen hfirst
  obtain ⟨T', hudp, hT', hudpLen⟩ := udpLength_parts (I := I') desc.transProto
    (show (T ++ s.behind).length ≤ 65535 by omega) htrans
  have hX : (T' ++ s.behind).length = (T ++ s.behind).length := by
    rw [List.length_append, List.length_append, hT']
  have hip : desc.ipLen = I'.length := h.ip_len.trans hlen.symm
  refine ⟨T', k, ⟨hnetwork, hip, h.proto, hk, ?_, by omega, ?_⟩, hT', ?_⟩
  · rw [List.length_append]
    omega
  · intro hu
    rw [be16At_append_left _ (by omega), hudpLen hu, hX]
  · rw [hdgram, hip, hudp, hk, overwrite_append_right,
      pseudoSum_append T (fun hv => (hnetwork.v4 hv).2.1) hnetwork.v6, hX]

/-- **A good checksum.**  The packet that the stack completes is good. -/
theorem RawBuffer.partial_good (h : RawBuffer desc I T s) :
    GoodPacket desc.ipProto desc.ipLen desc.transProto (skbChecksumHelp (rmnetFragPartialCsum s desc)) ∧
      (skbChecksumHelp (rmnetFragPartialCsum s desc)).length = s.len := by
  obtain ⟨hdgram, htotal⟩ := h.datagram_len
  have hshort := h.short
  have h20 := h.network.length
  obtain ⟨I', hnet, hI', hfirst, hv4, hv6⟩ := partialNetwork_parts h.network T hshort (by omega)
  obtain ⟨T', k, hparts, hT', hwrite⟩ := h.transport_parts hI' hfirst
  have hroom := h.room
  have hk := hparts.check
  -- what `rmnet_frag_partial_csum` leaves
  have hpart : (rmnetFragPartialCsum s desc).bytes = I' ++ seeded desc I' (T' ++ s.behind) k := by
    rw [seeded, overwrite_append_left _ _ _ _ (by rw [be16_length]; omega)]
    apply bytes_headers s _ I'
    · rw [← hwrite, ← hnet, ← h.linear, rmnetFragPartialCsum, u16_of_lt (by omega)]
    · rfl
    · rfl
  -- what the stack completes
  generalize hW : wordSum (seeded desc I' (T' ++ s.behind) k) = W at hpart
  generalize hc : (if csumFold W = 0 then 65535 else csumFold W) = c
  have hdone : skbChecksumHelp (rmnetFragPartialCsum s desc)
      = I' ++ overwrite (T' ++ s.behind) (2 * k) (be16 c) := by
    have hstart : (rmnetFragPartialCsum s desc).csumStart = I'.length := hparts.ip_len
    have hoff : (rmnetFragPartialCsum s desc).csumOffset = 2 * k := hk
    have hstatus : (rmnetFragPartialCsum s desc).ipSummed = .checksumPartial := rfl
    rw [skbChecksumHelp, if_pos hstatus]
    simp only
    rw [hstart, hoff, hpart, List.drop_left, hW, hc, overwrite_append_right, seeded,
      overwrite_overwrite _ _ ((be16_length _).trans (be16_length _).symm)]
  have hcsum : c ≤ 65535 ∧ (W + c) % 65535 = 0 := by
    have hle := csumFold_le W
    have hmod := add_csumFold_mod W
    rw [← hc]
    split
    · omega
    · exact ⟨hle, hmod⟩
  have hlength := hparts.length c
  rw [hdone]
  refine ⟨⟨?_, ?_, ?_, ?_, ?_⟩, hlength⟩
  · rw [hparts.verifies_iff hcsum.1, hW]
    exact hcsum.2
  · intro hv
    have hnetwork := hparts.network
    rw [hv] at hnetwork
    rw [hnetwork.verifies_iff]
    exact (hv4 hv).1
  · intro hv
    rw [be16At_append_left _ (by omega), (hv4 hv).2, hlength]
  · intro hv
    rw [be16At_append_left _ (by omega), hv6 hv, hlength]
  · intro hu
    rw [hparts.udp_field c hu, hlength]

/-- **A bad checksum.**  The packet never verifies, its checksum is not zero, and an IPv4 header verifies as before. -/
theorem RawBuffer.bad_bad (h : RawBuffer desc I T s) :
    BadPacket desc.ipProto desc.ipLen desc.transProto (fragBadCsum s desc).bytes ∧
      (fragBadCsum s desc).bytes.length = s.len ∧
      (desc.ipProto = 4 → (ipFastCsum (fragBadCsum s desc).bytes = 0 ↔ wordSum I % 65535 = 0)) := by
  have hshort := h.short
  have hroom := h.room
  obtain ⟨I', hnet, hI', hfirst, hv4⟩ := badNetwork_parts h.network T hshort
  obtain ⟨T', k, hparts, hT', hwrite⟩ := h.transport_parts hI' hfirst
  have hk := hparts.check
  have hip := hparts.ip_len
  -- the checksum that is spoiled
  have hseed : ({ s with
      linear := I' ++ overwrite T' (2 * k)
        (be16 (pseudoSum desc.ipProto I' (T' ++ s.behind).length desc.transProto)) } : SkBuff).bytes
      = I' ++ seeded desc I' (T' ++ s.behind) k := by
    rw [seeded, overwrite_append_left _ _ _ _ (by rw [be16_length]; omega)]
    exact bytes_headers s _ _ _ rfl rfl rfl
  have hpos := hparts.seeded_pos
  generalize hW : wordSum (seeded desc I' (T' ++ s.behind) k) = W at hpos
  have hfold := fold_pos hpos
  have hfle := fold_le W
  have hcsum : csum16Add (csumFold W) 1 = csumFold W + 1 := by
    rw [csum16Add, csumFold, if_pos (by omega)]
  have hone : csumFold W + 1 ≤ 65535 ∧ (W + (csumFold W + 1)) % 65535 = 1 := by
    have hmod := add_csumFold_mod W
    refine ⟨by rw [csumFold]; omega, by omega⟩
  have hdone : (fragBadCsum s desc).bytes = I' ++ overwrite (T' ++ s.behind) (2 * k) (be16 (csumFold W + 1)) := by
    rw [overwrite_append_left _ _ _ _ (by rw [be16_length]; omega)]
    apply bytes_headers s _ I'
    · rw [fragBadCsum, skbTransportOffset_set h.set]
      simp only
      rw [h.linear, hnet, hwrite, hseed, hip, List.drop_left, hW, hcsum, hk, overwrite_append_right,
        overwrite_overwrite _ _ ((be16_length _).trans (be16_length _).symm)]
    · rfl
    · rfl
  rw [hdone]
  refine ⟨⟨?_, ?_⟩, hparts.length _, ?_⟩
  · rw [hparts.verifies_iff hone.1, hW, hone.2]
    exact Nat.one_ne_zero
  · rw [hip, be16At_append_right, hk, be16At_overwrite_self hparts.room, Nat.mod_eq_of_lt (by omega)]
    exact Nat.succ_ne_zero _
  · intro hv
    have hnetwork := hparts.network
    rw [hv] at hnetwork
    rw [hnetwork.verifies_iff, hv4 hv]

/-! ### The whole function -/

/-- The network header of a well-formed descriptor. -/
theorem RmnetFragDescriptor.WellFormed.network (h : desc.WellFormed) (hs : desc.Sized) :
    NetworkHeader desc.ipProto (desc.bytes.take desc.ipLen) ∧ (desc.bytes.take desc.ipLen).length = desc.ipLen := by
  have hfits := h.fits
  have hlen : (desc.bytes.take desc.ipLen).length = desc.ipLen := by
    rw [List.length_take, hs.length_bytes, Nat.min_eq_left (by omega)]
  refine ⟨⟨?_, ?_⟩, hlen⟩
  · intro hv
    obtain ⟨hversion, h20, hihl⟩ := h.v4 hv
    rw [hlen, byteAt_take (by omega)]
    exact ⟨hversion, h20, hihl⟩
  · intro hv
    rw [hlen]
    exact h.v6 hv

/-- What `rmnet_alloc_skb` makes of a well-formed descriptor before it deals with the checksum. -/
theorem RmnetFragDescriptor.WellFormed.raw (h : desc.WellFormed) (hs : desc.Sized) {head : List SkbFrag}
    {chain : List (List SkbFrag)}
    (hb : fragsBytes head ++ (chain.map fragsBytes).flatten = desc.bytes.drop (desc.ipLen + desc.transLen)) :
    ∃ I T, RawBuffer desc I T { SkBuff.ofFrags (desc.bytes.take (desc.ipLen + desc.transLen)) head chain with
        linear := fragOverrides (desc.bytes.take (desc.ipLen + desc.transLen)) desc } ∧
      (SkBuff.ofFrags (desc.bytes.take (desc.ipLen + desc.transLen)) head chain).len = desc.len ∧
      wordSum I % 65535 = wordSum (desc.bytes.take desc.ipLen) % 65535 := by
  obtain ⟨hnetwork, hI⟩ := h.network hs
  have hfits := h.fits
  have hshort := h.short
  have hT : ((desc.bytes.drop desc.ipLen).take desc.transLen).length = desc.transLen := by
    rw [List.length_take, List.length_drop, hs.length_bytes, Nat.min_eq_left (by omega)]
  obtain ⟨I', T', hover, hI', hT', hfirst, hsum⟩ :=
    overrides_parts (T := (desc.bytes.drop desc.ipLen).take desc.transLen) hI.symm hnetwork.length h.ip_id
  rw [← List.take_add] at hover
  have hbehind : fragsSize head + (chain.map fragsSize).sum = desc.len - (desc.ipLen + desc.transLen) := by
    have hlen := congrArg List.length hb
    rw [List.length_append, fragsBytes_length, fragsBytes_flatten_length, List.length_drop, hs.length_bytes] at hlen
    exact hlen
  have hlen : (SkBuff.ofFrags (desc.bytes.take (desc.ipLen + desc.transLen)) head chain).len = desc.len := by
    show u32 ((desc.bytes.take (desc.ipLen + desc.transLen)).length + (fragsSize head + (chain.map fragsSize).sum)) = _
    rw [hbehind, List.length_take, hs.length_bytes, Nat.min_eq_left hfits, u32_of_lt (by omega)]
    omega
  have htrans : 8 ≤ desc.transLen ∧ checkOffset desc.transProto + 2 ≤ desc.transLen ∧ 0 < desc.transProto := by
    rcases h.proto with hp | hp
    · have h20 := h.tcp hp
      rw [checkOffset, if_pos hp, hp]
      exact ⟨by omega, by omega, by decide⟩
    · have h8 := h.udp hp
      rw [checkOffset, hp]
      exact ⟨h8, h8, by decide⟩
  refine ⟨I', T', ⟨hover, ?_, ?_, rfl, by omega, hnetwork.congr hI' hfirst, htrans.2.2, by omega, by omega, by omega⟩,
    hlen, hsum⟩
  · show (SkBuff.ofFrags _ head chain).len = _
    rw [hlen, SkBuff.bytes]
    simp only [hover, SkBuff.ofFrags, List.length_append, fragsBytes_length, fragsBytes_flatten_length]
    omega
  · show (SkBuff.ofFrags _ head chain).len ≤ 65535
    omega

theorem skbChecksumHelp_gsoStamp (s : SkBuff) (desc : RmnetFragDescriptor) :
    skbChecksumHelp (if 1 < desc.gsoSegs then gsoStamp s desc.ipProto desc.transProto desc.gsoSize desc.gsoSegs else s)
      = skbChecksumHelp s := by
  split
  · rfl
  · rfl

/-- **The delivered checksum tells the truth.**  A packet whose descriptor is marked good verifies once the stack
has completed it, with a valid IPv4 header and the actual lengths; one that is not marked good never verifies,
never has a zero checksum, and its IPv4 header verifies exactly when the original one did. -/
theorem delivered_csum_truthful {port : RmnetPort} (halloc : port.AllocOk) (hs : desc.Sized) (h : desc.WellFormed) :
    ∃ port' desc' skb, rmnetAllocSkb port desc = (port', desc', some skb) ∧
      (skbChecksumHelp skb).length = desc.len ∧
      (desc.csumValid = true → GoodPacket desc.ipProto desc.ipLen desc.transProto (skbChecksumHelp skb)) ∧
      (desc.csumValid = false → BadPacket desc.ipProto desc.ipLen desc.transProto (skbChecksumHelp skb) ∧
        (desc.ipProto = 4 → (ipFastCsum (skbChecksumHelp skb) = 0 ↔ ipFastCsum desc.bytes = 0))) := by
  have hshort := h.short
  obtain ⟨desc', head, chain, hskb, hb⟩ := rmnetAllocSkb_valid halloc hs h.valid h.fits (Nat.lt_succ_of_le h.short)
  obtain ⟨I, T, hraw, hlen, hsum⟩ := h.raw hs hb
  refine ⟨port, desc', _, hskb, ?_⟩
  have hproto : (decide (desc.transProto = ipprotoTcp) || decide (desc.transProto = ipprotoUdp)) = true := by
    simpa using h.proto
  unfold fillSkb
  rw [skbChecksumHelp_gsoStamp]
  simp only [h.valid, hproto, Bool.and_true]
  cases hvalid : desc.csumValid with
  | true =>
    rw [if_pos rfl]
    obtain ⟨hgood, hlength⟩ := hraw.partial_good
    exact ⟨hlength.trans hlen, fun _ => hgood, fun hne => absurd hne (by decide)⟩
  | false =>
    rw [if_neg Bool.false_ne_true, if_neg Bool.false_ne_true, if_pos trivial]
    obtain ⟨hbad, hlength, hheader⟩ := hraw.bad_bad
    refine ⟨hlength.trans hlen, fun hne => absurd hne (by decide), fun _ => ⟨hbad, fun hv => ?_⟩⟩
    have horig : ipFastCsum desc.bytes = 0 ↔ wordSum (desc.bytes.take desc.ipLen) % 65535 = 0 := by
      have hnetwork := (h.network hs).1
      rw [hv] at hnetwork
      rw [← hnetwork.verifies_iff (desc.bytes.drop desc.ipLen), List.take_append_drop]
    rw [horig, ← hsum]
    exact hheader hv

end

/-- A UDP packet over IPv4 with a new identification, its transport part in a fragment of its own. -/
def datagramDesc (csumValid : Bool) : RmnetFragDescriptor :=
  { addr := 0, frags := [SkbFrag.ofBytes datagramIp, SkbFrag.ofBytes datagramUdp], len := 30, ipLen := 20,
    transLen := 8, ipProto := 4, transProto := 17, ipId := 7, ipIdSet := true, csumValid := csumValid,
    hdrsValid := true }

theorem datagramDesc_wellFormed (csumValid : Bool) : (datagramDesc csumValid).WellFormed := by
  refine ⟨rfl, ?_, ?_, fun _ => ?_, fun hne => absurd rfl hne, .inr rfl, ?_, ?_, ?_⟩ <;> revert csumValid <;> decide

theorem delivered_csum_datagram :
    (∃ skb, (rmnetAllocSkb (rmnetDescriptorInit 0 (fun _ => none) fun _ => true) (datagramDesc true)).2.2 = some skb ∧
      GoodPacket 4 20 17 (skbChecksumHelp skb)) ∧
    ∃ skb, (rmnetAllocSkb (rmnetDescriptorInit 0 (fun _ => none) fun _ => true) (datagramDesc false)).2.2 = some skb ∧
      BadPacket 4 20 17 (skbChecksumHelp skb) := by
  have halloc : (rmnetDescriptorInit 0 (fun _ => none) fun _ => true).AllocOk := fun _ => rfl
  have hsized : ∀ csumValid, (datagramDesc csumValid).Sized := fun _ => ⟨rfl, by decide +revert⟩
  obtain ⟨port₁, desc₁, skb₁, h₁, -, hgood, -⟩ :=
    delivered_csum_truthful halloc (hsized true) (datagramDesc_wellFormed true)
  obtain ⟨port₂, desc₂, skb₂, h₂, -, -, hbad⟩ :=
    delivered_csum_truthful halloc (hsized false) (datagramDesc_wellFormed false)
  exact ⟨⟨skb₁, by rw [h₁], hgood rfl⟩, skb₂, by rw [h₂], (hbad rfl).1⟩

end Rmnet
