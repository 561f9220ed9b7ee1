import Rmnet.Frag.Uncoalesce

/-!
# GRO mode and per-packet mode

With GRO the segmentation loop emits batches, each of which the stack expands into `gso_segs` packets of
`gso_size` bytes; without it, the packets themselves.  Both are read here as sequences of `Carried`
packets, computed from the batches (`groCarried`) and from the packets (`singleCarried`) alone.

The two agree except for FIN and PSH (`gro_carries_iff`): a batch keeps the flags for its last packet, and
a single packet keeps them when no payload follows.  Two error-free packets of one pair with no payload
from the second one on are told apart by this.
-/

namespace Rmnet

open Word Field

/-! ### What a descriptor carries -/

/-- A packet as the stack sees it. -/
structure Carried where
  payload : Bytes
  seq : ℕ
  fin : Bool
  psh : Bool
  csumValid : Bool
  deriving DecidableEq, Repr

/-- The TCP header in front of the payload, if the transport protocol is TCP. -/
def RmnetFragDescriptor.tcpHeader (desc : RmnetFragDescriptor) : Bytes :=
  if desc.transProto = ipprotoTcp then (desc.bytes.take (desc.ipLen + desc.transLen)).drop desc.ipLen else []

/-- FIN of a descriptor, from its override or its header. -/
def RmnetFragDescriptor.fin (desc : RmnetFragDescriptor) : Bool :=
  if desc.tcpFlagsSet then desc.tcpFlags.testBit 0 else tcpFin desc.tcpHeader

/-- PSH of a descriptor, from its override or its header. -/
def RmnetFragDescriptor.psh (desc : RmnetFragDescriptor) : Bool :=
  if desc.tcpFlagsSet then desc.tcpFlags.testBit 3 else tcpPsh desc.tcpHeader

/-- The packet of a descriptor with one packet. -/
def RmnetFragDescriptor.carried (desc : RmnetFragDescriptor) : Carried :=
  { payload := desc.payloadBytes
    seq := desc.tcpSeq
    fin := desc.fin
    psh := desc.psh
    csumValid := desc.csumValid }

/-- The packets of a descriptor: `gso_segs` of them with `gso_size` bytes each, FIN and PSH on the last. -/
def RmnetFragDescriptor.expand (desc : RmnetFragDescriptor) : List Carried :=
  (List.range desc.gsoSegs).map fun j =>
    { payload := (desc.payloadBytes.drop (j * desc.gsoSize)).take desc.gsoSize
      seq := if desc.tcpSeqSet then u32 (desc.tcpSeq + j * desc.gsoSize) else 0
      fin := desc.fin && j + 1 = desc.gsoSegs
      psh := desc.psh && j + 1 = desc.gsoSegs
      csumValid := desc.csumValid }

/-- No descriptor mixes packets of two pairs, or a good and a bad one: the packets of the frame are
divided among the descriptors in order, each group being of one kind. -/
def NoMixing (pkts : List Pkt) (out : List RmnetFragDescriptor) : Prop :=
  ∃ groups : List (List Pkt), groups.flatten = pkts ∧
    groups.map List.length = out.map RmnetFragDescriptor.gsoSegs ∧
    ∀ g ∈ groups, ∀ p ∈ g, ∀ q ∈ g, p.nlo = q.nlo ∧ p.err = q.err

/-! ### Carried packets of a frame -/

/-- The TCP header of a packet with measured headers. -/
def CoalMeta.tcpHeader (m : CoalMeta) (ip : Bytes) : Bytes :=
  if m.transProto = ipprotoTcp then (ip.take m.hlen).drop m.ipLen else []

/-- A packet at an offset of the payload; `keep` tells whether it keeps FIN and PSH. -/
def carriedAt (m : CoalMeta) (ip : Bytes) (off size : ℕ) (err keep : Bool) : Carried :=
  { payload := (ip.drop (m.hlen + off)).take size
    seq := if m.transProto = ipprotoTcp then u32 (be32At ip (m.ipLen + 4) + off) else 0
    fin := keep && tcpFin (m.tcpHeader ip)
    psh := keep && tcpPsh (m.tcpHeader ip)
    csumValid := !err || m.zeroCsum }

/-- Nothing of the packet lies behind an offset of the payload. -/
def atEnd (m : CoalMeta) (ip : Bytes) (off : ℕ) : Bool := ip.length ≤ m.hlen + off

/-- The carried packets of single packets. -/
def singleCarried (m : CoalMeta) (ip : Bytes) : ℕ → List Pkt → List Carried
  | _, [] => []
  | off, p :: ps =>
      carriedAt m ip off p.size p.err (atEnd m ip (off + p.size)) :: singleCarried m ip (off + p.size) ps

/-- The carried packets of one batch. -/
def batchCarried (m : CoalMeta) (ip : Bytes) (off size segs : ℕ) (err : Bool) : List Carried :=
  (List.range segs).map fun j =>
    carriedAt m ip (off + j * size) size err (j + 1 = segs && atEnd m ip (off + size * segs))

/-- The carried packets of batches. -/
def groCarried (m : CoalMeta) (ip : Bytes) : ℕ → List Batch → List Carried
  | _, [] => []
  | off, b :: bs =>
      batchCarried m ip off b.pkt.size b.segs b.pkt.err ++ groCarried m ip (off + b.pkt.size * b.segs) bs

/-! ### The descriptors of the plan -/

/-- FIN and PSH of the override and of the header. -/
theorem clearFinPsh_testBit (flags : ℕ) :
    (clearFinPsh flags).testBit 0 = false ∧ (clearFinPsh flags).testBit 3 = false := by
  unfold clearFinPsh
  rw [Nat.testBit_and, Nat.testBit_and]
  exact ⟨Bool.and_false _, Bool.and_false _⟩

/-- A flag that stands in the headers of a frame is also found by the check for clearing it. -/
theorem tcpHeader_flag {m : CoalMeta} {ip : Bytes} {bit : ℕ}
    (h : (byteAt (m.tcpHeader ip) 13).testBit bit = true) :
    m.transProto = ipprotoTcp ∧ (byteAt (ip.drop m.ipLen) 13).testBit bit = true := by
  unfold CoalMeta.tcpHeader at h
  split at h
  · rename_i htcp
    refine ⟨htcp, ?_⟩
    rw [byteAt_drop] at h ⊢
    by_cases hlt : m.ipLen + 13 < m.hlen
    · rw [byteAt_take hlt] at h
      exact h
    · rw [byteAt_of_length_le (by rw [List.length_take]; omega), Nat.zero_testBit] at h
      cases h
  · rw [byteAt_of_length_le (by simp), Nat.zero_testBit] at h
    cases h

/-- The flags that a segment carries. -/
theorem segDesc_flag {coal : RmnetFragDescriptor} {m : CoalMeta} (hc : Measured coal m)
    (hlen : m.hlen ≤ coal.bytes.length) (a : ℕ) (e : Emission) (bit : ℕ)
    (hbit : bit = 0 ∨ bit = 3) :
    (if (segDesc coal m a e).tcpFlagsSet then (segDesc coal m a e).tcpFlags.testBit bit
      else (byteAt (segDesc coal m a e).tcpHeader 13).testBit bit)
      = (atEnd m coal.bytes (e.off + e.size * e.segs) && (byteAt (m.tcpHeader coal.bytes) 13).testBit bit) := by
  have hheader : (segDesc coal m a e).tcpHeader = m.tcpHeader coal.bytes := by
    unfold RmnetFragDescriptor.tcpHeader CoalMeta.tcpHeader
    rw [segDesc_bytes]
    show (if coal.transProto = ipprotoTcp then (List.take (coal.ipLen + coal.transLen) _).drop coal.ipLen
      else []) = _
    rw [hc.transProto, hc.ipLen, hc.transLen]
    have htake : List.take (m.ipLen + m.transLen) (coal.bytes.take m.hlen ++
        (coal.bytes.drop (m.hlen + e.off)).take (e.size * e.segs)) = coal.bytes.take m.hlen :=
      List.take_left' (List.length_take_of_le hlen)
    rw [htake]
  rw [hheader]
  cases hflag : (byteAt (m.tcpHeader coal.bytes) 13).testBit bit with
  | false =>
    rw [Bool.and_false]
    split
    · rename_i hset
      show (if clearsFlags m coal.bytes e then clearFinPsh _ else 0).testBit bit = false
      split
      · rcases hbit with rfl | rfl
        · exact (clearFinPsh_testBit _).1
        · exact (clearFinPsh_testBit _).2
      · exact Nat.zero_testBit _
    · rfl
  | true =>
    obtain ⟨htcp, hreal⟩ := tcpHeader_flag hflag
    have hfp : (tcpFin (coal.bytes.drop m.ipLen) || tcpPsh (coal.bytes.drop m.ipLen)) = true := by
      rcases hbit with rfl | rfl
      · rw [tcpFin, hreal, Bool.true_or]
      · rw [tcpPsh, hreal, Bool.or_true]
    have hset : (segDesc coal m a e).tcpFlagsSet = clearsFlags m coal.bytes e := rfl
    rw [hset, Bool.and_true]
    have hclear : clearsFlags m coal.bytes e
        = !atEnd m coal.bytes (e.off + e.size * e.segs) := by
      unfold clearsFlags atEnd
      rw [hfp, Bool.eq_iff_iff]
      simp only [htcp, decide_true, Bool.true_and, decide_eq_true_eq, Bool.not_eq_true', decide_eq_false_iff_not]
      omega
    rw [hclear]
    cases hend : atEnd m coal.bytes (e.off + e.size * e.segs) with
    | true => rfl
    | false =>
      rw [hend] at hclear
      show (if clearsFlags m coal.bytes e then clearFinPsh _ else 0).testBit bit = false
      rw [hclear]
      rcases hbit with rfl | rfl
      · exact (clearFinPsh_testBit _).1
      · exact (clearFinPsh_testBit _).2

theorem segDesc_payload {coal : RmnetFragDescriptor} {m : CoalMeta} (hc : Measured coal m)
    (hlen : m.hlen ≤ coal.bytes.length) (a : ℕ) (e : Emission) :
    (segDesc coal m a e).payloadBytes = (coal.bytes.drop (m.hlen + e.off)).take (e.size * e.segs) := by
  unfold RmnetFragDescriptor.payloadBytes
  rw [segDesc_bytes]
  show List.drop (coal.ipLen + coal.transLen) _ = _
  rw [hc.ipLen, hc.transLen]
  exact List.drop_left' (List.length_take_of_le hlen)

theorem segDesc_tcpSeq (coal : RmnetFragDescriptor) (m : CoalMeta) (a : ℕ) (e : Emission) :
    (segDesc coal m a e).tcpSeq
      = if m.transProto = ipprotoTcp then u32 (be32At coal.bytes (m.ipLen + 4) + e.off) else 0 := by
  show (if decide (m.transProto = ipprotoTcp) = true then _ else _) = _
  simp only [decide_eq_true_eq]

/-- A batch is expanded into its packets. -/
theorem expand_segDesc {coal : RmnetFragDescriptor} {m : CoalMeta} (hc : Measured coal m)
    (hlen : m.hlen ≤ coal.bytes.length) (a : ℕ) (e : Emission) :
    (segDesc coal m a e).expand = batchCarried m coal.bytes e.off e.size e.segs (!e.csum) := by
  unfold RmnetFragDescriptor.expand batchCarried
  show (List.range e.segs).map _ = _
  apply List.map_congr_left
  intro j hj
  have hjlt : j < e.segs := List.mem_range.mp hj
  have hfin : (segDesc coal m a e).fin = _ := segDesc_flag hc hlen a e 0 (.inl rfl)
  have hpsh : (segDesc coal m a e).psh = _ := segDesc_flag hc hlen a e 3 (.inr rfl)
  have hslice : j * e.size + e.size ≤ e.size * e.segs := by
    calc j * e.size + e.size = (j + 1) * e.size := by rw [Nat.succ_mul]
      _ ≤ e.segs * e.size := Nat.mul_le_mul_right _ hjlt
      _ = e.size * e.segs := Nat.mul_comm _ _
  rw [segDesc_payload hc hlen, hfin, hpsh, segDesc_tcpSeq]
  unfold carriedAt
  rw [Carried.mk.injEq]
  refine ⟨?_, ?_, ?_, ?_, ?_⟩
  · show List.take e.size (List.drop (j * e.size) _) = _
    rw [List.drop_take, List.take_take, List.drop_drop, Nat.min_eq_left (by omega), Nat.add_assoc]
  · show (if decide (m.transProto = ipprotoTcp) = true then u32 (_ + j * e.size) else 0) = _
    by_cases htcp : m.transProto = ipprotoTcp
    · simp only [htcp, decide_true, if_true, u32, Nat.mod_add_mod, Nat.add_assoc]
    · simp only [htcp, decide_false, Bool.false_eq_true, if_false]
  · show (_ && decide (j + 1 = e.segs)) = _
    rw [Bool.and_comm, ← Bool.and_assoc]
    rfl
  · show (_ && decide (j + 1 = e.segs)) = _
    rw [Bool.and_comm, ← Bool.and_assoc]
    rfl
  · show (e.csum || m.zeroCsum) = _
    rw [Bool.not_not]

/-- A single packet is carried as it is. -/
theorem carried_segDesc {coal : RmnetFragDescriptor} {m : CoalMeta} (hc : Measured coal m)
    (hlen : m.hlen ≤ coal.bytes.length) (a : ℕ) {e : Emission} (hsegs : e.segs = 1) :
    (segDesc coal m a e).carried
      = carriedAt m coal.bytes e.off e.size (!e.csum) (atEnd m coal.bytes (e.off + e.size)) := by
  have hfin : (segDesc coal m a e).fin = _ := segDesc_flag hc hlen a e 0 (.inl rfl)
  have hpsh : (segDesc coal m a e).psh = _ := segDesc_flag hc hlen a e 3 (.inr rfl)
  unfold RmnetFragDescriptor.carried carriedAt
  rw [segDesc_payload hc hlen, hfin, hpsh, segDesc_tcpSeq, hsegs, Nat.mul_one, Carried.mk.injEq]
  refine ⟨rfl, rfl, rfl, rfl, ?_⟩
  show (e.csum || m.zeroCsum) = _
  rw [Bool.not_not]

/-- The expansion of the descriptors of batches. -/
theorem flatMap_expand {coal : RmnetFragDescriptor} {m : CoalMeta} (hc : Measured coal m)
    (hlen : m.hlen ≤ coal.bytes.length) {descs : List RmnetFragDescriptor} {out : List Emission}
    (h : List.Forall₂ (fun d e => ∃ a, d = segDesc coal m a e) descs out) :
    ∀ (bs : List Batch) (off : ℕ), out.map Emission.core = batchCores off bs →
      descs.flatMap RmnetFragDescriptor.expand = groCarried m coal.bytes off bs ∧
        descs.map RmnetFragDescriptor.gsoSegs = bs.map Batch.segs := by
  induction h with
  | nil =>
    intro bs off hcore
    cases bs with
    | nil => exact ⟨rfl, rfl⟩
    | cons b bs => cases hcore
  | @cons d e descs out hd _ ih =>
    intro bs off hcore
    cases bs with
    | nil => cases hcore
    | cons b bs =>
      obtain ⟨a, rfl⟩ := hd
      rw [List.map_cons, batchCores] at hcore
      obtain ⟨hhead, htail⟩ := List.cons.inj hcore
      simp only [Emission.core, Prod.mk.injEq] at hhead
      obtain ⟨hoff, hsize, hsegs, hcsum⟩ := hhead
      obtain ⟨hrest, hcounts⟩ := ih bs _ htail
      constructor
      · rw [List.flatMap_cons, expand_segDesc hc hlen, hrest, groCarried, hoff, hsize, hsegs, hcsum,
          Bool.not_not]
      · rw [List.map_cons, List.map_cons, hcounts, ← hsegs]
        rfl

/-- The packets of the descriptors of single packets. -/
theorem map_carried {coal : RmnetFragDescriptor} {m : CoalMeta} (hc : Measured coal m)
    (hlen : m.hlen ≤ coal.bytes.length) (pkts : List Pkt) :
    ∀ {descs : List RmnetFragDescriptor} (off i : ℕ),
      List.Forall₂ (fun d e => ∃ a, d = segDesc coal m a e) descs (perPacket off i pkts) →
      descs.map RmnetFragDescriptor.carried = singleCarried m coal.bytes off pkts := by
  induction pkts with
  | nil =>
    intro descs off i h
    cases h
    rfl
  | cons p ps ih =>
    intro descs off i h
    rw [perPacket] at h
    cases h with
    | cons hd htail =>
      obtain ⟨a, rfl⟩ := hd
      rw [List.map_cons, carried_segDesc hc hlen a rfl, ih _ _ htail, singleCarried, Bool.not_not]

/-! ### Batches against single packets -/

/-- FIN or PSH is set in the TCP header of a frame. -/
def hasFlags (m : CoalMeta) (ip : Bytes) : Bool := tcpFin (m.tcpHeader ip) || tcpPsh (m.tcpHeader ip)

/-- Keeping the flags or not makes a difference when there are any. -/
theorem carriedAt_keep_iff (m : CoalMeta) (ip : Bytes) (off size : ℕ) (err k₁ k₂ : Bool) :
    carriedAt m ip off size err k₁ = carriedAt m ip off size err k₂ ↔ (hasFlags m ip = true → k₁ = k₂) := by
  unfold carriedAt hasFlags
  rw [Carried.mk.injEq]
  cases tcpFin (m.tcpHeader ip) <;> cases tcpPsh (m.tcpHeader ip) <;> simp

theorem singleCarried_replicate (m : CoalMeta) (ip : Bytes) (p : Pkt) (rest : List Pkt) (n : ℕ) :
    ∀ off, singleCarried m ip off (List.replicate n p ++ rest)
      = (List.range n).map (fun j => carriedAt m ip (off + j * p.size) p.size p.err
          (atEnd m ip (off + j * p.size + p.size))) ++ singleCarried m ip (off + p.size * n) rest := by
  induction n with
  | zero =>
    intro off
    simp
  | succ n ih =>
    intro off
    have hshift : ∀ j, off + p.size + j * p.size = off + (j + 1) * p.size := by
      intro j
      rw [Nat.succ_mul]
      omega
    rw [List.replicate_succ, List.cons_append, singleCarried, ih, List.range_succ_eq_map, List.map_cons,
      List.map_map, List.cons_append, Nat.zero_mul, Nat.add_zero, Nat.mul_succ]
    congr 2
    · apply List.map_congr_left
      intro j _
      simp only [Function.comp, hshift]
    · congr 1
      omega

/-- No packet of a batch before its last one reaches the end of the payload. -/
def Clean (m : CoalMeta) (ip : Bytes) : ℕ → List Batch → Prop
  | _, [] => True
  | off, b :: bs =>
      (∀ j, j + 1 < b.segs → atEnd m ip (off + (j + 1) * b.pkt.size) = false) ∧
        Clean m ip (off + b.pkt.size * b.segs) bs

theorem clean_of_single {m : CoalMeta} {ip : Bytes} (bs : List Batch) :
    ∀ off, (∀ b ∈ bs, b.segs = 1) → Clean m ip off bs := by
  induction bs with
  | nil =>
    intro off _
    trivial
  | cons b bs ih =>
    intro off h
    refine ⟨?_, ih _ fun c hc => h c (List.mem_cons_of_mem _ hc)⟩
    intro j hj
    rw [h b List.mem_cons_self] at hj
    omega

/-- One batch carries its packets, if no flag is lost. -/
theorem batchCarried_eq_iff (m : CoalMeta) (ip : Bytes) (off : ℕ) (b : Batch) :
    batchCarried m ip off b.pkt.size b.segs b.pkt.err
        = (List.range b.segs).map (fun j => carriedAt m ip (off + j * b.pkt.size) b.pkt.size b.pkt.err
            (atEnd m ip (off + j * b.pkt.size + b.pkt.size))) ↔
      (hasFlags m ip = true → ∀ j, j + 1 < b.segs → atEnd m ip (off + (j + 1) * b.pkt.size) = false) := by
  have hend : ∀ j, off + j * b.pkt.size + b.pkt.size = off + (j + 1) * b.pkt.size := by
    intro j
    rw [Nat.succ_mul, Nat.add_assoc]
  unfold batchCarried
  rw [List.map_inj_left]
  simp only [carriedAt_keep_iff, hend, List.mem_range]
  constructor
  · intro h hf j hj
    have hkeep := h j (by omega) hf
    rw [← hkeep]
    simp [Nat.ne_of_lt hj]
  · intro h j hj hf
    by_cases hlast : j + 1 = b.segs
    · simp [hlast, Nat.mul_comm]
    · rw [h hf j (by omega)]
      simp [hlast]

/-- Batches carry their packets, if no flag is lost. -/
theorem groCarried_eq_iff (m : CoalMeta) (ip : Bytes) (bs : List Batch) :
    ∀ off, groCarried m ip off bs = singleCarried m ip off (unbatch bs) ↔
      (hasFlags m ip = true → Clean m ip off bs) := by
  induction bs with
  | nil =>
    intro off
    exact ⟨fun _ _ => trivial, fun _ => rfl⟩
  | cons b bs ih =>
    intro off
    have hlen : (batchCarried m ip off b.pkt.size b.segs b.pkt.err).length
        = ((List.range b.segs).map (fun j => carriedAt m ip (off + j * b.pkt.size) b.pkt.size b.pkt.err
            (atEnd m ip (off + j * b.pkt.size + b.pkt.size)))).length := by
      simp [batchCarried]
    rw [groCarried, unbatch_cons, singleCarried_replicate]
    constructor
    · intro h hf
      obtain ⟨hhead, htail⟩ := List.append_inj h hlen
      exact ⟨(batchCarried_eq_iff m ip off b).mp hhead hf, (ih _).mp htail hf⟩
    · intro h
      rw [(batchCarried_eq_iff m ip off b).mpr fun hf => (h hf).1, (ih _).mpr fun hf => (h hf).2]

/-- Two consecutive error-free packets of one pair, with no payload from the second one on. -/
def EmptyTail (pkts : List Pkt) : Prop :=
  ∃ pre p q post, pkts = pre ++ p :: q :: post ∧ p.nlo = q.nlo ∧ p.err = false ∧ q.err = false ∧
    pktBytes (q :: post) = 0

/-- Where two consecutive packets can lie: both in the first batch, around its end, or behind it. -/
theorem adjacent_cases {n : ℕ} {b p q : Pkt} {rest pre post : List Pkt}
    (h : List.replicate n b ++ rest = pre ++ p :: q :: post) :
    (∃ k, pre.length + 2 + k = n ∧ pre = List.replicate pre.length b ∧ p = b ∧ q = b ∧
      post = List.replicate k b ++ rest) ∨
    (p = b ∧ rest = q :: post) ∨ ∃ pre', pre = List.replicate n b ++ pre' ∧ rest = pre' ++ p :: q :: post := by
  rcases List.append_eq_append_iff.mp h with ⟨c, hpre, hrest⟩ | ⟨c, hrep, hc⟩
  · exact .inr (.inr ⟨c, hpre, hrest⟩)
  · obtain ⟨hn, hpre, hcr⟩ := List.replicate_eq_append_iff.mp hrep
    cases c with
    | nil => exact .inr (.inr ⟨[], by rw [hrep, List.append_nil, List.append_nil], hc.symm⟩)
    | cons x c =>
      obtain ⟨rfl, htail⟩ := List.cons.inj hc
      rw [List.length_cons, List.replicate_succ] at hcr
      obtain ⟨hp, hcr⟩ := List.cons.inj hcr
      cases c with
      | nil => exact .inr (.inl ⟨hp, htail.symm⟩)
      | cons y c =>
        obtain ⟨rfl, hpost⟩ := List.cons.inj htail
        rw [List.length_cons, List.replicate_succ] at hcr
        obtain ⟨hq, hcr⟩ := List.cons.inj hcr
        refine .inl ⟨c.length, ?_, hpre, hp, hq, ?_⟩
        · rw [List.length_cons, List.length_cons] at hn
          omega
        · rw [hpost, ← hcr]
          rfl

/-- A division of packets into batches without two empty ones at the end is clean. -/
theorem clean_iff {m : CoalMeta} {ip : Bytes} (bs : List Batch) :
    ∀ off, (∀ b ∈ bs, 1 ≤ b.segs) → (∀ b ∈ bs, 2 ≤ b.segs → b.pkt.err = false) → bs.IsChain Apart →
      m.hlen + off + pktBytes (unbatch bs) = ip.length →
      (Clean m ip off bs ↔ ¬ EmptyTail (unbatch bs)) := by
  induction bs with
  | nil =>
    intro off _ _ _ _
    refine ⟨?_, fun _ => trivial⟩
    rintro - ⟨pre, p, q, post, h, -⟩
    cases pre with
    | nil => cases h
    | cons x pre => cases h
  | cons b bs ih =>
    intro off hpos hgood hchain htotal
    rw [unbatch_cons, pktBytes_append, pktBytes_replicate] at htotal
    have ih' := ih (off + b.pkt.size * b.segs) (fun c hc => hpos c (List.mem_cons_of_mem _ hc))
      (fun c hc => hgood c (List.mem_cons_of_mem _ hc)) (List.isChain_cons.mp hchain).2 (by omega)
    rw [Clean, ih', unbatch_cons]
    constructor
    · rintro ⟨hhead, htail⟩ ⟨pre, p, q, post, h, hnlo, hp, hq, hz⟩
      rcases adjacent_cases h with ⟨k, hk, hpre, rfl, rfl, hpost⟩ | ⟨rfl, hrest⟩ | ⟨pre', -, hrest⟩
      · -- both packets lie in the batch
        have hend := hhead pre.length (by omega)
        rw [pktBytes_cons, hpost, pktBytes_append, pktBytes_replicate] at hz
        have hsz : b.pkt.size = 0 := by omega
        simp only [atEnd, decide_eq_false_iff_not, hsz] at hend
        rw [hsz] at htotal
        omega
      · -- the batch ends between them
        cases bs with
        | nil => cases hrest
        | cons c bs =>
          have hc := hpos c (List.mem_cons_of_mem _ List.mem_cons_self)
          obtain ⟨n, hn⟩ : ∃ n, c.segs = n + 1 := ⟨c.segs - 1, by omega⟩
          rw [unbatch_cons, hn, List.replicate_succ, List.cons_append] at hrest
          obtain ⟨rfl, -⟩ := List.cons.inj hrest
          rcases (List.isChain_cons.mp hchain).1 c (by simp) with herr | herr | hne
          · rw [hp] at herr
            cases herr
          · rw [hq] at herr
            cases herr
          · exact hne hnlo
      · exact htail ⟨pre', p, q, post, hrest, hnlo, hp, hq, hz⟩
    · intro hno
      refine ⟨?_, ?_⟩
      · intro j hj
        by_contra hend
        rw [Bool.not_eq_false, atEnd, decide_eq_true_eq] at hend
        obtain ⟨k, hk⟩ : ∃ k, b.segs = j + 2 + k := ⟨b.segs - (j + 2), by omega⟩
        have hsplit : b.pkt.size * b.segs = (j + 1) * b.pkt.size + b.pkt.size * (k + 1) := by
          rw [hk]
          ring
        have hz : b.pkt.size * (k + 1) = 0 := by omega
        have hsz : b.pkt.size = 0 := by
          rcases Nat.mul_eq_zero.mp hz with h | h
          · exact h
          · omega
        have herr := hgood b List.mem_cons_self (by omega)
        refine hno ⟨List.replicate j b.pkt, b.pkt, b.pkt, List.replicate k b.pkt ++ unbatch bs, ?_, rfl, herr,
          herr, ?_⟩
        · rw [hk, Nat.add_assoc, List.replicate_add, Nat.add_comm 2 k, List.replicate_succ,
            List.replicate_succ, List.append_assoc]
          rfl
        · rw [pktBytes_cons, pktBytes_append, pktBytes_replicate, hsz]
          omega
      · rintro ⟨pre, p, q, post, h, hrest⟩
        exact hno ⟨List.replicate b.segs b.pkt ++ pre, p, q, post, by rw [h, List.append_assoc], hrest⟩

/-! ### The two modes -/

/-- The batches of a plan keep the kinds of packets apart. -/
theorem noMixing_of_batches {pkts : List Pkt} {out : List RmnetFragDescriptor} {bs : List Batch}
    (hbs : unbatch bs = pkts) (hsegs : out.map RmnetFragDescriptor.gsoSegs = bs.map Batch.segs) :
    NoMixing pkts out := by
  refine ⟨bs.map fun b => List.replicate b.segs b.pkt, ?_, ?_, ?_⟩
  · rw [← hbs, unbatch, List.flatMap_def]
  · rw [hsegs, List.map_map]
    apply List.map_congr_left
    intro b _
    exact List.length_replicate
  · intro g hg p hp q hq
    obtain ⟨b, -, rfl⟩ := List.mem_map.mp hg
    rw [(List.mem_replicate.mp hp).2, (List.mem_replicate.mp hq).2]
    exact ⟨rfl, rfl⟩

/-- The device with GRO switched on or off. -/
def NetDevice.withGro (dev : NetDevice) (gro : Bool) : NetDevice := { dev with groHw := gro }

/-- The descriptors of an exact frame, with GRO or without: what they carry, and that they do not mix. -/
theorem exactFrame_carries {port : RmnetPort} (halloc : port.AllocOk) {frags : List SkbFrag} {hd ip : Bytes}
    (hf : CoalFrame frags hd ip) {m : CoalMeta} (h : ExactFrame m hd ip) (a : ℕ) (dev : NetDevice)
    (mask : ℕ) (hbuggy : (rmnetMapV5CsumBuggy (coalHeaderOf hd) && !m.zeroCsum) = false)
    (hfast : (dev.groHw && m.plain && (coalHeaderOf hd).numNlos = 1 && (coalHeaderOf hd).csumValid) = false) :
    ∃ coal, Measured coal m ∧ coal.bytes = ip ∧
      List.Forall₂ (fun d e => ∃ b, d = segDesc coal m b e)
        (rmnetFragSegmentCoalData port (frameDesc a frags dev) mask []).list
        (segmentPlan (dev.groHw && m.plain) m.hlen (framePairs hd) mask).out := by
  obtain ⟨frags', descs, hb, hlist, hdescs, -⟩ := segmentCoalData_plan halloc hf a dev h.measured mask [] hbuggy
    hfast (h.planFits _ mask)
  refine ⟨measuredDesc a frags' dev m, ?_, hb, ?_⟩
  · exact measuredDesc_measured (by rw [← fragsBytes_length, hb]; exact hf.ip_length)
      (by rw [hb]; exact h.measured)
  · rw [hlist]
    exact hdescs

/-- **GRO mode and per-packet mode carry the same packets**, but for empty packets at the end.  Take an
accepted frame whose pairs describe exactly its payload, on any device.  The descriptors emitted with GRO
mix no packets; expanded, they carry what is emitted without GRO, exactly when it is not the case that
GRO applies to the headers, FIN or PSH is set, and the frame ends in two error-free packets of one pair
with no payload from the second one on. -/
theorem gro_carries_iff {port : RmnetPort} (halloc : port.AllocOk) {frags : List SkbFrag} {hd ip : Bytes}
    (hf : CoalFrame frags hd ip) {m : CoalMeta} (h : ExactFrame m hd ip) (a : ℕ) (dev : NetDevice)
    {port' : RmnetPort} {mask : ℕ}
    (hcheck : rmnetFragDataCheckCoalHeader port (frameDesc a frags dev) = (port', some mask))
    (hbuggy : (rmnetMapV5CsumBuggy (coalHeaderOf hd) && !m.zeroCsum) = false)
    (hfast : (m.plain && (coalHeaderOf hd).numNlos = 1 && (coalHeaderOf hd).csumValid) = false) :
    let on := (rmnetFragSegmentCoalData port' (frameDesc a frags (dev.withGro true)) mask []).list
    let off := (rmnetFragSegmentCoalData port' (frameDesc a frags (dev.withGro false)) mask []).list
    let pkts := framePackets m.hlen 0 (framePairs hd) mask
    (on.flatMap RmnetFragDescriptor.expand = off.map RmnetFragDescriptor.carried ∧ NoMixing pkts on) ↔
      ¬ (m.plain = true ∧ hasFlags m ip = true ∧ EmptyTail pkts) := by
  intro on off pkts
  have halloc' : port'.AllocOk := by
    rw [dataCheckCoalHeader_eq port hf a dev] at hcheck
    obtain ⟨-, -, -, stats, rfl⟩ := checkCoalHeader_some hcheck
    exact halloc
  have hlen : m.hlen ≤ ip.length := by
    have := h.payload
    omega
  obtain ⟨coal₁, hc₁, hb₁, hon⟩ := exactFrame_carries halloc' hf h a (dev.withGro true) mask hbuggy
    (by show (true && _ && _ && _) = false; rw [Bool.true_and]; exact hfast)
  obtain ⟨coal₀, hc₀, hb₀, hoff⟩ := exactFrame_carries halloc' hf h a (dev.withGro false) mask hbuggy rfl
  have hgro₁ : ((dev.withGro true).groHw && m.plain) = m.plain := Bool.true_and _
  have hgro₀ : ((dev.withGro false).groHw && m.plain) = false := rfl
  rw [hgro₁] at hon
  rw [hgro₀, (plan_single _ _ _).1] at hoff
  obtain ⟨bs, hbs, hcores, -, hkind⟩ := plan_batches m.plain m.hlen (framePairs hd) mask
  obtain ⟨hexp, hsegs⟩ := flatMap_expand hc₁ (by rw [hb₁]; exact hlen) hon bs 0 hcores
  have hcar := map_carried hc₀ (by rw [hb₀]; exact hlen) _ 0 0 hoff
  rw [hb₁] at hexp
  rw [hb₀] at hcar
  have htotal : m.hlen + 0 + pktBytes (unbatch bs) = ip.length := by
    rw [hbs, Nat.add_zero]
    exact h.pktBytes_eq mask
  have heq : on.flatMap RmnetFragDescriptor.expand = off.map RmnetFragDescriptor.carried ↔
      (hasFlags m ip = true → Clean m ip 0 bs) := by
    rw [hexp, hcar, ← hbs]
    exact groCarried_eq_iff m ip bs 0
  rw [heq, and_iff_left (noMixing_of_batches hbs hsegs)]
  cases hplain : m.plain with
  | true =>
    rw [hplain] at hkind
    obtain ⟨hpk, hpos, hgood, happart⟩ := hkind
    rw [clean_iff bs 0 hpos hgood happart htotal, hpk]
    simp only [true_and, not_and]
    exact Iff.rfl
  | false =>
    rw [hplain] at hkind
    simp only [Bool.false_eq_true, if_false, false_and, not_false_eq_true, iff_true] at hkind ⊢
    exact fun _ => clean_of_single bs 0 hkind

/-- The headers of a frame with one pair and no checksum verdict for the whole. -/
def runHeaders (len bitmap count : UInt8) : Bytes :=
  [0x40, 1, 0, 0] ++ [2, 0x10, 0, 0] ++ [0, len, bitmap, count] ++ List.replicate 20 0

/-- Three packets of two bytes, the last one with FIN and a checksum error: with GRO a batch of two and
the bad packet. -/
theorem gro_carries_batch :
    let desc := fun gro => frameDesc 0 (twoFrags (runHeaders 42 4 3) (tcp4Header 7 100 0x11 ++ [1, 2, 3, 4, 5, 6]))
      (plainDevice.withGro gro)
    ∃ port', rmnetFragDataCheckCoalHeader freshPort (desc false) = (port', some 4) ∧
      (rmnetFragSegmentCoalData port' (desc true) 4 []).list.flatMap RmnetFragDescriptor.expand
        = (rmnetFragSegmentCoalData port' (desc false) 4 []).list.map RmnetFragDescriptor.carried := by
  intro desc
  have hf : CoalFrame (twoFrags (runHeaders 42 4 3) (tcp4Header 7 100 0x11 ++ [1, 2, 3, 4, 5, 6]))
      (runHeaders 42 4 3) (tcp4Header 7 100 0x11 ++ [1, 2, 3, 4, 5, 6]) :=
    twoFrags_frame (by decide) (by decide)
  have hcheck : rmnetFragDataCheckCoalHeader freshPort (desc false)
      = ((rmnetFragDataCheckCoalHeader freshPort (desc false)).1, some 4) := by
    rw [dataCheckCoalHeader_eq freshPort hf]
    exact Prod.ext rfl (by decide)
  refine ⟨_, hcheck, ((gro_carries_iff (m := tcp4Meta) (fun _ => rfl) hf
    ⟨by decide, by decide, by decide, by decide⟩ 0 plainDevice hcheck (by decide) (by decide)).mpr ?_).1⟩
  rintro ⟨-, -, pre, p, q, post, hpkts, -, -, -, hz⟩
  have hpkts' : framePackets 40 0 (framePairs (runHeaders 42 4 3)) 4
      = [⟨0, 2, false⟩, ⟨0, 2, false⟩, ⟨0, 2, true⟩] := by decide
  have hq : q ∈ framePackets 40 0 (framePairs (runHeaders 42 4 3)) 4 := by
    rw [show framePackets 40 0 (framePairs (runHeaders 42 4 3)) 4 = _ from hpkts]
    simp
  rw [hpkts'] at hq
  have hsize : q.size = 2 := by
    simp only [List.mem_cons, List.not_mem_nil, or_false] at hq
    rcases hq with rfl | rfl | rfl <;> rfl
  rw [pktBytes_cons, hsize] at hz
  omega

/-- Two empty packets with FIN in one pair: without GRO both carry it, with GRO only the last. -/
theorem gro_loses_fin :
    let desc := fun gro => frameDesc 0 (twoFrags (runHeaders 40 0 2) (tcp4Header 7 100 0x11))
      (plainDevice.withGro gro)
    let port' := (rmnetFragDataCheckCoalHeader freshPort (desc false)).1
    (rmnetFragDataCheckCoalHeader freshPort (desc false)).2 = some 0 ∧
      ¬ ((rmnetFragSegmentCoalData port' (desc true) 0 []).list.flatMap RmnetFragDescriptor.expand
          = (rmnetFragSegmentCoalData port' (desc false) 0 []).list.map RmnetFragDescriptor.carried) := by
  decide

end Rmnet
