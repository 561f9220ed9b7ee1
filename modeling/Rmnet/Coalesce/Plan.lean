import Mathlib.Data.List.Chain
import Mathlib.Data.List.Flatten
import Mathlib.Algebra.BigOperators.Group.List.Basic
import Rmnet.Coalesce.Loop

/-!
# What the segmentation loop emits

The loop is run on numbers alone.  A frame is a list of packets, each with its pair, its payload size
and its checksum-error bit (`framePackets`); a *batch* is a number of equal packets.  Without GRO the
plan is one emission a packet (`plan_single`).  With GRO it is a division of the packets into batches
(`plan_gro`): each batch lies in one pair, a bad packet is a batch of its own, and two batches that touch
are kept apart by an error or by the end of a pair, so the batches are as long as they can be.
-/

namespace Rmnet

open Word

/-! ### The plan -/

/-- One emission of the loop: where its payload starts, the payload size and the number of its packets,
the packet id that was current, and the checksum status. -/
structure Emission where
  off : ℕ
  size : ℕ
  segs : ℕ
  pktId : ℕ
  csum : Bool
  deriving DecidableEq, Repr

/-- The numbers that the loop works on; `peak` is the largest batch count so far. -/
structure PlanState where
  size : ℕ := 0
  segs : ℕ := 0
  peak : ℕ := 0
  off : ℕ := 0
  pktId : ℕ := 0
  out : List Emission := []
  deriving DecidableEq, Repr

/-- The operations of the loop on numbers. -/
def planOps : SegOps PlanState where
  setSize n st := { st with size := n }
  segs := PlanState.segs
  setSegs n st := { st with segs := n, peak := max st.peak n }
  emit i c st :=
    { st with
      out := st.out ++ [⟨st.off, st.size, st.segs, st.pktId, c⟩]
      off := st.off + st.size * st.segs
      pktId := u8 (i + 1)
      segs := 0 }
  csumErr st := st

/-- The state after the loop. -/
def segmentPlan (gro : Bool) (hlen : ℕ) (pairs : List NlPair) (mask : ℕ) : PlanState :=
  segNlos planOps gro hlen pairs 0 mask {}

/-! ### Packets and batches -/

/-- A packet of a coalesced frame. -/
structure Pkt where
  nlo : ℕ
  size : ℕ
  err : Bool
  deriving DecidableEq, Repr

/-- The packets of one pair, with their bits from the error mask. -/
def nloPackets (nlo size : ℕ) : ℕ → ℕ → List Pkt
  | 0, _ => []
  | n + 1, mask => ⟨nlo, size, mask.testBit 0⟩ :: nloPackets nlo size n (mask / 2)

/-- The packets of the pairs from `nlo` on. -/
def framePackets (hlen : ℕ) : ℕ → List NlPair → ℕ → List Pkt
  | _, [], _ => []
  | nlo, p :: ps, mask =>
      nloPackets nlo (sub16 p.pktLen hlen) p.numPackets mask ++
        framePackets hlen (nlo + 1) ps (mask / 2 ^ p.numPackets)

/-- The payload bytes of some packets. -/
def pktBytes (pkts : List Pkt) : ℕ := (pkts.map Pkt.size).sum

/-- A number of equal packets. -/
structure Batch where
  pkt : Pkt
  segs : ℕ
  deriving DecidableEq, Repr

/-- The packets of some batches. -/
def unbatch (bs : List Batch) : List Pkt := bs.flatMap fun b => List.replicate b.segs b.pkt

/-- An emission without its packet id. -/
def Emission.core (e : Emission) : ℕ × ℕ × ℕ × Bool := (e.off, e.size, e.segs, e.csum)

/-- The emissions of some batches, the first of which starts at an offset. -/
def batchCores : ℕ → List Batch → List (ℕ × ℕ × ℕ × Bool)
  | _, [] => []
  | off, b :: bs => (off, b.pkt.size, b.segs, !b.pkt.err) :: batchCores (off + b.pkt.size * b.segs) bs

@[simp] theorem pktBytes_nil : pktBytes [] = 0 := rfl

@[simp] theorem pktBytes_cons (p : Pkt) (ps : List Pkt) : pktBytes (p :: ps) = p.size + pktBytes ps := by
  simp [pktBytes]

@[simp] theorem pktBytes_append (ps qs : List Pkt) : pktBytes (ps ++ qs) = pktBytes ps + pktBytes qs := by
  simp [pktBytes]

theorem pktBytes_replicate (n : ℕ) (p : Pkt) : pktBytes (List.replicate n p) = p.size * n := by
  simp [pktBytes, Nat.mul_comm]

@[simp] theorem unbatch_append (bs cs : List Batch) : unbatch (bs ++ cs) = unbatch bs ++ unbatch cs := by
  simp [unbatch]

@[simp] theorem unbatch_singleton (b : Batch) : unbatch [b] = List.replicate b.segs b.pkt := by
  simp [unbatch]

theorem unbatch_cons (b : Batch) (bs : List Batch) :
    unbatch (b :: bs) = List.replicate b.segs b.pkt ++ unbatch bs := by
  simp [unbatch]

theorem unbatch_single (ps : List Pkt) : unbatch (ps.map fun p => ⟨p, 1⟩) = ps := by
  induction ps with
  | nil => rfl
  | cons p ps ih => rw [List.map_cons, unbatch_cons, ih, List.replicate_one, List.singleton_append]

theorem batchCores_append (bs cs : List Batch) :
    ∀ off, batchCores off (bs ++ cs) = batchCores off bs ++ batchCores (off + pktBytes (unbatch bs)) cs := by
  induction bs with
  | nil =>
    intro off
    rfl
  | cons b bs ih =>
    intro off
    rw [List.cons_append, batchCores, batchCores, ih, unbatch_cons, pktBytes_append, pktBytes_replicate,
      List.cons_append, Nat.add_assoc]

/-- A batch starts and ends inside the payload. -/
theorem batchCores_bound (bs : List Batch) :
    ∀ off, ∀ c ∈ batchCores off bs, c.1 + c.2.1 * c.2.2.1 ≤ off + pktBytes (unbatch bs) := by
  induction bs with
  | nil =>
    intro off c hc
    cases hc
  | cons b bs ih =>
    intro off c hc
    rw [unbatch_cons, pktBytes_append, pktBytes_replicate]
    rcases List.mem_cons.mp hc with rfl | hc
    · simp only
      omega
    · have := ih _ c hc
      omega

/-- Batches with payload start one behind the other. -/
theorem batchCores_increasing {bs : List Batch} :
    ∀ off, (∀ b ∈ bs, 0 < b.pkt.size * b.segs) →
      (batchCores off bs).Pairwise (fun c d => c.1 < d.1) ∧ ∀ c ∈ batchCores off bs, off ≤ c.1 := by
  induction bs with
  | nil =>
    intro off _
    exact ⟨.nil, by simp [batchCores]⟩
  | cons b bs ih =>
    intro off hpos
    obtain ⟨hpair, hle⟩ := ih (off + b.pkt.size * b.segs) fun d hd => hpos d (List.mem_cons_of_mem _ hd)
    have hb := hpos b List.mem_cons_self
    rw [batchCores]
    refine ⟨List.pairwise_cons.mpr ⟨?_, hpair⟩, ?_⟩
    · intro c hc
      have := hle c hc
      simp only
      omega
    · intro c hc
      rcases List.mem_cons.mp hc with rfl | hc
      · exact Nat.le_refl _
      · have := hle c hc
        omega

/-! ### The packets by number -/

theorem nloPackets_getElem? (nlo size n : ℕ) :
    ∀ mask k, (nloPackets nlo size n mask)[k]? = if k < n then some ⟨nlo, size, mask.testBit k⟩ else none := by
  induction n with
  | zero =>
    intro mask k
    simp [nloPackets]
  | succ n ih =>
    intro mask k
    rw [nloPackets]
    cases k with
    | zero => simp
    | succ k =>
      rw [List.getElem?_cons_succ, ih, Nat.testBit_succ]
      simp only [Nat.add_lt_add_iff_right]

theorem nloPackets_length (nlo size n : ℕ) : ∀ mask, (nloPackets nlo size n mask).length = n := by
  induction n with
  | zero =>
    intro mask
    rfl
  | succ n ih =>
    intro mask
    rw [nloPackets, List.length_cons, ih]

theorem framePackets_length (hlen : ℕ) (pairs : List NlPair) :
    ∀ nlo mask, (framePackets hlen nlo pairs mask).length = (pairs.map NlPair.numPackets).sum := by
  induction pairs with
  | nil =>
    intro nlo mask
    rfl
  | cons p ps ih =>
    intro nlo mask
    rw [framePackets, List.length_append, nloPackets_length, ih, List.map_cons, List.sum_cons]

/-- Packets longer than their headers have payload. -/
theorem framePackets_size_pos {hlen : ℕ} {pairs : List NlPair}
    (hpairs : ∀ p ∈ pairs, hlen < p.pktLen ∧ p.pktLen < 65536) :
    ∀ nlo mask, ∀ q ∈ framePackets hlen nlo pairs mask, 0 < q.size := by
  induction pairs with
  | nil =>
    intro nlo mask q hq
    cases hq
  | cons p ps ih =>
    intro nlo mask q hq
    rcases List.mem_append.mp hq with hq | hq
    · obtain ⟨hlt, hwidth⟩ := hpairs p List.mem_cons_self
      obtain ⟨k, hk⟩ := List.mem_iff_getElem?.mp hq
      rw [nloPackets_getElem?, sub16_of_le hlt.le hwidth] at hk
      split at hk
      · obtain rfl := Option.some.inj hk
        exact Nat.sub_pos_of_lt hlt
      · cases hk
    · exact ih (fun r hr => hpairs r (List.mem_cons_of_mem _ hr)) _ _ q hq

/-! ### The counters of the packet loop -/

theorem segPackets_mask {σ : Type} (ops : SegOps σ) (gro : Bool) (n : ℕ) :
    ∀ i mask st, (segPackets ops gro n i mask st).2.1 = mask / 2 ^ n := by
  induction n with
  | zero =>
    intro i mask st
    simp [segPackets]
  | succ n ih =>
    intro i mask st
    rw [segPackets, ih, Nat.div_div_eq_div_mul, Nat.pow_succ, Nat.mul_comm 2]

theorem segFlush_of_zero {i : ℕ} {st : PlanState} (h : st.segs = 0) : segFlush planOps i st = st := by
  have hz : ¬ planOps.segs st ≠ 0 := not_not.mpr h
  rw [segFlush, if_neg hz]

/-! ### Without GRO -/

/-- One emission a packet. -/
def perPacket : ℕ → ℕ → List Pkt → List Emission
  | _, _, [] => []
  | off, i, p :: ps => ⟨off, p.size, 1, i, !p.err⟩ :: perPacket (off + p.size) (u8 (i + 1)) ps

theorem perPacket_length (ps : List Pkt) : ∀ off i, (perPacket off i ps).length = ps.length := by
  induction ps with
  | nil =>
    intro off i
    rfl
  | cons p ps ih =>
    intro off i
    rw [perPacket, List.length_cons, List.length_cons, ih]

theorem perPacket_getElem? (pkts : List Pkt) :
    ∀ off i k, i + k < 256 → (perPacket off i pkts)[k]?
      = pkts[k]?.map fun p => ⟨off + pktBytes (pkts.take k), p.size, 1, i + k, !p.err⟩ := by
  induction pkts with
  | nil =>
    intro off i k _
    rfl
  | cons p ps ih =>
    intro off i k hk
    rw [perPacket]
    cases k with
    | zero => simp
    | succ k =>
      rw [List.getElem?_cons_succ, List.getElem?_cons_succ, u8_of_lt (by omega), ih _ _ _ (by omega),
        List.take_succ_cons, pktBytes_cons]
      congr 1
      funext q
      rw [Nat.add_assoc off, Nat.add_assoc i, Nat.add_comm 1 k]

/-- One emission a packet is a plan of single packets. -/
theorem perPacket_cores (ps : List Pkt) :
    ∀ off i, (perPacket off i ps).map Emission.core = batchCores off (ps.map fun p => ⟨p, 1⟩) := by
  induction ps with
  | nil =>
    intro off i
    rfl
  | cons p ps ih =>
    intro off i
    rw [perPacket, List.map_cons, ih, List.map_cons, batchCores, Nat.mul_one]
    rfl

/-- The state between two packets without GRO: the packets of the frame so far are `pkts`. -/
structure SingleInv (pkts : List Pkt) (totalPkt : ℕ) (st : PlanState) : Prop where
  segs : st.segs = 0
  off : st.off = pktBytes pkts
  pktId : st.pktId = totalPkt
  out : ∀ qs, perPacket 0 0 (pkts ++ qs) = st.out ++ perPacket st.off totalPkt qs
  peak : st.peak ≤ pkts.length

theorem SingleInv.packet {pkts : List Pkt} {i : ℕ} {st : PlanState} (h : SingleInv pkts i st)
    (nlo : ℕ) (e : Bool) :
    SingleInv (pkts ++ [⟨nlo, st.size, e⟩]) (u8 (i + 1)) (segPacket planOps false i e st) ∧
      (segPacket planOps false i e st).size = st.size := by
  have hst : segPacket planOps false i e st
      = { st with
          out := st.out ++ [⟨st.off, st.size, 1, st.pktId, !e⟩]
          off := st.off + st.size * 1
          pktId := u8 (i + 1)
          segs := 0
          peak := max st.peak 1 } := by
    cases e <;> rfl
  rw [hst]
  refine ⟨⟨rfl, ?_, rfl, ?_, ?_⟩, rfl⟩
  · simp only [h.off, pktBytes_append, pktBytes_cons, pktBytes_nil, Nat.mul_one, Nat.add_zero]
  · intro qs
    rw [List.append_assoc, h.out, List.singleton_append, perPacket, h.pktId]
    simp
  · have := h.peak
    simp only [List.length_append, List.length_singleton]
    omega

theorem SingleInv.packets (nlo : ℕ) (n : ℕ) :
    ∀ {pkts : List Pkt} {i : ℕ} {st : PlanState} (mask : ℕ), SingleInv pkts i st →
      let r := segPackets planOps false n i mask st
      SingleInv (pkts ++ nloPackets nlo st.size n mask) r.1 r.2.2 := by
  induction n with
  | zero =>
    intro pkts i st mask h
    simpa [segPackets, nloPackets] using h
  | succ n ih =>
    intro pkts i st mask h
    obtain ⟨h₁, hsize⟩ := h.packet nlo (mask.testBit 0)
    have h₂ := ih (mask / 2) h₁
    rw [hsize, List.append_assoc, List.singleton_append] at h₂
    exact h₂

theorem SingleInv.nlos (hlen : ℕ) (ps : List NlPair) :
    ∀ {pkts : List Pkt} {i : ℕ} {st : PlanState} (nlo mask : ℕ), SingleInv pkts i st →
      ∃ j, SingleInv (pkts ++ framePackets hlen nlo ps mask) j (segNlos planOps false hlen ps i mask st) := by
  induction ps with
  | nil =>
    intro pkts i st nlo mask h
    refine ⟨i, ?_⟩
    rw [framePackets, List.append_nil]
    exact h
  | cons p ps ih =>
    intro pkts i st nlo mask h
    have hset : SingleInv pkts i (planOps.setSize (sub16 p.pktLen hlen) st) :=
      ⟨h.segs, h.off, h.pktId, h.out, h.peak⟩
    have h₁ := SingleInv.packets nlo p.numPackets mask hset
    rw [segNlos, segPackets_mask]
    rw [segFlush_of_zero h₁.segs]
    obtain ⟨j, h₂⟩ := ih (nlo + 1) (mask / 2 ^ p.numPackets) h₁
    refine ⟨j, ?_⟩
    rw [framePackets, ← List.append_assoc]
    exact h₂

/-- **The plan without GRO**: one emission a packet, in order. -/
theorem plan_single (hlen : ℕ) (pairs : List NlPair) (mask : ℕ) :
    (segmentPlan false hlen pairs mask).out = perPacket 0 0 (framePackets hlen 0 pairs mask) ∧
      (segmentPlan false hlen pairs mask).peak ≤ (framePackets hlen 0 pairs mask).length := by
  have hinit : SingleInv [] 0 {} := ⟨rfl, rfl, rfl, fun _ => rfl, le_rfl⟩
  obtain ⟨j, h⟩ := SingleInv.nlos hlen pairs 0 mask hinit
  rw [List.nil_append] at h
  refine ⟨?_, h.peak⟩
  have hout := h.out []
  rw [List.append_nil, perPacket, List.append_nil] at hout
  exact hout.symm

/-! ### With GRO -/

/-- Two batches that touch are separated by an error or by the end of a pair. -/
def Apart (a b : Batch) : Prop := a.pkt.err = true ∨ b.pkt.err = true ∨ a.pkt.nlo ≠ b.pkt.nlo

/-- A division of packets into batches that cannot be made longer. -/
structure Batched (bs : List Batch) (pkts : List Pkt) : Prop where
  packets : unbatch bs = pkts
  pos : ∀ b ∈ bs, 1 ≤ b.segs
  good : ∀ b ∈ bs, 2 ≤ b.segs → b.pkt.err = false
  apart : bs.IsChain Apart

/-- One more batch at the end. -/
theorem Batched.snoc {bs : List Batch} {pkts : List Pkt} (h : Batched bs pkts) {b : Batch}
    (hpos : 1 ≤ b.segs) (hgood : 2 ≤ b.segs → b.pkt.err = false) (hlast : ∀ a ∈ bs.getLast?, Apart a b) :
    Batched (bs ++ [b]) (pkts ++ List.replicate b.segs b.pkt) where
  packets := by rw [unbatch_append, h.packets, unbatch_singleton]
  pos := by
    intro c hc
    rcases List.mem_append.mp hc with hc | hc
    · exact h.pos c hc
    · rw [List.mem_singleton.mp hc]
      exact hpos
  good := by
    intro c hc
    rcases List.mem_append.mp hc with hc | hc
    · exact h.good c hc
    · rw [List.mem_singleton.mp hc]
      exact hgood
  apart := by
    rw [List.isChain_append]
    refine ⟨h.apart, List.isChain_singleton b, ?_⟩
    intro x hx y hy
    rw [List.head?_cons, Option.mem_def, Option.some.injEq] at hy
    subst hy
    exact hlast x hx

/-- The state inside pair `nlo` with GRO: the packets so far are those of the batches that were emitted
and the pending good ones of this pair. -/
structure GroInv (nlo : ℕ) (pkts : List Pkt) (st : PlanState) : Prop where
  batches : ∃ bs closed, Batched bs closed ∧ st.out.map Emission.core = batchCores 0 bs ∧
    st.off = pktBytes closed ∧ pkts = closed ++ List.replicate st.segs ⟨nlo, st.size, false⟩ ∧
    (∀ b ∈ bs, b.pkt.nlo ≤ nlo) ∧ ∀ b ∈ bs.getLast?, b.pkt.err = true ∨ b.pkt.nlo ≠ nlo
  peak : st.peak ≤ pkts.length

/-- Emitting a batch that is not empty. -/
theorem emit_batch (nlo : ℕ) {bs : List Batch} {closed : List Pkt} (st : PlanState) (h : Batched bs closed)
    (hout : st.out.map Emission.core = batchCores 0 bs) (hoff : st.off = pktBytes closed)
    (hpos : 1 ≤ st.segs) (i : ℕ) (c : Bool) (hgood : 2 ≤ st.segs → c = true)
    (hlast : ∀ b ∈ bs.getLast?, Apart b ⟨⟨nlo, st.size, !c⟩, st.segs⟩) :
    Batched (bs ++ [⟨⟨nlo, st.size, !c⟩, st.segs⟩])
        (closed ++ List.replicate st.segs ⟨nlo, st.size, !c⟩) ∧
      (planOps.emit i c st).out.map Emission.core
        = batchCores 0 (bs ++ [⟨⟨nlo, st.size, !c⟩, st.segs⟩]) ∧
      (planOps.emit i c st).off = pktBytes (closed ++ List.replicate st.segs ⟨nlo, st.size, !c⟩) := by
  refine ⟨h.snoc hpos (fun h2 => by simp [hgood h2]) hlast, ?_, ?_⟩
  · show (st.out ++ [_]).map Emission.core = _
    rw [List.map_append, hout, batchCores_append, h.packets, Nat.zero_add, ← hoff]
    simp [batchCores, Emission.core]
  · show st.off + st.size * st.segs = _
    rw [pktBytes_append, pktBytes_replicate, hoff]

/-- Closing the pending batch, if there is one. -/
theorem GroInv.close {nlo : ℕ} {pkts : List Pkt} {st : PlanState} (h : GroInv nlo pkts st) (i : ℕ) :
    ∃ bs, Batched bs pkts ∧ (segFlush planOps i st).out.map Emission.core = batchCores 0 bs ∧
      (segFlush planOps i st).off = pktBytes pkts ∧ (segFlush planOps i st).segs = 0 ∧
      (segFlush planOps i st).size = st.size ∧ (segFlush planOps i st).peak = st.peak ∧
      ∀ b ∈ bs, b.pkt.nlo ≤ nlo := by
  obtain ⟨bs, closed, hb, hout, hoff, hpkts, hnlo, hlast⟩ := h.batches
  by_cases hz : st.segs = 0
  · rw [segFlush_of_zero hz]
    rw [hz, List.replicate_zero, List.append_nil] at hpkts
    subst hpkts
    exact ⟨bs, hb, hout, hoff, hz, rfl, rfl, hnlo⟩
  · have hne : planOps.segs st ≠ 0 := hz
    rw [segFlush, if_pos hne]
    obtain ⟨hb', hout', hoff'⟩ := emit_batch nlo st hb hout hoff (Nat.pos_of_ne_zero hz) i true
      (fun _ => rfl) (fun b hmem => (hlast b hmem).imp id .inr)
    rw [Bool.not_true] at hb' hout' hoff'
    rw [← hpkts] at hb' hoff'
    refine ⟨_, hb', hout', hoff', rfl, rfl, rfl, ?_⟩
    intro b hmem
    rcases List.mem_append.mp hmem with hmem | hmem
    · exact hnlo b hmem
    · rw [List.mem_singleton.mp hmem]

theorem GroInv.packet {nlo : ℕ} {pkts : List Pkt} {st : PlanState} (h : GroInv nlo pkts st) (i : ℕ)
    (e : Bool) :
    GroInv nlo (pkts ++ [⟨nlo, st.size, e⟩]) (segPacket planOps true i e st) ∧
      (segPacket planOps true i e st).size = st.size := by
  have hpeak := h.peak
  cases e with
  | false =>
    -- a good packet joins the pending batch
    obtain ⟨bs, closed, hb, hout, hoff, hpkts, hnlo, hlast⟩ := h.batches
    have hlen : st.segs ≤ pkts.length := by
      rw [hpkts, List.length_append, List.length_replicate]
      omega
    refine ⟨⟨⟨bs, closed, hb, hout, hoff, ?_, hnlo, hlast⟩, ?_⟩, rfl⟩
    · rw [hpkts, List.append_assoc]
      congr 1
      exact List.replicate_succ'.symm
    · show max st.peak (st.segs + 1) ≤ _
      rw [List.length_append, List.length_singleton]
      omega
  | true =>
    -- the pending batch is closed, then the bad packet is a batch of its own
    obtain ⟨bs, hb, hout, hoff, hsegs, hsize, hpk, hnlo⟩ := h.close i
    set st₁ := segFlush planOps i st with hst₁
    have hst : segPacket planOps true i true st = planOps.emit i false (planOps.setSegs 1 st₁) := rfl
    rw [hst]
    have hset : (planOps.setSegs 1 st₁).segs = 1 := rfl
    obtain ⟨hb', hout', hoff'⟩ := emit_batch nlo (planOps.setSegs 1 st₁) hb hout hoff
      (by rw [hset]) i false (fun h2 => by rw [hset] at h2; omega) (fun b _ => .inr (.inl rfl))
    have hsz : (planOps.setSegs 1 st₁).size = st.size := hsize
    rw [hset, hsz, Bool.not_false, List.replicate_one] at hb' hoff'
    rw [hset, hsz, Bool.not_false] at hout'
    refine ⟨⟨⟨_, _, hb', hout', hoff', ?_, ?_, ?_⟩, ?_⟩, hsize⟩
    · show _ = pkts ++ [_] ++ List.replicate 0 _
      rw [List.replicate_zero, List.append_nil]
    · intro b hmem
      rcases List.mem_append.mp hmem with hmem | hmem
      · exact hnlo b hmem
      · rw [List.mem_singleton.mp hmem]
    · intro b hmem
      rw [List.getLast?_concat, Option.mem_def, Option.some.injEq] at hmem
      rw [← hmem]
      exact .inl rfl
    · show max st₁.peak 1 ≤ _
      rw [hpk, List.length_append, List.length_singleton]
      omega

theorem GroInv.packetLoop {nlo : ℕ} (n : ℕ) :
    ∀ {pkts : List Pkt} {st : PlanState} (i mask : ℕ), GroInv nlo pkts st →
      GroInv nlo (pkts ++ nloPackets nlo st.size n mask) (segPackets planOps true n i mask st).2.2 := by
  induction n with
  | zero =>
    intro pkts st i mask h
    rw [nloPackets, List.append_nil]
    exact h
  | succ n ih =>
    intro pkts st i mask h
    obtain ⟨h₁, hsize⟩ := h.packet i (mask.testBit 0)
    have h₂ := ih (u8 (i + 1)) (mask / 2) h₁
    rw [hsize, List.append_assoc, List.singleton_append] at h₂
    exact h₂

/-- Entering a pair: nothing is pending. -/
theorem GroInv.enter {nlo : ℕ} {bs : List Batch} {pkts : List Pkt} {st : PlanState} (hb : Batched bs pkts)
    (hout : st.out.map Emission.core = batchCores 0 bs) (hoff : st.off = pktBytes pkts)
    (hsegs : st.segs = 0) (hpeak : st.peak ≤ pkts.length) (hnlo : ∀ b ∈ bs, b.pkt.nlo < nlo) (n : ℕ) :
    GroInv nlo pkts (planOps.setSize n st) := by
  refine ⟨⟨bs, pkts, hb, hout, hoff, ?_, fun b hmem => (hnlo b hmem).le, ?_⟩, hpeak⟩
  · show pkts = pkts ++ List.replicate st.segs _
    rw [hsegs, List.replicate_zero, List.append_nil]
  · intro b hmem
    exact .inr (hnlo b (List.mem_of_getLast? hmem)).ne

theorem groLoop (hlen : ℕ) (ps : List NlPair) :
    ∀ {bs : List Batch} {pkts : List Pkt} (nlo i mask : ℕ) (st : PlanState), Batched bs pkts →
      st.out.map Emission.core = batchCores 0 bs → st.off = pktBytes pkts → st.segs = 0 →
      st.peak ≤ pkts.length → (∀ b ∈ bs, b.pkt.nlo < nlo) →
      ∃ cs, Batched cs (pkts ++ framePackets hlen nlo ps mask) ∧
        (segNlos planOps true hlen ps i mask st).out.map Emission.core = batchCores 0 cs ∧
        (segNlos planOps true hlen ps i mask st).peak ≤ (pkts ++ framePackets hlen nlo ps mask).length := by
  induction ps with
  | nil =>
    intro bs pkts nlo i mask st hb hout _ _ hpeak _
    rw [framePackets, List.append_nil]
    exact ⟨bs, hb, hout, hpeak⟩
  | cons p ps ih =>
    intro bs pkts nlo i mask st hb hout hoff hsegs hpeak hnlo
    have h₀ := GroInv.enter hb hout hoff hsegs hpeak hnlo (sub16 p.pktLen hlen)
    have h₁ := GroInv.packetLoop p.numPackets i mask h₀
    obtain ⟨bs', hb', hout', hoff', hsegs', -, hpk', hnlo'⟩ := h₁.close
      (segPackets planOps true p.numPackets i mask (planOps.setSize (sub16 p.pktLen hlen) st)).1
    rw [segNlos, segPackets_mask, framePackets, ← List.append_assoc]
    refine ih _ _ _ _ hb' hout' hoff' hsegs' ?_ fun b hmem => Nat.lt_succ_of_le (hnlo' b hmem)
    rw [hpk']
    exact h₁.peak

/-- **The plan with GRO** is a division of the packets into batches as long as they can be. -/
theorem plan_gro (hlen : ℕ) (pairs : List NlPair) (mask : ℕ) :
    ∃ bs, Batched bs (framePackets hlen 0 pairs mask) ∧
      (segmentPlan true hlen pairs mask).out.map Emission.core = batchCores 0 bs ∧
      (segmentPlan true hlen pairs mask).peak ≤ (framePackets hlen 0 pairs mask).length := by
  have hinit : Batched [] [] := ⟨rfl, by simp, by simp, List.isChain_nil⟩
  obtain ⟨bs, hb, hout, hpeak⟩ := groLoop hlen pairs 0 0 mask {} hinit rfl rfl rfl le_rfl (by simp)
  rw [List.nil_append] at hb hpeak
  exact ⟨bs, hb, hout, hpeak⟩

end Rmnet
