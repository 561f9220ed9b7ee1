import Rmnet.Map

/-!
# The segmentation loop

`rmnet_frag_segment_coal_data` and `rmnet_map_segment_coal_skb` end in the same nested loop over the NL
pairs and the packets of each, which batches good packets when GRO is on and flushes the batch at every
checksum error and at the end of a pair.  They differ in what a batch is cut from and in the widths of
their counters, so the loop is stated once over the operations it uses.

Run on `PlanState`, which only keeps the numbers, it gives a *plan*: the list of the batches that are
emitted.  `SegOps.Keeps.run` gives an invariant of the whole loop from one of its operations, and
`SegSim.run` transfers a simulation of the operations to the whole loop, under a condition on the plan's
final state that no step can repair once it is broken; `SegLag.run` does so for two loops one of which may
make emissions of its own.  `SegOps.Counts.run` is the rule for an invariant
that depends on the number of packets so far.
-/

namespace Rmnet

open Word

/-! ### The loop -/

/-- What the loop does with its state: the batch size and count, the emission of a batch, and the
checksum-error counter. -/
structure SegOps (σ : Type) where
  setSize : ℕ → σ → σ
  segs : σ → ℕ
  setSegs : ℕ → σ → σ
  emit : ℕ → Bool → σ → σ
  csumErr : σ → σ

variable {σ τ : Type}

/-- One iteration of the packet loop; `totalPkt` is the number of the packet in the frame. -/
def segPacket (ops : SegOps σ) (gro : Bool) (totalPkt : ℕ) (csumErr : Bool) (st : σ) : σ :=
  if !gro then
    let st := ops.setSegs 1 st
    let st := if csumErr then ops.csumErr st else st
    ops.emit totalPkt (!csumErr) st
  else if csumErr then
    let st := ops.csumErr st
    -- segment out the good data, then the bad checksum
    let st := if ops.segs st ≠ 0 then ops.emit totalPkt true st else st
    ops.emit totalPkt false (ops.setSegs 1 st)
  else ops.setSegs (ops.segs st + 1) st

/-- The packet loop: the packets left, `total_pkt`, `nlo_err_mask` and the state. -/
def segPackets (ops : SegOps σ) (gro : Bool) : ℕ → ℕ → ℕ → σ → ℕ × ℕ × σ
  | 0, totalPkt, mask, st => (totalPkt, mask, st)
  | n + 1, totalPkt, mask, st =>
      segPackets ops gro n (u8 (totalPkt + 1)) (mask / 2) (segPacket ops gro totalPkt (mask.testBit 0) st)

/-- The end of a pair: send out everything that is left of it. -/
def segFlush (ops : SegOps σ) (totalPkt : ℕ) (st : σ) : σ :=
  if ops.segs st ≠ 0 then ops.emit totalPkt true st else st

/-- The loop over the NL pairs. -/
def segNlos (ops : SegOps σ) (gro : Bool) (hlen : ℕ) : List NlPair → ℕ → ℕ → σ → σ
  | [], _, _, st => st
  | p :: ps, totalPkt, mask, st =>
      let r := segPackets ops gro p.numPackets totalPkt mask (ops.setSize (sub16 p.pktLen hlen) st)
      segNlos ops gro hlen ps r.1 r.2.1 (segFlush ops r.1 r.2.2)

/-! ### Invariants -/

/-- An invariant that every operation of the loop keeps. -/
structure SegOps.Keeps (ops : SegOps σ) (I : σ → Prop) : Prop where
  setSize : ∀ {s} n, I s → I (ops.setSize n s)
  setSegs : ∀ {s} n, I s → I (ops.setSegs n s)
  csumErr : ∀ {s}, I s → I (ops.csumErr s)
  emit : ∀ {s} i c, I s → I (ops.emit i c s)

namespace SegOps.Keeps

variable {ops : SegOps σ} {I : σ → Prop}

theorem packet (h : ops.Keeps I) {gro : Bool} {i : ℕ} {e : Bool} {s : σ} (hI : I s) :
    I (segPacket ops gro i e s) := by
  unfold segPacket
  split
  · refine h.emit _ _ ?_
    split
    · exact h.csumErr (h.setSegs _ hI)
    · exact h.setSegs _ hI
  · split
    · refine h.emit _ _ (h.setSegs _ ?_)
      split
      · exact h.emit _ _ (h.csumErr hI)
      · exact h.csumErr hI
    · exact h.setSegs _ hI

theorem packets (h : ops.Keeps I) {gro : Bool} (n : ℕ) :
    ∀ {i mask : ℕ} {s : σ}, I s → I (segPackets ops gro n i mask s).2.2 := by
  induction n with
  | zero =>
    intro i mask s hI
    exact hI
  | succ n ih =>
    intro i mask s hI
    exact ih (h.packet hI)

/-- **The loop keeps an invariant** of its operations. -/
theorem run (h : ops.Keeps I) {gro : Bool} {hlen : ℕ} (ps : List NlPair) :
    ∀ {i mask : ℕ} {s : σ}, I s → I (segNlos ops gro hlen ps i mask s) := by
  induction ps with
  | nil =>
    intro i mask s hI
    exact hI
  | cons p ps ih =>
    intro i mask s hI
    refine ih ?_
    unfold segFlush
    split
    · exact h.emit _ _ (h.packets _ (h.setSize _ hI))
    · exact h.packets _ (h.setSize _ hI)

end SegOps.Keeps

/-- An invariant that also reads `total_pkt`, kept by whole iterations of the packet loop and by the end of
a pair. -/
structure SegOps.Counts (ops : SegOps σ) (gro : Bool) (I : ℕ → σ → Prop) : Prop where
  setSize : ∀ {i s} n, I i s → I i (ops.setSize n s)
  packet : ∀ {i s} e, I i s → I (u8 (i + 1)) (segPacket ops gro i e s)
  flush : ∀ {i s}, I i s → I i (segFlush ops i s)

namespace SegOps.Counts

variable {ops : SegOps σ} {gro : Bool} {I : ℕ → σ → Prop}

theorem packets (h : ops.Counts gro I) (n : ℕ) :
    ∀ {i mask : ℕ} {s : σ}, I i s →
      I (segPackets ops gro n i mask s).1 (segPackets ops gro n i mask s).2.2 := by
  induction n with
  | zero =>
    intro i mask s hI
    exact hI
  | succ n ih =>
    intro i mask s hI
    exact ih (h.packet _ hI)

/-- **The loop keeps an invariant that counts packets.** -/
theorem run (h : ops.Counts gro I) {hlen : ℕ} (ps : List NlPair) :
    ∀ {i mask : ℕ} {s : σ}, I i s → ∃ j, I j (segNlos ops gro hlen ps i mask s) := by
  induction ps with
  | nil =>
    intro i mask s hI
    exact ⟨i, hI⟩
  | cons p ps ih =>
    intro i mask s hI
    exact ih (h.flush (h.packets _ (h.setSize _ hI)))

end SegOps.Counts

/-- The loop over the first pairs and then the others. -/
theorem segNlos_append (ops : SegOps σ) (gro : Bool) (hlen : ℕ) (ps : List NlPair) :
    ∀ (i mask : ℕ) (s : σ), ∃ j mask', ∀ qs, segNlos ops gro hlen (ps ++ qs) i mask s
      = segNlos ops gro hlen qs j mask' (segNlos ops gro hlen ps i mask s) := by
  induction ps with
  | nil =>
    intro i mask s
    exact ⟨i, mask, fun qs => rfl⟩
  | cons p ps ih =>
    intro i mask s
    exact ih _ _ _

/-- An invariant that the treatment of one pair keeps: the size of the batches stays as it is, and a batch that is
emitted has a packet. -/
structure SegOps.KeepsInPair (ops : SegOps σ) (I : σ → Prop) : Prop where
  segs_one : ∀ s, ops.segs (ops.setSegs 1 s) ≠ 0
  segs_csumErr : ∀ s, ops.segs (ops.csumErr s) = ops.segs s
  setSegs : ∀ {s} n, I s → I (ops.setSegs n s)
  csumErr : ∀ {s}, I s → I (ops.csumErr s)
  emit : ∀ {s} i c, I s → ops.segs s ≠ 0 → I (ops.emit i c s)

namespace SegOps.KeepsInPair

variable {ops : SegOps σ} {I : σ → Prop}

theorem packet (h : ops.KeepsInPair I) {gro : Bool} {i : ℕ} {e : Bool} {s : σ} (hI : I s) :
    I (segPacket ops gro i e s) := by
  unfold segPacket
  split
  · have hone := h.setSegs 1 hI
    simp only
    split
    · exact h.emit _ _ (h.csumErr hone) (by rw [h.segs_csumErr]; exact h.segs_one s)
    · exact h.emit _ _ hone (h.segs_one s)
  · split
    · refine h.emit _ _ (h.setSegs _ ?_) (h.segs_one _)
      split
      · rename_i hsegs
        exact h.emit _ _ (h.csumErr hI) hsegs
      · exact h.csumErr hI
    · exact h.setSegs _ hI

theorem flush (h : ops.KeepsInPair I) {i : ℕ} {s : σ} (hI : I s) : I (segFlush ops i s) := by
  unfold segFlush
  split
  · rename_i hsegs
    exact h.emit _ _ hI hsegs
  · exact hI

/-- **The treatment of a pair keeps the invariant**, once the size is set. -/
theorem pair (h : ops.KeepsInPair I) {gro : Bool} {hlen : ℕ} (p : NlPair) {i mask : ℕ} {s : σ}
    (hI : I (ops.setSize (sub16 p.pktLen hlen) s)) : I (segNlos ops gro hlen [p] i mask s) := by
  have hpackets : ∀ (n : ℕ) {i mask : ℕ} {s : σ}, I s → I (segPackets ops gro n i mask s).2.2 := by
    intro n
    induction n with
    | zero =>
      intro i mask s hI
      exact hI
    | succ n ih =>
      intro i mask s hI
      exact ih (h.packet hI)
  exact h.flush (hpackets _ hI)

end SegOps.KeepsInPair

/-! ### Simulation -/

/-- A relation of the states of two loops that run side by side, as long as the second stays in `ok`; `ok`
cannot come back once it is lost.  The first may still have packets pending where the second has none, and
then makes an emission of its own. -/
structure SegLag (ops₁ : SegOps σ) (ops₂ : SegOps τ) (ok : τ → Prop) (R : σ → τ → Prop) : Prop where
  segs : ∀ {s t}, R s t → ok t → ops₂.segs t ≠ 0 → ops₁.segs s ≠ 0
  setSize : ∀ {s t} n, n < 65536 → R s t → R (ops₁.setSize n s) (ops₂.setSize n t)
  setSegs_one : ∀ {s t}, R s t → ok (ops₂.setSegs 1 t) → R (ops₁.setSegs 1 s) (ops₂.setSegs 1 t)
  setSegs_succ : ∀ {s t}, R s t → ok (ops₂.setSegs (ops₂.segs t + 1) t) →
    R (ops₁.setSegs (ops₁.segs s + 1) s) (ops₂.setSegs (ops₂.segs t + 1) t)
  csumErr : ∀ {s t}, R s t → R (ops₁.csumErr s) (ops₂.csumErr t)
  emit : ∀ {s t} i c, R s t → ok (ops₂.emit i c t) → R (ops₁.emit i c s) (ops₂.emit i c t)
  emit_left : ∀ {s t} i c, R s t → ops₁.segs s ≠ 0 → ops₂.segs t = 0 → ok t → R (ops₁.emit i c s) t
  ok_setSize : ∀ {t} n, ok (ops₂.setSize n t) → ok t
  ok_setSegs : ∀ {t} n, ok (ops₂.setSegs n t) → ok t
  ok_csumErr : ∀ {t}, ok (ops₂.csumErr t) → ok t
  ok_emit : ∀ {t} i c, ok (ops₂.emit i c t) → ok t

/-- The packet counter and the mask do not depend on the state. -/
theorem segPackets_counters (ops₁ : SegOps σ) (ops₂ : SegOps τ) (gro gro' : Bool) (n : ℕ) :
    ∀ (i mask : ℕ) (s : σ) (t : τ), (segPackets ops₁ gro n i mask s).1 = (segPackets ops₂ gro' n i mask t).1 ∧
      (segPackets ops₁ gro n i mask s).2.1 = (segPackets ops₂ gro' n i mask t).2.1 := by
  induction n with
  | zero =>
    intro i mask s t
    exact ⟨rfl, rfl⟩
  | succ n ih =>
    intro i mask s t
    exact ih _ _ _ _

namespace SegLag

variable {ops₁ : SegOps σ} {ops₂ : SegOps τ} {ok : τ → Prop} {R : σ → τ → Prop}

theorem ok_flush (h : SegLag ops₁ ops₂ ok R) {i : ℕ} {t : τ} (hok : ok (segFlush ops₂ i t)) : ok t := by
  unfold segFlush at hok
  split at hok
  · exact h.ok_emit _ _ hok
  · exact hok

/-- The end of a run on either side: the first may have something to emit where the second has not. -/
theorem flush (h : SegLag ops₁ ops₂ ok R) {i : ℕ} {s : σ} {t : τ} (hR : R s t)
    (hok : ok (segFlush ops₂ i t)) : R (segFlush ops₁ i s) (segFlush ops₂ i t) := by
  have hokt := h.ok_flush hok
  unfold segFlush at hok ⊢
  by_cases ht : ops₂.segs t ≠ 0
  · rw [if_pos ht] at hok ⊢
    rw [if_pos (h.segs hR hokt ht)]
    exact h.emit _ _ hR hok
  · rw [if_neg ht]
    split
    · rename_i hs
      exact h.emit_left _ _ hR hs (Decidable.not_not.mp ht) hokt
    · exact hR

theorem ok_packet (h : SegLag ops₁ ops₂ ok R) {gro : Bool} {i : ℕ} {e : Bool} {t : τ}
    (hok : ok (segPacket ops₂ gro i e t)) : ok t := by
  unfold segPacket at hok
  split at hok
  · have h₁ := h.ok_emit _ _ hok
    split at h₁
    · exact h.ok_setSegs _ (h.ok_csumErr h₁)
    · exact h.ok_setSegs _ h₁
  · split at hok
    · exact h.ok_csumErr (h.ok_flush (h.ok_setSegs _ (h.ok_emit _ _ hok)))
    · exact h.ok_setSegs _ hok

theorem packet (h : SegLag ops₁ ops₂ ok R) {gro : Bool} {i : ℕ} {e : Bool} {s : σ} {t : τ} (hR : R s t)
    (hok : ok (segPacket ops₂ gro i e t)) : R (segPacket ops₁ gro i e s) (segPacket ops₂ gro i e t) := by
  unfold segPacket at hok ⊢
  split
  · rename_i hg
    rw [if_pos hg] at hok
    have hok₁ := h.ok_emit _ _ hok
    refine h.emit _ _ ?_ hok
    split
    · rename_i he
      simp only [if_pos he] at hok₁
      exact h.csumErr (h.setSegs_one hR (h.ok_csumErr hok₁))
    · rename_i he
      simp only [if_neg he] at hok₁
      exact h.setSegs_one hR hok₁
  · rename_i hg
    rw [if_neg hg] at hok
    split
    · rename_i he
      rw [if_pos he] at hok
      have hok₁ := h.ok_emit _ _ hok
      exact h.emit _ _ (h.setSegs_one (h.flush (h.csumErr hR) (h.ok_setSegs _ hok₁)) hok₁) hok
    · rename_i he
      rw [if_neg he] at hok
      exact h.setSegs_succ hR hok

theorem ok_packets (h : SegLag ops₁ ops₂ ok R) {gro : Bool} (n : ℕ) :
    ∀ {i mask : ℕ} {t : τ}, ok (segPackets ops₂ gro n i mask t).2.2 → ok t := by
  induction n with
  | zero =>
    intro i mask t hok
    exact hok
  | succ n ih =>
    intro i mask t hok
    exact h.ok_packet (ih hok)

theorem packets (h : SegLag ops₁ ops₂ ok R) {gro : Bool} (n : ℕ) :
    ∀ {i mask : ℕ} {s : σ} {t : τ}, R s t → ok (segPackets ops₂ gro n i mask t).2.2 →
      R (segPackets ops₁ gro n i mask s).2.2 (segPackets ops₂ gro n i mask t).2.2 := by
  induction n with
  | zero =>
    intro i mask s t hR _
    exact hR
  | succ n ih =>
    intro i mask s t hR hok
    exact ih (h.packet hR (h.ok_packets n hok)) hok

theorem ok_run (h : SegLag ops₁ ops₂ ok R) {gro : Bool} {hlen : ℕ} (ps : List NlPair) :
    ∀ {i mask : ℕ} {t : τ}, ok (segNlos ops₂ gro hlen ps i mask t) → ok t := by
  induction ps with
  | nil =>
    intro i mask t hok
    exact hok
  | cons p ps ih =>
    intro i mask t hok
    exact h.ok_setSize _ (h.ok_packets _ (h.ok_flush (ih hok)))

/-- **The loops stay related** as soon as their operations keep them so. -/
theorem run (h : SegLag ops₁ ops₂ ok R) {gro : Bool} {hlen : ℕ} (ps : List NlPair) :
    ∀ {i mask : ℕ} {s : σ} {t : τ}, R s t → ok (segNlos ops₂ gro hlen ps i mask t) →
      R (segNlos ops₁ gro hlen ps i mask s) (segNlos ops₂ gro hlen ps i mask t) := by
  induction ps with
  | nil =>
    intro i mask s t hR _
    exact hR
  | cons p ps ih =>
    intro i mask s t hR hok
    rw [segNlos, segNlos]
    have hsize : sub16 p.pktLen hlen < 65536 := Nat.mod_lt _ (by omega)
    have hR₁ := h.setSize (sub16 p.pktLen hlen) hsize hR
    obtain ⟨hi, hmask⟩ := segPackets_counters ops₁ ops₂ gro gro p.numPackets i mask
      (ops₁.setSize (sub16 p.pktLen hlen) s) (ops₂.setSize (sub16 p.pktLen hlen) t)
    have hok₁ := h.ok_run ps hok
    have hR₂ := h.packets p.numPackets hR₁ (h.ok_flush hok₁)
    have hR₃ := h.flush hR₂ hok₁
    rw [hi, hmask]
    exact ih hR₃ hok

end SegLag

/-- A simulation of the operations of one loop by those of another: the same packets are pending on both
sides. -/
structure SegSim (ops₁ : SegOps σ) (ops₂ : SegOps τ) (ok : τ → Prop) (R : σ → τ → Prop) : Prop where
  segs : ∀ {s t}, R s t → ops₁.segs s = ops₂.segs t
  setSize : ∀ {s t} n, n < 65536 → R s t → R (ops₁.setSize n s) (ops₂.setSize n t)
  setSegs : ∀ {s t} n, R s t → ok (ops₂.setSegs n t) → R (ops₁.setSegs n s) (ops₂.setSegs n t)
  csumErr : ∀ {s t}, R s t → R (ops₁.csumErr s) (ops₂.csumErr t)
  emit : ∀ {s t} i c, R s t → ok (ops₂.emit i c t) → R (ops₁.emit i c s) (ops₂.emit i c t)
  ok_setSize : ∀ {t} n, ok (ops₂.setSize n t) → ok t
  ok_setSegs : ∀ {t} n, ok (ops₂.setSegs n t) → ok t
  ok_csumErr : ∀ {t}, ok (ops₂.csumErr t) → ok t
  ok_emit : ∀ {t} i c, ok (ops₂.emit i c t) → ok t

namespace SegSim

variable {ops₁ : SegOps σ} {ops₂ : SegOps τ} {ok : τ → Prop} {R : σ → τ → Prop}

theorem lag (h : SegSim ops₁ ops₂ ok R) : SegLag ops₁ ops₂ ok R where
  segs hR _ ht := by
    rw [h.segs hR]
    exact ht
  setSize := h.setSize
  setSegs_one := h.setSegs 1
  setSegs_succ hR hok := by
    rw [h.segs hR]
    exact h.setSegs _ hR hok
  csumErr := h.csumErr
  emit := h.emit
  emit_left _ _ hR hs ht _ := absurd (h.segs hR ▸ ht) hs
  ok_setSize := h.ok_setSize
  ok_setSegs := h.ok_setSegs
  ok_csumErr := h.ok_csumErr
  ok_emit := h.ok_emit

/-- **The loop simulates** as soon as its operations do. -/
theorem run (h : SegSim ops₁ ops₂ ok R) {gro : Bool} {hlen : ℕ} (ps : List NlPair) {i mask : ℕ} {s : σ} {t : τ}
    (hR : R s t) (hok : ok (segNlos ops₂ gro hlen ps i mask t)) :
    R (segNlos ops₁ gro hlen ps i mask s) (segNlos ops₂ gro hlen ps i mask t) :=
  h.lag.run ps hR hok

end SegSim

/-! ### A log beside the state -/

/-- The operations with a log of what an emission does, read off the state before it. -/
def SegOps.logged {α : Type} (ops : SegOps σ) (obs : σ → List α) : SegOps (σ × List α) where
  setSize n s := (ops.setSize n s.1, s.2)
  segs s := ops.segs s.1
  setSegs n s := (ops.setSegs n s.1, s.2)
  emit i c s := (ops.emit i c s.1, s.2 ++ obs s.1)
  csumErr s := (ops.csumErr s.1, s.2)

/-- A loop on pairs whose first component is treated as by other operations. -/
theorem segNlos_fst {α : Type} {ops' : SegOps (σ × α)} {ops : SegOps σ} (hsegs : ∀ s, ops'.segs s = ops.segs s.1)
    (hsize : ∀ n s, (ops'.setSize n s).1 = ops.setSize n s.1)
    (hset : ∀ n s, (ops'.setSegs n s).1 = ops.setSegs n s.1)
    (herr : ∀ s, (ops'.csumErr s).1 = ops.csumErr s.1)
    (hemit : ∀ i c s, (ops'.emit i c s).1 = ops.emit i c s.1)
    (gro : Bool) (hlen : ℕ) (ps : List NlPair) (i mask : ℕ) (s : σ × α) :
    (segNlos ops' gro hlen ps i mask s).1 = segNlos ops gro hlen ps i mask s.1 := by
  have hsim : SegSim ops' ops (fun _ => True) fun s t => s.1 = t :=
    { segs := fun h => (hsegs _).trans (congrArg ops.segs h)
      setSize := fun n _ h => (hsize n _).trans (congrArg (ops.setSize n) h)
      setSegs := fun n h _ => (hset n _).trans (congrArg (ops.setSegs n) h)
      csumErr := fun h => (herr _).trans (congrArg ops.csumErr h)
      emit := fun i c h _ => (hemit i c _).trans (congrArg (ops.emit i c) h)
      ok_setSize := fun _ _ => trivial
      ok_setSegs := fun _ _ => trivial
      ok_csumErr := fun _ => trivial
      ok_emit := fun _ _ _ => trivial }
  exact hsim.run ps rfl trivial

/-- The log changes nothing. -/
theorem segNlos_logged {α : Type} (ops : SegOps σ) (obs : σ → List α) (gro : Bool) (hlen : ℕ) (ps : List NlPair)
    (i mask : ℕ) (s : σ × List α) :
    (segNlos (ops.logged obs) gro hlen ps i mask s).1 = segNlos ops gro hlen ps i mask s.1 :=
  segNlos_fst (fun _ => rfl) (fun _ _ => rfl) (fun _ _ => rfl) (fun _ => rfl) (fun _ _ _ => rfl) gro hlen ps i mask s

end Rmnet
