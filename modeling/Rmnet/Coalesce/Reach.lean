import Rmnet.Coalesce.Plan

/-!
# The loop when emissions fail

An emission that fails changes nothing: the packets that were pending stay so, and the next emission takes
them along with the size that is set by then.  So with failures the loop can claim more bytes than the packets
of the table have.  `Walk` runs the loop on numbers with the outcomes of the emissions to come, and `reach`
computes from the table alone the most that any outcomes make it claim: `walk_worst` says that no outcomes
claim more and that some do claim as much.  If all emissions succeed it claims the sizes of the packets
(`walk_success`).
-/

namespace Rmnet

open Word

/-! ### The walk -/

/-- The numbers of the loop: the payload claimed so far, the ranges that were claimed, and whether the
emissions to come succeed. -/
structure Walk where
  size : ℕ := 0
  segs : ℕ := 0
  off : ℕ := 0
  ranges : List (ℕ × ℕ) := []
  outcome : ℕ → Bool

/-- The operations of the loop; the count has eight bits. -/
def walkOps : SegOps Walk where
  setSize n w := { w with size := n }
  segs := Walk.segs
  setSegs n w := { w with segs := u8 n }
  emit _ _ w :=
    if w.outcome 0 then
      { w with
        segs := 0
        off := w.off + w.size * w.segs
        ranges := w.ranges ++ [(w.off, w.size * w.segs)]
        outcome := fun n => w.outcome (n + 1) }
    else { w with outcome := fun n => w.outcome (n + 1) }
  csumErr w := w

/-- The ranges lie one behind the other from the start to `off`. -/
structure Walk.Tiles (w : Walk) : Prop where
  below : ∀ r ∈ w.ranges, r.1 + r.2 ≤ w.off
  cover : ∀ k < w.off, ∃ r ∈ w.ranges, r.1 ≤ k ∧ k < r.1 + r.2

theorem walk_tiles : walkOps.Keeps Walk.Tiles where
  setSize _ h := ⟨h.below, h.cover⟩
  setSegs _ h := ⟨h.below, h.cover⟩
  csumErr h := h
  emit := by
    intro w i c h
    show (if w.outcome 0 then _ else _ : Walk).Tiles
    split
    · constructor
      · intro r hr
        rcases List.mem_append.mp hr with hr | hr
        · exact Nat.le_trans (h.below r hr) (Nat.le_add_right _ _)
        · rw [List.mem_singleton.mp hr]
      · intro k hk
        by_cases hlt : k < w.off
        · obtain ⟨r, hr, hin⟩ := h.cover k hlt
          exact ⟨r, List.mem_append_left _ hr, hin⟩
        · exact ⟨_, List.mem_append_right _ (List.mem_singleton.mpr rfl), Nat.le_of_not_lt hlt, hk⟩
    · exact ⟨h.below, h.cover⟩

/-! ### The most that the table can claim -/

/-- What the packets of a pair that are left, its end and the pairs behind it can claim: `rest` is what those
pairs can claim, by the count that is pending there. -/
def pairReach (gro : Bool) (rest : ℕ → ℕ) : ℕ → ℕ → ℕ → ℕ → ℕ
  | 0, _, size, segs => max (size * segs + rest 0) (rest segs)
  | n + 1, mask, size, segs =>
      let next := pairReach gro rest n (mask / 2) size
      if gro && !mask.testBit 0 then next (u8 (segs + 1))
      else (if gro then size * segs else 0) + max (size + next 0) (next 1)

/-- The most that the pairs can claim when `segs` packets are pending. -/
def reach (gro : Bool) (hlen : ℕ) : List NlPair → ℕ → ℕ → ℕ
  | [], _, _ => 0
  | p :: ps, mask, segs =>
      pairReach gro (reach gro hlen ps (mask / 2 ^ p.numPackets)) p.numPackets mask (sub16 p.pktLen hlen) segs

/-- `v` is the most that `K` claims, by the size and the count it starts with: never more, whatever the
outcomes, and for some outcomes as much. -/
structure Worst (K : Walk → Walk) (v : ℕ → ℕ → ℕ) : Prop where
  le : ∀ w : Walk, (K w).off ≤ w.off + v w.size w.segs
  attained : ∀ w : Walk, ∃ f, (K { w with outcome := f }).off = w.off + v w.size w.segs

namespace Worst

variable {K : Walk → Walk} {v : ℕ → ℕ → ℕ}

theorem refl : Worst id fun _ _ => 0 := ⟨fun _ => Nat.le_refl _, fun w => ⟨w.outcome, rfl⟩⟩

theorem setSize (h : Worst K v) (n : ℕ) : Worst (fun w => K (walkOps.setSize n w)) fun _ k => v n k :=
  ⟨fun w => h.le (walkOps.setSize n w), fun w => h.attained (walkOps.setSize n w)⟩

theorem setSegs (h : Worst K v) (g : ℕ → ℕ) :
    Worst (fun w => K (walkOps.setSegs (g (walkOps.segs w)) w)) fun s k => v s (u8 (g k)) :=
  ⟨fun w => h.le (walkOps.setSegs (g w.segs) w), fun w => h.attained (walkOps.setSegs (g w.segs) w)⟩

/-- An emission succeeds or fails, whatever claims more in the end. -/
theorem emit (h : Worst K v) (i : ℕ) (c : Bool) :
    Worst (fun w => K (walkOps.emit i c w)) fun s k => max (s * k + v s 0) (v s k) := by
  constructor
  · intro w
    show (K (if w.outcome 0 then _ else _)).off ≤ _
    split
    · refine Nat.le_trans (h.le _) ?_
      show w.off + w.size * w.segs + v w.size 0 ≤ _
      rw [Nat.add_assoc]
      exact Nat.add_le_add_left (Nat.le_max_left _ _) _
    · exact Nat.le_trans (h.le _) (Nat.add_le_add_left (Nat.le_max_right _ _) _)
  · intro w
    rcases Nat.le_total (v w.size w.segs) (w.size * w.segs + v w.size 0) with hle | hle
    · -- the emission had better succeed
      obtain ⟨f, hf⟩ := h.attained
        { w with segs := 0, off := w.off + w.size * w.segs, ranges := w.ranges ++ [(w.off, w.size * w.segs)] }
      refine ⟨fun n => n.casesOn true f, ?_⟩
      rw [Nat.max_eq_left hle, ← Nat.add_assoc]
      exact hf
    · obtain ⟨f, hf⟩ := h.attained w
      refine ⟨fun n => n.casesOn false f, ?_⟩
      rw [Nat.max_eq_right hle]
      exact hf

/-- An emission that is left out when nothing is pending. -/
theorem flush (h : Worst K v) (i : ℕ) :
    Worst (fun w => K (segFlush walkOps i w)) fun s k => max (s * k + v s 0) (v s k) := by
  have hemit := h.emit i true
  have hpos : ∀ w : Walk, walkOps.segs w ≠ 0 → segFlush walkOps i w = walkOps.emit i true w :=
    fun w hw => if_pos hw
  have hzero : ∀ w : Walk, ¬ walkOps.segs w ≠ 0 → segFlush walkOps i w = w := fun w hw => if_neg hw
  have hval : ∀ w : Walk, ¬ walkOps.segs w ≠ 0 →
      v w.size w.segs = max (w.size * w.segs + v w.size 0) (v w.size w.segs) := by
    intro w hw
    have hs : w.segs = 0 := Decidable.not_not.mp hw
    rw [hs, Nat.mul_zero, Nat.zero_add, Nat.max_self]
  constructor
  · intro w
    by_cases hw : walkOps.segs w ≠ 0
    · rw [hpos w hw]
      exact hemit.le w
    · rw [hzero w hw, ← hval w hw]
      exact h.le w
  · intro w
    by_cases hw : walkOps.segs w ≠ 0
    · obtain ⟨f, hf⟩ := hemit.attained w
      refine ⟨f, ?_⟩
      rw [hpos { w with outcome := f } hw]
      exact hf
    · obtain ⟨f, hf⟩ := h.attained w
      refine ⟨f, ?_⟩
      rw [hzero { w with outcome := f } hw, ← hval w hw]
      exact hf

theorem congr {v' : ℕ → ℕ → ℕ} (h : Worst K v) (hv : ∀ s k, v s k = v' s k) : Worst K v' :=
  ⟨fun w => hv w.size w.segs ▸ h.le w, fun w => hv w.size w.segs ▸ h.attained w⟩

/-- One iteration of the packet loop. -/
theorem packet (h : Worst K v) (gro : Bool) (i : ℕ) (e : Bool) :
    Worst (fun w => K (segPacket walkOps gro i e w)) fun s k =>
      if gro && !e then v s (u8 (k + 1))
      else (if gro then s * k else 0) + max (s + v s 0) (v s 1) := by
  have hone : u8 1 = 1 := rfl
  cases gro with
  | false =>
    refine Worst.congr (v := fun s k => max (s * u8 1 + v s 0) (v s (u8 1))) ?_ fun s k => ?_
    · cases e with
      | false => exact (h.emit i true).setSegs fun _ => 1
      | true => exact (h.emit i false).setSegs fun _ => 1
    · simp only [hone, Nat.mul_one, Bool.false_and, Bool.false_eq_true, if_false, Nat.zero_add]
  | true =>
    cases e with
    | false => exact h.setSegs (· + 1)
    | true =>
      refine Worst.congr ((((h.emit i false).setSegs fun _ => 1)).flush i) fun s k => ?_
      simp only [hone, Nat.mul_one, Bool.not_true, Bool.and_false, Bool.false_eq_true, if_false, if_true]
      exact Nat.max_eq_left (Nat.le_add_left _ _)

/-- The rest of a pair, its end and the pairs behind it. -/
theorem packets {gro : Bool} {K : ℕ → ℕ → Walk → Walk} {rest : ℕ → ℕ} (n : ℕ) :
    ∀ i mask, (∀ j, Worst (K j (mask / 2 ^ n)) fun _ k => rest k) →
      Worst (fun w =>
        let r := segPackets walkOps gro n i mask w
        K r.1 r.2.1 (segFlush walkOps r.1 r.2.2)) (pairReach gro rest n mask) := by
  induction n with
  | zero =>
    intro i mask hK
    have h := hK i
    rw [Nat.pow_zero, Nat.div_one] at h
    exact h.flush i
  | succ n ih =>
    intro i mask hK
    refine (ih (u8 (i + 1)) (mask / 2) fun j => ?_).packet gro i (mask.testBit 0)
    have h := hK j
    rw [Nat.pow_succ, Nat.mul_comm, ← Nat.div_div_eq_div_mul] at h
    exact h

end Worst

/-- **`reach` is the worst case** of the loop. -/
theorem walk_worst (gro : Bool) (hlen : ℕ) (ps : List NlPair) :
    ∀ i mask, Worst (segNlos walkOps gro hlen ps i mask) fun _ k => reach gro hlen ps mask k := by
  induction ps with
  | nil =>
    intro i mask
    exact Worst.refl
  | cons p ps ih =>
    intro i mask
    exact (Worst.packets p.numPackets i mask fun j => ih j _).setSize (sub16 p.pktLen hlen)

/-! ### Without failures -/

/-- The payload bytes of the packets of some pairs. -/
def pairBytes (hlen : ℕ) (ps : List NlPair) : ℕ := (ps.map fun p => p.numPackets * sub16 p.pktLen hlen).sum

/-- All emissions succeed, and the count of a run of `n` more packets fits; without GRO nothing is pending. -/
structure Walk.Runs (gro : Bool) (n : ℕ) (w : Walk) : Prop where
  success : ∀ k, w.outcome k = true
  segs : w.segs + n < 256
  single : gro = false → w.segs = 0

theorem walk_emit_success {w : Walk} (h : ∀ k, w.outcome k = true) (i : ℕ) (c : Bool) :
    walkOps.emit i c w = { w with
      segs := 0
      off := w.off + w.size * w.segs
      ranges := w.ranges ++ [(w.off, w.size * w.segs)] } := by
  have hout : (fun n => w.outcome (n + 1)) = w.outcome := by
    funext n
    rw [h, h]
  show (if w.outcome 0 then _ else _ : Walk) = _
  rw [if_pos (h 0), hout]

theorem walk_flush_success {w : Walk} (h : ∀ k, w.outcome k = true) (i : ℕ) :
    (∀ k, (segFlush walkOps i w).outcome k = true) ∧ (segFlush walkOps i w).size = w.size ∧
      (segFlush walkOps i w).segs = 0 ∧ (segFlush walkOps i w).off = w.off + w.size * w.segs := by
  by_cases hz : w.segs = 0
  · have hpos : ¬ walkOps.segs w ≠ 0 := not_not.mpr hz
    rw [segFlush, if_neg hpos, hz, Nat.mul_zero, Nat.add_zero]
    exact ⟨h, rfl, rfl, rfl⟩
  · have hpos : walkOps.segs w ≠ 0 := hz
    rw [segFlush, if_pos hpos, walk_emit_success h]
    exact ⟨h, rfl, rfl, rfl⟩

/-- A packet is claimed, or is pending. -/
theorem Walk.Runs.packet {gro : Bool} {n : ℕ} {w : Walk} (h : w.Runs gro (n + 1)) (i : ℕ) (e : Bool) :
    (segPacket walkOps gro i e w).Runs gro n ∧ (segPacket walkOps gro i e w).size = w.size ∧
      (segPacket walkOps gro i e w).off + w.size * (segPacket walkOps gro i e w).segs
        = w.off + w.size * w.segs + w.size := by
  have hn := h.segs
  cases gro with
  | false =>
    have hst : segPacket walkOps false i e w = walkOps.emit i (!e) { w with segs := 1 } := by
      cases e <;> rfl
    have hone : ∀ k, ({ w with segs := 1 } : Walk).outcome k = true := h.success
    rw [hst, walk_emit_success hone]
    refine ⟨⟨h.success, by show 0 + n < 256; omega, fun _ => rfl⟩, rfl, ?_⟩
    simp only [h.single rfl, Nat.mul_one, Nat.mul_zero, Nat.add_zero]
  | true =>
    cases e with
    | false =>
      -- the packet is pending
      have hst : segPacket walkOps true i false w = { w with segs := u8 (w.segs + 1) } := rfl
      rw [hst, u8_of_lt (by omega)]
      refine ⟨⟨h.success, by show w.segs + 1 + n < 256; omega, fun hf => by cases hf⟩, rfl, ?_⟩
      simp only [Nat.mul_add, Nat.mul_one, Nat.add_assoc]
    | true =>
      -- what is pending and the packet are claimed
      obtain ⟨hout, hsize, -, hoff⟩ := walk_flush_success h.success i
      have hst : segPacket walkOps true i true w = walkOps.emit i false { segFlush walkOps i w with segs := 1 } :=
        rfl
      have hone : ∀ k, ({ segFlush walkOps i w with segs := 1 } : Walk).outcome k = true := hout
      rw [hst, walk_emit_success hone]
      refine ⟨⟨hone, by show 0 + n < 256; omega, fun hf => by cases hf⟩, hsize, ?_⟩
      simp only [hsize, hoff, Nat.mul_one, Nat.mul_zero, Nat.add_zero]

theorem Walk.Runs.packets {gro : Bool} (n : ℕ) :
    ∀ (i mask : ℕ) {w : Walk}, w.Runs gro n →
      let w' := (segPackets walkOps gro n i mask w).2.2
      w'.Runs gro 0 ∧ w'.size = w.size ∧ w'.off + w.size * w'.segs = w.off + w.size * w.segs + n * w.size := by
  induction n with
  | zero =>
    intro i mask w h
    exact ⟨h, rfl, by simp [segPackets]⟩
  | succ n ih =>
    intro i mask w h
    obtain ⟨h₁, hsize₁, hoff₁⟩ := h.packet i (mask.testBit 0)
    obtain ⟨h₂, hsize₂, hoff₂⟩ := ih (u8 (i + 1)) (mask / 2) h₁
    rw [hsize₁] at hsize₂ hoff₂
    refine ⟨h₂, hsize₂, hoff₂.trans ?_⟩
    rw [hoff₁, Nat.succ_mul]
    omega

/-- **Without failures** the loop claims the bytes of all packets. -/
theorem walk_success {gro : Bool} {hlen : ℕ} (ps : List NlPair) (hps : ∀ p ∈ ps, p.numPackets < 256) :
    ∀ {i mask : ℕ} {w : Walk}, (∀ k, w.outcome k = true) → w.segs = 0 →
      (segNlos walkOps gro hlen ps i mask w).off = w.off + pairBytes hlen ps := by
  induction ps with
  | nil =>
    intro i mask w _ _
    rfl
  | cons p ps ih =>
    intro i mask w hw hz
    have hp := hps p List.mem_cons_self
    have hset : (walkOps.setSize (sub16 p.pktLen hlen) w).Runs gro p.numPackets :=
      ⟨hw, by show w.segs + _ < 256; omega, fun _ => hz⟩
    obtain ⟨h₁, hsize, hoff⟩ := Walk.Runs.packets p.numPackets i mask hset
    rw [segNlos]
    generalize segPackets walkOps gro p.numPackets i mask (walkOps.setSize (sub16 p.pktLen hlen) w) = r at *
    have hsize' : r.2.2.size = sub16 p.pktLen hlen := hsize
    have hoff' : r.2.2.off + sub16 p.pktLen hlen * r.2.2.segs
        = w.off + p.numPackets * sub16 p.pktLen hlen := by
      have hoff₁ : _ = w.off + sub16 p.pktLen hlen * w.segs + p.numPackets * sub16 p.pktLen hlen := hoff
      rw [hz, Nat.mul_zero, Nat.add_zero] at hoff₁
      exact hoff₁
    obtain ⟨hout, -, hs, hoff₂⟩ := walk_flush_success h₁.success r.1
    rw [hsize', hoff'] at hoff₂
    rw [ih (fun q hq => hps q (List.mem_cons_of_mem _ hq)) hout hs, hoff₂, pairBytes, pairBytes, List.map_cons,
      List.sum_cons, Nat.add_assoc]

end Rmnet
