import Rmnet.Coalesce.Plan

/-!
# The packet ids of the plan

An emission is numbered right when its packet id is the number of packets before it; the IPv4
identification is counted on by this id.  Without GRO all emissions are (`plan_pktIds`).  With GRO the loop
passes `total_pkt` to the emission of a good run after the counter has moved past the run, and the id is set
to one more: whatever follows a good run is numbered one too high (`groPktId`), and what follows a bad packet
is numbered right.  So all emissions are numbered right exactly when nothing follows a good run
(`GoodRunLast`).
-/

namespace Rmnet

open Word

/-! ### Numbering -/

/-- The number of packets of some emissions. -/
def segsSum (es : List Emission) : ℕ := (es.map Emission.segs).sum

/-- Each emission has the packet id that is computed from the emissions before it. -/
def PktIds (f : List Emission → ℕ) (es : List Emission) : Prop :=
  ∀ k e, es[k]? = some e → e.pktId = f (es.take k)

/-- The packet id that some emissions leave behind with GRO: one too many after a good one. -/
def groPktId (es : List Emission) : ℕ := u8 (segsSum es + if es.getLast?.any Emission.csum then 1 else 0)

/-- After a good packet there are only good packets of the same pair. -/
def GoodRunLast (pkts : List Pkt) : Prop := pkts.Pairwise fun p q => p.err = false → q.err = false ∧ p.nlo = q.nlo

@[simp] theorem segsSum_append (es fs : List Emission) : segsSum (es ++ fs) = segsSum es + segsSum fs := by
  simp [segsSum]

@[simp] theorem segsSum_singleton (e : Emission) : segsSum [e] = e.segs := by
  simp [segsSum]

theorem segsSum_take_le (es : List Emission) (k : ℕ) : segsSum (es.take k) ≤ segsSum es := by
  conv_rhs => rw [← List.take_append_drop k es]
  rw [segsSum_append]
  exact Nat.le_add_right _ _

theorem groPktId_concat (es : List Emission) (e : Emission) :
    groPktId (es ++ [e]) = u8 (segsSum es + e.segs + if e.csum then 1 else 0) := by
  rw [groPktId, segsSum_append, segsSum_singleton, List.getLast?_concat]
  rfl

theorem PktIds.nil (f : List Emission → ℕ) : PktIds f [] := by
  intro k e he
  cases he

/-- One more emission at the end. -/
theorem PktIds.concat {f : List Emission → ℕ} {es : List Emission} (h : PktIds f es) {e : Emission}
    (he : e.pktId = f es) : PktIds f (es ++ [e]) := by
  intro k x hx
  rcases Nat.lt_trichotomy k es.length with hlt | rfl | hgt
  · rw [List.getElem?_append_left hlt] at hx
    rw [List.take_append_of_le_length hlt.le]
    exact h k x hx
  · rw [List.getElem?_concat_length, Option.some.injEq] at hx
    rw [List.take_left, ← hx]
    exact he
  · rw [List.getElem?_eq_none (by rw [List.length_append, List.length_singleton]; omega)] at hx
    cases hx

/-! ### Without GRO -/

/-- Single packets are numbered right. -/
theorem perPacket_pktIds {pkts : List Pkt} (hlen : pkts.length < 256) : PktIds segsSum (perPacket 0 0 pkts) := by
  intro k e he
  have hk : k < (perPacket 0 0 pkts).length := (List.getElem?_eq_some_iff.mp he).1
  have hone : ∀ ps off i, ∀ x ∈ perPacket off i ps, x.segs = 1 := by
    intro ps
    induction ps with
    | nil =>
      intro off i x hx
      cases hx
    | cons p ps ih =>
      intro off i x hx
      rcases List.mem_cons.mp hx with rfl | hx
      · rfl
      · exact ih _ _ x hx
  have hsum : segsSum ((perPacket 0 0 pkts).take k) = k := by
    have hrep : ((perPacket 0 0 pkts).take k).map Emission.segs = List.replicate k 1 := by
      rw [List.eq_replicate_iff]
      refine ⟨by rw [List.length_map, List.length_take]; omega, ?_⟩
      intro n hn
      obtain ⟨x, hx, rfl⟩ := List.mem_map.mp hn
      exact hone pkts 0 0 x (List.mem_of_mem_take hx)
    rw [segsSum, hrep]
    simp
  rw [perPacket_length] at hk
  rw [perPacket_getElem? pkts 0 0 k (by omega), List.getElem?_eq_getElem hk, Option.map_some,
    Option.some.injEq] at he
  rw [hsum, ← he]
  exact Nat.zero_add k

/-! ### With GRO -/

/-- The ids of the emissions so far and of the next one; `total_pkt` is the number of packets so far. -/
structure GroIds (totalPkt : ℕ) (st : PlanState) : Prop where
  count : totalPkt = u8 (segsSum st.out + st.segs)
  next : st.pktId = groPktId st.out
  ids : PktIds groPktId st.out

theorem u8_succ (n : ℕ) : u8 (u8 n + 1) = u8 (n + 1) := Nat.mod_add_mod n 256 1

/-- An emission that is numbered as `groPktId` says keeps the ids. -/
theorem GroIds.emit {i j : ℕ} {st : PlanState} (h : GroIds j st) {c : Bool}
    (hi : u8 (i + 1) = u8 (segsSum st.out + st.segs + if c then 1 else 0)) :
    (planOps.emit i c st).pktId = groPktId (planOps.emit i c st).out ∧
      PktIds groPktId (planOps.emit i c st).out := by
  refine ⟨?_, h.ids.concat h.next⟩
  show u8 (i + 1) = groPktId (st.out ++ [_])
  rw [groPktId_concat]
  exact hi

/-- The end of a good run. -/
theorem GroIds.flush {i : ℕ} {st : PlanState} (h : GroIds i st) :
    GroIds i (segFlush planOps i st) ∧ (segFlush planOps i st).segs = 0 := by
  by_cases hz : st.segs = 0
  · rw [segFlush_of_zero hz]
    exact ⟨h, hz⟩
  · have hne : planOps.segs st ≠ 0 := hz
    rw [segFlush, if_pos hne]
    have hi : u8 (i + 1) = u8 (segsSum st.out + st.segs + if true then 1 else 0) := by
      rw [h.count, u8_succ]
      rfl
    obtain ⟨hnext, hids⟩ := h.emit hi
    refine ⟨⟨?_, hnext, hids⟩, rfl⟩
    show i = u8 (segsSum (st.out ++ [_]) + 0)
    rw [segsSum_append, segsSum_singleton]
    exact h.count

theorem GroIds.packet {i : ℕ} {st : PlanState} (h : GroIds i st) (e : Bool) :
    GroIds (u8 (i + 1)) (segPacket planOps true i e st) := by
  cases e with
  | false =>
    -- the packet joins the pending run
    refine ⟨?_, h.next, h.ids⟩
    show u8 (i + 1) = u8 (segsSum st.out + (st.segs + 1))
    rw [h.count, u8_succ, Nat.add_assoc]
  | true =>
    -- the pending run ends, and the bad packet is emitted alone
    obtain ⟨h₁, hz⟩ := h.flush
    set st₁ := segFlush planOps i st with hst₁
    have hst : segPacket planOps true i true st = planOps.emit i false (planOps.setSegs 1 st₁) := rfl
    have hcount : u8 (i + 1) = u8 (segsSum st₁.out + 1) := by
      rw [h₁.count, u8_succ, hz]
    have hset : GroIds (u8 (i + 1)) (planOps.setSegs 1 st₁) := ⟨hcount, h₁.next, h₁.ids⟩
    obtain ⟨hnext, hids⟩ := hset.emit (i := i) (c := false) hcount
    rw [hst]
    refine ⟨?_, hnext, hids⟩
    show u8 (i + 1) = u8 (segsSum (st₁.out ++ [_]) + 0)
    rw [segsSum_append, segsSum_singleton]
    exact hcount

theorem groIds_counts : planOps.Counts true GroIds where
  setSize _ h := ⟨h.count, h.next, h.ids⟩
  packet e h := h.packet e
  flush h := h.flush.1

/-- **The ids with GRO.** -/
theorem plan_groPktIds (hlen : ℕ) (pairs : List NlPair) (mask : ℕ) :
    PktIds groPktId (segmentPlan true hlen pairs mask).out := by
  have hinit : GroIds 0 {} := ⟨rfl, rfl, PktIds.nil _⟩
  obtain ⟨j, h⟩ := groIds_counts.run pairs hinit
  exact h.ids

/-! ### When all emissions are numbered right -/

/-- The ids with GRO are right when no emission but the last is good. -/
theorem groPktIds_right_iff {es : List Emission} (h : PktIds groPktId es) (hsum : segsSum es < 255) :
    PktIds segsSum es ↔ ∀ e ∈ es.dropLast, e.csum = false := by
  have hid : ∀ k, groPktId (es.take k) = segsSum (es.take k) ↔ (es.take k).getLast?.any Emission.csum = false := by
    intro k
    have hle := segsSum_take_le es k
    rw [groPktId]
    cases (es.take k).getLast?.any Emission.csum with
    | false => exact iff_of_true (u8_of_lt (by simp only [Bool.false_eq_true, if_false]; omega)) rfl
    | true =>
      refine iff_of_false ?_ Bool.true_eq_false.mp
      rw [if_pos rfl, u8_of_lt (by omega)]
      omega
  constructor
  · intro hr e he
    obtain ⟨k, hk, rfl⟩ := List.mem_iff_getElem.mp he
    rw [List.length_dropLast] at hk
    have hnext : es[k + 1]? = some es[k + 1] := List.getElem?_eq_getElem (by omega)
    have heq := (h _ _ hnext).symm.trans (hr _ _ hnext)
    have hlast := (hid (k + 1)).mp heq
    rw [List.getLast?_take, if_neg (by omega), Nat.add_sub_cancel, List.getElem?_eq_getElem (by omega)] at hlast
    rw [List.getElem_dropLast]
    exact hlast
  · intro hbad k e he
    have hk := (List.getElem?_eq_some_iff.mp he).1
    rw [h k e he, hid k]
    cases k with
    | zero => rfl
    | succ k =>
      rw [List.getLast?_take, if_neg (by omega), Nat.add_sub_cancel, List.getElem?_eq_getElem (by omega)]
      refine hbad _ ?_
      rw [List.mem_iff_getElem]
      exact ⟨k, by rw [List.length_dropLast]; omega, List.getElem_dropLast _⟩

/-- Batches as long as they can be: no batch but the last is good exactly when the packets are so. -/
theorem Batched.goodRunLast_iff {bs : List Batch} {pkts : List Pkt} (h : Batched bs pkts) :
    GoodRunLast pkts ↔ ∀ b ∈ bs.dropLast, b.pkt.err = true := by
  rw [← h.packets]
  have hpos := h.pos
  have hapart := h.apart
  clear h
  induction bs with
  | nil => simp [GoodRunLast, unbatch]
  | cons b bs ih =>
    have ih' := ih (fun c hc => hpos c (List.mem_cons_of_mem _ hc)) hapart.of_cons
    have hb := hpos b List.mem_cons_self
    rw [unbatch_cons, GoodRunLast, List.pairwise_append]
    cases bs with
    | nil =>
      refine iff_of_true ⟨?_, List.Pairwise.nil, ?_⟩ (by simp)
      · rw [List.pairwise_replicate]
        exact .inr fun hg => ⟨hg, rfl⟩
      · intro p _ q hq
        cases hq
    | cons c cs =>
      rw [List.dropLast_cons_cons, List.forall_mem_cons]
      have hmem : b.pkt ∈ List.replicate b.segs b.pkt := List.mem_replicate.mpr ⟨by omega, rfl⟩
      have hc := hpos c (List.mem_cons_of_mem _ List.mem_cons_self)
      have hmem' : c.pkt ∈ unbatch (c :: cs) := by
        rw [unbatch_cons]
        exact List.mem_append_left _ (List.mem_replicate.mpr ⟨by omega, rfl⟩)
      constructor
      · rintro ⟨-, hcs, hcross⟩
        refine ⟨?_, ih'.mp hcs⟩
        -- the next batch is bad or of another pair
        by_contra hgood
        obtain ⟨hq, hnlo⟩ := hcross _ hmem _ hmem' (by simpa using hgood)
        rcases (List.isChain_cons_cons.mp hapart).1 with hbad | hbad | hne
        · exact hgood hbad
        · rw [hq] at hbad
          cases hbad
        · exact hne hnlo
      · rintro ⟨hbad, hcs⟩
        have hvac : ∀ p ∈ List.replicate b.segs b.pkt, p.err ≠ false := by
          intro p hp
          rw [(List.mem_replicate.mp hp).2, hbad]
          decide
        refine ⟨?_, ih'.mpr hcs, fun p hp q _ hg => absurd hg (hvac p hp)⟩
        rw [List.pairwise_replicate]
        exact .inr fun hg => ⟨hg, rfl⟩

/-- The counts and checksum statuses of the emissions of batches. -/
theorem batchCores_kinds (bs : List Batch) :
    ∀ off, (batchCores off bs).map (fun c => (c.2.2.1, c.2.2.2)) = bs.map fun b => (b.segs, !b.pkt.err) := by
  induction bs with
  | nil =>
    intro off
    rfl
  | cons b bs ih =>
    intro off
    rw [batchCores, List.map_cons, ih, List.map_cons]

theorem unbatch_length (bs : List Batch) : (unbatch bs).length = (bs.map Batch.segs).sum := by
  induction bs with
  | nil => rfl
  | cons b bs ih => rw [unbatch_cons, List.length_append, List.length_replicate, ih, List.map_cons, List.sum_cons]

/-- The kinds and the number of packets of emissions that are those of batches. -/
theorem emission_kinds {es : List Emission} {bs : List Batch} (h : es.map Emission.core = batchCores 0 bs) :
    es.map (fun e => (e.segs, e.csum)) = bs.map fun b => (b.segs, !b.pkt.err) := by
  rw [← batchCores_kinds bs 0, ← h, List.map_map]
  rfl

theorem segsSum_of_cores {es : List Emission} {bs : List Batch} (h : es.map Emission.core = batchCores 0 bs) :
    segsSum es = (unbatch bs).length := by
  have hsegs := congrArg (List.map Prod.fst) (emission_kinds h)
  rw [List.map_map, List.map_map] at hsegs
  rw [unbatch_length, segsSum]
  exact congrArg List.sum hsegs

/-- Packet ids have eight bits. -/
theorem plan_pktId_lt (gro : Bool) (hlen : ℕ) (pairs : List NlPair) (mask : ℕ) :
    ∀ e ∈ (segmentPlan gro hlen pairs mask).out, e.pktId < 256 := by
  have hkeeps : planOps.Keeps fun st => st.pktId < 256 ∧ ∀ e ∈ st.out, e.pktId < 256 := by
    refine ⟨fun _ h => h, fun _ h => h, fun h => h, ?_⟩
    rintro s i c ⟨hid, hout⟩
    refine ⟨Nat.mod_lt _ (by omega), ?_⟩
    intro e he
    rcases List.mem_append.mp he with he | he
    · exact hout e he
    · rw [List.mem_singleton.mp he]
      exact hid
  have hinit : ({} : PlanState).pktId < 256 ∧ ∀ e ∈ ({} : PlanState).out, e.pktId < 256 := by
    refine ⟨by decide, ?_⟩
    intro e he
    cases he
  exact (hkeeps.run pairs hinit).2

/-- **The packet ids of the plan** are right without GRO, and with GRO exactly when nothing follows a good
run. -/
theorem plan_pktIds (gro : Bool) (hlen : ℕ) (pairs : List NlPair) (mask : ℕ)
    (hcount : (framePackets hlen 0 pairs mask).length < 255) :
    PktIds segsSum (segmentPlan gro hlen pairs mask).out
      ↔ gro = false ∨ GoodRunLast (framePackets hlen 0 pairs mask) := by
  cases gro with
  | false =>
    refine iff_of_true ?_ (.inl rfl)
    rw [(plan_single hlen pairs mask).1]
    exact perPacket_pktIds (by omega)
  | true =>
    obtain ⟨bs, hb, hout, -⟩ := plan_gro hlen pairs mask
    have hids := plan_groPktIds hlen pairs mask
    generalize (segmentPlan true hlen pairs mask).out = es at hout hids ⊢
    have hkinds := emission_kinds hout
    have hsum : segsSum es = (framePackets hlen 0 pairs mask).length := by
      rw [← hb.packets]
      exact segsSum_of_cores hout
    have hlast : (∀ e ∈ es.dropLast, e.csum = false) ↔ ∀ b ∈ bs.dropLast, b.pkt.err = true := by
      have hcsum := congrArg (fun l => l.dropLast.map Prod.snd) hkinds
      simp only [← List.map_dropLast, List.map_map] at hcsum
      have hes : (∀ e ∈ es.dropLast, e.csum = false) ↔ ∀ c ∈ es.dropLast.map (Prod.snd ∘ fun e => (e.segs, e.csum)),
          c = false := by
        rw [List.forall_mem_map]
        rfl
      have hbs : (∀ b ∈ bs.dropLast, b.pkt.err = true)
          ↔ ∀ c ∈ bs.dropLast.map (Prod.snd ∘ fun b => (b.segs, !b.pkt.err)), c = false := by
        rw [List.forall_mem_map]
        simp
      rw [hes, hbs, hcsum]
    rw [groPktIds_right_iff hids (by omega), hlast, ← hb.goodRunLast_iff]
    simp

end Rmnet
