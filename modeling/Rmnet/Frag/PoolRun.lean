import Rmnet.Frag.Pool

/-!
# The descriptor pool over whole runs

The ingress handler run over any sequence of received buffers, from a fresh pool, with any outcome of the
allocations.

* `ingress_recycles_once` — no descriptor is recycled while it is free, as long as no frame is one of
  those that `doubleRecycles` describes: code that fails after a pull or a trim that has recycled the
  descriptor recycles it once more.
* `ingress_returns_descriptors` — every descriptor is back on the free list at the end, if and only if no
  buffer ended between a QMAP header and its type byte (`truncatedType`).
-/

namespace Rmnet

open Word Field

variable {port port' : RmnetPort} {held leaked : List ℕ} {good : Prop}

/-! ### One frame -/

theorem rmnetFragDataCheckCoalHeader_stats (port : RmnetPort) (desc : RmnetFragDescriptor) :
    ∃ stats, (rmnetFragDataCheckCoalHeader port desc).1 = { port with stats := stats } := by
  unfold rmnetFragDataCheckCoalHeader
  split
  · exact ⟨port.stats, rfl⟩
  · exact checkCoalHeader_stats port desc.dev _

/-- The coalesced descriptor is not the first of the new ones. -/
theorem SegPool.head?_ne {a : ℕ} {seg : SegState} (h : SegPool a held leaked good seg) :
    seg.list.head?.map RmnetFragDescriptor.addr ≠ some seg.coalDesc.addr := by
  have hnodup := (List.nodup_append.mp h.pool.nodup).2.1
  rw [List.cons_append] at hnodup
  intro hfirst
  obtain ⟨d, hd, hda⟩ := Option.map_eq_some_iff.mp hfirst
  rw [h.addr] at hda
  have hmem : a ∈ seg.list.map RmnetFragDescriptor.addr := by
    rw [← hda]
    exact List.mem_map_of_mem (List.mem_of_mem_head? hd)
  exact (List.nodup_cons.mp hnodup).1 (List.mem_append_left _ (List.mem_append_left _ hmem))

/-- The frames with a v5 header whose descriptor is recycled twice. -/
def nextHdrTwice (port : RmnetPort) (dev : NetDevice) (desc : RmnetFragDescriptor) (len : ℕ) : Bool :=
  match rmnetFragHeaderPtr desc mapHeaderSize v5CsumHeaderSize with
  | none => false
  | some hdr =>
      if (V5CsumHeader.parse hdr).headerType = headerTypeCoalescing then
        (rmnetFragDataCheckCoalHeader (port.bump desc.dev .coalRx 1) desc).2.isSome &&
          (desc.len ≤ mapHeaderSize + v5CoalHeaderSize || (passesOnShort dev desc && port.alloc 0))
      else if (V5CsumHeader.parse hdr).headerType = headerTypeCsumOffload then
        desc.len ≤ mapHeaderSize + v5CsumHeaderSize || len = 0
      else false

/-- `__rmnet_frag_ingress_handler` behind the endpoint lookup, for a frame with a v5 header. -/
def deliverNextHdr (port : RmnetPort) (desc : RmnetFragDescriptor) (len : ℕ) : RmnetPort :=
  match rmnetFragProcessNextHdrPacket port desc len with
  | (port, desc, _, false) => (rmnetRecycleFragDescriptor port desc).1
  | (port, _, segs, true) => segs.foldl rmnetFragDeliver port

/-- Delivery of what segmentation leaves, behind the recycling that `rmnet_frag_process_next_hdr_packet` does. -/
theorem SegOutcome.deliver {a : ℕ} {alloc : ℕ → Bool} {empty : Prop} {short : Bool} {seg : SegState}
    (h : SegOutcome a alloc held leaked good empty short seg) :
    Pool (seg.list.foldl rmnetFragDeliver
      (if seg.list.head?.map RmnetFragDescriptor.addr = some seg.coalDesc.addr then seg.port
        else (rmnetRecycleFragDescriptor seg.port seg.coalDesc).1))
      held leaked (good ∧ ¬ empty ∧ (short && alloc 0) = false) := by
  cases h with
  | emptied hempty hlist haddr hfree pool =>
    rw [hlist, if_neg (by simp)]
    rw [← haddr] at hfree
    exact (pool.recycle_again hfree).mono fun hg => absurd hempty hg.2.1
  | segmented pool =>
    rw [if_neg (pool.head?_ne)]
    have hheld := pool.pool
    rw [← pool.addr] at hheld
    exact Pool.deliver_all seg.list (hheld.recycle.mono And.left) pool.fit
  | passedOn hlist haddr pool halloc hshort =>
    rw [hlist, if_pos (by simp)]
    simp only [List.foldl_cons, List.foldl_nil]
    rw [← haddr] at pool
    refine pool.deliver ?_
    rintro ⟨hg, -, hnot⟩
    refine ⟨hg, ?_⟩
    intro _ hok
    rcases hshort with hfit | hshort
    · exact hfit
    · rw [halloc] at hok
      simp [hshort, hok] at hnot

theorem Pool.deliverNextHdr {desc : RmnetFragDescriptor} (h : Pool port (desc.addr :: held) leaked good)
    (hs : desc.Sized) {dev : NetDevice} (hdev : desc.dev = some dev) (hv : desc.hdrsValid = false) (len : ℕ) :
    Pool (deliverNextHdr port desc len) held leaked (good ∧ nextHdrTwice port dev desc len = false) := by
  unfold Rmnet.deliverNextHdr rmnetFragProcessNextHdrPacket nextHdrTwice
  cases hread : rmnetFragHeaderPtr desc mapHeaderSize v5CsumHeaderSize with
  | none => exact h.recycle.mono And.left
  | some hdr =>
    simp only
    by_cases hcoal : (V5CsumHeader.parse hdr).headerType = headerTypeCoalescing
    · simp only [if_pos hcoal]
      have hbump := samePool_bump port desc.dev .coalRx 1
      have hstats := rmnetFragDataCheckCoalHeader_stats (port.bump desc.dev .coalRx 1) desc
      cases hcheck : rmnetFragDataCheckCoalHeader (port.bump desc.dev .coalRx 1) desc with
      | mk port₁ r =>
        rw [hcheck] at hstats
        obtain ⟨stats, rfl⟩ := hstats
        have hpool₁ := h.of_samePool (hbump.trans (samePool_stats _ stats))
        cases r with
        | none => exact hpool₁.recycle.mono And.left
        | some mask =>
          simp only [Option.isSome_some, Bool.true_and]
          have halloc : (port.bump desc.dev .coalRx 1).alloc = port.alloc := by
            rw [hdev]
            rfl
          have hout := (hpool₁.segmentCoalData hs hdev mask).deliver
          generalize rmnetFragSegmentCoalData _ desc mask [] = seg at hout ⊢
          rw [show RmnetPort.alloc _ = _ from halloc] at hout
          have hgood : good ∧ (decide (desc.len ≤ mapHeaderSize + v5CoalHeaderSize) ||
              (passesOnShort dev desc && port.alloc 0)) = false →
              good ∧ ¬ desc.len ≤ mapHeaderSize + v5CoalHeaderSize ∧
                (passesOnShort dev desc && port.alloc 0) = false := by
            rintro ⟨hg, htwice⟩
            obtain ⟨hlen, hshort⟩ := Bool.or_eq_false_iff.mp htwice
            exact ⟨hg, of_decide_eq_false hlen, hshort⟩
          refine Pool.mono ?_ hgood
          by_cases hhead : seg.list.head?.map RmnetFragDescriptor.addr = some seg.coalDesc.addr
          · rw [if_pos hhead] at hout ⊢
            exact hout
          · rw [if_neg hhead] at hout ⊢
            exact hout
    · simp only [if_neg hcoal]
      by_cases hcsum : (V5CsumHeader.parse hdr).headerType = headerTypeCsumOffload
      · simp only [if_pos hcsum]
        have hpool₁ := h.of_samePool
          (samePool_bump port desc.dev (csumOffloadStat desc.dev (V5CsumHeader.parse hdr)).1 1)
        generalize port.bump desc.dev (csumOffloadStat desc.dev (V5CsumHeader.parse hdr)).1 1 = port₁
          at hpool₁ ⊢
        generalize hd : ({ desc with
          csumValid := desc.csumValid || (csumOffloadStat desc.dev (V5CsumHeader.parse hdr)).2 } :
            RmnetFragDescriptor) = d
        have hlen : d.len = desc.len := by rw [← hd]
        have haddr : d.addr = desc.addr := by rw [← hd]
        have hsd : d.Sized := by
          rw [← hd]
          exact ⟨hs.len_eq, hs.len_lt⟩
        have hvd : d.hdrsValid = false := by rw [← hd, ← hv]
        rw [← haddr] at hpool₁
        by_cases hle : d.len ≤ mapHeaderSize + v5CsumHeaderSize
        · rw [rmnetFragPull_of_le hle]
          refine (hpool₁.recycle.recycle_again (recycled_free port₁ d)).mono ?_
          rintro ⟨-, htwice⟩
          simp [← hlen, hle] at htwice
        · obtain ⟨hpull, -, -⟩ := rmnetFragPull_pulled port₁ hsd (Nat.not_le.mp hle)
          rw [hpull]
          simp only
          by_cases hz : len = 0
          · rw [hz, rmnetFragTrim_zero]
            refine (hpool₁.recycle.recycle_again (recycled_free port₁ d)).mono ?_
            rintro ⟨-, htwice⟩
            simp at htwice
          · obtain ⟨frags, n, ok, htrim⟩ := rmnetFragTrim_of_pos port₁
              (d.pulled (mapHeaderSize + v5CsumHeaderSize)) hz
            rw [htrim]
            cases ok with
            | false => exact hpool₁.recycle.mono And.left
            | true =>
              refine Pool.deliver hpool₁ fun hg => ⟨hg.1, fun hvalid => ?_⟩
              rw [show d.hdrsValid = true from hvalid] at hvd
              cases hvd
      · simp only [if_neg hcsum]
        exact h.recycle.mono And.left

/-- The frames whose descriptor `__rmnet_frag_ingress_handler` recycles twice. -/
def doubleRecycles (port : RmnetPort) (desc : RmnetFragDescriptor) : Bool :=
  match (rmnetFragHeaderPtr desc 0 mapHeaderSize).map MapHeader.parse with
  | none => false
  | some qmap =>
      if qmap.cdBit || decide (maxLogicalEp ≤ qmap.muxId) then false
      else
        match port.endpoint qmap.muxId with
        | none => false
        | some dev =>
            nextHdrFrame port.dataFormat qmap &&
              nextHdrTwice port dev { desc with dev := some dev } qmap.unpadded

/-- A descriptor as de-aggregation leaves it. -/
structure RmnetFragDescriptor.Fresh (desc : RmnetFragDescriptor) : Prop where
  sized : desc.Sized
  hdrsValid : desc.hdrsValid = false

/-- **`__rmnet_frag_ingress_handler`** takes over a descriptor and gives it back. -/
theorem Pool.ingressDesc {desc : RmnetFragDescriptor} (h : Pool port (desc.addr :: held) leaked good)
    (hd : desc.Fresh) :
    Pool (rmnetFragIngressDesc port desc) held leaked (good ∧ doubleRecycles port desc = false) := by
  unfold rmnetFragIngressDesc doubleRecycles
  cases hread : (rmnetFragHeaderPtr desc 0 mapHeaderSize).map MapHeader.parse with
  | none => exact h.recycle.mono And.left
  | some qmap =>
    simp only
    by_cases hcd : qmap.cdBit = true
    · -- a command leaves the pool alone
      rw [if_pos hcd]
      refine Pool.recycle (Pool.mono (Pool.of_samePool h ?_) And.left)
      split
      · exact samePool_flowCommand port desc _
      · split
        · exact samePool_command port desc qmap
        · exact .rfl
    · rw [if_neg hcd]
      by_cases hmux : maxLogicalEp ≤ qmap.muxId
      · rw [if_pos hmux]
        exact h.recycle.mono And.left
      · rw [if_neg hmux, if_neg (by simp [hcd, hmux])]
        cases hep : port.endpoint qmap.muxId with
        | none => exact h.recycle.mono And.left
        | some dev =>
          simp only
          have hs : ({ desc with dev := some dev } : RmnetFragDescriptor).Sized :=
            ⟨hd.sized.len_eq, hd.sized.len_lt⟩
          by_cases hnext : nextHdrFrame port.dataFormat qmap = true
          · rw [if_pos hnext, hnext, Bool.true_and]
            refine Pool.deliverNextHdr ?_ hs rfl hd.hdrsValid _
            exact h
          · rw [if_neg hnext]
            by_cases hle : desc.len ≤ mapHeaderSize
            · rw [rmnetFragPull_of_le (by exact hle)]
              exact h.recycle.mono And.left
            · obtain ⟨hpull, hsized, hlen⟩ := rmnetFragPull_pulled port hs (Nat.not_le.mp hle)
              rw [hpull]
              simp only
              by_cases hz : qmap.unpadded = 0
              · rw [hz, rmnetFragTrim_zero]
                exact h.recycle.mono And.left
              · obtain ⟨frags, htrim, -⟩ := rmnetFragTrim_eq port hsized (by rw [hlen]; simp only; omega)
                  (Nat.pos_of_ne_zero hz)
                rw [htrim]
                refine Pool.deliver h fun hg => ⟨hg.1, fun hvalid => ?_⟩
                have hv := hd.hdrsValid
                rw [show desc.hdrsValid = true from hvalid] at hv
                cases hv

/-! ### De-aggregation -/

/-- Taking fragments leaves the pool alone, and what it takes it counts. -/
theorem takeFrags_any (fs : List SkbFrag) :
    ∀ (port : RmnetPort) (desc : RmnetFragDescriptor) (pktLen : ℕ),
      port.SamePool (takeFrags port desc fs pktLen).1 ∧
        ∃ frags n, (takeFrags port desc fs pktLen).2.1 = { desc with frags := frags, len := n } ∧
          ∀ r, (takeFrags port desc fs pktLen).2.2 = some r → desc.len + pktLen < 4294967296 →
            n = desc.len + min pktLen (fragsSize fs) := by
  induction fs with
  | nil =>
    intro port desc pktLen
    exact ⟨.rfl, _, _, rfl, fun _ _ _ => by simp⟩
  | cons f fs ih =>
    intro port desc pktLen
    rw [takeFrags]
    split
    · rename_i hz
      exact ⟨.rfl, _, _, rfl, fun _ _ _ => by simp [hz]⟩
    · unfold rmnetFragDescriptorAddFrag
      rw [show port.kalloc = (port.alloc 0, port.kalloc.2) from rfl]
      cases port.alloc 0 with
      | false => exact ⟨samePool_kalloc port, _, _, rfl, fun _ h => by cases h⟩
      | true =>
        simp only
        split
        · rename_i hsz
          obtain ⟨hp, frags, n, hd, hn⟩ := ih port.kalloc.2
            { desc with frags := desc.frags ++ [f.slice 0 (min f.size pktLen)]
                        len := u32 (desc.len + min f.size pktLen) } (pktLen - min f.size pktLen)
          refine ⟨(samePool_kalloc port).trans hp, frags, n, hd, ?_⟩
          intro r hr hlt
          have hu : u32 (desc.len + min f.size pktLen) = desc.len + min f.size pktLen :=
            u32_of_lt (by omega)
          rw [hn r hr (by simp only [hu]; omega), fragsSize_cons]
          simp only [hu]
          omega
        · rename_i hsz
          refine ⟨samePool_kalloc port, _, _, rfl, ?_⟩
          intro r _ hlt
          rw [fragsSize_cons]
          exact (u32_of_lt (by simp only [SkbFrag.slice]; omega)).trans (by simp only [SkbFrag.slice]; omega)

/-- A descriptor that a call of `rmnet_frag_deaggregate_one` has obtained is on the list or free when it
returns. -/
def KeepsDescriptor (port : RmnetPort) (skb : RxSkb) : Prop :=
  ∀ a, PoolEvent.got a ∈ (rmnetFragDeaggregateOne port skb).1.events.drop port.events.length →
    (∃ desc rest, (rmnetFragDeaggregateOne port skb).2 = some (desc, rest) ∧ desc.addr = a) ∨
      a ∈ (rmnetFragDeaggregateOne port skb).1.freeList

/-- The buffer ends behind a QMAP header of a frame with a type byte, when a descriptor can be had. -/
def truncatedType (port : RmnetPort) (skb : RxSkb) : Bool :=
  match (skb.front 0 mapHeaderSize).map MapHeader.parse with
  | none => false
  | some maph =>
      maph.pktLen ≠ 0 && (!port.freeList.isEmpty || port.alloc 0) && !ingressMapCksumv4 port.dataFormat &&
        (ingressMapCksumv5 port.dataFormat || ingressCoalesce port.dataFormat) && !maph.cdBit &&
        (skb.front mapHeaderSize 1).isNone

/-- What de-aggregating a packet does with the account. -/
inductive DeaggregateOutcome (port : RmnetPort) (skb : RxSkb) (held leaked : List ℕ) (good : Prop) : Prop
  /-- no packet, and no descriptor taken or kept -/
  | stopped (hres : (rmnetFragDeaggregateOne port skb).2 = none)
      (pool : Pool (rmnetFragDeaggregateOne port skb).1 held leaked good)
      (htype : truncatedType port skb = false) (hkeep : KeepsDescriptor port skb)
  /-- the type byte cannot be read, and the descriptor is lost -/
  | lost (a : ℕ) (hres : (rmnetFragDeaggregateOne port skb).2 = none)
      (pool : Pool (rmnetFragDeaggregateOne port skb).1 held (a :: leaked) good)
      (htype : truncatedType port skb = true) (hkeep : ¬ KeepsDescriptor port skb)
  /-- a packet is cut off -/
  | packet (desc : RmnetFragDescriptor) (rest : List SkbFrag)
      (hres : (rmnetFragDeaggregateOne port skb).2 = some (desc, rest))
      (pool : Pool (rmnetFragDeaggregateOne port skb).1 (desc.addr :: held) leaked good)
      (hfresh : desc.Fresh) (hrest : fragsSize rest < fragsSize skb.frags)
      (htype : truncatedType port skb = false) (hkeep : KeepsDescriptor port skb)

/-- The frame length is missing exactly when the type byte is. -/
theorem frameLen_isNone (skb : RxSkb) (dataFormat : ℕ) (maph : MapHeader) :
    (skb.frameLen dataFormat maph).isNone
      = (!ingressMapCksumv4 dataFormat && (ingressMapCksumv5 dataFormat || ingressCoalesce dataFormat) &&
          !maph.cdBit && (skb.front mapHeaderSize 1).isNone) := by
  unfold RxSkb.frameLen
  simp only
  split
  · rename_i h4
    simp [h4]
  · rename_i h4
    split
    · rename_i h5
      simp only [Bool.and_eq_true] at h5
      simp [h4, h5.1, h5.2]
    · rename_i h5
      rw [Bool.and_assoc, Bool.and_assoc, ← Bool.and_assoc (_ || _), Bool.eq_false_iff.mpr h5]
      simp

theorem frameLen_bounds {skb : RxSkb} {dataFormat n : ℕ} {maph : MapHeader} (hz : maph.pktLen ≠ 0)
    (hlt : maph.pktLen < 65536) (h : skb.frameLen dataFormat maph = some n) : 5 ≤ n ∧ n < 131072 := by
  have hv5 : ∀ t, v5HeaderSize t ≤ 28 := by
    intro t
    unfold v5HeaderSize v5CoalHeaderSize v5CsumHeaderSize
    split
    · exact le_rfl
    · split <;> omega
  unfold RxSkb.frameLen mapHeaderSize dlCsumTrailerSize at h
  simp only at h
  split at h
  · have := Option.some.inj h
    omega
  · split at h
    · obtain ⟨type, -, htype⟩ := Option.map_eq_some_iff.mp h
      have := hv5 (byteAt type 0)
      omega
    · have := Option.some.inj h
      omega

theorem getFragDescriptor_isSome (port : RmnetPort) :
    (rmnetGetFragDescriptor port).2.isSome = (!port.freeList.isEmpty || port.alloc 0) ∧
      (rmnetGetFragDescriptor port).1.dataFormat = port.dataFormat := by
  unfold rmnetGetFragDescriptor
  cases hf : port.freeList with
  | cons a rest => exact ⟨rfl, rfl⟩
  | nil =>
    rw [show port.kalloc = (port.alloc 0, port.kalloc.2) from rfl]
    cases port.alloc 0 with
    | false => exact ⟨rfl, rfl⟩
    | true => exact ⟨rfl, rfl⟩

/-- Whether a call keeps its descriptor, in terms of the events it adds. -/
theorem keepsDescriptor_iff {skb : RxSkb} {new : List PoolEvent}
    (hev : (rmnetFragDeaggregateOne port skb).1.events = port.events ++ new) :
    KeepsDescriptor port skb ↔ ∀ a, PoolEvent.got a ∈ new →
      (∃ desc rest, (rmnetFragDeaggregateOne port skb).2 = some (desc, rest) ∧ desc.addr = a) ∨
        a ∈ (rmnetFragDeaggregateOne port skb).1.freeList := by
  unfold KeepsDescriptor
  rw [hev, List.drop_left]

/-- De-aggregating a frame of `n` bytes into the new descriptor. -/
theorem Pool.deaggregateFrame {skb : RxSkb} {port₁ : RmnetPort} {desc : RmnetFragDescriptor}
    (hpool : Pool port₁ (desc.addr :: held) leaked good)
    (hev : port₁.events = port.events ++ [.got desc.addr]) (hzero : desc = { addr := desc.addr })
    (htype : truncatedType port skb = false) {n : ℕ} (hlo : 5 ≤ n) (hhi : n < 131072)
    (hres : rmnetFragDeaggregateOne port skb
      = match takeFrags port₁ desc skb.frags n with
        | (port, desc, none) => ((rmnetRecycleFragDescriptor port desc).1, none)
        | (port, desc, some (rest, left)) =>
            if left ≠ 0 then ((rmnetRecycleFragDescriptor port desc).1, none)
            else (port, some (desc, rest))) :
    DeaggregateOutcome port skb held leaked good := by
  obtain ⟨hsame, frags, m, htake, hcount⟩ := takeFrags_any skb.frags port₁ desc n
  cases hrun : takeFrags port₁ desc skb.frags n with
  | mk port₂ r₂ =>
    obtain ⟨desc₂, taken⟩ := r₂
    rw [hrun] at hres hsame htake hcount
    simp only at hres hsame htake hcount
    have hpool₂ : Pool port₂ (desc₂.addr :: held) leaked good := by
      rw [htake]
      exact hpool.of_samePool hsame
    have hev₂ : port₂.events = port.events ++ [.got desc₂.addr] := by
      rw [← hsame.events, hev, htake]
    -- a packet that does not fit, or a failed allocation: the descriptor goes back
    have hback : rmnetFragDeaggregateOne port skb = ((rmnetRecycleFragDescriptor port₂ desc₂).1, none) →
        DeaggregateOutcome port skb held leaked good := by
      intro hres
      refine .stopped (by rw [hres]) (by rw [hres]; exact hpool₂.recycle) htype ?_
      have hnew : (rmnetFragDeaggregateOne port skb).1.events
          = port.events ++ [.got desc₂.addr, .recycled desc₂.addr] := by
        rw [hres]
        simp [rmnetRecycleFragDescriptor, hev₂]
      rw [keepsDescriptor_iff hnew, hres]
      intro a ha
      have ha' : a = desc₂.addr := by simpa using ha
      rw [ha']
      exact .inr (recycled_free port₂ desc₂)
    cases taken with
    | none => exact hback hres
    | some r =>
      obtain ⟨rest, left⟩ := r
      simp only at hres
      by_cases hleft : left ≠ 0
      · rw [if_pos hleft] at hres
        exact hback hres
      · rw [if_neg hleft] at hres
        obtain ⟨hbytes, hrest, hmiss⟩ := takeFrags_some _ _ _ _ _ _ _ _ hrun
        have hsz : fragsSize rest = fragsSize skb.frags - n := by
          rw [← fragsBytes_length, hrest, List.length_drop, fragsBytes_length]
        have hlen : desc₂.len = min n (fragsSize skb.frags) := by
          have hm := hcount (rest, left) rfl (by rw [hzero]; simp only; omega)
          rw [htake, hm, hzero]
          exact Nat.zero_add _
        have hcounts : desc₂.len = fragsSize desc₂.frags := by
          rw [hlen, ← fragsBytes_length desc₂.frags, hbytes, hzero]
          simp
        refine .packet desc₂ rest (by rw [hres]) (by rw [hres]; exact hpool₂)
          ⟨⟨hcounts, by omega⟩, by rw [htake, hzero]⟩ (by omega) htype ?_
        rw [keepsDescriptor_iff (by rw [hres]; exact hev₂), hres]
        intro a ha
        have ha' : a = desc₂.addr := by simpa using ha
        exact .inl ⟨desc₂, rest, rfl, ha'.symm⟩

/-- **`rmnet_frag_deaggregate_one`** keeps the account, but for a descriptor it may lose. -/
theorem Pool.deaggregateOne (h : Pool port held leaked good) (skb : RxSkb) :
    DeaggregateOutcome port skb held leaked good := by
  -- nothing was taken
  have hnothing : ∀ {p : RmnetPort}, rmnetFragDeaggregateOne port skb = (p, none) →
      Pool p held leaked good → p.events = port.events → truncatedType port skb = false →
      DeaggregateOutcome port skb held leaked good := by
    intro p hres hpool hev htype
    refine .stopped (by rw [hres]) (by rw [hres]; exact hpool) htype ?_
    have hnew : (rmnetFragDeaggregateOne port skb).1.events = port.events ++ [] := by
      rw [hres, List.append_nil]
      exact hev
    rw [keepsDescriptor_iff hnew]
    intro a ha
    cases ha
  obtain ⟨hget, hfmt⟩ := getFragDescriptor_isSome port
  cases hfront : (skb.front 0 mapHeaderSize).map MapHeader.parse with
  | none =>
    refine hnothing ?_ h rfl ?_
    · unfold rmnetFragDeaggregateOne
      rw [hfront]
    · unfold truncatedType
      rw [hfront]
  | some maph =>
    by_cases hz : maph.pktLen = 0
    · refine hnothing ?_ h rfl ?_
      · unfold rmnetFragDeaggregateOne
        rw [hfront]
        simp only [if_pos hz]
      · unfold truncatedType
        rw [hfront]
        simp [hz]
    · cases hdesc : rmnetGetFragDescriptor port with
      | mk port₁ r =>
        rw [hdesc] at hget hfmt
        simp only at hget hfmt
        have htrunc : truncatedType port skb
            = (r.isSome && (skb.frameLen port₁.dataFormat maph).isNone) := by
          unfold truncatedType
          rw [hfront, hget, hfmt, frameLen_isNone]
          simp [hz, Bool.and_assoc]
        cases r with
        | none =>
          obtain ⟨hpool, hev⟩ := h.get_none hdesc
          refine hnothing ?_ hpool hev htrunc
          unfold rmnetFragDeaggregateOne
          rw [hfront]
          simp only [if_neg hz, hdesc]
        | some desc =>
          obtain ⟨hpool, hev, hzero⟩ := h.get hdesc
          cases hlen : skb.frameLen port₁.dataFormat maph with
          | none =>
            have hres : rmnetFragDeaggregateOne port skb = (port₁, none) := by
              unfold rmnetFragDeaggregateOne
              rw [hfront]
              simp only [if_neg hz, hdesc, hlen]
            refine .lost desc.addr (by rw [hres]) ?_ (by rw [htrunc, hlen]; rfl) ?_
            · rw [hres]
              exact hpool.lose
            · rw [keepsDescriptor_iff (by rw [hres]; exact hev), hres]
              intro hkeep
              rcases hkeep desc.addr (List.mem_singleton_self _) with ⟨d, rest, hd, -⟩ | hfree
              · cases hd
              · exact hpool.not_free hfree
          | some n =>
            have hpkt : maph.pktLen < 65536 := by
              obtain ⟨b, -, hb⟩ := Option.map_eq_some_iff.mp hfront
              rw [← hb]
              exact be16At_lt _ _
            obtain ⟨hlo, hhi⟩ := frameLen_bounds hz hpkt hlen
            have htype : truncatedType port skb = false := by
              rw [htrunc, hlen]
              rfl
            exact hpool.deaggregateFrame hev hzero htype hlo hhi (deaggregateOne_frame hfront hz hdesc hlen)

/-! ### Runs -/

/-- No frame of these calls has its descriptor recycled twice. -/
def NoneTwice (calls : List IngressCall) : Prop :=
  ∀ p desc, IngressCall.ingressDesc p desc ∈ calls → doubleRecycles p desc = false

/-- No buffer of these calls ends before a type byte. -/
def NoneTruncated (calls : List IngressCall) : Prop :=
  ∀ p skb, IngressCall.deaggregateOne p skb ∈ calls → truncatedType p skb = false

/-- The account after some calls, with the descriptors that are held. -/
structure PoolLedger (calls : List IngressCall) (port : RmnetPort) (held : List ℕ) : Prop where
  pool : ∃ leaked, Pool port held leaked (NoneTwice calls) ∧ (leaked = [] ↔ NoneTruncated calls)
  keeps : ∀ p skb, IngressCall.deaggregateOne p skb ∈ calls →
    (KeepsDescriptor p skb ↔ truncatedType p skb = false)

section Run

variable {calls : List IngressCall}

theorem noneTruncated_snoc {skb : RxSkb} :
    NoneTruncated (calls ++ [.deaggregateOne port skb])
      ↔ NoneTruncated calls ∧ truncatedType port skb = false := by
  unfold NoneTruncated
  constructor
  · intro h
    exact ⟨fun p s hs => h p s (List.mem_append_left _ hs), h port skb (by simp)⟩
  · rintro ⟨h, hlast⟩ p s hs
    rcases List.mem_append.mp hs with hs | hs
    · exact h p s hs
    · cases List.mem_singleton.mp hs
      exact hlast

theorem PoolLedger.perm {held' : List ℕ} (h : PoolLedger calls port held) (hp : held.Perm held') :
    PoolLedger calls port held' := by
  obtain ⟨leaked, hpool, hleaked⟩ := h.pool
  exact ⟨⟨leaked, hpool.perm hp, hleaked⟩, h.keeps⟩

/-- **A step of the de-aggregation loop.** -/
theorem PoolLedger.deaggregateOne (h : PoolLedger calls port held) (skb : RxSkb) :
    ((rmnetFragDeaggregateOne port skb).2 = none ∧
      PoolLedger (calls ++ [.deaggregateOne port skb]) (rmnetFragDeaggregateOne port skb).1 held) ∨
    ∃ desc rest, (rmnetFragDeaggregateOne port skb).2 = some (desc, rest) ∧ desc.Fresh ∧
      fragsSize rest < fragsSize skb.frags ∧
      PoolLedger (calls ++ [.deaggregateOne port skb]) (rmnetFragDeaggregateOne port skb).1
        (desc.addr :: held) := by
  obtain ⟨leaked, hpool, hleaked⟩ := h.pool
  have hkeeps : (KeepsDescriptor port skb ↔ truncatedType port skb = false) →
      ∀ p s, IngressCall.deaggregateOne p s ∈ calls ++ [.deaggregateOne port skb] →
        (KeepsDescriptor p s ↔ truncatedType p s = false) := by
    intro hlast p s hs
    rcases List.mem_append.mp hs with hs | hs
    · exact h.keeps p s hs
    · cases List.mem_singleton.mp hs
      exact hlast
  have htwice : NoneTwice (calls ++ [.deaggregateOne port skb]) → NoneTwice calls :=
    fun hn p d hd => hn p d (List.mem_append_left _ hd)
  cases hpool.deaggregateOne skb with
  | stopped hres pool htype hkeep =>
    refine .inl ⟨hres, ⟨leaked, pool.mono htwice, ?_⟩, hkeeps ⟨fun _ => htype, fun _ => hkeep⟩⟩
    rw [noneTruncated_snoc, hleaked, htype]
    simp
  | lost a hres pool htype hkeep =>
    refine .inl ⟨hres, ⟨a :: leaked, pool.mono htwice, ?_⟩, hkeeps ⟨fun hk => (hkeep hk).elim, ?_⟩⟩
    · rw [noneTruncated_snoc, htype]
      simp
    · rw [htype]
      simp
  | packet desc rest hres pool hfresh hrest htype hkeep =>
    refine .inr ⟨desc, rest, hres, hfresh, hrest, ⟨leaked, pool.mono htwice, ?_⟩,
      hkeeps ⟨fun _ => htype, fun _ => hkeep⟩⟩
    rw [noneTruncated_snoc, hleaked, htype]
    simp

/-- **A descriptor handed to the ingress handler.** -/
theorem PoolLedger.ingressDesc {desc : RmnetFragDescriptor} (h : PoolLedger calls port (desc.addr :: held))
    (hd : desc.Fresh) :
    PoolLedger (calls ++ [.ingressDesc port desc]) (rmnetFragIngressDesc port desc) held := by
  obtain ⟨leaked, hpool, hleaked⟩ := h.pool
  have hone : ∀ {p : RmnetPort} {s : RxSkb},
      IngressCall.deaggregateOne p s ∈ calls ++ [.ingressDesc port desc] →
        IngressCall.deaggregateOne p s ∈ calls := by
    intro p s hs
    rcases List.mem_append.mp hs with hs | hs
    · exact hs
    · cases List.mem_singleton.mp hs
  refine ⟨⟨leaked, (hpool.ingressDesc hd).mono ?_, ?_⟩, fun p s hs => h.keeps p s (hone hs)⟩
  · intro hn
    exact ⟨fun p d hm => hn p d (List.mem_append_left _ hm), hn port desc (by simp)⟩
  · rw [hleaked]
    exact ⟨fun hn p s hs => hn p s (hone hs), fun hn p s hs => hn p s (List.mem_append_left _ hs)⟩

/-- De-aggregation ends, with fuel for every byte, and what it has put on the list is held. -/
theorem PoolLedger.deaggregateLoop (fuel : ℕ) :
    ∀ {calls : List IngressCall} {port : RmnetPort} {held : List ℕ} (skb : RxSkb)
      (list : List RmnetFragDescriptor), PoolLedger calls port held → fragsSize skb.frags < fuel →
      ∃ port' descs, Rmnet.deaggregateLoop fuel port skb list = some (port', list ++ descs) ∧
        (∀ desc ∈ descs, desc.Fresh) ∧
        PoolLedger (calls ++ deaggregateCalls fuel port skb) port' (descs.map RmnetFragDescriptor.addr ++ held) := by
  induction fuel with
  | zero =>
    intro calls port held skb list _ hfuel
    omega
  | succ fuel ih =>
    intro calls port held skb list h hfuel
    rw [Rmnet.deaggregateLoop, deaggregateCalls]
    by_cases hempty : skb.frags.isEmpty = true
    · rw [if_pos hempty, if_pos hempty]
      refine ⟨port, [], by rw [List.append_nil], by simp, ?_⟩
      rw [List.append_nil]
      exact h
    · rw [if_neg hempty, if_neg hempty]
      have hstep := h.deaggregateOne skb
      cases hone : rmnetFragDeaggregateOne port skb with
      | mk port₁ r =>
        rw [hone] at hstep
        simp only at hstep
        rcases hstep with ⟨rfl, hled⟩ | ⟨desc, rest, rfl, hfresh, hrest, hled⟩
        · exact ⟨port₁, [], by simp, by simp, hled⟩
        · obtain ⟨port₂, descs, hloop, hall, hled₂⟩ :=
            ih { skb with frags := rest } (list ++ [desc]) hled (by simp only; omega)
          refine ⟨port₂, desc :: descs, ?_, ?_, ?_⟩
          · simp only
            rw [hloop, List.append_assoc, List.singleton_append]
          · intro d hd
            rcases List.mem_cons.mp hd with rfl | hd
            · exact hfresh
            · exact hall d hd
          · rw [List.append_assoc, List.singleton_append] at hled₂
            exact hled₂.perm List.perm_middle

theorem PoolLedger.descs (descs : List RmnetFragDescriptor) :
    ∀ {calls : List IngressCall} {port : RmnetPort} {held : List ℕ},
      PoolLedger calls port (descs.map RmnetFragDescriptor.addr ++ held) → (∀ desc ∈ descs, desc.Fresh) →
      PoolLedger (calls ++ descCalls port descs) (descs.foldl rmnetFragIngressDesc port) held := by
  induction descs with
  | nil =>
    intro calls port held h _
    rw [descCalls, List.append_nil]
    exact h
  | cons desc descs ih =>
    intro calls port held h hall
    have hone := h.ingressDesc (hall desc List.mem_cons_self)
    have hrest := ih hone fun d hd => hall d (List.mem_cons_of_mem _ hd)
    rw [List.append_assoc, List.singleton_append] at hrest
    exact hrest

/-- **`rmnet_frag_ingress_handler`** returns, and holds no descriptor then. -/
theorem PoolLedger.ingressHandler (skbs : List RxSkb) :
    ∀ {calls : List IngressCall} {port : RmnetPort} {held : List ℕ}, PoolLedger calls port held →
      ∃ port', rmnetFragIngressHandler port skbs = some port' ∧
        PoolLedger (calls ++ handlerCalls port skbs) port' held := by
  induction skbs with
  | nil =>
    intro calls port held h
    refine ⟨port, rfl, ?_⟩
    rw [handlerCalls, List.append_nil]
    exact h
  | cons skb skbs ih =>
    intro calls port held h
    obtain ⟨port₁, descs, hdeag, hall, hled⟩ := PoolLedger.deaggregateLoop (fragsSize skb.frags + 1)
      skb [] h (Nat.lt_succ_self _)
    have hdeag' : rmnetFragDeaggregate port skb [] = some (port₁, descs) := hdeag
    obtain ⟨port₂, hrun, hled₂⟩ := ih (hled.descs descs hall)
    refine ⟨port₂, ?_, ?_⟩
    · rw [rmnetFragIngressHandler, hdeag']
      exact hrun
    · rw [handlerCalls, hdeag']
      simp only [List.append_assoc] at hled₂ ⊢
      exact hled₂

/-- **A run** over a sequence of buffers. -/
theorem PoolLedger.run (bufs : List (List RxSkb)) :
    ∀ {calls : List IngressCall} {port : RmnetPort} {held : List ℕ}, PoolLedger calls port held →
      ∃ port', ingressRun port bufs = some port' ∧ PoolLedger (calls ++ ingressCalls port bufs) port' held := by
  induction bufs with
  | nil =>
    intro calls port held h
    refine ⟨port, rfl, ?_⟩
    rw [ingressCalls, List.append_nil]
    exact h
  | cons skbs bufs ih =>
    intro calls port held h
    obtain ⟨port₁, hone, hled⟩ := h.ingressHandler skbs
    obtain ⟨port₂, hrun, hled₂⟩ := ih hled
    refine ⟨port₂, ?_, ?_⟩
    · rw [ingressRun, hone]
      exact hrun
    · rw [ingressCalls, hone]
      rw [List.append_assoc] at hled₂
      exact hled₂

end Run

/-- A fresh pool. -/
theorem PoolLedger.init (dataFormat : ℕ) (endpoint : ℕ → Option NetDevice) (alloc : ℕ → Bool) :
    PoolLedger [] (rmnetDescriptorInit dataFormat endpoint alloc) [] := by
  refine ⟨⟨[], ⟨?_, ?_⟩, by simp [NoneTruncated]⟩, by simp⟩
  · simp [rmnetDescriptorInit]
  · intro _
    exact ⟨fun pre a post heq => by simp [rmnetDescriptorInit] at heq, by simp⟩

/-- **Descriptors are recycled once.**  Run the ingress handler over any sequence of buffers, with any data
format, endpoints and allocation failures.  If no frame is one that `doubleRecycles` describes, each
recycled descriptor has been handed out since it was last recycled. -/
theorem ingress_recycles_once (dataFormat : ℕ) (endpoint : ℕ → Option NetDevice) (alloc : ℕ → Bool)
    (bufs : List (List RxSkb))
    (h : ∀ p desc, IngressCall.ingressDesc p desc
        ∈ ingressCalls (rmnetDescriptorInit dataFormat endpoint alloc) bufs → doubleRecycles p desc = false) :
    ∃ port', ingressRun (rmnetDescriptorInit dataFormat endpoint alloc) bufs = some port' ∧
      NoDoubleRecycle port'.events := by
  obtain ⟨port', hrun, hled⟩ := (PoolLedger.init dataFormat endpoint alloc).run bufs
  obtain ⟨leaked, hpool, -⟩ := hled.pool
  rw [List.nil_append] at hpool
  exact ⟨port', hrun, (hpool.log h).1⟩

/-- Endpoint 1, on a device with GRO and checksum offload. -/
def oneEndpoint (muxId : ℕ) : Option NetDevice :=
  if muxId = 1 then some { id := 0, groHw := true, rxcsum := true } else none

/-- A frame with a checksum-offload header and four bytes of payload. -/
def csumFrame : RxSkb := { frags := [.ofBytes [0x40, 1, 0, 4, 4, 0x80], .ofBytes [0, 0, 1, 2, 3, 4]] }

theorem ingress_recycles_once_csum :
    ∃ port', ingressRun (rmnetDescriptorInit 32 oneEndpoint fun _ => true) [[csumFrame], [csumFrame]]
        = some port' ∧ NoDoubleRecycle port'.events := by
  refine ingress_recycles_once 32 oneEndpoint (fun _ => true) [[csumFrame], [csumFrame]] ?_
  intro p desc hmem
  have hall : (ingressCalls (rmnetDescriptorInit 32 oneEndpoint fun _ => true) [[csumFrame], [csumFrame]]).all
      (fun c => match c with
        | .ingressDesc p desc => !doubleRecycles p desc
        | .deaggregateOne _ _ => true) = true := by
    decide +kernel
  have hone := List.all_eq_true.mp hall _ hmem
  simpa using hone

/-- A frame with a checksum-offload header that is all padding: trimming it recycles the descriptor, and so
does the handler when the trim has failed. -/
theorem ingress_recycles_padding_twice :
    ∃ port', ingressRun (rmnetDescriptorInit 32 oneEndpoint fun _ => true)
        [[{ frags := [.ofBytes [0x44, 1, 0, 4, 4, 0x80, 0, 0, 1, 2, 3, 4]] }]] = some port' ∧
      ¬ NoDoubleRecycle port'.events := by
  refine ⟨_, rfl, ?_⟩
  intro h
  obtain ⟨pre, post, heq, hpost⟩ := h [.got 0, .recycled 0] 0 [] rfl
  match pre, heq with
  | [], heq =>
    cases heq
    exact hpost (List.mem_singleton_self _)
  | [_], heq => cases heq
  | _ :: _ :: pre, heq => simp at heq

/-- **Descriptors come back.**  Run the ingress handler over any sequence of buffers, with any data format,
endpoints and allocation failures.  The run ends; a call of `rmnet_frag_deaggregate_one` keeps the
descriptor it has obtained exactly when the buffer does not end before the type byte; and at the end every
descriptor of the pool is free exactly when no buffer did. -/
theorem ingress_returns_descriptors (dataFormat : ℕ) (endpoint : ℕ → Option NetDevice) (alloc : ℕ → Bool)
    (bufs : List (List RxSkb)) :
    ∃ port', ingressRun (rmnetDescriptorInit dataFormat endpoint alloc) bufs = some port' ∧
      (∀ p skb, IngressCall.deaggregateOne p skb
          ∈ ingressCalls (rmnetDescriptorInit dataFormat endpoint alloc) bufs →
        (KeepsDescriptor p skb ↔ truncatedType p skb = false)) ∧
      (port'.poolSize = port'.freeList.length ↔
        ∀ p skb, IngressCall.deaggregateOne p skb
            ∈ ingressCalls (rmnetDescriptorInit dataFormat endpoint alloc) bufs →
          truncatedType p skb = false) := by
  obtain ⟨port', hrun, hled⟩ := (PoolLedger.init dataFormat endpoint alloc).run bufs
  rw [List.nil_append] at hled
  obtain ⟨leaked, hpool, hleaked⟩ := hled.pool
  refine ⟨port', hrun, hled.keeps, ?_⟩
  have hlen := hpool.account.length_eq
  rw [List.length_append, List.nil_append, List.length_range] at hlen
  show _ ↔ NoneTruncated _
  rw [← hleaked, ← List.length_eq_zero_iff]
  omega

/-- A buffer with a QMAP header and nothing behind it. -/
theorem ingress_loses_descriptor :
    ¬ KeepsDescriptor (rmnetDescriptorInit 32 oneEndpoint fun _ => true) { frags := [.ofBytes [0, 1, 0, 4]] } ∧
      ∃ port', ingressRun (rmnetDescriptorInit 32 oneEndpoint fun _ => true)
          [[{ frags := [.ofBytes [0, 1, 0, 4]] }]] = some port' ∧
        port'.poolSize = 64 ∧ port'.freeList.length = 63 := by
  refine ⟨?_, _, rfl, rfl, rfl⟩
  intro h
  rcases h 0 (by decide) with ⟨desc, rest, hres, -⟩ | hfree
  · cases hres
  · exact absurd hfree (by decide)

end Rmnet
