import Rmnet.Coalesce.Reach
import Rmnet.Linear.Agree

/-!
# What the linear segmentation reads

`rmnet_map_nonlinear_copy` copies from the offset in the metadata as many bytes as the size and the count say,
without a look at the length of the buffer; `rmnet_frag_descriptor_add_frags_from`, which does this work on the
fragment path, refuses a range that leaves the descriptor.  The table of the coalescing header decides what is
read, and with it how allocations end: a batch that could not be built stays in the count, and a later one
takes it along with its own size.

* `mapWalk` — the loop reads what the walk over the table claims.
* `copies_inside_iff` — it stays inside the packet, whatever allocations fail, exactly when `reach` fits behind
  the headers; when none fails, exactly when the packets of the table do.
-/

namespace Rmnet

open Word Field Checksum

/-! ### The copies -/

/-- The copy that `__rmnet_map_segment_coal_skb` makes, as offset and length: none without memory. -/
def mapCopies (st : MapSegState) : List (ℕ × ℕ) :=
  if st.port.kalloc.1 then
    [(st.coalMeta.ipLen + st.coalMeta.transLen + st.coalMeta.dataOffset,
      st.coalMeta.dataLen * st.coalMeta.pktCount)]
  else []

/-- The buffer is passed on as it is. -/
def passedOn (coalHdr : V5CoalHeader) (gro zeroCsum : Bool) : Bool :=
  rmnetMapV5CsumBuggy coalHdr && !zeroCsum || gro && coalHdr.numNlos = 1 && coalHdr.csumValid

section

variable (skipExthdr : Bytes → ℕ → ℕ → SkipExthdr)

/-- The metadata of the headers, whether GRO is allowed, and `zero_csum`; `none` when the frame is dropped. -/
def mapMeasure (port : RmnetPort) (dev : NetDevice) (skb : SkBuff) : Option (CoalMetadata × Bool × Bool) :=
  match mapIpHeader skipExthdr port dev skb dev.groHw with
  | (_, none) => none
  | (port, some (coalMeta, gro)) =>
      (mapTransHeader port dev coalMeta).2.map fun r => (r.1, gro, r.2)

/-- The copies that `rmnet_map_segment_coal_skb` makes. -/
def rmnetMapSegmentCopies (port : RmnetPort) (dev : NetDevice) (coalSkb : SkBuff) (nloErrMask : ℕ) :
    List (ℕ × ℕ) :=
  let coalSkb := pskbPull coalSkb mapHeaderSize
  let coalHdr := V5CoalHeader.parse (memBytes (rmnetMapDataPtr coalSkb) 0 v5CoalHeaderSize)
  let coalSkb := pskbPull coalSkb v5CoalHeaderSize
  match mapMeasure skipExthdr port dev coalSkb with
  | none => []
  | some (coalMeta, gro, zeroCsum) =>
      if passedOn coalHdr gro zeroCsum then []
      else
        (segNlos ((mapSegOps dev).logged mapCopies) gro (coalMeta.ipLen + coalMeta.transLen)
          (coalHdr.nlPairs.take coalHdr.numNlos) 0 nloErrMask (⟨port, coalSkb, coalMeta, []⟩, [])).2

end

/-- The length of the headers. -/
def CoalMetadata.hlen (m : CoalMetadata) : ℕ := m.ipLen + m.transLen

/-- The headers of a packet are complete. -/
structure CoalMetadata.Held (m : CoalMetadata) (ip : Bytes) : Prop where
  network : (if m.ipProto = 4 then 20 else 40) ≤ m.ipLen
  transport : transFixed m.transProto ≤ m.transLen
  inside : m.hlen ≤ ip.length

/-- The metadata before the first packet. -/
structure CoalMetadata.Fresh (m : CoalMetadata) : Prop where
  dataOffset : m.dataOffset = 0
  dataLen : m.dataLen = 0
  pktCount : m.pktCount = 0

/-- All copies read bytes of the packet, and the payload of every buffer on the list is a range of its
payload. -/
structure StaysInside (ip : Bytes) (copies : List (ℕ × ℕ)) (st : MapSegState) : Prop where
  copies : ∀ r ∈ copies, ∀ i < r.2, r.1 + i < ip.length
  payload : ∀ skb ∈ st.list, ∃ off n, st.coalMeta.hlen + off + n ≤ ip.length ∧
    skb.bytes.drop st.coalMeta.hlen = (ip.drop (st.coalMeta.hlen + off)).take n

/-! ### The payload of a new buffer -/

/-- The buffer is `hlen` bytes of headers and then the payload, all of it linear. -/
structure SkBuff.Carries (skb : SkBuff) (hlen : ℕ) (payload : Bytes) : Prop where
  linear : ∃ hdr : Bytes, hdr.length = hlen ∧ skb.linear = hdr ++ payload
  frags : skb.frags = []
  fragList : skb.fragList = []

namespace SkBuff.Carries

variable {skb : SkBuff} {hlen : ℕ} {payload : Bytes}

theorem drop (h : skb.Carries hlen payload) : skb.bytes.drop hlen = payload := by
  obtain ⟨hdr, hlen, hlin⟩ := h.linear
  rw [SkBuff.bytes, h.frags, h.fragList, hlin, ← hlen]
  simp

theorem push (h : skb.Carries hlen payload) {k : ℕ} (hdr : Bytes) (hk : hdr.length = k) :
    (skb.pushHeader hdr).Carries (k + hlen) payload := by
  obtain ⟨hdr₀, hlen₀, hlin⟩ := h.linear
  refine ⟨⟨hdr ++ hdr₀, by rw [List.length_append, hk, hlen₀], ?_⟩, h.frags, h.fragList⟩
  rw [List.append_assoc, ← hlin]
  rfl

/-- Writing in the headers. -/
theorem write (h : skb.Carries hlen payload) {i : ℕ} {w : Bytes} (hi : i + w.length ≤ hlen)
    {skb' : SkBuff} (hlin : skb'.linear = overwrite skb.linear i w) (hf : skb'.frags = skb.frags)
    (hl : skb'.fragList = skb.fragList) : skb'.Carries hlen payload := by
  obtain ⟨hdr, hlen, heq⟩ := h.linear
  refine ⟨⟨overwrite hdr i w, by rw [overwrite_length, hlen], ?_⟩, hf.trans h.frags, hl.trans h.fragList⟩
  rw [hlin, heq, overwrite_append_left _ _ _ _ (by omega)]

variable {m : CoalMetadata}

theorem partialCsum (h : skb.Carries m.hlen payload)
    (hT : checkOffset m.transProto + 2 ≤ m.transLen) :
    (rmnetMapPartialCsum skb m).Carries m.hlen payload :=
  h.write (by rw [be16_length, CoalMetadata.hlen]; omega) rfl rfl rfl

theorem badCsum (h : skb.Carries m.hlen payload) (hT : checkOffset m.transProto + 2 ≤ m.transLen) :
    (mapBadCsum skb m).Carries m.hlen payload := by
  have hin : ∀ v, m.ipLen + checkOffset m.transProto + (be16 v).length ≤ m.hlen := by
    intro v
    rw [be16_length, CoalMetadata.hlen]
    omega
  have hpseudo : ∀ v, ({ skb with linear := overwrite skb.linear (m.ipLen + checkOffset m.transProto) (be16 v) } :
      SkBuff).Carries m.hlen payload := fun v => h.write (hin v) rfl rfl rfl
  exact (hpseudo _).write (hin _) rfl rfl rfl

theorem gsoStamp (h : skb.Carries hlen payload) : (rmnetMapGsoStamp skb m).Carries hlen payload :=
  ⟨h.linear, h.frags, h.fragList⟩

/-- What is left to do once both headers are there. -/
theorem finish (h : skb.Carries m.hlen payload)
    (hT : checkOffset m.transProto + 2 ≤ m.transLen) (csumValid zeroCsum : Bool) :
    (let skb := if csumValid || zeroCsum then rmnetMapPartialCsum skb m
        else if m.transProto = ipprotoTcp ∨ m.transProto = ipprotoUdp then mapBadCsum skb m
        else skb
      if 1 < m.pktCount then rmnetMapGsoStamp skb m else skb).Carries m.hlen payload := by
  have hcsum : (if csumValid || zeroCsum then rmnetMapPartialCsum skb m
      else if m.transProto = ipprotoTcp ∨ m.transProto = ipprotoUdp then mapBadCsum skb m
      else skb).Carries m.hlen payload := by
    split
    · exact h.partialCsum hT
    · split
      · exact h.badCsum hT
      · exact h
  show (if 1 < m.pktCount then _ else _ : SkBuff).Carries _ _
  split
  · exact hcsum.gsoStamp
  · exact hcsum

end SkBuff.Carries

/-- The checksum field lies in a complete transport header. -/
theorem check_inside {transProto transLen : ℕ} (h : transFixed transProto ≤ transLen) :
    checkOffset transProto + 2 ≤ transLen := by
  unfold transFixed at h
  unfold checkOffset
  split
  · rename_i htcp
    rw [if_pos htcp] at h
    omega
  · rename_i htcp
    rw [if_neg htcp] at h
    omega

/-- The new buffer carries what memory holds in the range of the copy. -/
theorem segmentSkb_carries (ip : Bytes) {m : CoalMetadata} (hT : transFixed m.transProto ≤ m.transLen)
    (csumValid : Bool) :
    (segmentSkb (linearSkb ip) m csumValid).Carries m.hlen
      (memBytes (rmnetMapDataPtr (linearSkb ip)) (m.hlen + m.dataOffset) (m.dataLen * m.pktCount)) := by
  have hmem : ∀ (data : ℕ → UInt8) n, (memBytes data 0 n).length = n := by
    intro data n
    simp [memBytes]
  have hcopy : (rmnetMapNonlinearCopy (linearSkb ip) m { linear := [], len := 0 }).Carries 0
      (memBytes (rmnetMapDataPtr (linearSkb ip)) (m.hlen + m.dataOffset) (m.dataLen * m.pktCount)) := by
    unfold rmnetMapNonlinearCopy
    rw [if_neg (by simp)]
    exact ⟨⟨[], rfl, rfl⟩, rfl, rfl⟩
  have htrans : ∀ len, (segmentTransport (linearSkb ip) m (memBytes m.transHeader 0 m.transLen) len).length
      = m.transLen := by
    intro len
    rw [segmentTransport_length, hmem]
  have hnet : ∀ len, (segmentNetwork m (memBytes m.ipHeader 0 m.ipLen) len).length = m.ipLen := by
    intro len
    rw [segmentNetwork_length, hmem]
  unfold segmentSkb
  generalize rmnetMapNonlinearCopy (linearSkb ip) m { linear := [], len := 0 } = skbn at hcopy ⊢
  exact ((hcopy.push _ (htrans _)).push _ (hnet _)).finish (check_inside hT) csumValid _

/-! ### The loop reads what the walk claims -/

/-- A copy of a range of the payload, as long as the offset fits its 16 bits. -/
def CopyOf (hlen : ℕ) (r x : ℕ × ℕ) : Prop :=
  r.2 = x.2 ∧ r.1 ≤ hlen + x.1 ∧ (x.1 < 65536 → r.1 = hlen + x.1)

/-- The loop with its copies, and the walk over the table. -/
structure MapWalk (hlen : ℕ) (s : MapSegState × List (ℕ × ℕ)) (w : Walk) : Prop where
  hdrs : s.1.coalMeta.hlen = hlen
  size : s.1.coalMeta.dataLen = w.size
  segs : s.1.coalMeta.pktCount = w.segs
  off_le : s.1.coalMeta.dataOffset ≤ w.off
  off : w.off < 65536 → s.1.coalMeta.dataOffset = w.off
  outcome : s.1.port.alloc = w.outcome
  copies : List.Forall₂ (CopyOf hlen) s.2 w.ranges

/-- **The loop reads what the walk claims**, when allocations end as the emissions of the walk do. -/
theorem mapWalk (dev : NetDevice) (hlen : ℕ) :
    SegSim ((mapSegOps dev).logged mapCopies) walkOps (fun _ => True) (MapWalk hlen) where
  segs h := h.segs
  setSize _ _ h := ⟨h.hdrs, rfl, h.segs, h.off_le, h.off, h.outcome, h.copies⟩
  setSegs _ h _ := ⟨h.hdrs, h.size, rfl, h.off_le, h.off, h.outcome, h.copies⟩
  csumErr h := by
    exact ⟨h.hdrs, h.size, h.segs, h.off_le, h.off, h.outcome, h.copies⟩
  ok_setSize _ _ := trivial
  ok_setSegs _ _ := trivial
  ok_csumErr _ := trivial
  ok_emit _ _ _ := trivial
  emit := by
    rintro ⟨st, copies⟩ w i c h -
    have halloc : st.port.alloc = w.outcome := h.outcome
    have hsize : st.coalMeta.dataLen = w.size := h.size
    have hsegs : st.coalMeta.pktCount = w.segs := h.segs
    have hle : st.coalMeta.dataOffset ≤ w.off := h.off_le
    have heq : w.off < 65536 → st.coalMeta.dataOffset = w.off := h.off
    have hhdrs : st.coalMeta.hlen = hlen := h.hdrs
    show MapWalk hlen (rmnetMapSegmentOne dev i c st, copies ++ mapCopies st)
      (if w.outcome 0 then _ else { w with outcome := fun n => w.outcome (n + 1) })
    unfold rmnetMapSegmentOne mapCopies RmnetPort.kalloc
    rw [← halloc]
    cases st.port.alloc 0 with
    | false =>
      refine ⟨hhdrs, hsize, hsegs, hle, heq, rfl, ?_⟩
      simp only [Bool.false_eq_true, if_false, List.append_nil]
      exact h.copies
    | true =>
      simp only [if_true, hsize, hsegs, show st.coalMeta.ipLen + st.coalMeta.transLen = hlen from hhdrs]
      have hu : u16 (st.coalMeta.dataOffset + w.size * w.segs) ≤ st.coalMeta.dataOffset + w.size * w.segs :=
        Nat.mod_le _ _
      refine ⟨hhdrs, rfl, rfl, ?_, ?_, rfl, ?_⟩
      · exact Nat.le_trans hu (Nat.add_le_add_right hle _)
      · intro hlt
        have hlt' : w.off + w.size * w.segs < 65536 := hlt
        show u16 (st.coalMeta.dataOffset + w.size * w.segs) = w.off + w.size * w.segs
        rw [heq (by omega), u16_of_lt hlt']
      · refine List.rel_append h.copies (.cons ⟨rfl, Nat.add_le_add_left hle _, ?_⟩ .nil)
        intro hlt
        exact congrArg (hlen + ·) (heq hlt)

/-- Every buffer carries what one of the copies read. -/
structure MapCopied (ip : Bytes) (m : CoalMetadata) (s : MapSegState × List (ℕ × ℕ)) : Prop where
  coalSkb : s.1.coalSkb = linearSkb ip
  ipLen : s.1.coalMeta.ipLen = m.ipLen
  transLen : s.1.coalMeta.transLen = m.transLen
  transProto : s.1.coalMeta.transProto = m.transProto
  list : ∀ skb ∈ s.1.list, ∃ off n, (m.hlen + off, n) ∈ s.2 ∧
    skb.Carries m.hlen (memBytes (rmnetMapDataPtr (linearSkb ip)) (m.hlen + off) n)

theorem mapCopied (dev : NetDevice) {ip : Bytes} {m : CoalMetadata} (hT : transFixed m.transProto ≤ m.transLen) :
    ((mapSegOps dev).logged mapCopies).Keeps (MapCopied ip m) where
  setSize _ h := ⟨h.coalSkb, h.ipLen, h.transLen, h.transProto, h.list⟩
  setSegs _ h := ⟨h.coalSkb, h.ipLen, h.transLen, h.transProto, h.list⟩
  csumErr h := ⟨h.coalSkb, h.ipLen, h.transLen, h.transProto, h.list⟩
  emit := by
    rintro ⟨st, copies⟩ i c h
    have hskb : st.coalSkb = linearSkb ip := h.coalSkb
    have hip : st.coalMeta.ipLen = m.ipLen := h.ipLen
    have htrans : st.coalMeta.transLen = m.transLen := h.transLen
    have hproto : st.coalMeta.transProto = m.transProto := h.transProto
    have hhlen : st.coalMeta.hlen = m.hlen := congrArg₂ (· + ·) hip htrans
    show MapCopied ip m (rmnetMapSegmentOne dev i c st, copies ++ mapCopies st)
    unfold rmnetMapSegmentOne mapCopies RmnetPort.kalloc
    cases st.port.alloc 0 with
    | false =>
      refine ⟨hskb, hip, htrans, hproto, ?_⟩
      simp only [Bool.false_eq_true, if_false, List.append_nil]
      exact h.list
    | true =>
      refine ⟨hskb, hip, htrans, hproto, ?_⟩
      intro skb hmem
      rcases List.mem_append.mp hmem with hold | hnew
      · obtain ⟨off, n, hin, hc⟩ := h.list skb hold
        exact ⟨off, n, List.mem_append_left _ hin, hc⟩
      · rw [List.mem_singleton.mp hnew]
        have hc := segmentSkb_carries ip (m := st.coalMeta) (by rw [hproto, htrans]; exact hT) c
        rw [hhlen] at hc
        refine ⟨st.coalMeta.dataOffset, st.coalMeta.dataLen * st.coalMeta.pktCount, ?_, ?_⟩
        · refine List.mem_append_right _ (List.mem_singleton.mpr (Prod.ext ?_ rfl))
          exact congrArg (· + _) hhlen.symm
        · rw [hskb]
          exact hc

/-- **The loop stays inside** exactly when what the walk claims fits behind the headers. -/
theorem mapLoop_inside (dev : NetDevice) {ip : Bytes} {m : CoalMetadata} (hm : m.Held ip) (hf : m.Fresh)
    (gro : Bool) (pairs : List NlPair) (mask : ℕ) (port : RmnetPort) :
    let w := segNlos walkOps gro m.hlen pairs 0 mask { outcome := port.alloc }
    let s := segNlos ((mapSegOps dev).logged mapCopies) gro m.hlen pairs 0 mask (⟨port, linearSkb ip, m, []⟩, [])
    (m.hlen + w.off ≤ ip.length → StaysInside ip s.2 s.1) ∧
      (ip.length < 65536 → StaysInside ip s.2 s.1 → m.hlen + w.off ≤ ip.length) := by
  intro w s
  have hsim : MapWalk m.hlen s w := (mapWalk dev m.hlen).run pairs
    ⟨rfl, hf.dataLen, hf.pktCount, by show m.dataOffset ≤ 0; rw [hf.dataOffset], fun _ => hf.dataOffset, rfl, .nil⟩
    trivial
  have htiles : w.Tiles := walk_tiles.run pairs ⟨(by intro r hr; cases hr), (by intro k hk; cases hk)⟩
  have hcopied : MapCopied ip m s := (mapCopied dev hm.transport).run pairs
    ⟨rfl, rfl, rfl, rfl, (by intro skb hskb; cases hskb)⟩
  have hhlen : s.1.coalMeta.hlen = m.hlen := hsim.hdrs
  have hin := hm.inside
  constructor
  · intro hfit
    have hread : ∀ r ∈ s.2, r.1 + r.2 ≤ ip.length := by
      intro r hr
      obtain ⟨k, hk, hget⟩ := List.getElem_of_mem hr
      have hkw : k < w.ranges.length := hsim.copies.length_eq ▸ hk
      obtain ⟨hlen, hle, -⟩ := hsim.copies.get hk hkw
      have hbelow := htiles.below _ (List.getElem_mem hkw)
      simp only [List.get_eq_getElem, hget] at hlen hle
      omega
    refine ⟨fun r hr i hi => by have := hread r hr; omega, ?_⟩
    intro skb hskb
    obtain ⟨off, n, hmem, hc⟩ := hcopied.list skb hskb
    have hle := hread _ hmem
    refine ⟨off, n, by rw [hhlen]; exact hle, ?_⟩
    rw [hhlen, hc.drop]
    exact memBytes_linear hle
  · intro hlt hstays
    by_contra hover
    -- the walk claims the first byte that is not in the packet
    obtain ⟨x, hx, hfirst, hlast⟩ := htiles.cover (ip.length - m.hlen) (by omega)
    obtain ⟨k, hkw, hget⟩ := List.getElem_of_mem hx
    have hk : k < s.2.length := hsim.copies.length_eq.symm ▸ hkw
    obtain ⟨hlen, -, heq⟩ := hsim.copies.get hk hkw
    simp only [List.get_eq_getElem, hget] at hlen heq
    have hstart := heq (by omega)
    have hread := hstays.copies _ (List.getElem_mem hk) (ip.length - m.hlen - x.1) (by omega)
    omega

/-! ### The whole function -/

section

variable {skipExthdr : Bytes → ℕ → ℕ → SkipExthdr}

/-- The IP header is measured, whatever the port, or the frame is dropped. -/
theorem mapIpHeader_cases (skipExthdr : Bytes → ℕ → ℕ → SkipExthdr) (dev : NetDevice) (skb : SkBuff) (gro : Bool) :
    (∃ m gro', m.Fresh ∧ ∀ port, mapIpHeader skipExthdr port dev skb gro = (port, some (m, gro'))) ∨
      ∀ port, ∃ p, mapIpHeader skipExthdr port dev skb gro = (p, none) := by
  unfold mapIpHeader
  simp only
  split
  · exact .inl ⟨_, _, ⟨rfl, rfl, rfl⟩, fun _ => rfl⟩
  · split
    · split
      · exact .inr fun _ => ⟨_, rfl⟩
      · exact .inl ⟨_, _, ⟨rfl, rfl, rfl⟩, fun _ => rfl⟩
    · exact .inr fun _ => ⟨_, rfl⟩

theorem CoalMetadata.Fresh.withTrans {m : CoalMetadata} (hm : m.Fresh) (transLen : ℕ)
    (transHeader : ℕ → UInt8) :
    CoalMetadata.Fresh { m with transLen := transLen, transHeader := transHeader } :=
  ⟨hm.dataOffset, hm.dataLen, hm.pktCount⟩

/-- So is the transport header. -/
theorem mapTransHeader_cases (dev : NetDevice) {m : CoalMetadata} (hm : m.Fresh) :
    (∃ m' zeroCsum, m'.Fresh ∧ ∀ port, mapTransHeader port dev m = (port, some (m', zeroCsum))) ∨
      ∀ port, ∃ p, mapTransHeader port dev m = (p, none) := by
  unfold mapTransHeader
  simp only
  split
  · exact .inl ⟨_, _, hm.withTrans _ _, fun _ => rfl⟩
  · split
    · exact .inl ⟨_, _, hm.withTrans _ _, fun _ => rfl⟩
    · exact .inr fun _ => ⟨_, rfl⟩

/-- The whole function on a frame: the frame is dropped, or its measured headers decide what is done. -/
theorem mapSegment_cases (skipExthdr : Bytes → ℕ → ℕ → SkipExthdr) (dev : NetDevice) {hd : Bytes}
    (hhd : hd.length = mapHeaderSize + v5CoalHeaderSize) (ip : Bytes) (mask : ℕ) :
    (∀ port, mapMeasure skipExthdr port dev (linearSkb ip) = none ∧
      rmnetMapSegmentCopies skipExthdr port dev (linearSkb (hd ++ ip)) mask = [] ∧
      (rmnetMapSegmentCoalSkb skipExthdr port dev (linearSkb (hd ++ ip)) mask []).list = []) ∨
    ∃ m gro zeroCsum, m.Fresh ∧
      ∀ port, mapMeasure skipExthdr port dev (linearSkb ip) = some (m, gro, zeroCsum) ∧
        rmnetMapSegmentCoalSkb skipExthdr port dev (linearSkb (hd ++ ip)) mask []
          = mapSegmentMeasured skipExthdr port dev (linearSkb ip) (coalHeaderOf hd) mask m gro zeroCsum [] := by
  obtain ⟨hhdr, hpull⟩ := pskbPull_frame hhd ip
  have hcopies : ∀ port, mapMeasure skipExthdr port dev (linearSkb ip) = none →
      rmnetMapSegmentCopies skipExthdr port dev (linearSkb (hd ++ ip)) mask = [] := by
    intro port hnone
    unfold rmnetMapSegmentCopies
    simp only [hpull, hnone]
  rcases mapIpHeader_cases skipExthdr dev (linearSkb ip) dev.groHw with
    ⟨m₀, gro, hfresh₀, hip⟩ | hip
  · rcases mapTransHeader_cases dev hfresh₀ with ⟨m, zeroCsum, hfresh, htrans⟩ | htrans
    · refine .inr ⟨m, gro, zeroCsum, hfresh, fun port => ⟨?_, ?_⟩⟩
      · unfold mapMeasure
        simp only [hip, htrans]
        rfl
      · unfold rmnetMapSegmentCoalSkb
        simp only [hpull, hhdr, hip, htrans]
        rfl
    · refine .inl fun port => ?_
      obtain ⟨p, hp⟩ := htrans port
      have hnone : mapMeasure skipExthdr port dev (linearSkb ip) = none := by
        unfold mapMeasure
        simp only [hip, hp]
        rfl
      refine ⟨hnone, hcopies port hnone, ?_⟩
      unfold rmnetMapSegmentCoalSkb
      simp only [hpull, hip, hp]
  · refine .inl fun port => ?_
    obtain ⟨p, hp⟩ := hip port
    have hnone : mapMeasure skipExthdr port dev (linearSkb ip) = none := by
      unfold mapMeasure
      simp only [hp]
    refine ⟨hnone, hcopies port hnone, ?_⟩
    unfold rmnetMapSegmentCoalSkb
    simp only [hpull, hp]

/-- A buffer that is passed on keeps its payload. -/
theorem mapPassedOn_inside (port : RmnetPort) (dev : NetDevice) {ip : Bytes} (coalHdr : V5CoalHeader) (mask : ℕ)
    {m : CoalMetadata} (hm : m.Held ip) {gro zeroCsum : Bool} (hp : passedOn coalHdr gro zeroCsum = true) :
    StaysInside ip []
      (mapSegmentMeasured skipExthdr port dev (linearSkb ip) coalHdr mask m gro zeroCsum []) := by
  have hcheck := check_inside hm.transport
  have hskb : ∀ {skb : SkBuff} {m' : CoalMetadata}, m'.hlen = m.hlen → skb.Carries m.hlen (ip.drop m.hlen) →
      StaysInside ip [] ⟨port, skb, m', [] ++ [skb]⟩ := by
    intro skb m' hlen hc
    refine ⟨(by intro r hr; cases hr), ?_⟩
    intro skb' hmem
    rw [List.mem_singleton.mp hmem]
    have hin := hm.inside
    refine ⟨0, ip.length - m.hlen, by show m'.hlen + 0 + _ ≤ _; omega, ?_⟩
    rw [hlen, hc.drop, Nat.add_zero, List.take_of_length_le (by rw [List.length_drop])]
  have hself : ∀ ipSummed, ({ linearSkb ip with ipSummed := ipSummed } : SkBuff).Carries m.hlen (ip.drop m.hlen) :=
    fun _ => ⟨⟨ip.take m.hlen, List.length_take_of_le hm.inside, (List.take_append_drop _ _).symm⟩, rfl, rfl⟩
  have hmove : rmnetMapMoveHeaders skipExthdr (linearSkb ip) = linearSkb ip := by
    unfold rmnetMapMoveHeaders
    rw [linearSkb_nonlinear]
    rfl
  unfold mapSegmentMeasured
  simp only [hmove]
  by_cases hbuggy : (rmnetMapV5CsumBuggy coalHdr && !zeroCsum) = true
  · rw [if_pos hbuggy]
    refine hskb rfl ?_
    split
    · exact hself _
    · exact hself .checksumNone
  · rw [passedOn, Bool.eq_false_iff.mpr hbuggy, Bool.false_or] at hp
    rw [if_neg hbuggy, if_pos hp]
    refine hskb rfl ?_
    split
    · refine SkBuff.Carries.gsoStamp ?_
      exact (hself .checksumUnnecessary).partialCsum (m := { m with dataLen := _, pktCount := _ }) hcheck
    · exact hself _

/-- The linear segmentation of a frame stays inside its packet. -/
def MapInside (skipExthdr : Bytes → ℕ → ℕ → SkipExthdr) (port : RmnetPort) (dev : NetDevice) (hd ip : Bytes)
    (mask : ℕ) : Prop :=
  StaysInside ip (rmnetMapSegmentCopies skipExthdr port dev (linearSkb (hd ++ ip)) mask)
    (rmnetMapSegmentCoalSkb skipExthdr port dev (linearSkb (hd ++ ip)) mask [])

/-- What is done with a frame, by its measured headers: it is passed on as it is, or what can be claimed fits
behind the headers.  A frame that is dropped has room for anything. -/
def MapRoom (skipExthdr : Bytes → ℕ → ℕ → SkipExthdr) (dev : NetDevice) (hd ip : Bytes)
    (claim : Bool → ℕ → ℕ) : Prop :=
  ∀ port m gro zeroCsum, mapMeasure skipExthdr port dev (linearSkb ip) = some (m, gro, zeroCsum) →
    passedOn (coalHeaderOf hd) gro zeroCsum = true ∨ m.hlen + claim gro m.hlen ≤ ip.length

/-- The whole function, for the allocation outcomes of one port: what the walk claims decides. -/
theorem mapInside_walk (dev : NetDevice) {hd : Bytes} (hhd : hd.length = mapHeaderSize + v5CoalHeaderSize)
    (ip : Bytes) (mask : ℕ)
    (hheld : ∀ port m gro zeroCsum, mapMeasure skipExthdr port dev (linearSkb ip) = some (m, gro, zeroCsum) →
      m.Held ip) (port : RmnetPort) :
    let claim := fun gro hlen => (segNlos walkOps gro hlen (framePairs hd) 0 mask { outcome := port.alloc }).off
    (MapRoom skipExthdr dev hd ip claim → MapInside skipExthdr port dev hd ip mask) ∧
      (ip.length < 65536 → MapInside skipExthdr port dev hd ip mask → MapRoom skipExthdr dev hd ip claim) := by
  intro claim
  obtain ⟨hhdr, hpull⟩ := pskbPull_frame hhd ip
  rcases mapSegment_cases skipExthdr dev hhd ip mask with hdrop | ⟨m, gro, zeroCsum, hfresh, hrun⟩
  · have hroom : MapRoom skipExthdr dev hd ip claim := by
      intro p m gro zeroCsum h
      rw [(hdrop p).1] at h
      cases h
    refine ⟨fun _ => ?_, fun _ _ => hroom⟩
    obtain ⟨-, hcopies, hlist⟩ := hdrop port
    refine ⟨?_, ?_⟩
    · rw [hcopies]
      intro r hr
      cases hr
    · rw [hlist]
      intro skb hskb
      cases hskb
  · obtain ⟨hmeasure, hseg⟩ := hrun port
    have hm := hheld port m gro zeroCsum hmeasure
    have hroom : MapRoom skipExthdr dev hd ip claim ↔
        (passedOn (coalHeaderOf hd) gro zeroCsum = true ∨ m.hlen + claim gro m.hlen ≤ ip.length) := by
      refine ⟨fun h => h port m gro zeroCsum hmeasure, fun h p m' gro' zeroCsum' h' => ?_⟩
      rw [(hrun p).1] at h'
      cases h'
      exact h
    have hcopies : rmnetMapSegmentCopies skipExthdr port dev (linearSkb (hd ++ ip)) mask
        = if passedOn (coalHeaderOf hd) gro zeroCsum then []
          else (segNlos ((mapSegOps dev).logged mapCopies) gro m.hlen (framePairs hd) 0 mask
            (⟨port, linearSkb ip, m, []⟩, [])).2 := by
      unfold rmnetMapSegmentCopies
      simp only [hpull, hhdr, hmeasure]
      rfl
    rw [hroom, MapInside, hcopies, hseg]
    by_cases hp : passedOn (coalHeaderOf hd) gro zeroCsum = true
    · rw [if_pos hp]
      exact ⟨fun _ => mapPassedOn_inside port dev _ mask hm hp, fun _ _ => .inl hp⟩
    · rw [if_neg hp]
      have hloop : mapSegmentMeasured skipExthdr port dev (linearSkb ip) (coalHeaderOf hd) mask m gro zeroCsum []
          = (segNlos ((mapSegOps dev).logged mapCopies) gro m.hlen (framePairs hd) 0 mask
            (⟨port, linearSkb ip, m, []⟩, [])).1 := by
        rw [segNlos_logged]
        rw [passedOn, Bool.or_eq_true, not_or] at hp
        unfold mapSegmentMeasured
        simp only [if_neg hp.1, if_neg hp.2]
        rfl
      obtain ⟨hin, hout⟩ := mapLoop_inside dev hm hfresh gro (framePairs hd) mask port
      rw [hloop]
      exact ⟨fun h => hin (h.resolve_left hp), fun hlt h => .inr (hout hlt h)⟩

theorem MapRoom.mono {dev : NetDevice} {hd ip : Bytes} {claim claim' : Bool → ℕ → ℕ}
    (h : MapRoom skipExthdr dev hd ip claim) (hle : ∀ gro hlen, claim' gro hlen ≤ claim gro hlen) :
    MapRoom skipExthdr dev hd ip claim' := by
  intro port m gro zeroCsum hm
  refine (h port m gro zeroCsum hm).imp_right fun hfit => ?_
  have := hle gro m.hlen
  omega

/-- **When the linear segmentation stays inside.**  Let a linear buffer hold complete headers.  If what its table
can claim fits behind them, or the buffer is passed on as it is, then all copies read bytes of the packet and
all payloads are ranges of its payload, whatever allocations fail.  In a packet of at most 65535 bytes this is
also needed, and when no allocation fails the bytes of the packets in the table decide.  The error mask may be
any, so it may be that of the header check. -/
theorem copies_inside_iff (skipExthdr : Bytes → ℕ → ℕ → SkipExthdr) (dev : NetDevice) {hd : Bytes}
    (hhd : hd.length = mapHeaderSize + v5CoalHeaderSize) (ip : Bytes) (mask : ℕ)
    (hheld : ∀ port m gro zeroCsum, mapMeasure skipExthdr port dev (linearSkb ip) = some (m, gro, zeroCsum) →
      m.Held ip) :
    (MapRoom skipExthdr dev hd ip (fun gro hlen => reach gro hlen (framePairs hd) mask 0) →
        ∀ port, MapInside skipExthdr port dev hd ip mask) ∧
      (ip.length < 65536 →
        ((∀ port, MapInside skipExthdr port dev hd ip mask) ↔
          MapRoom skipExthdr dev hd ip fun gro hlen => reach gro hlen (framePairs hd) mask 0) ∧
        ∀ port : RmnetPort, port.AllocOk →
          (MapInside skipExthdr port dev hd ip mask ↔
            MapRoom skipExthdr dev hd ip fun _ hlen => pairBytes hlen (framePairs hd))) := by
  have hroom : MapRoom skipExthdr dev hd ip (fun gro hlen => reach gro hlen (framePairs hd) mask 0) →
      ∀ port, MapInside skipExthdr port dev hd ip mask := by
    intro h port
    refine (mapInside_walk dev hhd ip mask hheld port).1 (h.mono fun gro hlen => ?_)
    have hle := (walk_worst gro hlen (framePairs hd) 0 mask).le { outcome := port.alloc }
    rwa [Nat.zero_add] at hle
  refine ⟨hroom, fun hlt => ⟨⟨fun hin => ?_, hroom⟩, fun port halloc => ?_⟩⟩
  · -- some allocation outcomes make the loop claim the most
    intro port m gro zeroCsum hm
    obtain ⟨f, hf⟩ := (walk_worst gro m.hlen (framePairs hd) 0 mask).attained { outcome := port.alloc }
    rw [Nat.zero_add] at hf
    have hfit := (mapInside_walk dev hhd ip mask hheld { port with alloc := f }).2 hlt (hin _) port m gro zeroCsum hm
    refine hfit.imp_right fun hle => ?_
    exact Nat.le_trans (Nat.add_le_add_left hf.ge _) hle
  · have hclaim : ∀ gro hlen, (segNlos walkOps gro hlen (framePairs hd) 0 mask { outcome := port.alloc }).off
        = pairBytes hlen (framePairs hd) := by
      intro gro hlen
      have hlt : ∀ p ∈ framePairs hd, p.numPackets < 256 :=
        fun p hp => coalHeaderOf_numPackets hd p (List.mem_of_mem_take hp)
      rw [walk_success (w := { outcome := port.alloc }) (framePairs hd) hlt halloc rfl, Nat.zero_add]
    obtain ⟨hin, hout⟩ := mapInside_walk dev hhd ip mask hheld port
    exact ⟨fun h => (hout hlt h).mono fun gro hlen => (hclaim gro hlen).ge,
      fun h => hin (h.mono fun gro hlen => (hclaim gro hlen).le)⟩

end

/-- The headers of a frame with one packet that should have 200 bytes. -/
def overHd : Bytes := [0x40, 1, 0, 60, 0x02, 0x10, 0, 0, 0, 200, 0, 1] ++ List.replicate 20 0

theorem udpIp_measure (port : RmnetPort) (m : CoalMetadata) (gro zeroCsum : Bool)
    (h : mapMeasure sameWalk port groDevice (linearSkb udpIp) = some (m, gro, zeroCsum)) :
    4 = m.ipProto ∧ 20 = m.ipLen ∧ 17 = m.transProto ∧ 8 = m.transLen := by
  have hnum := congrArg (Option.map fun r => (r.1.ipProto, r.1.ipLen, r.1.transProto, r.1.transLen)) h
  have heval : (mapMeasure sameWalk port groDevice (linearSkb udpIp)).map
      (fun r => (r.1.ipProto, r.1.ipLen, r.1.transProto, r.1.transLen)) = some (4, 20, 17, 8) := rfl
  rw [heval, Option.map_some, Option.some.injEq, Prod.mk.injEq, Prod.mk.injEq, Prod.mk.injEq] at hnum
  exact hnum

theorem udpIp_held (port : RmnetPort) (m : CoalMetadata) (gro zeroCsum : Bool)
    (h : mapMeasure sameWalk port groDevice (linearSkb udpIp) = some (m, gro, zeroCsum)) : m.Held udpIp := by
  obtain ⟨hproto, hip, htrans, hlen⟩ := udpIp_measure port m gro zeroCsum h
  refine ⟨?_, ?_, ?_⟩
  · rw [← hproto, ← hip]
    decide
  · rw [← htrans, ← hlen]
    decide
  · rw [CoalMetadata.hlen, ← hip, ← hlen]
    decide

/-- A frame whose table is exact, with every other allocation failing. -/
theorem copies_inside_udp :
    MapInside sameWalk (rmnetDescriptorInit 48 (fun _ => none) fun n => n % 2 == 1) groDevice udpHd udpIp 2 := by
  refine (copies_inside_iff sameWalk groDevice (by decide) udpIp 2 udpIp_held).1 ?_ _
  intro port m gro zeroCsum h
  obtain ⟨-, hip, -, hlen⟩ := udpIp_measure port m gro zeroCsum h
  have hreach : ∀ gro, 28 + reach gro 28 (framePairs udpHd) 2 0 ≤ udpIp.length := by decide
  rw [show m.hlen = 28 from by rw [CoalMetadata.hlen, ← hip, ← hlen]]
  exact .inr (hreach gro)

/-- The header check accepts a packet of 200 bytes in a frame of 32, and 172 bytes are read from byte 28 on. -/
theorem copies_over_read :
    (rmnetMapDataCheckCoalHeader (rmnetDescriptorInit 48 (fun _ => none) fun _ => true) groDevice
        (linearSkb (overHd ++ udpIp))).2 = some 0 ∧
      (∃ m gro zeroCsum, mapMeasure sameWalk (rmnetDescriptorInit 48 (fun _ => none) fun _ => true) groDevice
        (linearSkb udpIp) = some (m, gro, zeroCsum) ∧ m.Held udpIp) ∧
      ¬ MapInside sameWalk (rmnetDescriptorInit 48 (fun _ => none) fun _ => true) groDevice overHd udpIp 0 := by
  refine ⟨by decide +kernel, ?_, fun h => ?_⟩
  · obtain ⟨⟨m, gro, zeroCsum⟩, hm⟩ := Option.isSome_iff_exists.mp (show (mapMeasure sameWalk
      (rmnetDescriptorInit 48 (fun _ => none) fun _ => true) groDevice (linearSkb udpIp)).isSome by decide +kernel)
    exact ⟨m, gro, zeroCsum, hm, udpIp_held _ m gro zeroCsum hm⟩
  have hcopy : (28, 172) ∈ rmnetMapSegmentCopies sameWalk (rmnetDescriptorInit 48 (fun _ => none) fun _ => true)
      groDevice (linearSkb (overHd ++ udpIp)) 0 := by
    decide +kernel
  have hread := h.copies _ hcopy 4 (by decide)
  revert hread
  decide

end Rmnet
