import Rmnet.Frag.Pool
import Rmnet.Frag.SegmentLoop

/-!
# Segmentation on inconsistent headers

The NL pairs of a coalescing header may claim anything: packets shorter than their headers, whose payload size
wraps, or more data than there is.  Allocations may fail as well.  What is left behind by a call that fails goes
into the next one, so nothing can be said about which packets come out; what can be said is that they tile the
payload.

`segmentData_cases` is the inversion of `__rmnet_frag_segment_data`: nothing but the port changes, or one new
descriptor takes the next range of the payload.  The check in `rmnet_frag_descriptor_add_frags_from` is what
keeps the range inside, whatever the size and the count are.
-/

namespace Rmnet

open Word Field

/-! ### Ranges of the payload -/

/-- A new descriptor with the headers of `coal` and `n` bytes of its payload, from `off` on. -/
structure RmnetFragDescriptor.Segment (coal : RmnetFragDescriptor) (off n : ℕ) (d : RmnetFragDescriptor) :
    Prop where
  inside : coal.ipLen + coal.transLen + off + n ≤ coal.len
  bytes : d.bytes = coal.bytes.take (coal.ipLen + coal.transLen) ++
    (coal.bytes.drop (coal.ipLen + coal.transLen + off)).take n
  seq : coal.transProto = ipprotoTcp →
    d.tcpSeqSet = true ∧ d.tcpSeq = u32 (be32At coal.bytes (coal.ipLen + 4) + off)

/-- The descriptors take the payload range by range, up to an offset. -/
inductive Tiled (coal : RmnetFragDescriptor) : List RmnetFragDescriptor → ℕ → Prop
  | nil : Tiled coal [] 0
  | snoc {descs : List RmnetFragDescriptor} {off n : ℕ} {d : RmnetFragDescriptor} :
      Tiled coal descs off → coal.Segment off n d → Tiled coal (descs ++ [d]) (off + n)

/-- The payloads in a row are the payload of the frame up to the offset: no byte twice, none left out. -/
theorem Tiled.payload {coal : RmnetFragDescriptor} (hs : coal.Sized) {descs : List RmnetFragDescriptor} {off : ℕ}
    (h : Tiled coal descs off) :
    (descs.map fun d => d.bytes.drop (coal.ipLen + coal.transLen)).flatten
      = (coal.bytes.drop (coal.ipLen + coal.transLen)).take off := by
  induction h with
  | nil => rw [List.take_zero]; rfl
  | @snoc descs off n d _ hseg ih =>
    have hin := hseg.inside
    have hhead : (coal.bytes.take (coal.ipLen + coal.transLen)).length = coal.ipLen + coal.transLen := by
      rw [List.length_take, hs.length_bytes]
      omega
    rw [List.map_append, List.flatten_append, ih, List.map_singleton, List.flatten_singleton, hseg.bytes,
      List.drop_left' hhead, List.take_add, List.drop_drop]

/-- The ranges stay inside the frame. -/
theorem Tiled.off_le {coal : RmnetFragDescriptor} {descs : List RmnetFragDescriptor} {off : ℕ}
    (h : Tiled coal descs off) : off ≤ coal.len := by
  cases h with
  | nil => exact Nat.zero_le _
  | snoc _ hseg =>
    have hin := hseg.inside
    omega

/-! ### One new descriptor -/

/-- The sequence number is the base and the offset of the range. -/
theorem segmentMeta_seq {coal d d' : RmnetFragDescriptor} (hs : coal.Sized) {offset dlen : ℕ} {c c' : Bool}
    (h : segmentMeta coal d offset dlen c = some (d', c')) :
    d'.frags = d.frags ∧ (coal.transProto = ipprotoTcp →
      d'.tcpSeqSet = true ∧ d'.tcpSeq = u32 (be32At coal.bytes (coal.ipLen + 4) + coal.dataOffset)) := by
  unfold segmentMeta at h
  split at h
  · obtain ⟨th, hread, hth⟩ := Option.map_eq_some_iff.mp h
    rw [rmnetFragHeaderPtr_eq hs] at hread
    obtain ⟨hle, rfl⟩ := readBytes_eq_some hread
    rw [be32At_slice (show 4 + 3 < 20 by omega)] at hth
    split at hth
    · obtain ⟨rfl, -⟩ := Prod.mk.inj hth
      exact ⟨rfl, fun _ => ⟨rfl, rfl⟩⟩
    · obtain ⟨rfl, -⟩ := Prod.mk.inj hth
      exact ⟨rfl, fun _ => ⟨rfl, rfl⟩⟩
  · rename_i htcp
    refine ⟨?_, fun ht => absurd ht htcp⟩
    split at h
    · obtain ⟨uh, -, huh⟩ := Option.map_eq_some_iff.mp h
      obtain ⟨rfl, -⟩ := Prod.mk.inj huh
      rfl
    · obtain ⟨rfl, -⟩ := Prod.mk.inj (Option.some.inj h)
      rfl

theorem segmentIpId_seq {coal d d' : RmnetFragDescriptor} (h : segmentIpId coal d = some d') :
    d'.frags = d.frags ∧ d'.tcpSeqSet = d.tcpSeqSet ∧ d'.tcpSeq = d.tcpSeq := by
  unfold segmentIpId at h
  split at h
  · obtain ⟨iph, -, rfl⟩ := Option.map_eq_some_iff.mp h
    exact ⟨rfl, rfl, rfl⟩
  · cases h
    exact ⟨rfl, rfl, rfl⟩

/-- **Inversion of `__rmnet_frag_segment_data`.**  Only the port changes, or a new descriptor takes the next range
of the payload and the coalesced descriptor moves behind it. -/
theorem segmentData_cases (i : ℕ) (c : Bool) {s : SegState} (hs : s.coalDesc.Sized) :
    (∃ port, rmnetFragSegmentData i c s = { s with port := port }) ∨
    ∃ port d, s.coalDesc.Segment s.coalDesc.dataOffset (u32 (s.coalDesc.gsoSize * s.coalDesc.gsoSegs)) d ∧
      rmnetFragSegmentData i c s =
        { port := port
          coalDesc := { s.coalDesc with
            dataOffset := u16 (s.coalDesc.dataOffset + u32 (s.coalDesc.gsoSize * s.coalDesc.gsoSegs))
            pktId := u8 (i + 1)
            gsoSegs := 0 }
          list := s.list ++ [d] } := by
  unfold rmnetFragSegmentData
  cases hget : rmnetGetFragDescriptor s.port with
  | mk port₁ r =>
    cases r with
    | none => exact .inl ⟨_, rfl⟩
    | some new =>
      simp only
      generalize hdlen : u32 (s.coalDesc.gsoSize * s.coalDesc.gsoSegs) = dlen
      have hfrags₂ := addFragsFrom_frags port₁ { s.coalDesc with addr := new.addr, frags := [], len := 0 }
        s.coalDesc 0 (s.coalDesc.ipLen + s.coalDesc.transLen)
      cases hr₂ : rmnetFragDescriptorAddFragsFrom port₁
          { s.coalDesc with addr := new.addr, frags := [], len := 0 } s.coalDesc 0
          (s.coalDesc.ipLen + s.coalDesc.transLen) with
      | mk port₂ r₂ =>
        obtain ⟨d₂, ok₂⟩ := r₂
        rw [hr₂] at hfrags₂
        cases ok₂ with
        | false => exact .inl ⟨_, rfl⟩
        | true =>
          simp only
          have hfrags₃ := addFragsFrom_frags port₂ d₂ s.coalDesc
            (s.coalDesc.ipLen + s.coalDesc.transLen + s.coalDesc.dataOffset) dlen
          have hin := (addFragsFrom_any port₂ d₂ s.coalDesc
            (s.coalDesc.ipLen + s.coalDesc.transLen + s.coalDesc.dataOffset) dlen).2.2
          cases hr₃ : rmnetFragDescriptorAddFragsFrom port₂ d₂ s.coalDesc
              (s.coalDesc.ipLen + s.coalDesc.transLen + s.coalDesc.dataOffset) dlen with
          | mk port₃ r₃ =>
            obtain ⟨d₃, ok₃⟩ := r₃
            rw [hr₃] at hfrags₃ hin
            cases ok₃ with
            | false => exact .inl ⟨_, rfl⟩
            | true =>
              simp only
              cases hmeta : segmentMeta s.coalDesc d₃
                  (s.coalDesc.ipLen + s.coalDesc.transLen + s.coalDesc.dataOffset) dlen c with
              | none => exact .inl ⟨_, rfl⟩
              | some r₄ =>
                obtain ⟨d₄, c'⟩ := r₄
                obtain ⟨hfrags₄, hseq₄⟩ := segmentMeta_seq hs hmeta
                simp only
                cases hid : segmentIpId s.coalDesc d₄ with
                | none => exact .inl ⟨_, rfl⟩
                | some d₅ =>
                  obtain ⟨hfrags₅, hset₅, hseq₅⟩ := segmentIpId_seq hid
                  refine .inr ⟨_, _, ⟨(hin rfl hs).1, ?_, ?_⟩, rfl⟩
                  · show fragsBytes d₅.frags = _
                    rw [hfrags₅, hfrags₄, hfrags₃ rfl, hfrags₂ rfl, List.nil_append, fragsBytes_append,
                      fragsBytes_sliceFrags, fragsBytes_sliceFrags, List.drop_zero]
                    rfl
                  · intro htcp
                    show d₅.tcpSeqSet = true ∧ d₅.tcpSeq = _
                    rw [hset₅, hseq₅]
                    exact hseq₄ htcp

/-! ### The loop -/

/-- The loop leaves the frame alone but for its GSO fields, and what it has emitted tiles the payload up to the
data offset. -/
structure SafeSegs (coal : RmnetFragDescriptor) (list₀ : List RmnetFragDescriptor) (s : SegState) : Prop where
  coalDesc : ∃ t : PlanState, s.coalDesc = coal.atPlan t
  segs_lt : s.coalDesc.gsoSegs < 65536
  tiled : ∃ descs, s.list = list₀ ++ descs ∧ Tiled coal descs s.coalDesc.dataOffset

theorem atPlan_sized {coal : RmnetFragDescriptor} (h : coal.Sized) (t : PlanState) : (coal.atPlan t).Sized :=
  ⟨h.len_eq, h.len_lt⟩

/-- One emission: the next range, behind which the offset does not wrap. -/
theorem SafeSegs.emit {coal : RmnetFragDescriptor} {list₀ : List RmnetFragDescriptor} (hs : coal.Sized)
    (hlt : coal.len < 65536) {s : SegState} (i : ℕ) (c : Bool) (h : SafeSegs coal list₀ s) :
    SafeSegs coal list₀ (rmnetFragSegmentData i c s) := by
  obtain ⟨⟨t, hcoal⟩, hsegs, descs, hlist, htiled⟩ := h
  have hsized : s.coalDesc.Sized := by
    rw [hcoal]
    exact atPlan_sized hs t
  rcases segmentData_cases i c hsized with ⟨port, heq⟩ | ⟨port, d, hseg, heq⟩
  · rw [heq]
    exact ⟨⟨t, hcoal⟩, hsegs, descs, hlist, htiled⟩
  · rw [heq]
    have hseg' : coal.Segment s.coalDesc.dataOffset (u32 (s.coalDesc.gsoSize * s.coalDesc.gsoSegs)) d := by
      rw [hcoal] at hseg ⊢
      exact ⟨hseg.inside, hseg.bytes, hseg.seq⟩
    have hin := hseg'.inside
    have hnext : s.coalDesc.dataOffset + u32 (s.coalDesc.gsoSize * s.coalDesc.gsoSegs) < 65536 := by omega
    refine ⟨⟨{ t with
        segs := 0
        off := u16 (s.coalDesc.dataOffset + u32 (s.coalDesc.gsoSize * s.coalDesc.gsoSegs))
        pktId := u8 (i + 1) }, ?_⟩, by simp only; omega, descs ++ [d], ?_, ?_⟩
    · rw [hcoal]
      rfl
    · rw [hlist, List.append_assoc]
    · simp only
      rw [u16_of_lt hnext]
      exact htiled.snoc hseg'

theorem SafeSegs.keeps {coal : RmnetFragDescriptor} (list₀ : List RmnetFragDescriptor) (hs : coal.Sized)
    (hlt : coal.len < 65536) : fragSegOps.Keeps (SafeSegs coal list₀) where
  setSize := by
    rintro s n ⟨⟨t, hcoal⟩, hsegs, htiled⟩
    refine ⟨⟨{ t with size := n }, ?_⟩, hsegs, htiled⟩
    show { s.coalDesc with gsoSize := n } = _
    rw [hcoal]
    rfl
  setSegs := by
    rintro s n ⟨⟨t, hcoal⟩, -, htiled⟩
    refine ⟨⟨{ t with segs := u16 n }, ?_⟩, Nat.mod_lt n (by omega), htiled⟩
    show { s.coalDesc with gsoSegs := u16 n } = _
    rw [hcoal]
    rfl
  csumErr h := ⟨h.coalDesc, h.segs_lt, h.tiled⟩
  emit i c h := h.emit hs hlt i c

/-! ### A pair whose packets are shorter than their headers -/

/-- Nothing is appended, and the size is the one of the pair. -/
structure Silent (coal : RmnetFragDescriptor) (size : ℕ) (list : List RmnetFragDescriptor) (s : SegState) :
    Prop where
  coalDesc : ∃ t : PlanState, s.coalDesc = coal.atPlan t
  segs_lt : s.coalDesc.gsoSegs < 65536
  size_eq : s.coalDesc.gsoSize = size
  list_eq : s.list = list

/-- A payload size that has wrapped is too large for the frame, however many packets there are. -/
theorem Silent.keeps {coal : RmnetFragDescriptor} (list : List RmnetFragDescriptor) (hs : coal.Sized)
    (hlt : coal.len < 65536) {pktLen : ℕ} (hshort : pktLen < coal.ipLen + coal.transLen) :
    fragSegOps.KeepsInPair (Silent coal (sub16 pktLen (coal.ipLen + coal.transLen)) list) where
  segs_one s := by
    show u16 1 ≠ 0
    decide
  segs_csumErr _ := rfl
  setSegs := by
    rintro s n ⟨⟨t, hcoal⟩, -, hsize, hlist⟩
    refine ⟨⟨{ t with segs := u16 n }, ?_⟩, Nat.mod_lt n (by omega), hsize, hlist⟩
    show { s.coalDesc with gsoSegs := u16 n } = _
    rw [hcoal]
    rfl
  csumErr h := ⟨h.coalDesc, h.segs_lt, h.size_eq, h.list_eq⟩
  emit := by
    rintro s i c ⟨⟨t, hcoal⟩, hsegs, hsize, hlist⟩ hne
    have hsized : s.coalDesc.Sized := by
      rw [hcoal]
      exact atPlan_sized hs t
    rcases segmentData_cases i c hsized with ⟨port, heq⟩ | ⟨port, d, hseg, heq⟩
    · show Silent coal _ list (rmnetFragSegmentData i c s)
      rw [heq]
      exact ⟨⟨t, hcoal⟩, hsegs, hsize, hlist⟩
    · exfalso
      have hin := hseg.inside
      have hpos : 1 ≤ s.coalDesc.gsoSegs := Nat.one_le_iff_ne_zero.mpr hne
      have hlens : s.coalDesc.ipLen = coal.ipLen ∧ s.coalDesc.transLen = coal.transLen ∧
          s.coalDesc.len = coal.len := by
        rw [hcoal]
        exact ⟨rfl, rfl, rfl⟩
      rw [hlens.1, hlens.2.1, hlens.2.2, hsize] at hin
      have hwrap : sub16 pktLen (coal.ipLen + coal.transLen)
          = pktLen + 65536 - (coal.ipLen + coal.transLen) := by
        unfold sub16 u16
        omega
      have hprod : sub16 pktLen (coal.ipLen + coal.transLen) * s.coalDesc.gsoSegs < 4294967296 := by
        calc sub16 pktLen (coal.ipLen + coal.transLen) * s.coalDesc.gsoSegs
            ≤ 65535 * 65535 := Nat.mul_le_mul (by omega) (by omega)
          _ < 4294967296 := by decide
      rw [u32_of_lt hprod] at hin
      have hge := Nat.le_mul_of_pos_right (sub16 pktLen (coal.ipLen + coal.transLen)) hpos
      omega

/-- **A short pair is silent.** -/
theorem short_pair_silent {coal : RmnetFragDescriptor} (hs : coal.Sized) (hlt : coal.len < 65536)
    {list₀ : List RmnetFragDescriptor} {s : SegState} (h : SafeSegs coal list₀ s) (gro : Bool) {p : NlPair}
    (hshort : p.pktLen < coal.ipLen + coal.transLen) (i mask : ℕ) :
    (segNlos fragSegOps gro (coal.ipLen + coal.transLen) [p] i mask s).list = s.list := by
  have hset := (SafeSegs.keeps list₀ hs hlt).setSize (sub16 p.pktLen (coal.ipLen + coal.transLen)) h
  exact ((Silent.keeps s.list hs hlt hshort).pair p ⟨hset.coalDesc, hset.segs_lt, rfl, rfl⟩).list_eq

/-! ### The whole function -/

/-- The descriptor of a frame once its headers are measured. -/
def RmnetFragDescriptor.measured (desc : RmnetFragDescriptor) (m : CoalMeta) : RmnetFragDescriptor :=
  { desc.pulled (mapHeaderSize + v5CoalHeaderSize) with
    ipProto := m.ipProto, ipLen := m.ipLen, transProto := m.transProto, transLen := m.transLen
    hdrsValid := true }

/-- Nothing can be measured in a frame that ends with its two headers. -/
theorem coalMetaOf_nil (version : ℕ) : coalMetaOf version [] = none := by
  unfold coalMetaOf ipMetaOf
  by_cases h4 : version = 4
  · rw [if_pos h4]
    rfl
  · rw [if_neg h4]
    by_cases h6 : version = 6
    · rw [if_pos h6]
      rfl
    · rw [if_neg h6]

theorem measured_long {desc : RmnetFragDescriptor} (hs : desc.Sized) {version : ℕ} {m : CoalMeta}
    (hm : coalMetaOf version (desc.pulled (mapHeaderSize + v5CoalHeaderSize)).bytes = some m) :
    mapHeaderSize + v5CoalHeaderSize < desc.len := by
  by_contra hshort
  have hnil : (desc.pulled (mapHeaderSize + v5CoalHeaderSize)).bytes = [] := by
    show fragsBytes (pullFrags desc.frags (mapHeaderSize + v5CoalHeaderSize) desc.len).1 = []
    rw [pullFrags_bytes]
    exact List.drop_eq_nil_of_le (by rw [fragsBytes_length, ← hs.len_eq]; omega)
  rw [hnil, coalMetaOf_nil] at hm
  cases hm

/-- The loop starts with the measured descriptor. -/
theorem segmentCoalData_loop (port : RmnetPort) {desc : RmnetFragDescriptor} (hs : desc.Sized) {dev : NetDevice}
    (hdev : desc.dev = some dev) {m : CoalMeta}
    (hm : coalMetaOf (desc.pulled (mapHeaderSize + v5CoalHeaderSize)).version
      (desc.pulled (mapHeaderSize + v5CoalHeaderSize)).bytes = some m) (mask : ℕ)
    (list : List RmnetFragDescriptor) :
    ∃ stats hdr, readBytes desc.bytes mapHeaderSize v5CoalHeaderSize = some hdr ∧
      rmnetFragSegmentCoalData port desc mask list
        = segmentMeasured { port with stats := stats }
            { desc.pulled (mapHeaderSize + v5CoalHeaderSize) with
              ipProto := m.ipProto, ipLen := m.ipLen, transProto := m.transProto, transLen := m.transLen }
            (V5CoalHeader.parse hdr) mask (dev.groHw && m.plain) m.zeroCsum list := by
  have hlong := measured_long hs hm
  obtain ⟨hpull, hsized, -⟩ := rmnetFragPull_pulled port hs hlong
  obtain ⟨stats, hiph, htrans⟩ := segmentHeaders_some port hsized dev.groHw hm
  have hread : readBytes desc.bytes mapHeaderSize v5CoalHeaderSize
      = some ((desc.bytes.drop mapHeaderSize).take v5CoalHeaderSize) :=
    readBytes_of_le (by rw [hs.length_bytes]; exact hlong.le)
  refine ⟨stats, _, hread, ?_⟩
  unfold rmnetFragSegmentCoalData
  rw [rmnetFragCopyData_eq hs, hread, hpull, hdev]
  simp only [Option.map_some, Option.getD_some]
  rw [hiph]
  dsimp only
  rw [htrans]

/-- The pairs that the loop walks over. -/
def V5CoalHeader.pairs (coalHdr : V5CoalHeader) : List NlPair := coalHdr.nlPairs.take coalHdr.numNlos

/-- **Segmentation tiles the payload**, whatever the pairs claim and whichever allocations fail.  The loop starts
from the frame without its headers; after any number of pairs the new descriptors are successive ranges of the
payload up to the data offset, and a pair with packets shorter than their headers adds none. -/
theorem segments_safe (port : RmnetPort) (a : ℕ) {frags : List SkbFrag} (dev : NetDevice)
    (hlen : fragsSize frags ≤ mapHeaderSize + v5CoalHeaderSize + 65535) {m : CoalMeta}
    (hm : coalMetaOf ((frameDesc a frags dev).pulled (mapHeaderSize + v5CoalHeaderSize)).version
      ((fragsBytes frags).drop (mapHeaderSize + v5CoalHeaderSize)) = some m)
    {hdr : Bytes} (hhdr : readBytes (fragsBytes frags) mapHeaderSize v5CoalHeaderSize = some hdr)
    (hbuggy : (rmnetMapV5CsumBuggy (V5CoalHeader.parse hdr) && !m.zeroCsum) = false)
    (hfast : (dev.groHw && m.plain && (V5CoalHeader.parse hdr).numNlos = 1 &&
      (V5CoalHeader.parse hdr).csumValid) = false) (mask : ℕ) (list : List RmnetFragDescriptor) :
    ∃ s₀ : SegState, s₀.coalDesc = (frameDesc a frags dev).measured m ∧ s₀.list = list ∧
      s₀.coalDesc.bytes = (fragsBytes frags).drop (mapHeaderSize + v5CoalHeaderSize) ∧
      let pairs := (V5CoalHeader.parse hdr).pairs
      let run := fun ps => segNlos fragSegOps (dev.groHw && m.plain) m.hlen ps 0 mask s₀
      rmnetFragSegmentCoalData port (frameDesc a frags dev) mask list = run pairs ∧
      (∀ k, ∃ descs, (run (pairs.take k)).list = list ++ descs ∧
        Tiled s₀.coalDesc descs (run (pairs.take k)).coalDesc.dataOffset) ∧
      ∀ k p, pairs[k]? = some p → p.pktLen < m.hlen →
        (run (pairs.take (k + 1))).list = (run (pairs.take k)).list := by
  have hhead : mapHeaderSize + v5CoalHeaderSize = 32 := rfl
  have hs : (frameDesc a frags dev).Sized := frameDesc_sized (by omega) a dev
  have hbytes : ((frameDesc a frags dev).pulled (mapHeaderSize + v5CoalHeaderSize)).bytes
      = (fragsBytes frags).drop (mapHeaderSize + v5CoalHeaderSize) := pullFrags_bytes frags _ _
  rw [← hbytes] at hm
  obtain ⟨stats, hdr', hhdr', heq⟩ := segmentCoalData_loop port hs rfl hm mask list
  have hsame : hdr' = hdr := Option.some.inj (hhdr'.symm.trans hhdr)
  rw [hsame] at heq
  set coal := (frameDesc a frags dev).measured m with hcoal
  obtain ⟨-, hpulled, hpulledLen⟩ := rmnetFragPull_pulled port hs (measured_long hs hm)
  have hcoalSized : coal.Sized := ⟨hpulled.len_eq, hpulled.len_lt⟩
  have hcoalLen : coal.len < 65536 := by
    have hl : coal.len = fragsSize frags - (mapHeaderSize + v5CoalHeaderSize) := hpulledLen
    omega
  have hloop : rmnetFragSegmentCoalData port (frameDesc a frags dev) mask list
      = segNlos fragSegOps (dev.groHw && m.plain) m.hlen (V5CoalHeader.parse hdr).pairs 0 mask
          ⟨{ port with stats := stats }, coal, list⟩ := by
    rw [heq]
    unfold segmentMeasured
    rw [if_neg (by rw [hbuggy]; exact Bool.false_ne_true), if_neg (by rw [hfast]; exact Bool.false_ne_true)]
    rfl
  have hstart : SafeSegs coal list ⟨{ port with stats := stats }, coal, list⟩ :=
    ⟨⟨{}, rfl⟩, show 0 < 65536 by omega, [], (List.append_nil list).symm, .nil⟩
  have hsafe : ∀ ps, SafeSegs coal list (segNlos fragSegOps (dev.groHw && m.plain) m.hlen ps 0 mask
      ⟨{ port with stats := stats }, coal, list⟩) :=
    fun ps => (SafeSegs.keeps list hcoalSized hcoalLen).run ps hstart
  refine ⟨_, rfl, rfl, hbytes, hloop, fun k => (hsafe _).tiled, ?_⟩
  intro k p hk hshort
  obtain ⟨i, mask', happ⟩ := segNlos_append fragSegOps (dev.groHw && m.plain) m.hlen
    ((V5CoalHeader.parse hdr).pairs.take k) 0 mask ⟨{ port with stats := stats }, coal, list⟩
  have htake : (V5CoalHeader.parse hdr).pairs.take (k + 1) = (V5CoalHeader.parse hdr).pairs.take k ++ [p] := by
    rw [List.take_add_one, hk]
    rfl
  simp only
  rw [htake, happ]
  exact short_pair_silent hcoalSized hcoalLen (hsafe _) _ hshort i mask'

/-- The header of a frame with a pair of ten-byte packets, and a pair of 30-byte packets. -/
def shortPairHd : Bytes := [0x40, 1, 0, 60, 0x02, 0x20, 0, 0, 0, 10, 0, 2, 0, 30, 0, 2] ++ List.replicate 16 0

/-- An IPv4 UDP packet with four bytes of payload. -/
def shortPairIp : Bytes :=
  [0x45, 0, 0, 0x20, 0, 7, 0, 0, 0x40, 0x11, 0x66, 0xC4, 0x0A, 0, 0, 1, 0x0A, 0, 0, 2,
    0, 53, 0, 54, 0, 12, 0x12, 0x34, 0xAA, 0xBB, 0xCC, 0xDD]

/-- A device without GRO. -/
def noGroDevice : NetDevice := { id := 0, groHw := false, rxcsum := true }

theorem segments_safe_short :
    ∃ descs off, (rmnetFragSegmentCoalData (rmnetDescriptorInit 48 (fun _ => none) fun _ => true)
        (frameDesc 0 [.ofBytes (shortPairHd ++ shortPairIp)] noGroDevice) 0 []).list = descs ∧
      Tiled ((frameDesc 0 [.ofBytes (shortPairHd ++ shortPairIp)] noGroDevice).measured ⟨4, 20, 17, 8, true, false⟩)
        descs off := by
  obtain ⟨s₀, hcoal, hlist, -, hrun, htiled, -⟩ := @segments_safe
    (rmnetDescriptorInit 48 (fun _ => none) fun _ => true) 0 [.ofBytes (shortPairHd ++ shortPairIp)] noGroDevice
    (by decide) ⟨4, 20, 17, 8, true, false⟩ (by decide +kernel) (shortPairHd.drop 4) (by decide +kernel)
    (by decide) (by decide) 0 []
  obtain ⟨descs, hdescs, htile⟩ := htiled 2
  rw [List.take_of_length_le (show (V5CoalHeader.parse (shortPairHd.drop 4)).pairs.length ≤ 2 by decide),
    ← hrun] at hdescs
  rw [hcoal] at htile
  exact ⟨descs, _, hdescs, htile⟩

end Rmnet
