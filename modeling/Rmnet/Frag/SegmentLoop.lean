import Rmnet.Frag.Deaggregate
import Rmnet.Frag.Segment

/-!
# The fragment path follows the plan

With allocations succeeding and every emission inside the payload, the segmentation loop on descriptors
produces one descriptor for each emission of the plan, `segDesc`: the header bytes of the frame followed
by a slice of its payload, with the metadata that `__rmnet_frag_segment_data` computes from the emission.
`segmentCoalData_plan` is the statement for the whole of `rmnet_frag_segment_coal_data`.
-/

namespace Rmnet

open Word Field

/-! ### The descriptors -/

/-- The descriptor that de-aggregation and the ingress handler pass on: fragments and device only. -/
def frameDesc (a : ℕ) (frags : List SkbFrag) (dev : NetDevice) : RmnetFragDescriptor :=
  { addr := a, frags := frags, dev := some dev, len := fragsSize frags }

/-- The coalesced descriptor once its headers are measured. -/
def measuredDesc (a : ℕ) (frags : List SkbFrag) (dev : NetDevice) (m : CoalMeta) : RmnetFragDescriptor :=
  { addr := a, frags := frags, dev := some dev, len := fragsSize frags, ipProto := m.ipProto,
    ipLen := m.ipLen, transProto := m.transProto, transLen := m.transLen, hdrsValid := true }

/-- The coalesced descriptor in the middle of the loop. -/
def RmnetFragDescriptor.atPlan (coal : RmnetFragDescriptor) (t : PlanState) : RmnetFragDescriptor :=
  { coal with gsoSize := t.size, gsoSegs := t.segs, dataOffset := t.off, pktId := t.pktId }

/-- FIN and PSH are cleared: TCP with one of them set, and payload left behind the emission. -/
def clearsFlags (m : CoalMeta) (ip : Bytes) (e : Emission) : Bool :=
  m.transProto = ipprotoTcp && (tcpFin (ip.drop m.ipLen) || tcpPsh (ip.drop m.ipLen)) &&
    m.hlen + e.off + e.size * e.segs < ip.length

/-- The new descriptor of an emission. -/
def segDesc (coal : RmnetFragDescriptor) (m : CoalMeta) (a : ℕ) (e : Emission) : RmnetFragDescriptor :=
  let ip := coal.bytes
  let tcp : Bool := m.transProto = ipprotoTcp
  { coal with
    addr := a
    frags := sliceFrags coal.frags 0 m.hlen ++ sliceFrags coal.frags (m.hlen + e.off) (e.size * e.segs)
    len := m.hlen + e.size * e.segs
    gsoSize := e.size
    gsoSegs := e.segs
    dataOffset := e.off
    pktId := e.pktId
    tcpSeqSet := tcp
    tcpSeq := if tcp then u32 (be32At ip (m.ipLen + 4) + e.off) else 0
    tcpFlagsSet := clearsFlags m ip e
    tcpFlags := if clearsFlags m ip e then clearFinPsh (be16At ip (m.ipLen + 12)) else 0
    ipIdSet := m.ipProto = 4
    ipId := if m.ipProto = 4 then u16 (be16At ip 4 + e.pktId) else 0
    csumValid := e.csum || m.zeroCsum }

theorem segDesc_bytes (coal : RmnetFragDescriptor) (m : CoalMeta) (a : ℕ) (e : Emission) :
    (segDesc coal m a e).bytes
      = coal.bytes.take m.hlen ++ (coal.bytes.drop (m.hlen + e.off)).take (e.size * e.segs) := by
  show fragsBytes (_ ++ _) = _
  rw [fragsBytes_append, fragsBytes_sliceFrags, fragsBytes_sliceFrags, List.drop_zero]
  rfl

/-! ### What a measured packet has room for -/

theorem ipMetaOf_len {version : ℕ} {b : Bytes} {ipProto ipLen transProto : ℕ} {plain : Bool}
    (h : ipMetaOf version b = some (ipProto, ipLen, transProto, plain)) :
    ipProto = 4 → 20 ≤ b.length ∧ version = 4 ∧ byteAt b 0 % 16 * 4 = ipLen := by
  unfold ipMetaOf at h
  split at h
  · rename_i hversion
    split at h
    · cases h
    · simp only [Option.some.injEq, Prod.mk.injEq] at h
      exact fun _ => ⟨by omega, hversion, h.2.1⟩
  · split at h
    · split at h
      · cases h
      · split at h
        · cases h
        · split at h
          · cases h
          · split at h
            · cases h
            · simp only [Option.some.injEq, Prod.mk.injEq] at h
              omega
    · cases h

/-- What the success of the measurement says. -/
structure CoalMeta.Measures (m : CoalMeta) (b : Bytes) : Prop where
  proto : m.transProto = ipprotoTcp ∨ m.transProto = ipprotoUdp
  v4 : m.ipProto = 4 → 20 ≤ b.length ∧ byteAt b 0 / 16 = 4 ∧ byteAt b 0 % 16 * 4 = m.ipLen
  tcp : m.transProto = ipprotoTcp → m.ipLen + 20 ≤ b.length
  udp : m.transProto = ipprotoUdp → m.ipLen + 8 ≤ b.length ∧ m.transLen = 8
  zeroCsum : m.zeroCsum = (m.transProto = ipprotoUdp && m.ipProto = 4 && be16At b (m.ipLen + 6) = 0)

theorem coalMeta_measures {b : Bytes} {m : CoalMeta} (h : coalMeta b = some m) : m.Measures b := by
  unfold coalMeta coalMetaOf at h
  cases hip : ipMetaOf (byteAt b 0 / 16) b with
  | none =>
    rw [hip] at h
    cases h
  | some r =>
    obtain ⟨ipProto, ipLen, transProto, plain⟩ := r
    rw [hip] at h
    have hv4 := ipMetaOf_len hip
    simp only at h
    split at h
    · rename_i htcp
      split at h
      · cases h
      · obtain rfl := Option.some.inj h
        have hne : ¬ transProto = ipprotoUdp := by
          rw [htcp]
          decide
        exact ⟨.inl htcp, hv4, fun _ => by simp only; omega, fun hu => absurd hu hne, by simp [hne]⟩
    · rename_i htcp
      split at h
      · rename_i hudp
        split at h
        · cases h
        · obtain rfl := Option.some.inj h
          exact ⟨.inr hudp, hv4, fun ht => absurd ht htcp, fun _ => ⟨by simp only; omega, rfl⟩, by simp [hudp]⟩
      · cases h

/-! ### One emission -/

theorem getFragDescriptor_frame {port : RmnetPort} (halloc : port.AllocOk) :
    ∃ port' a, rmnetGetFragDescriptor port = (port', some { addr := a }) ∧ port'.AllocOk := by
  obtain ⟨port', a, h, h', -⟩ := getFragDescriptor_allocOk halloc
  exact ⟨port', a, h, h'⟩

theorem bump_allocOk {port : RmnetPort} (h : port.AllocOk) (dev : Option NetDevice) (s : PrivStat) (n : ℕ) :
    (port.bump dev s n).AllocOk := by
  cases dev with
  | none => exact h
  | some d => exact h

/-- The protocol metadata of a new descriptor. -/
theorem segmentMeta_eq {coal : RmnetFragDescriptor} {m : CoalMeta} (hs : coal.Sized)
    (hm : m.Measures coal.bytes) (t : PlanState) (newDesc : RmnetFragDescriptor)
    (hip : coal.ipProto = m.ipProto) (hlen : coal.ipLen = m.ipLen) (htr : coal.transProto = m.transProto)
    (hnew : newDesc.tcpSeqSet = false ∧ newDesc.tcpSeq = 0 ∧ newDesc.tcpFlagsSet = false ∧
      newDesc.tcpFlags = 0)
    (i : ℕ) (c : Bool) (hin : m.hlen + t.off + t.size * t.segs ≤ coal.len) :
    let e : Emission := ⟨t.off, t.size, t.segs, i, c⟩
    segmentMeta (coal.atPlan t) newDesc (m.hlen + t.off) (t.size * t.segs) c
      = some ({ newDesc with
          tcpSeqSet := m.transProto = ipprotoTcp
          tcpSeq := if m.transProto = ipprotoTcp then u32 (be32At coal.bytes (m.ipLen + 4) + t.off) else 0
          tcpFlagsSet := clearsFlags m coal.bytes e
          tcpFlags := if clearsFlags m coal.bytes e then clearFinPsh (be16At coal.bytes (m.ipLen + 12))
            else 0 }, c || m.zeroCsum) := by
  intro e
  have hs' : (coal.atPlan t).Sized := ⟨hs.len_eq, hs.len_lt⟩
  have hread : ∀ len, rmnetFragHeaderPtr (coal.atPlan t) coal.ipLen len = readBytes coal.bytes m.ipLen len := by
    intro len
    rw [rmnetFragHeaderPtr_eq hs', hlen]
    rfl
  have hlt := hs.len_lt
  obtain ⟨addr, frags, dev, len, tcpSeq, ipId, tcpFlags, dataOffset, gsoSize, gsoSegs, ipLen, transLen,
    ipProto, transProto, pktId, csumValid, hdrsValid, ipIdSet, tcpSeqSet, tcpFlagsSet⟩ := newDesc
  obtain ⟨rfl, rfl, rfl, rfl⟩ := hnew
  unfold segmentMeta
  show (if coal.transProto = ipprotoTcp then
      (rmnetFragHeaderPtr (coal.atPlan t) coal.ipLen 20).map _
    else if coal.transProto = ipprotoUdp then (rmnetFragHeaderPtr (coal.atPlan t) coal.ipLen 8).map _
    else _) = _
  rw [hread, hread, htr]
  rcases hm.proto with htcp | hudp
  · have hzero : m.zeroCsum = false := by
      rw [hm.zeroCsum, htcp]
      rfl
    have hfin : tcpFin ((coal.bytes.drop m.ipLen).take 20) = tcpFin (coal.bytes.drop m.ipLen) := by
      rw [tcpFin, tcpFin, byteAt_take (by omega)]
    have hpsh : tcpPsh ((coal.bytes.drop m.ipLen).take 20) = tcpPsh (coal.bytes.drop m.ipLen) := by
      rw [tcpPsh, tcpPsh, byteAt_take (by omega)]
    rw [if_pos htcp, readBytes_of_le (hm.tcp htcp), Option.map_some]
    simp only [hfin, hpsh, be32At_slice (show 4 + 3 < 20 by omega), be16At_slice (show 12 + 1 < 20 by omega),
      u32_of_lt (show m.hlen + t.off + t.size * t.segs < 4294967296 by omega), hzero, Bool.or_false]
    have hcond : ((tcpFin (coal.bytes.drop m.ipLen) || tcpPsh (coal.bytes.drop m.ipLen)) = true ∧
        m.hlen + t.off + t.size * t.segs < (coal.atPlan t).len) ↔ clearsFlags m coal.bytes e = true := by
      have hl : (coal.atPlan t).len = coal.bytes.length := hs.length_bytes.symm
      rw [hl, clearsFlags]
      simp only [htcp, decide_true, Bool.true_and, Bool.and_eq_true, decide_eq_true_eq, e]
    by_cases hclear : clearsFlags m coal.bytes e = true
    · rw [if_pos (hcond.mpr hclear), hclear]
      simp [htcp, RmnetFragDescriptor.atPlan]
    · rw [if_neg (fun h => hclear (hcond.mp h)), if_neg hclear]
      rw [Bool.not_eq_true] at hclear
      simp [htcp, hclear, RmnetFragDescriptor.atPlan]
  · have hne : ¬ m.transProto = ipprotoTcp := by
      rw [hudp]
      decide
    have hclear : clearsFlags m coal.bytes e = false := by
      simp [clearsFlags, hne]
    rw [if_neg hne, if_pos hudp, readBytes_of_le (hm.udp hudp).1, Option.map_some]
    simp only [be16At_slice (show 6 + 1 < 8 by omega), hclear, hm.zeroCsum, hudp, decide_true,
      Bool.true_and]
    simp [hip, RmnetFragDescriptor.atPlan, show ¬ ipprotoUdp = ipprotoTcp by decide]

/-- The IPv4 identification of a new descriptor. -/
theorem segmentIpId_eq {coal : RmnetFragDescriptor} {m : CoalMeta} (hs : coal.Sized)
    (hm : m.Measures coal.bytes) (hip : coal.ipProto = m.ipProto) (t : PlanState)
    (newDesc : RmnetFragDescriptor) (hnew : newDesc.ipIdSet = false ∧ newDesc.ipId = 0) :
    segmentIpId (coal.atPlan t) newDesc
      = some { newDesc with
          ipIdSet := m.ipProto = 4
          ipId := if m.ipProto = 4 then u16 (be16At coal.bytes 4 + t.pktId) else 0 } := by
  have hs' : (coal.atPlan t).Sized := ⟨hs.len_eq, hs.len_lt⟩
  obtain ⟨addr, frags, dev, len, tcpSeq, ipId, tcpFlags, dataOffset, gsoSize, gsoSegs, ipLen, transLen,
    ipProto, transProto, pktId, csumValid, hdrsValid, ipIdSet, tcpSeqSet, tcpFlagsSet⟩ := newDesc
  obtain ⟨rfl, rfl⟩ := hnew
  have hproto : (coal.atPlan t).ipProto = m.ipProto := hip
  unfold segmentIpId
  rw [hproto, rmnetFragHeaderPtr_eq hs']
  by_cases h4 : m.ipProto = 4
  · have hread : readBytes (coal.atPlan t).bytes 0 20 = some ((coal.bytes.drop 0).take 20) :=
      readBytes_of_le (show 0 + 20 ≤ coal.bytes.length by rw [Nat.zero_add]; exact (hm.v4 h4).1)
    rw [if_pos h4, hread, Option.map_some, be16At_slice (by omega)]
    simp [h4, RmnetFragDescriptor.atPlan]
  · simp [h4]

/-- A coalesced descriptor with measured headers, as the loop finds it. -/
structure Measured (coal : RmnetFragDescriptor) (m : CoalMeta) : Prop where
  sized : coal.Sized
  len_lt : coal.len < 65536
  measures : m.Measures coal.bytes
  ipProto : coal.ipProto = m.ipProto
  ipLen : coal.ipLen = m.ipLen
  transProto : coal.transProto = m.transProto
  transLen : coal.transLen = m.transLen
  tcpUnset : coal.tcpSeqSet = false ∧ coal.tcpSeq = 0 ∧ coal.tcpFlagsSet = false ∧ coal.tcpFlags = 0
  ipUnset : coal.ipIdSet = false ∧ coal.ipId = 0

/-- One emission whose fragments are added. -/
theorem segmentData_added {coal : RmnetFragDescriptor} {m : CoalMeta} (hc : Measured coal m)
    {port port₁ port₂ port₃ : RmnetPort} (t : PlanState) (list : List RmnetFragDescriptor) (i : ℕ) (c : Bool)
    {new : RmnetFragDescriptor} (hget : rmnetGetFragDescriptor port = (port₁, some new))
    (hhead : rmnetFragDescriptorAddFragsFrom port₁ { coal.atPlan t with addr := new.addr, frags := [], len := 0 }
        (coal.atPlan t) 0 m.hlen
      = (port₂, { coal.atPlan t with
          addr := new.addr, frags := [] ++ sliceFrags coal.frags 0 m.hlen, len := 0 + m.hlen }, true))
    (hdata : rmnetFragDescriptorAddFragsFrom port₂ { coal.atPlan t with
          addr := new.addr, frags := [] ++ sliceFrags coal.frags 0 m.hlen, len := 0 + m.hlen }
        (coal.atPlan t) (m.hlen + t.off) (t.size * t.segs)
      = (port₃, { coal.atPlan t with
          addr := new.addr
          frags := [] ++ sliceFrags coal.frags 0 m.hlen ++ sliceFrags coal.frags (m.hlen + t.off) (t.size * t.segs)
          len := 0 + m.hlen + t.size * t.segs }, true))
    (hin : m.hlen + t.off + t.size * t.segs ≤ coal.len) :
    rmnetFragSegmentData i c ⟨port, coal.atPlan t, list⟩
      = ⟨port₃.bump coal.dev .coalReconstruct 1, coal.atPlan (planOps.emit i c t),
          list ++ [segDesc coal m new.addr ⟨t.off, t.size, t.segs, t.pktId, c⟩]⟩ := by
  have hlt := hc.len_lt
  have hdlen : u32 ((coal.atPlan t).gsoSize * (coal.atPlan t).gsoSegs) = t.size * t.segs :=
    u32_of_lt (show t.size * t.segs < 4294967296 by omega)
  have hhlen : (coal.atPlan t).ipLen + (coal.atPlan t).transLen = m.hlen := by
    show coal.ipLen + coal.transLen = m.ipLen + m.transLen
    rw [hc.ipLen, hc.transLen]
  have hoff : (coal.atPlan t).dataOffset = t.off := rfl
  simp only [hoff] at hhead hdata
  unfold rmnetFragSegmentData
  simp only [hdlen, hhlen, hoff, hget, hhead, hdata]
  rw [segmentMeta_eq hc.sized hc.measures t _ hc.ipProto hc.ipLen hc.transProto ?tcp t.pktId c hin]
  case tcp => exact hc.tcpUnset
  simp only
  rw [segmentIpId_eq hc.sized hc.measures hc.ipProto t _ ?ip]
  case ip => exact hc.ipUnset
  have hnext : u16 (t.off + t.size * t.segs) = t.off + t.size * t.segs := u16_of_lt (by omega)
  simp only [hnext, SegState.mk.injEq]
  refine ⟨rfl, rfl, ?_⟩
  simp [segDesc, RmnetFragDescriptor.atPlan]

/-- **One emission**: with allocations succeeding and the payload at hand, a descriptor is appended. -/
theorem rmnetFragSegmentData_eq {coal : RmnetFragDescriptor} {m : CoalMeta} (hc : Measured coal m)
    {port : RmnetPort} (halloc : port.AllocOk) (t : PlanState) (list : List RmnetFragDescriptor) (i : ℕ)
    (c : Bool) (hin : m.hlen + t.off + t.size * t.segs ≤ coal.len) :
    ∃ port' a, port'.AllocOk ∧ rmnetFragSegmentData i c ⟨port, coal.atPlan t, list⟩
      = ⟨port', coal.atPlan (planOps.emit i c t),
          list ++ [segDesc coal m a ⟨t.off, t.size, t.segs, t.pktId, c⟩]⟩ := by
  obtain ⟨port₁, a, hget, halloc₁⟩ := getFragDescriptor_frame halloc
  have hlt := hc.len_lt
  have hs' : (coal.atPlan t).Sized := ⟨hc.sized.len_eq, hc.sized.len_lt⟩
  have hlen : (coal.atPlan t).len = coal.len := rfl
  exact ⟨port₁.bump coal.dev .coalReconstruct 1, a, bump_allocOk halloc₁ _ _ _, segmentData_added hc t list i c hget
    (rmnetFragDescriptorAddFragsFrom_eq halloc₁ _ hs' (by rw [hlen]; omega) (by simp only; omega))
    (rmnetFragDescriptorAddFragsFrom_eq halloc₁ _ hs' (by rw [hlen]; omega) (by simp only; omega)) hin⟩

/-! ### The loop -/

/-- Every emission lies inside the frame, and the batch counter keeps to sixteen bits. -/
def PlanFits (hlen len : ℕ) (t : PlanState) : Prop :=
  (∀ e ∈ t.out, hlen + e.off + e.size * e.segs ≤ len) ∧ t.peak < 65536

theorem planFits_emit {hlen len : ℕ} {t : PlanState} {i : ℕ} {c : Bool}
    (h : PlanFits hlen len (planOps.emit i c t)) :
    hlen + t.off + t.size * t.segs ≤ len ∧ PlanFits hlen len t := by
  refine ⟨h.1 ⟨t.off, t.size, t.segs, t.pktId, c⟩ (List.mem_append_right _ (List.mem_singleton_self _)), ?_⟩
  exact ⟨fun e he => h.1 e (List.mem_append_left _ he), h.2⟩

/-- The descriptors on the list are those of the emissions so far. -/
structure FragSim (coal : RmnetFragDescriptor) (m : CoalMeta) (list₀ : List RmnetFragDescriptor)
    (s : SegState) (t : PlanState) : Prop where
  allocOk : s.port.AllocOk
  coalDesc : s.coalDesc = coal.atPlan t
  list : ∃ descs, s.list = list₀ ++ descs ∧
    List.Forall₂ (fun d e => ∃ a, d = segDesc coal m a e) descs t.out

/-- The operations on descriptors simulate those on numbers. -/
theorem fragSim {coal : RmnetFragDescriptor} {m : CoalMeta} (hc : Measured coal m)
    (list₀ : List RmnetFragDescriptor) :
    SegSim fragSegOps planOps (PlanFits m.hlen coal.len) (FragSim coal m list₀) where
  segs h := by
    show RmnetFragDescriptor.gsoSegs _ = _
    rw [h.coalDesc]
    rfl
  setSize := by
    intro s t n _ h
    refine ⟨h.allocOk, ?_, h.list⟩
    show { s.coalDesc with gsoSize := n } = _
    rw [h.coalDesc]
    rfl
  setSegs := by
    intro s t n h hok
    have hn : u16 n = n := u16_of_lt (Nat.lt_of_le_of_lt (Nat.le_max_right _ _) hok.2)
    refine ⟨h.allocOk, ?_, h.list⟩
    show { s.coalDesc with gsoSegs := u16 n } = _
    rw [h.coalDesc, hn]
    rfl
  csumErr h := ⟨bump_allocOk h.allocOk _ _ _, h.coalDesc, h.list⟩
  emit := by
    intro s t i c h hok
    obtain ⟨port, coalDesc, list⟩ := s
    obtain ⟨halloc, rfl, descs, rfl, hdescs⟩ := h
    obtain ⟨port', a, halloc', hemit⟩ := rmnetFragSegmentData_eq hc halloc t (list₀ ++ descs) i c
      (planFits_emit hok).1
    show FragSim coal m list₀ (rmnetFragSegmentData i c _) _
    rw [hemit]
    exact ⟨halloc', rfl, _, List.append_assoc _ _ _,
      List.rel_append hdescs (List.Forall₂.cons ⟨a, rfl⟩ List.Forall₂.nil)⟩
  ok_setSize _ h := h
  ok_setSegs _ h := ⟨h.1, Nat.lt_of_le_of_lt (Nat.le_max_left _ _) h.2⟩
  ok_csumErr h := h
  ok_emit _ _ h := (planFits_emit h).2

/-! ### The whole function -/

theorem frameDesc_sized {frags : List SkbFrag} (h : fragsSize frags < 2147483648) (a : ℕ) (dev : NetDevice) :
    (frameDesc a frags dev).Sized := ⟨rfl, h⟩

theorem measuredDesc_measured {a : ℕ} {frags : List SkbFrag} {dev : NetDevice} {m : CoalMeta}
    (hlen : fragsSize frags < 65536) (hm : coalMeta (fragsBytes frags) = some m) :
    Measured (measuredDesc a frags dev m) m where
  sized := ⟨rfl, show fragsSize frags < _ by omega⟩
  len_lt := hlen
  measures := coalMeta_measures hm
  ipProto := rfl
  ipLen := rfl
  transProto := rfl
  transLen := rfl
  tcpUnset := ⟨rfl, rfl, rfl, rfl⟩
  ipUnset := ⟨rfl, rfl⟩

/-- A coalesced frame on the fragment path: QMAP and coalescing header `hd`, then the packet `ip`, in
non-empty fragments. -/
structure CoalFrame (frags : List SkbFrag) (hd ip : Bytes) : Prop where
  frags_pos : ∀ f ∈ frags, 0 < f.size
  bytes : fragsBytes frags = hd ++ ip
  hd_length : hd.length = mapHeaderSize + v5CoalHeaderSize
  ip_ne : ip ≠ []
  ip_length : ip.length < 65536

/-- The coalescing header of a frame. -/
def coalHeaderOf (hd : Bytes) : V5CoalHeader := V5CoalHeader.parse (hd.drop mapHeaderSize)

/-- The pairs of a frame that the loop walks over. -/
def framePairs (hd : Bytes) : List NlPair := (coalHeaderOf hd).nlPairs.take (coalHeaderOf hd).numNlos

theorem CoalFrame.size {frags : List SkbFrag} {hd ip : Bytes} (h : CoalFrame frags hd ip) :
    fragsSize frags = 32 + ip.length := by
  rw [← fragsBytes_length, h.bytes, List.length_append, h.hd_length]
  rfl

/-- The coalescing header that is read from the frame. -/
theorem CoalFrame.readHeader {frags : List SkbFrag} {hd ip : Bytes} (h : CoalFrame frags hd ip) :
    readBytes (fragsBytes frags) mapHeaderSize v5CoalHeaderSize = some (hd.drop mapHeaderSize) := by
  have hl : hd.length = 32 := h.hd_length
  rw [readBytes_of_le (by rw [fragsBytes_length, h.size]; show 4 + 28 ≤ _; omega), h.bytes,
    List.drop_append_of_le_length (by rw [hl]; decide), List.take_append_of_le_length,
    List.take_of_length_le]
  · rw [List.length_drop, hl]
    decide
  · rw [List.length_drop, hl]
    decide

/-- Checking the header of a frame reads its coalescing header. -/
theorem dataCheckCoalHeader_eq (port : RmnetPort) {frags : List SkbFrag} {hd ip : Bytes}
    (h : CoalFrame frags hd ip) (a : ℕ) (dev : NetDevice) :
    rmnetFragDataCheckCoalHeader port (frameDesc a frags dev)
      = checkCoalHeader port (some dev) (coalHeaderOf hd) := by
  have hip := h.ip_length
  have hs : (frameDesc a frags dev).Sized := frameDesc_sized (by rw [h.size]; omega) a dev
  unfold rmnetFragDataCheckCoalHeader
  rw [rmnetFragHeaderPtr_eq hs, show (frameDesc a frags dev).bytes = fragsBytes frags from rfl, h.readHeader]
  rfl

/-- The part of `rmnet_frag_segment_coal_data` before the branch on the coalescing header: the header, whether GRO is
possible and whether the UDP checksum is zero. -/
def segmentStart (port : RmnetPort) (coalDesc : RmnetFragDescriptor) :
    Option (RmnetPort × RmnetFragDescriptor × V5CoalHeader × Bool × Bool) :=
  let gro := (coalDesc.dev.map NetDevice.groHw).getD false
  match rmnetFragCopyData coalDesc mapHeaderSize v5CoalHeaderSize with
  | none => none
  | some hdr =>
      match rmnetFragPull port coalDesc (mapHeaderSize + v5CoalHeaderSize) with
      | (_, _, false) => none
      | (port, coalDesc, true) =>
          match segmentIpHeader port coalDesc gro with
          | (_, _, none) => none
          | (port, coalDesc, some gro) =>
              match segmentTransHeader port coalDesc with
              | (_, _, none) => none
              | (port, coalDesc, some zeroCsum) => some (port, coalDesc, V5CoalHeader.parse hdr, gro, zeroCsum)

theorem segmentCoalData_start {port port' : RmnetPort} {coalDesc coalDesc' : RmnetFragDescriptor}
    {coalHdr : V5CoalHeader} {gro zeroCsum : Bool}
    (h : segmentStart port coalDesc = some (port', coalDesc', coalHdr, gro, zeroCsum)) (mask : ℕ)
    (list : List RmnetFragDescriptor) : rmnetFragSegmentCoalData port coalDesc mask list
      = segmentMeasured port' coalDesc' coalHdr mask gro zeroCsum list := by
  unfold segmentStart at h
  unfold rmnetFragSegmentCoalData
  dsimp only at h ⊢
  rcases hcopy : rmnetFragCopyData coalDesc mapHeaderSize v5CoalHeaderSize with _ | hdr
  · rw [hcopy] at h
    cases h
  rw [hcopy] at h
  dsimp only at h ⊢
  rcases hpull : rmnetFragPull port coalDesc (mapHeaderSize + v5CoalHeaderSize) with ⟨port₁, coalDesc₁, _ | _⟩
  · rw [hpull] at h
    cases h
  rw [hpull] at h
  dsimp only at h ⊢
  rcases hiph : segmentIpHeader port₁ coalDesc₁ ((coalDesc.dev.map NetDevice.groHw).getD false) with
    ⟨port₂, coalDesc₂, _ | gro₂⟩
  · rw [hiph] at h
    cases h
  rw [hiph] at h
  dsimp only at h ⊢
  rcases hth : segmentTransHeader port₂ coalDesc₂ with ⟨port₃, coalDesc₃, _ | zero⟩
  · rw [hth] at h
    cases h
  rw [hth] at h
  cases h
  rfl

/-- A frame gets to the branch. -/
theorem segmentStart_frame (port : RmnetPort) {frags : List SkbFrag} {hd ip : Bytes} (h : CoalFrame frags hd ip)
    (a : ℕ) (dev : NetDevice) {m : CoalMeta} (hm : coalMeta ip = some m) :
    ∃ frags' stats, fragsBytes frags' = ip ∧
      segmentStart port (frameDesc a frags dev)
        = some ({ port with stats := stats },
            { frameDesc a frags' dev with
              ipProto := m.ipProto, ipLen := m.ipLen, transProto := m.transProto, transLen := m.transLen },
            coalHeaderOf hd, dev.groHw && m.plain, m.zeroCsum) := by
  have hl : hd.length = 32 := h.hd_length
  have hip := h.ip_length
  have hne := List.length_pos_iff.mpr h.ip_ne
  have hs : (frameDesc a frags dev).Sized := frameDesc_sized (by rw [h.size]; omega) a dev
  obtain ⟨frags', hpull, hb, hpos⟩ := rmnetFragPull_eq port hs
    (show mapHeaderSize + v5CoalHeaderSize < fragsSize frags by rw [h.size]; show 32 < _; omega)
  have hb' : fragsBytes frags' = ip := by
    rw [hb]
    show (fragsBytes frags).drop 32 = ip
    rw [h.bytes, ← hl, List.drop_left]
  have hlen' : (frameDesc a frags dev).len - (mapHeaderSize + v5CoalHeaderSize) = fragsSize frags' := by
    show fragsSize frags - 32 = _
    rw [← fragsBytes_length frags', hb', h.size]
    omega
  rw [hlen'] at hpull
  have hs' : (frameDesc a frags' dev).Sized :=
    frameDesc_sized (by rw [← fragsBytes_length, hb']; omega) a dev
  have hbytes : (frameDesc a frags' dev).bytes = ip := hb'
  have hversion := @version_eq (frameDesc a frags' dev) (by rw [hbytes]; exact h.ip_ne) (hpos h.frags_pos)
  obtain ⟨stats, hiph, htrans⟩ := segmentHeaders_some port hs' dev.groHw
    (show coalMetaOf _ _ = some m by rw [hversion, hbytes]; exact hm)
  refine ⟨frags', stats, hb', ?_⟩
  unfold segmentStart
  have hread := h.readHeader
  rw [rmnetFragCopyData_eq hs, show (frameDesc a frags dev).bytes = fragsBytes frags from rfl, hread, hpull]
  simp only [frameDesc, Option.map_some, Option.getD_some] at hiph htrans ⊢
  rw [hiph]
  dsimp only
  rw [htrans]
  rfl

/-- The frame up to the branch on the coalescing header. -/
theorem segmentCoalData_measured (port : RmnetPort) {frags : List SkbFrag} {hd ip : Bytes}
    (h : CoalFrame frags hd ip) (a : ℕ) (dev : NetDevice) {m : CoalMeta} (hm : coalMeta ip = some m)
    (mask : ℕ) (list : List RmnetFragDescriptor) :
    ∃ frags' stats, fragsBytes frags' = ip ∧
      rmnetFragSegmentCoalData port (frameDesc a frags dev) mask list
        = segmentMeasured { port with stats := stats }
            { frameDesc a frags' dev with
              ipProto := m.ipProto, ipLen := m.ipLen, transProto := m.transProto, transLen := m.transLen }
            (coalHeaderOf hd) mask (dev.groHw && m.plain) m.zeroCsum list := by
  obtain ⟨frags', stats, hb, hstart⟩ := segmentStart_frame port h a dev hm
  exact ⟨frags', stats, hb, segmentCoalData_start hstart mask list⟩

/-- **The fragment path follows the plan.**  A coalesced frame whose headers can be measured, that takes
neither the branch for suspect checksums nor the one for a single good run, and whose plan stays inside
the packet: the descriptors added to the list are those of the plan's emissions. -/
theorem segmentCoalData_plan {port : RmnetPort} (halloc : port.AllocOk) {frags : List SkbFrag}
    {hd ip : Bytes} (h : CoalFrame frags hd ip) (a : ℕ) (dev : NetDevice) {m : CoalMeta}
    (hm : coalMeta ip = some m) (mask : ℕ) (list : List RmnetFragDescriptor)
    (hbuggy : (rmnetMapV5CsumBuggy (coalHeaderOf hd) && !m.zeroCsum) = false)
    (hfast : (dev.groHw && m.plain && (coalHeaderOf hd).numNlos = 1 && (coalHeaderOf hd).csumValid) = false)
    (hfits : PlanFits m.hlen ip.length (segmentPlan (dev.groHw && m.plain) m.hlen
      (framePairs hd) mask)) :
    ∃ frags' descs, fragsBytes frags' = ip ∧
      (rmnetFragSegmentCoalData port (frameDesc a frags dev) mask list).list = list ++ descs ∧
      List.Forall₂ (fun d e => ∃ b, d = segDesc (measuredDesc a frags' dev m) m b e) descs
        (segmentPlan (dev.groHw && m.plain) m.hlen (framePairs hd) mask).out ∧
      (rmnetFragSegmentCoalData port (frameDesc a frags dev) mask list).port.AllocOk := by
  obtain ⟨frags', stats, hb, heq⟩ := segmentCoalData_measured port h a dev hm mask list
  have hip := h.ip_length
  have hsize : fragsSize frags' = ip.length := by
    rw [← hb, fragsBytes_length]
  have hc : Measured (measuredDesc a frags' dev m) m :=
    measuredDesc_measured (by rw [hsize]; exact hip) (by rw [hb]; exact hm)
  have hsim : FragSim (measuredDesc a frags' dev m) m list
      (segNlos fragSegOps (dev.groHw && m.plain) m.hlen (framePairs hd) 0 mask
        ⟨{ port with stats := stats }, measuredDesc a frags' dev m, list⟩)
      (segmentPlan (dev.groHw && m.plain) m.hlen (framePairs hd) mask) := by
    refine (fragSim hc list).run _ ⟨halloc, rfl, [], (List.append_nil list).symm, .nil⟩ ?_
    show PlanFits m.hlen (fragsSize frags') (segmentPlan _ m.hlen _ mask)
    rw [hsize]
    exact hfits
  have hloop : rmnetFragSegmentCoalData port (frameDesc a frags dev) mask list
      = segNlos fragSegOps (dev.groHw && m.plain) m.hlen (framePairs hd) 0 mask
          ⟨{ port with stats := stats }, measuredDesc a frags' dev m, list⟩ := by
    rw [heq]
    unfold segmentMeasured
    rw [if_neg (by rw [hbuggy]; exact Bool.false_ne_true), if_neg (by rw [hfast]; exact Bool.false_ne_true)]
    rfl
  obtain ⟨halloc', -, descs, hlist, hdescs⟩ := hsim
  rw [hloop]
  exact ⟨frags', descs, hb, hlist, hdescs, halloc'⟩

/-! ### Frames whose pairs describe the payload -/

/-- The pairs describe exactly the payload: each packet has its headers, the payloads add up to what is
there, and there are not too many packets. -/
structure ExactFrame (m : CoalMeta) (hd ip : Bytes) : Prop where
  measured : coalMeta ip = some m
  pktLen : ∀ p ∈ framePairs hd, m.hlen ≤ p.pktLen
  payload : m.hlen + ((framePairs hd).map fun p => p.numPackets * (p.pktLen - m.hlen)).sum = ip.length
  count : ((framePairs hd).map NlPair.numPackets).sum ≤ v5MaxPackets

theorem pktBytes_nloPackets (nlo size n : ℕ) : ∀ mask, pktBytes (nloPackets nlo size n mask) = n * size := by
  induction n with
  | zero =>
    intro mask
    simp [nloPackets]
  | succ n ih =>
    intro mask
    rw [nloPackets, pktBytes_cons, ih, Nat.succ_mul, Nat.add_comm]

theorem pktBytes_framePackets {hlen : ℕ} {pairs : List NlPair} (hle : ∀ p ∈ pairs, hlen ≤ p.pktLen)
    (hlt : ∀ p ∈ pairs, p.pktLen < 65536) :
    ∀ nlo mask, pktBytes (framePackets hlen nlo pairs mask)
      = (pairs.map fun p => p.numPackets * (p.pktLen - hlen)).sum := by
  induction pairs with
  | nil =>
    intro nlo mask
    rfl
  | cons p ps ih =>
    intro nlo mask
    rw [framePackets, pktBytes_append, pktBytes_nloPackets, List.map_cons, List.sum_cons,
      sub16_of_le (hle p List.mem_cons_self) (hlt p List.mem_cons_self),
      ih (fun q hq => hle q (List.mem_cons_of_mem _ hq)) (fun q hq => hlt q (List.mem_cons_of_mem _ hq))]

theorem coalHeaderOf_pktLen (hd : Bytes) : ∀ p ∈ (coalHeaderOf hd).nlPairs, p.pktLen < 65536 := by
  intro p hp
  obtain ⟨i, -, rfl⟩ := List.mem_map.mp hp
  exact be16At_lt _ _

theorem coalHeaderOf_numPackets (hd : Bytes) : ∀ p ∈ (coalHeaderOf hd).nlPairs, p.numPackets < 256 := by
  intro p hp
  obtain ⟨i, -, rfl⟩ := List.mem_map.mp hp
  exact byteAt_lt _ _

/-- The packets of the frame fill the payload. -/
theorem ExactFrame.pktBytes_eq {m : CoalMeta} {hd ip : Bytes} (h : ExactFrame m hd ip) (mask : ℕ) :
    m.hlen + pktBytes (framePackets m.hlen 0 (framePairs hd) mask) = ip.length := by
  rw [pktBytes_framePackets h.pktLen
    (fun p hp => coalHeaderOf_pktLen hd p (List.mem_of_mem_take hp)) 0 mask]
  exact h.payload

theorem ExactFrame.length_le {m : CoalMeta} {hd ip : Bytes} (h : ExactFrame m hd ip) (mask : ℕ) :
    (framePackets m.hlen 0 (framePairs hd) mask).length ≤ v5MaxPackets := by
  rw [framePackets_length]
  exact h.count

/-- The plan in batches, with GRO or without. -/
theorem plan_batches (gro : Bool) (hlen : ℕ) (pairs : List NlPair) (mask : ℕ) :
    ∃ bs, unbatch bs = framePackets hlen 0 pairs mask ∧
      (segmentPlan gro hlen pairs mask).out.map Emission.core = batchCores 0 bs ∧
      (segmentPlan gro hlen pairs mask).peak ≤ (framePackets hlen 0 pairs mask).length ∧
      if gro then Batched bs (framePackets hlen 0 pairs mask) else ∀ b ∈ bs, b.segs = 1 := by
  cases gro with
  | false =>
    obtain ⟨hout, hpeak⟩ := plan_single hlen pairs mask
    generalize framePackets hlen 0 pairs mask = pkts at hout hpeak ⊢
    refine ⟨pkts.map fun p => ⟨p, 1⟩, unbatch_single pkts, ?_, hpeak, by simp⟩
    rw [hout]
    exact perPacket_cores pkts 0 0
  | true =>
    obtain ⟨bs, hb, hout, hpeak⟩ := plan_gro hlen pairs mask
    exact ⟨bs, hb.packets, hout, hpeak, hb⟩

/-- The plan of an exact frame stays inside it. -/
theorem ExactFrame.planFits {m : CoalMeta} {hd ip : Bytes} (h : ExactFrame m hd ip) (gro : Bool) (mask : ℕ) :
    PlanFits m.hlen ip.length (segmentPlan gro m.hlen (framePairs hd) mask) := by
  obtain ⟨bs, hbs, hout, hpeak, -⟩ := plan_batches gro m.hlen (framePairs hd) mask
  have hbytes := h.pktBytes_eq mask
  have hlen := h.length_le mask
  have hmax : v5MaxPackets = 48 := rfl
  refine ⟨?_, by omega⟩
  intro e he
  have hmem : e.core ∈ batchCores 0 bs := by
    rw [← hout]
    exact List.mem_map_of_mem he
  have hbound := batchCores_bound bs 0 _ hmem
  rw [hbs, Nat.zero_add] at hbound
  have hcore : e.off + e.size * e.segs ≤ _ := hbound
  omega

end Rmnet
