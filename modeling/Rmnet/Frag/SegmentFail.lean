import Rmnet.Coalesce.Trace
import Rmnet.Frag.Gro
import Rmnet.Frag.SegmentSafe

/-!
# Segmentation when no descriptor can be had

`__rmnet_frag_segment_data` moves the coalesced descriptor behind the data it has segmented only at its end.
When `rmnet_get_frag_descriptor` fails, the data offset, the packet id and the count stay as they are, and the
next call starts with the data of the one that failed, under its own size and checksum status.  So a failure
costs the packet it hits and no other only when nothing is emitted after it.

* `FragLag` — the run with failures beside the run of the plan: up to the first failure they do the same, and
  from then on the first makes at least the calls that the second makes.
* `failure_costs_iff` — what comes out.
-/

namespace Rmnet

open Word Field

/-! ### Calls and what comes out of them -/

/-- `rmnet_get_frag_descriptor` returns a descriptor. -/
def SegState.Got (s : SegState) : Prop := (rmnetGetFragDescriptor s.port).2.isSome

instance (s : SegState) : Decidable s.Got := inferInstanceAs (Decidable (_ = true))

/-- The payload that is asked for lies in the frame. -/
def SegState.Inside (s : SegState) : Prop :=
  s.coalDesc.ipLen + s.coalDesc.transLen + s.coalDesc.dataOffset + s.coalDesc.gsoSize * s.coalDesc.gsoSegs
    ≤ s.coalDesc.len

instance (s : SegState) : Decidable s.Inside := inferInstanceAs (Decidable (_ ≤ _))

/-- The allocations of the fragments of the new descriptor succeed. -/
def SegState.FragsOk (s : SegState) : Prop :=
  ∀ new ∈ (rmnetGetFragDescriptor s.port).2,
    let r := rmnetFragDescriptorAddFragsFrom (rmnetGetFragDescriptor s.port).1
      { s.coalDesc with addr := new.addr, frags := [], len := 0 } s.coalDesc 0 (s.coalDesc.ipLen + s.coalDesc.transLen)
    r.2.2 = true ∧ (s.Inside → (rmnetFragDescriptorAddFragsFrom r.1 r.2.1 s.coalDesc
      (s.coalDesc.ipLen + s.coalDesc.transLen + s.coalDesc.dataOffset)
      (u32 (s.coalDesc.gsoSize * s.coalDesc.gsoSegs))).2.2 = true)

instance (s : SegState) : Decidable s.FragsOk := inferInstanceAs (Decidable (∀ new ∈ _, _ ∧ (_ → _)))

/-- Payload bytes, sequence number if it is set, and checksum status. -/
def RmnetFragDescriptor.segView (desc : RmnetFragDescriptor) : Bytes × Option ℕ × Bool :=
  (desc.bytes.drop (desc.ipLen + desc.transLen), if desc.tcpSeqSet then some desc.tcpSeq else none, desc.csumValid)

/-- The same of an emission of the plan. -/
def emissionView (m : CoalMeta) (ip : Bytes) (e : Emission) : Bytes × Option ℕ × Bool :=
  ((ip.drop (m.hlen + e.off)).take (e.size * e.segs),
    if m.transProto = ipprotoTcp then some (u32 (be32At ip (m.ipLen + 4) + e.off)) else none, e.csum || m.zeroCsum)

/-- The calls of `__rmnet_frag_segment_data` in the loop of `rmnet_frag_segment_coal_data`, each with the state
before it. -/
def segmentCalls (port : RmnetPort) (coalDesc : RmnetFragDescriptor) (nloErrMask : ℕ) :
    List (CallKey × SegState) :=
  match segmentStart port coalDesc with
  | none => []
  | some (port, coalDesc, coalHdr, gro, zeroCsum) =>
      let coalDesc := { coalDesc with hdrsValid := true }
      if rmnetMapV5CsumBuggy coalHdr && !zeroCsum then []
      else if gro && coalHdr.numNlos = 1 && coalHdr.csumValid then []
      else
        (segNlos (fragSegOps.traced id) gro (coalDesc.ipLen + coalDesc.transLen)
          (coalHdr.nlPairs.take coalHdr.numNlos) 0 nloErrMask (⟨port, coalDesc, []⟩, {})).2.calls

/-- A call with this key fails to get a descriptor. -/
def FailedIn (calls : List (CallKey × SegState)) (key : CallKey) : Prop := ∃ c ∈ calls, c.1 = key ∧ ¬ c.2.Got

instance (calls : List (CallKey × SegState)) (key : CallKey) : Decidable (FailedIn calls key) :=
  inferInstanceAs (Decidable (∃ c ∈ calls, c.1 = key ∧ ¬ c.2.Got))

/-- What the calls with these keys emit, one entry a call, without the entries of those that fail. -/
def withoutFailed {α : Type} (calls : List (CallKey × SegState)) (keys : List CallKey) (views : List α) : List α :=
  ((keys.zip views).filter fun x => ¬ FailedIn calls x.1).map Prod.snd

/-- After a call that fails none gets a descriptor, unless it asks for more than the frame has left and would not
be made if nothing failed. -/
def NothingAfterFailure (calls : List (CallKey × SegState)) (keys : List CallKey) : Prop :=
  calls.Pairwise fun x y => ¬ x.2.Got → y.2.Got → ¬ y.2.Inside ∧ y.1 ∉ keys

/-! ### One call -/

section Call

variable {coal : RmnetFragDescriptor} {m : CoalMeta}

theorem segDesc_view (hc : Measured coal m) {e : Emission} (hin : m.hlen + e.off + e.size * e.segs ≤ coal.len)
    (a : ℕ) : (segDesc coal m a e).segView = emissionView m coal.bytes e := by
  have hhlen : (segDesc coal m a e).ipLen + (segDesc coal m a e).transLen = m.hlen := by
    show coal.ipLen + coal.transLen = m.ipLen + m.transLen
    rw [hc.ipLen, hc.transLen]
  have hhead : (coal.bytes.take m.hlen).length = m.hlen := by
    rw [List.length_take, hc.sized.length_bytes]
    omega
  unfold RmnetFragDescriptor.segView emissionView
  rw [hhlen, segDesc_bytes, List.drop_left' hhead]
  by_cases htcp : m.transProto = ipprotoTcp
  · simp [segDesc, htcp]
  · simp [segDesc, htcp]

theorem inside_iff (hc : Measured coal m) (port : RmnetPort) (u : PlanState) (list : List RmnetFragDescriptor) :
    SegState.Inside ⟨port, coal.atPlan u, list⟩ ↔ m.hlen + u.off + u.size * u.segs ≤ coal.len := by
  show coal.ipLen + coal.transLen + u.off + u.size * u.segs ≤ coal.len ↔ _
  rw [hc.ipLen, hc.transLen]
  rfl

/-- With a descriptor and its fragments, a call appends the range it asks for if that lies in the frame. -/
theorem segmentData_ok (hc : Measured coal m) {port : RmnetPort} (u : PlanState) (list : List RmnetFragDescriptor)
    (i : ℕ) (c : Bool) (hok : SegState.FragsOk ⟨port, coal.atPlan u, list⟩)
    (hgot : SegState.Got ⟨port, coal.atPlan u, list⟩) (hin : SegState.Inside ⟨port, coal.atPlan u, list⟩) :
    ∃ port' a, rmnetFragSegmentData i c ⟨port, coal.atPlan u, list⟩
      = ⟨port', coal.atPlan (planOps.emit i c u),
          list ++ [segDesc coal m a ⟨u.off, u.size, u.segs, u.pktId, c⟩]⟩ := by
  have hlt := hc.len_lt
  have hle := (inside_iff hc port u list).mp hin
  have hs' : (coal.atPlan u).Sized := ⟨hc.sized.len_eq, hc.sized.len_lt⟩
  have hdlen : u32 ((coal.atPlan u).gsoSize * (coal.atPlan u).gsoSegs) = u.size * u.segs :=
    u32_of_lt (show u.size * u.segs < 4294967296 by omega)
  have hhlen : (coal.atPlan u).ipLen + (coal.atPlan u).transLen = m.hlen := by
    show coal.ipLen + coal.transLen = m.ipLen + m.transLen
    rw [hc.ipLen, hc.transLen]
  have hoff : (coal.atPlan u).dataOffset = u.off := rfl
  obtain ⟨new, hnew⟩ := Option.isSome_iff_exists.mp hgot
  have hget : rmnetGetFragDescriptor port = ((rmnetGetFragDescriptor port).1, some new) := Prod.ext rfl hnew
  obtain ⟨hhead, hdata⟩ := hok new hnew
  have hdata' := hdata hin
  simp only [hhlen, hdlen, hoff] at hhead hdata'
  obtain ⟨-, port₂, h₂⟩ := addFragsFrom_ok hs' hhead (by simp only; omega)
  rw [h₂] at hdata'
  obtain ⟨-, port₃, h₃⟩ := addFragsFrom_ok hs' hdata' (by simp only; omega)
  exact ⟨_, new.addr, segmentData_added hc u list i c hget h₂ h₃ hle⟩

/-- Otherwise nothing but the port changes. -/
theorem segmentData_refused (hc : Measured coal m) {port : RmnetPort} {u : PlanState} (hsize : u.size < 65536)
    (hsegs : u.segs < 65536) (list : List RmnetFragDescriptor) (i : ℕ) (c : Bool)
    (hno : ¬ (SegState.Got ⟨port, coal.atPlan u, list⟩ ∧ SegState.Inside ⟨port, coal.atPlan u, list⟩)) :
    ∃ port', rmnetFragSegmentData i c ⟨port, coal.atPlan u, list⟩ = ⟨port', coal.atPlan u, list⟩ := by
  by_cases hgot : SegState.Got ⟨port, coal.atPlan u, list⟩
  · have hs' : (coal.atPlan u).Sized := ⟨hc.sized.len_eq, hc.sized.len_lt⟩
    rcases segmentData_cases i c (s := ⟨port, coal.atPlan u, list⟩) hs' with ⟨port', heq⟩ | ⟨port', d, hseg, -⟩
    · exact ⟨port', heq⟩
    · have hprod : u.size * u.segs < 4294967296 := by
        have := Nat.mul_le_mul (Nat.le_of_lt_succ hsize) (Nat.le_of_lt_succ hsegs)
        omega
      have hin := hseg.inside
      refine absurd ⟨hgot, ?_⟩ hno
      have hu : u32 ((coal.atPlan u).gsoSize * (coal.atPlan u).gsoSegs) = u.size * u.segs := u32_of_lt hprod
      rw [hu] at hin
      exact hin
  · have hnone : (rmnetGetFragDescriptor port).2 = none := Option.not_isSome_iff_eq_none.mp hgot
    have hget : rmnetGetFragDescriptor port = ((rmnetGetFragDescriptor port).1, none) := Prod.ext rfl hnone
    refine ⟨(rmnetGetFragDescriptor port).1, ?_⟩
    unfold rmnetFragSegmentData
    simp only
    rw [hget]

end Call

/-! ### The two runs side by side -/

/-- The run with failures, and the plan; their traces. -/
abbrev LagLeft := SegState × Trace SegState
abbrev LagRight := PlanState × Trace Unit

/-- No call has failed. -/
structure LagClean (coal : RmnetFragDescriptor) (m : CoalMeta) (s : LagLeft) (t : LagRight) : Prop where
  coalDesc : s.1.coalDesc = coal.atPlan t.1
  got : ∀ c ∈ s.2.calls, c.2.Got
  keys : s.2.keys = t.2.keys
  count : t.1.out.length = t.2.keys.length
  views : s.1.list.map RmnetFragDescriptor.segView = t.1.out.map (emissionView m coal.bytes)

/-- The call `x` was the first to fail, behind the calls `pre`: the plan makes the emission `e` there, and all
that it emits from then on has its calls among those behind `x`.  As long as nothing is appended the offset is
that of `e`, and so is that of the first descriptor that is appended. -/
structure LagBroken (coal : RmnetFragDescriptor) (m : CoalMeta) (s : LagLeft) (t : LagRight)
    (pre : List (CallKey × SegState)) (x : CallKey × SegState) (post : List (CallKey × SegState))
    (tail : List CallKey) (outs : List Emission) (e : Emission) (rest : List Emission)
    (ds ds' : List RmnetFragDescriptor) : Prop where
  calls : s.2.calls = pre ++ x :: post
  got : ∀ c ∈ pre, c.2.Got
  failed : ¬ x.2.Got
  keys : t.2.keys = pre.map Prod.fst ++ x.1 :: tail
  tail_sub : ∀ k ∈ tail, k ∈ post.map Prod.fst
  out : t.1.out = outs ++ e :: rest
  outs_length : outs.length = pre.length
  list : s.1.list = ds ++ ds'
  views : ds.map RmnetFragDescriptor.segView = outs.map (emissionView m coal.bytes)
  late : (ds' = [] ∧ s.1.coalDesc.dataOffset = e.off ∧ ∀ c ∈ post, c.2.Got → ¬ c.2.Inside) ∨
    (∃ c ∈ post, c.2.Got ∧ c.2.Inside) ∧
      ∃ d ds'', ds' = d :: ds'' ∧ d.segView.2.1 = (emissionView m coal.bytes e).2.1

/-- The run with failures beside the plan. -/
structure FragLag (coal : RmnetFragDescriptor) (m : CoalMeta) (s : LagLeft) (t : LagRight) : Prop where
  coalDesc : ∃ u : PlanState, s.1.coalDesc = coal.atPlan u ∧ u.size = t.1.size ∧ u.segs ≤ t.2.pkts
  size_lt : t.1.size < 65536
  nlo : s.2.nlo = t.2.nlo
  segs : t.1.segs ≠ 0 → s.1.coalDesc.gsoSegs ≠ 0
  progress : (∀ c ∈ s.2.calls, c.2.FragsOk) → LagClean coal m s t ∨
    ∃ pre x post tail outs e rest ds ds', LagBroken coal m s t pre x post tail outs e rest ds ds'

/-- The plan keeps inside the frame, and has counted few packets. -/
def LagOk (m : CoalMeta) (len : ℕ) (t : LagRight) : Prop := PlanFits m.hlen len t.1 ∧ t.2.pkts < 65536

section Lag

variable {coal : RmnetFragDescriptor} {m : CoalMeta} {s : LagLeft} {t : LagRight}

/-- Any call after the first failure, be it one of the plan's or not. -/
theorem LagBroken.call (hc : Measured coal m) {pre : List (CallKey × SegState)} {x : CallKey × SegState}
    {post : List (CallKey × SegState)} {tail : List CallKey} {outs : List Emission} {e : Emission}
    {rest : List Emission} {ds ds' : List RmnetFragDescriptor}
    (h : LagBroken coal m s t pre x post tail outs e rest ds ds') {u : PlanState} (hu : s.1.coalDesc = coal.atPlan u)
    (hsize : u.size < 65536) (hsegs : u.segs < 65536) (hok : s.1.FragsOk) (i : ℕ) (c : Bool)
    (t' : LagRight) (keys : List CallKey) (es : List Emission) (hkeys : t'.2.keys = t.2.keys ++ keys)
    (hsub : ∀ k ∈ keys, k = ⟨s.2.nlo, i, c⟩) (hout : t'.1.out = t.1.out ++ es) :
    ∃ ds'', LagBroken coal m ((fragSegOps.traced id).emit i c s) t' pre x (post ++ [(⟨s.2.nlo, i, c⟩, s.1)])
      (tail ++ keys) outs e (rest ++ es) ds ds'' := by
  obtain ⟨⟨port, coalDesc, list⟩, tr⟩ := s
  simp only at hu
  subst hu
  have hcalls : ((fragSegOps.traced id).emit i c (⟨port, coal.atPlan u, list⟩, tr)).2.calls
      = pre ++ x :: (post ++ [(⟨tr.nlo, i, c⟩, ⟨port, coal.atPlan u, list⟩)]) := by
    show tr.calls ++ [_] = _
    rw [show tr.calls = pre ++ x :: post from h.calls, List.append_assoc]
    rfl
  have htail : ∀ k ∈ tail ++ keys, k ∈ (post ++ [((⟨tr.nlo, i, c⟩ : CallKey),
      (⟨port, coal.atPlan u, list⟩ : SegState))]).map Prod.fst := by
    intro k hk
    rw [List.map_append]
    rcases List.mem_append.mp hk with hk | hk
    · exact List.mem_append_left _ (h.tail_sub k hk)
    · exact List.mem_append_right _ (List.mem_singleton.mpr (hsub k hk))
  have hkeys' : t'.2.keys = pre.map Prod.fst ++ x.1 :: (tail ++ keys) := by
    rw [hkeys, h.keys, List.append_assoc]
    rfl
  have hout' : t'.1.out = outs ++ e :: (rest ++ es) := by
    rw [hout, h.out, List.append_assoc]
    rfl
  have hlist : list = ds ++ ds' := h.list
  by_cases happ : SegState.Got ⟨port, coal.atPlan u, list⟩ ∧ SegState.Inside ⟨port, coal.atPlan u, list⟩
  · -- a descriptor is appended, the first one at the offset of `e`
    obtain ⟨port', a, hemit⟩ := segmentData_ok hc u list i c hok happ.1 happ.2
    have hemit' : ((fragSegOps.traced id).emit i c (⟨port, coal.atPlan u, list⟩, tr)).1
        = ⟨port', coal.atPlan (planOps.emit i c u), list ++ [segDesc coal m a ⟨u.off, u.size, u.segs, u.pktId, c⟩]⟩ :=
      hemit
    refine ⟨ds' ++ [segDesc coal m a ⟨u.off, u.size, u.segs, u.pktId, c⟩], hcalls, h.got, h.failed, hkeys', htail,
      hout', h.outs_length, ?_, h.views, .inr ?_⟩
    · rw [hemit', ← List.append_assoc, ← hlist]
    · refine ⟨⟨_, List.mem_append_right _ (List.mem_singleton_self _), happ⟩, ?_⟩
      rcases h.late with ⟨hnil, hoff, -⟩ | ⟨-, d, ds'', hd, hseq⟩
      · refine ⟨_, [], by rw [hnil]; rfl, ?_⟩
        have hoff' : u.off = e.off := hoff
        rw [segDesc_view hc ((inside_iff hc port u list).mp happ.2)]
        simp only [emissionView, hoff']
      · exact ⟨d, ds'' ++ _, by rw [hd]; rfl, hseq⟩
  · obtain ⟨port', hemit⟩ := segmentData_refused hc hsize hsegs list i c happ
    have hemit' : ((fragSegOps.traced id).emit i c (⟨port, coal.atPlan u, list⟩, tr)).1
        = ⟨port', coal.atPlan u, list⟩ := hemit
    refine ⟨ds', hcalls, h.got, h.failed, hkeys', htail, hout', h.outs_length, ?_, h.views, ?_⟩
    · rw [hemit']
      exact hlist
    · refine h.late.imp (fun hlate => ⟨hlate.1, ?_, ?_⟩) fun hlate => ⟨?_, hlate.2⟩
      · rw [hemit']
        exact hlate.2.1
      · intro c' hc' hgot
        rcases List.mem_append.mp hc' with hc' | hc'
        · exact hlate.2.2 c' hc' hgot
        · rw [List.mem_singleton.mp hc'] at hgot ⊢
          exact fun hin => happ ⟨hgot, hin⟩
      · obtain ⟨c', hc', hgot⟩ := hlate.1
        exact ⟨c', List.mem_append_left _ hc', hgot⟩

/-- The call that both runs make, while none has failed. -/
theorem LagClean.call (hc : Measured coal m) (h : LagClean coal m s t) (hsize : t.1.size < 65536)
    (hsegs : t.1.segs < 65536) (hnlo : s.2.nlo = t.2.nlo) (hok : s.1.FragsOk) (i : ℕ) (c : Bool)
    (hin : m.hlen + t.1.off + t.1.size * t.1.segs ≤ coal.len) :
    LagClean coal m ((fragSegOps.traced id).emit i c s) ((planOps.traced fun _ => ()).emit i c t) ∨
      ∃ pre x post tail outs e rest ds ds', LagBroken coal m ((fragSegOps.traced id).emit i c s)
        ((planOps.traced fun _ => ()).emit i c t) pre x post tail outs e rest ds ds' := by
  obtain ⟨⟨port, coalDesc, list⟩, tr⟩ := s
  obtain ⟨hcoal, hgot, hkeys, hcount, hviews⟩ := h
  simp only at hcoal hnlo
  subst hcoal
  have hkey : ∀ st : SegState, ((fragSegOps.traced id).emit i c (st, tr)).2.keys
      = ((planOps.traced fun _ => ()).emit i c t).2.keys := by
    intro st
    rw [traced_emit_keys, traced_emit_keys]
    exact congrArg₂ (fun ks n => ks ++ [(⟨n, i, c⟩ : CallKey)]) hkeys hnlo
  have hinside : SegState.Inside ⟨port, coal.atPlan t.1, list⟩ := (inside_iff hc port t.1 list).mpr hin
  by_cases hnew : SegState.Got ⟨port, coal.atPlan t.1, list⟩
  · obtain ⟨port', a, hemit⟩ := segmentData_ok hc t.1 list i c hok hnew hinside
    have hemit' : ((fragSegOps.traced id).emit i c (⟨port, coal.atPlan t.1, list⟩, tr)).1 = _ := hemit
    refine .inl ⟨?_, ?_, hkey _, ?_, ?_⟩
    · rw [hemit']
      rfl
    · intro c' hc'
      rcases List.mem_append.mp hc' with hc' | hc'
      · exact hgot c' hc'
      · rw [List.mem_singleton.mp hc']
        exact hnew
    · rw [traced_emit_keys, List.length_append, ← hcount]
      exact List.length_append
    · rw [hemit', List.map_append, List.map_singleton, segDesc_view hc hin]
      show _ = (t.1.out ++ [_]).map _
      rw [List.map_append, ← hviews]
      rfl
  · -- the first failure
    obtain ⟨port', hemit⟩ := segmentData_refused hc hsize hsegs list i c fun h => hnew h.1
    have hemit' : ((fragSegOps.traced id).emit i c (⟨port, coal.atPlan t.1, list⟩, tr)).1 = _ := hemit
    refine .inr ⟨tr.calls, (⟨tr.nlo, i, c⟩, ⟨port, coal.atPlan t.1, list⟩), [], [], t.1.out,
      ⟨t.1.off, t.1.size, t.1.segs, t.1.pktId, c⟩, [], list, [], rfl, hgot, hnew, ?_, (by simp), rfl, ?_, ?_, hviews,
      .inl ⟨rfl, ?_, by simp⟩⟩
    · rw [← hkey ⟨port, coal.atPlan t.1, list⟩, traced_emit_keys]
      rfl
    · rw [hcount, ← hkeys]
      exact List.length_map _
    · rw [hemit', List.append_nil]
    · rw [hemit']
      rfl

/-- What a call leaves of the coalesced descriptor, whatever fails. -/
theorem segmentData_coalDesc (hc : Measured coal m) {st : SegState} {u : PlanState}
    (hu : st.coalDesc = coal.atPlan u) (i : ℕ) (c : Bool) :
    ∃ u', (rmnetFragSegmentData i c st).coalDesc = coal.atPlan u' ∧ u'.size = u.size ∧ u'.segs ≤ u.segs := by
  have hs : st.coalDesc.Sized := by
    rw [hu]
    exact atPlan_sized hc.sized u
  rcases segmentData_cases i c hs with ⟨port', heq⟩ | ⟨port', d, -, heq⟩
  · rw [heq]
    exact ⟨u, hu, rfl, Nat.le_refl _⟩
  · rw [heq, hu]
    exact ⟨{ u with segs := 0, off := _, pktId := _ }, rfl, rfl, Nat.zero_le _⟩

/-- A step that leaves the calls and what was emitted as they are. -/
theorem FragLag.silent {s' : LagLeft} {t' : LagRight} (h : FragLag coal m s t) {f : PlanState → PlanState}
    (hcoal : ∀ u : PlanState, s.1.coalDesc = coal.atPlan u → s'.1.coalDesc = coal.atPlan (f u))
    (hf : ∀ u, (f u).off = u.off) (ht : t'.1 = f t.1) (hcalls : s'.2.calls = s.2.calls)
    (hlist : s'.1.list = s.1.list) (htcalls : t'.2.calls = t.2.calls) (hout : t'.1.out = t.1.out)
    (hleft : ∃ u, s'.1.coalDesc = coal.atPlan u ∧ u.size = t'.1.size ∧ u.segs ≤ t'.2.pkts)
    (hsize : t'.1.size < 65536) (hnlo : s'.2.nlo = t'.2.nlo)
    (hsegs : t'.1.segs ≠ 0 → s'.1.coalDesc.gsoSegs ≠ 0) : FragLag coal m s' t' := by
  refine ⟨hleft, hsize, hnlo, hsegs, ?_⟩
  intro hok
  rw [hcalls] at hok
  have hkeys : s'.2.keys = s.2.keys := congrArg (List.map Prod.fst) hcalls
  have htkeys : t'.2.keys = t.2.keys := congrArg (List.map Prod.fst) htcalls
  rcases h.progress hok with hclean | ⟨pre, x, post, tail, outs, e, rest, ds, ds', hb⟩
  · refine .inl ⟨?_, ?_, ?_, ?_, ?_⟩
    · rw [ht]
      exact hcoal t.1 hclean.coalDesc
    · rw [hcalls]
      exact hclean.got
    · rw [hkeys, htkeys]
      exact hclean.keys
    · rw [hout, htkeys]
      exact hclean.count
    · rw [hlist, hout]
      exact hclean.views
  · obtain ⟨u, hu, -⟩ := h.coalDesc
    have hoff : s'.1.coalDesc.dataOffset = s.1.coalDesc.dataOffset := by
      rw [hcoal u hu, hu]
      exact hf u
    refine .inr ⟨pre, x, post, tail, outs, e, rest, ds, ds', ?_, hb.got, hb.failed, ?_, hb.tail_sub, ?_,
      hb.outs_length, ?_, hb.views, ?_⟩
    · rw [hcalls]
      exact hb.calls
    · rw [htkeys]
      exact hb.keys
    · rw [hout]
      exact hb.out
    · rw [hlist]
      exact hb.list
    · rw [hoff]
      exact hb.late

theorem FragLag.setSize (h : FragLag coal m s t) {n : ℕ} (hn : n < 65536) :
    FragLag coal m ((fragSegOps.traced id).setSize n s) ((planOps.traced fun _ => ()).setSize n t) := by
  obtain ⟨u, hu, -, hsegs⟩ := h.coalDesc
  have hcoal : ∀ u : PlanState, s.1.coalDesc = coal.atPlan u →
      ((fragSegOps.traced id).setSize n s).1.coalDesc = coal.atPlan { u with size := n } := by
    intro u hu
    show { s.1.coalDesc with gsoSize := n } = _
    rw [hu]
    rfl
  refine h.silent (f := fun u => { u with size := n }) hcoal (fun _ => rfl) rfl rfl rfl rfl rfl
    ⟨_, hcoal u hu, rfl, hsegs⟩ hn (congrArg (· + 1) h.nlo) ?_
  exact h.segs

theorem FragLag.setSegs_one (h : FragLag coal m s t) :
    FragLag coal m ((fragSegOps.traced id).setSegs 1 s) ((planOps.traced fun _ => ()).setSegs 1 t) := by
  obtain ⟨u, hu, hsize, -⟩ := h.coalDesc
  have hcoal : ∀ u : PlanState, s.1.coalDesc = coal.atPlan u →
      ((fragSegOps.traced id).setSegs 1 s).1.coalDesc = coal.atPlan { u with segs := 1, peak := max u.peak 1 } := by
    intro u hu
    show { s.1.coalDesc with gsoSegs := u16 1 } = _
    rw [hu]
    rfl
  refine h.silent (f := fun u => { u with segs := 1, peak := max u.peak 1 }) hcoal (fun _ => rfl) rfl rfl rfl rfl rfl
    ⟨_, hcoal u hu, hsize, ?_⟩ h.size_lt h.nlo ?_
  · show 1 ≤ t.2.pkts + 1
    omega
  · intro _
    rw [hcoal u hu]
    exact Nat.one_ne_zero

theorem FragLag.setSegs_succ (h : FragLag coal m s t) (hpkts : t.2.pkts + 1 < 65536) :
    FragLag coal m ((fragSegOps.traced id).setSegs ((fragSegOps.traced id).segs s + 1) s)
      ((planOps.traced fun _ => ()).setSegs ((planOps.traced fun _ => ()).segs t + 1) t) := by
  obtain ⟨u, hu, hsize, hsegs⟩ := h.coalDesc
  have hcoal : ∀ u : PlanState, s.1.coalDesc = coal.atPlan u →
      ((fragSegOps.traced id).setSegs ((fragSegOps.traced id).segs s + 1) s).1.coalDesc
        = coal.atPlan { u with segs := u.segs + 1, peak := max u.peak (u.segs + 1) } := by
    intro u' hu'
    have hsame : u'.segs = u.segs := by
      have := congrArg RmnetFragDescriptor.gsoSegs (hu'.symm.trans hu)
      exact this
    show { s.1.coalDesc with gsoSegs := u16 (s.1.coalDesc.gsoSegs + 1) } = _
    rw [hu']
    show { coal.atPlan u' with gsoSegs := u16 (u'.segs + 1) } = _
    rw [u16_of_lt (by omega)]
    rfl
  refine h.silent (f := fun u => { u with segs := u.segs + 1, peak := max u.peak (u.segs + 1) }) hcoal
    (fun _ => rfl) rfl rfl rfl rfl rfl ⟨_, hcoal u hu, hsize, Nat.succ_le_succ hsegs⟩ h.size_lt h.nlo ?_
  intro _
  rw [hcoal u hu]
  exact Nat.succ_ne_zero _

/-- A call of either run leaves the coalesced descriptor within the bounds of the plan. -/
theorem FragLag.emit_coalDesc (hc : Measured coal m) (h : FragLag coal m s t) (i : ℕ) (c : Bool) :
    ∃ u : PlanState, ((fragSegOps.traced id).emit i c s).1.coalDesc = coal.atPlan u ∧ u.size = t.1.size ∧
      u.segs ≤ t.2.pkts := by
  obtain ⟨u, hu, hsize, hsegs⟩ := h.coalDesc
  obtain ⟨u', hu', hsize', hsegs'⟩ := segmentData_coalDesc hc hu i c
  exact ⟨u', hu', hsize'.trans hsize, Nat.le_trans hsegs' hsegs⟩

/-- The call is the last of those that are made. -/
theorem fragsOk_emit {i : ℕ} {c : Bool} (hfrags : ∀ c' ∈ ((fragSegOps.traced id).emit i c s).2.calls, c'.2.FragsOk) :
    (∀ c' ∈ s.2.calls, c'.2.FragsOk) ∧ s.1.FragsOk :=
  ⟨fun c' hc' => hfrags c' (List.mem_append_left _ hc'),
    hfrags _ (List.mem_append_right _ (List.mem_singleton.mpr rfl))⟩

/-- A call that both runs make. -/
theorem FragLag.emit (hc : Measured coal m) (h : FragLag coal m s t) (i : ℕ) (c : Bool)
    (hok : LagOk m coal.len ((planOps.traced fun _ => ()).emit i c t)) :
    FragLag coal m ((fragSegOps.traced id).emit i c s) ((planOps.traced fun _ => ()).emit i c t) := by
  have hin := (planFits_emit hok.1).1
  have hpkts : t.2.pkts < 65536 := hok.2
  refine ⟨h.emit_coalDesc hc i c, h.size_lt, h.nlo, fun ht => absurd rfl ht, ?_⟩
  intro hfrags
  obtain ⟨hold, hnew⟩ := fragsOk_emit hfrags
  obtain ⟨u, hu, hsize, hsegs⟩ := h.coalDesc
  have hsize_lt := h.size_lt
  rcases h.progress hold with hclean | ⟨pre, x, post, tail, outs, e, rest, ds, ds', hb⟩
  · have hsame : u.segs = t.1.segs := by
      have := congrArg RmnetFragDescriptor.gsoSegs (hu.symm.trans hclean.coalDesc)
      exact this
    exact hclean.call hc hsize_lt (by omega) h.nlo hnew i c hin
  · obtain ⟨ds'', hb'⟩ := hb.call hc hu (by omega) (by omega) hnew i c ((planOps.traced fun _ => ()).emit i c t)
      [⟨t.2.nlo, i, c⟩] [⟨t.1.off, t.1.size, t.1.segs, t.1.pktId, c⟩] (traced_emit_keys i c t)
      (fun k hk => by rw [List.mem_singleton.mp hk, h.nlo]) rfl
    exact .inr ⟨_, _, _, _, _, _, _, _, _, hb'⟩

/-- A call that only the run with failures makes. -/
theorem FragLag.emit_left (hc : Measured coal m) (h : FragLag coal m s t) (i : ℕ) (c : Bool)
    (hs : s.1.coalDesc.gsoSegs ≠ 0) (ht : t.1.segs = 0) (hpkts : t.2.pkts < 65536) :
    FragLag coal m ((fragSegOps.traced id).emit i c s) t := by
  refine ⟨h.emit_coalDesc hc i c, h.size_lt, h.nlo, fun ht' => absurd ht ht', ?_⟩
  intro hfrags
  obtain ⟨hold, hnew⟩ := fragsOk_emit hfrags
  obtain ⟨u, hu, hsize, hsegs⟩ := h.coalDesc
  have hsize_lt := h.size_lt
  rcases h.progress hold with hclean | ⟨pre, x, post, tail, outs, e, rest, ds, ds', hb⟩
  · -- before the first failure the same packets are pending
    have hsame : s.1.coalDesc.gsoSegs = t.1.segs := congrArg RmnetFragDescriptor.gsoSegs hclean.coalDesc
    exact absurd (hsame.trans ht) hs
  · obtain ⟨ds'', hb'⟩ := hb.call hc hu (by omega) (by omega) hnew i c t [] []
      (List.append_nil _).symm (by simp) (List.append_nil _).symm
    exact .inr ⟨_, _, _, _, _, _, _, _, _, hb'⟩

/-- **Side by side**: the run with failures lags behind the plan. -/
theorem fragLag (hc : Measured coal m) :
    SegLag (fragSegOps.traced id) (planOps.traced fun _ => ()) (LagOk m coal.len) (FragLag coal m) where
  segs h _ ht := h.segs ht
  setSize _ hn h := h.setSize hn
  setSegs_one h _ := h.setSegs_one
  setSegs_succ h hok := h.setSegs_succ hok.2
  csumErr h := h.silent (f := id) (fun _ hu => hu) (fun _ => rfl) rfl rfl rfl rfl rfl h.coalDesc h.size_lt h.nlo h.segs
  emit i c h hok := h.emit hc i c hok
  emit_left i c h hs ht hok := h.emit_left hc i c hs ht hok.2
  ok_setSize _ h := ⟨h.1, h.2⟩
  ok_setSegs _ h := ⟨⟨h.1.1, Nat.lt_of_le_of_lt (Nat.le_max_left _ _) h.1.2⟩, Nat.lt_of_succ_lt h.2⟩
  ok_csumErr h := h
  ok_emit _ _ h := ⟨(planFits_emit h.1).2, h.2⟩

end Lag

/-! ### Without the failed entries -/

section Without

variable {α : Type} {calls : List (CallKey × SegState)}

theorem withoutFailed_append {ks ls : List CallKey} {vs ws : List α} (h : ks.length = vs.length) :
    withoutFailed calls (ks ++ ls) (vs ++ ws) = withoutFailed calls ks vs ++ withoutFailed calls ls ws := by
  unfold withoutFailed
  rw [List.zip_append h, List.filter_append, List.map_append]

theorem withoutFailed_cons {k : CallKey} (hk : FailedIn calls k) (ks : List CallKey) (v : α) (vs : List α) :
    withoutFailed calls (k :: ks) (v :: vs) = withoutFailed calls ks vs := by
  unfold withoutFailed
  rw [List.zip_cons_cons, List.filter_cons_of_neg (by simp [hk])]

theorem withoutFailed_of_got {ks : List CallKey} {vs : List α} (h : ks.length = vs.length)
    (hgot : ∀ k ∈ ks, ¬ FailedIn calls k) : withoutFailed calls ks vs = vs := by
  have hall : (ks.zip vs).filter (fun x => ¬ FailedIn calls x.1) = ks.zip vs := by
    rw [List.filter_eq_self]
    intro x hx
    exact decide_eq_true (hgot x.1 (List.of_mem_zip hx).1)
  unfold withoutFailed
  rw [hall]
  exact List.map_snd_zip h.ge

theorem withoutFailed_eq_nil {ks : List CallKey} {vs : List α} (h : ks.length = vs.length) :
    withoutFailed calls ks vs = [] ↔ ∀ k ∈ ks, FailedIn calls k := by
  unfold withoutFailed
  rw [List.map_eq_nil_iff, List.filter_eq_nil_iff]
  constructor
  · intro hall k hk
    rw [← List.map_fst_zip h.le, List.mem_map] at hk
    obtain ⟨x, hx, rfl⟩ := hk
    simpa using hall x hx
  · intro hall x hx
    simpa using hall x.1 (List.of_mem_zip hx).1

theorem mem_of_mem_withoutFailed {ks : List CallKey} {vs : List α} {v : α} (h : v ∈ withoutFailed calls ks vs) :
    v ∈ vs := by
  obtain ⟨x, hx, rfl⟩ := List.mem_map.mp h
  exact (List.of_mem_zip (List.mem_of_mem_filter hx)).2

end Without

section Broken

variable {coal : RmnetFragDescriptor} {m : CoalMeta} {s : LagLeft} {t : LagRight} {pre post : List (CallKey × SegState)}
  {x : CallKey × SegState} {tail : List CallKey} {outs rest : List Emission} {e : Emission}
  {ds ds' : List RmnetFragDescriptor}

theorem LagBroken.left_keys (h : LagBroken coal m s t pre x post tail outs e rest ds ds') :
    s.2.keys = pre.map Prod.fst ++ x.1 :: post.map Prod.fst := by
  unfold Trace.keys
  rw [h.calls, List.map_append, List.map_cons]

theorem LagBroken.tail_length (h : LagBroken coal m s t pre x post tail outs e rest ds ds')
    (hcount : t.1.out.length = t.2.keys.length) : tail.length = rest.length := by
  rw [h.out, h.keys] at hcount
  simp only [List.length_append, List.length_cons, List.length_map, h.outs_length] at hcount
  omega

/-- The keys of the calls before the first failure are those of no failing call. -/
theorem LagBroken.pre_got (h : LagBroken coal m s t pre x post tail outs e rest ds ds') (hnodup : s.2.keys.Nodup) :
    ∀ k ∈ pre.map Prod.fst, ¬ FailedIn s.2.calls k := by
  rintro k hk ⟨c, hc, rfl, hfail⟩
  rw [h.left_keys, List.nodup_append] at hnodup
  rw [h.calls] at hc
  rcases List.mem_append.mp hc with hc | hc
  · exact hfail (h.got c hc)
  · exact hnodup.2.2 c.1 hk c.1 (List.mem_map_of_mem (f := Prod.fst) hc) rfl

theorem LagBroken.failedIn (h : LagBroken coal m s t pre x post tail outs e rest ds ds') :
    FailedIn s.2.calls x.1 := by
  refine ⟨x, ?_, rfl, h.failed⟩
  rw [h.calls]
  exact List.mem_append_right _ List.mem_cons_self

/-- Only what comes after the first failure is in question. -/
theorem LagBroken.out_eq_iff (h : LagBroken coal m s t pre x post tail outs e rest ds ds')
    (hnodup : s.2.keys.Nodup) :
    s.1.list.map RmnetFragDescriptor.segView
        = withoutFailed s.2.calls t.2.keys (t.1.out.map (emissionView m coal.bytes)) ↔
      ds'.map RmnetFragDescriptor.segView
        = withoutFailed s.2.calls tail (rest.map (emissionView m coal.bytes)) := by
  have hlen : (pre.map Prod.fst).length = (outs.map (emissionView m coal.bytes)).length := by
    rw [List.length_map, List.length_map, h.outs_length]
  rw [h.list, h.keys, h.out, List.map_append, List.map_append, List.map_cons, withoutFailed_append hlen,
    withoutFailed_of_got hlen (h.pre_got hnodup), withoutFailed_cons h.failedIn, h.views,
    List.append_cancel_left_eq]

/-- The condition in terms of what is behind the first failure. -/
theorem LagBroken.nothing_iff (h : LagBroken coal m s t pre x post tail outs e rest ds ds')
    (hnodup : s.2.keys.Nodup) :
    NothingAfterFailure s.2.calls t.2.keys ↔ ds' = [] ∧ ∀ k ∈ tail, FailedIn s.2.calls k := by
  have hall : ((pre ++ x :: post).map Prod.fst).Nodup := by
    rw [← h.calls]
    exact hnodup
  unfold NothingAfterFailure
  rw [h.calls]
  constructor
  · intro hpair
    have hafter := (List.pairwise_cons.mp (List.pairwise_append.mp hpair).2.1).1
    refine ⟨?_, ?_⟩
    · rcases h.late with hlate | ⟨⟨c, hc, hgot, hin⟩, -⟩
      · exact hlate.1
      · exact absurd hin (hafter c hc h.failed hgot).1
    · intro k hk
      obtain ⟨y, hy, rfl⟩ := List.mem_map.mp (h.tail_sub k hk)
      have hkeys : y.1 ∈ t.2.keys := by
        rw [h.keys]
        exact List.mem_append_right _ (List.mem_cons_of_mem _ hk)
      exact ⟨y, List.mem_append_right _ (List.mem_cons_of_mem _ hy), rfl,
        fun hgot => (hafter y hy h.failed hgot).2 hkeys⟩
  · rintro ⟨hnil, htail⟩
    rw [h.left_keys] at hnodup
    obtain ⟨-, hright, hdisj⟩ := List.nodup_append.mp hnodup
    obtain ⟨hx, hpost⟩ := List.nodup_cons.mp hright
    have hafter : ∀ y ∈ post, y.2.Got → ¬ y.2.Inside ∧ y.1 ∉ t.2.keys := by
      intro y hy hgot
      have hykey : y.1 ∈ post.map Prod.fst := List.mem_map_of_mem (f := Prod.fst) hy
      refine ⟨?_, ?_⟩
      · rcases h.late with hlate | ⟨-, d, ds'', hd, -⟩
        · exact hlate.2.2 y hy hgot
        · rw [hnil] at hd
          cases hd
      · intro hmem
        rw [h.keys] at hmem
        rcases List.mem_append.mp hmem with hmem | hmem
        · exact hdisj y.1 hmem y.1 (List.mem_cons_of_mem _ hykey) rfl
        · rcases List.mem_cons.mp hmem with heq | hmem
          · exact hx (heq ▸ hykey)
          · -- a call of the plan behind the first failure: the one with its key is `y`
            obtain ⟨c, hc, hkey, hfail⟩ := htail y.1 hmem
            have hcy := List.inj_on_of_nodup_map hall hc (List.mem_append_right _ (List.mem_cons_of_mem _ hy)) hkey
            exact hfail (hcy ▸ hgot)
    rw [List.pairwise_append]
    refine ⟨?_, ?_, ?_⟩
    · exact List.pairwise_of_forall_mem_list fun a ha b _ hfail => absurd (h.got a ha) hfail
    · exact List.pairwise_cons.mpr ⟨fun y hy _ => hafter y hy,
        List.pairwise_of_forall_mem_list fun a _ b hb _ => hafter b hb⟩
    · exact fun a ha b _ hfail => absurd (h.got a ha) hfail

/-- The emissions of the plan behind the first failure have other sequence numbers. -/
theorem LagBroken.seq_ne (h : LagBroken coal m s t pre x post tail outs e rest ds ds')
    (htcp : m.transProto = ipprotoTcp) (hoffs : t.1.out.Pairwise fun e e' => e.off < e'.off)
    (hlt : ∀ e ∈ t.1.out, e.off < 65536) :
    ∀ v ∈ rest.map (emissionView m coal.bytes), v.2.1 ≠ (emissionView m coal.bytes e).2.1 := by
  intro v hv heq
  obtain ⟨e', he', rfl⟩ := List.mem_map.mp hv
  rw [h.out] at hoffs hlt
  have hoff := (List.pairwise_cons.mp (List.pairwise_append.mp hoffs).2.1).1 e' he'
  have he := hlt e (List.mem_append_right _ List.mem_cons_self)
  have he'lt := hlt e' (List.mem_append_right _ (List.mem_cons_of_mem _ he'))
  simp only [emissionView, if_pos htcp, Option.some.injEq, u32] at heq
  omega

/-- With the condition nothing else goes missing and nothing else comes out. -/
theorem LagBroken.out_of_nothing (h : LagBroken coal m s t pre x post tail outs e rest ds ds')
    (hnodup : s.2.keys.Nodup) (hcount : t.1.out.length = t.2.keys.length)
    (hnothing : NothingAfterFailure s.2.calls t.2.keys) :
    s.1.list.map RmnetFragDescriptor.segView
      = withoutFailed s.2.calls t.2.keys (t.1.out.map (emissionView m coal.bytes)) := by
  obtain ⟨hnil, htail⟩ := (h.nothing_iff hnodup).mp hnothing
  have hlen : tail.length = (rest.map (emissionView m coal.bytes)).length := by
    rw [List.length_map, h.tail_length hcount]
  rw [h.out_eq_iff hnodup, hnil, List.map_nil, eq_comm, withoutFailed_eq_nil hlen]
  exact htail

/-- Without the condition some data comes out under a sequence number that is not its own, or an entry is
missing. -/
theorem LagBroken.nothing_of_out (h : LagBroken coal m s t pre x post tail outs e rest ds ds')
    (hnodup : s.2.keys.Nodup) (hcount : t.1.out.length = t.2.keys.length) (htcp : m.transProto = ipprotoTcp)
    (hoffs : t.1.out.Pairwise fun e e' => e.off < e'.off) (hlt : ∀ e ∈ t.1.out, e.off < 65536)
    (hout : s.1.list.map RmnetFragDescriptor.segView
      = withoutFailed s.2.calls t.2.keys (t.1.out.map (emissionView m coal.bytes))) :
    NothingAfterFailure s.2.calls t.2.keys := by
  have hlen : tail.length = (rest.map (emissionView m coal.bytes)).length := by
    rw [List.length_map, h.tail_length hcount]
  rw [h.out_eq_iff hnodup] at hout
  have hnil : ds' = [] := by
    rcases h.late with hlate | ⟨-, d, ds'', rfl, hseq⟩
    · exact hlate.1
    · -- the first of them has the sequence number of the emission that failed
      have hmem : d.segView ∈ withoutFailed s.2.calls tail (rest.map (emissionView m coal.bytes)) := by
        rw [← hout]
        exact List.mem_cons_self
      exact absurd hseq (h.seq_ne htcp hoffs hlt _ (mem_of_mem_withoutFailed hmem))
  rw [hnil, List.map_nil, eq_comm, withoutFailed_eq_nil hlen] at hout
  exact (h.nothing_iff hnodup).mpr ⟨hnil, hout⟩

end Broken

/-! ### The run without failures -/

/-- With allocations that succeed a call gets what it needs. -/
theorem segmentCall_allocOk {coal : RmnetFragDescriptor} {m : CoalMeta} (hc : Measured coal m) {port : RmnetPort}
    (halloc : port.AllocOk) (u : PlanState) (list : List RmnetFragDescriptor)
    (hin : m.hlen + u.off + u.size * u.segs ≤ coal.len) :
    SegState.Got ⟨port, coal.atPlan u, list⟩ ∧ SegState.FragsOk ⟨port, coal.atPlan u, list⟩ := by
  obtain ⟨port₁, a, hget, halloc₁⟩ := getFragDescriptor_frame halloc
  have hlt := hc.len_lt
  have hs' : (coal.atPlan u).Sized := ⟨hc.sized.len_eq, hc.sized.len_lt⟩
  have hlen : (coal.atPlan u).len = coal.len := rfl
  have hhlen : (coal.atPlan u).ipLen + (coal.atPlan u).transLen = m.hlen := by
    show coal.ipLen + coal.transLen = m.ipLen + m.transLen
    rw [hc.ipLen, hc.transLen]
  have hoff : (coal.atPlan u).dataOffset = u.off := rfl
  have hdlen : u32 ((coal.atPlan u).gsoSize * (coal.atPlan u).gsoSegs) = u.size * u.segs :=
    u32_of_lt (show u.size * u.segs < 4294967296 by omega)
  refine ⟨?_, ?_⟩
  · show (rmnetGetFragDescriptor port).2.isSome = true
    rw [hget]
    rfl
  · intro new hnew
    simp only [hget, hhlen, hoff, hdlen]
    rw [rmnetFragDescriptorAddFragsFrom_eq halloc₁ _ hs' (by rw [hlen]; omega) (by simp only; omega)]
    refine ⟨rfl, fun _ => ?_⟩
    rw [rmnetFragDescriptorAddFragsFrom_eq halloc₁ _ hs' (by rw [hlen]; omega) (by simp only; omega)]

/-- The simulation of the plan, and the calls it makes. -/
theorem tracedFragSim {coal : RmnetFragDescriptor} {m : CoalMeta} (hc : Measured coal m) :
    SegSim (fragSegOps.traced id) planOps (PlanFits m.hlen coal.len)
      (fun s t => FragSim coal m [] s.1 t ∧ ∀ c ∈ s.2.calls, c.2.Got ∧ c.2.FragsOk) where
  segs h := (fragSim hc []).segs h.1
  setSize n hn h := ⟨(fragSim hc []).setSize n hn h.1, h.2⟩
  setSegs n h hok := ⟨(fragSim hc []).setSegs n h.1 hok, h.2⟩
  csumErr h := ⟨(fragSim hc []).csumErr h.1, h.2⟩
  emit := by
    intro s t i c h hok
    refine ⟨(fragSim hc []).emit i c h.1 hok, ?_⟩
    intro x hx
    rcases List.mem_append.mp hx with hx | hx
    · exact h.2 x hx
    · rw [List.mem_singleton.mp hx]
      obtain ⟨⟨port, coalDesc, list⟩, tr⟩ := s
      obtain ⟨⟨halloc, rfl, -⟩, -⟩ := h
      exact segmentCall_allocOk hc halloc t list (planFits_emit hok).1
  ok_setSize := (fragSim hc []).ok_setSize
  ok_setSegs := (fragSim hc []).ok_setSegs
  ok_csumErr := (fragSim hc []).ok_csumErr
  ok_emit := (fragSim hc []).ok_emit

/-! ### The whole function -/

/-- The plan with its calls. -/
def tracedPlan (gro : Bool) (hlen : ℕ) (pairs : List NlPair) (mask : ℕ) : LagRight :=
  segNlos (planOps.traced fun _ => ()) gro hlen pairs 0 mask ({}, {})

theorem tracedPlan_fst (gro : Bool) (hlen : ℕ) (pairs : List NlPair) (mask : ℕ) :
    (tracedPlan gro hlen pairs mask).1 = segmentPlan gro hlen pairs mask :=
  segNlos_traced planOps _ gro hlen pairs 0 mask _

/-- The emissions for packets with payload start one behind the other. -/
theorem plan_increasing (gro : Bool) {hlen : ℕ} {pairs : List NlPair}
    (hpairs : ∀ p ∈ pairs, hlen < p.pktLen ∧ p.pktLen < 65536) (mask : ℕ) :
    (segmentPlan gro hlen pairs mask).out.Pairwise fun e e' => e.off < e'.off := by
  obtain ⟨bs, hbs, hout, -, hkind⟩ := plan_batches gro hlen pairs mask
  have hsegs : ∀ b ∈ bs, 1 ≤ b.segs := by
    cases gro with
    | false =>
      intro b hb
      exact (hkind b hb).ge
    | true => exact hkind.pos
  have hsize : ∀ b ∈ bs, 0 < b.pkt.size * b.segs := by
    intro b hb
    have hmem : b.pkt ∈ framePackets hlen 0 pairs mask := by
      rw [← hbs]
      exact List.mem_flatMap.mpr ⟨b, hb, List.mem_replicate.mpr ⟨Nat.ne_of_gt (hsegs b hb), rfl⟩⟩
    exact Nat.mul_pos (framePackets_size_pos hpairs 0 mask _ hmem) (hsegs b hb)
  have hpair := (batchCores_increasing 0 hsize).1
  rw [← hout, List.pairwise_map] at hpair
  exact hpair

section Frame

variable {frags : List SkbFrag} {hd ip : Bytes} {m : CoalMeta}

/-- The descriptors on the list and the calls are those of one run of the traced loop. -/
theorem segmentCalls_frame (port : RmnetPort) (hf : CoalFrame frags hd ip) (a : ℕ) (dev : NetDevice)
    (hm : coalMeta ip = some m) (mask : ℕ) (hbuggy : (rmnetMapV5CsumBuggy (coalHeaderOf hd) && !m.zeroCsum) = false)
    (hfast : (dev.groHw && m.plain && (coalHeaderOf hd).numNlos = 1 && (coalHeaderOf hd).csumValid) = false) :
    ∃ frags' stats, fragsBytes frags' = ip ∧
      let s := segNlos (fragSegOps.traced id) (dev.groHw && m.plain) m.hlen (framePairs hd) 0 mask
        (⟨{ port with stats := stats }, measuredDesc a frags' dev m, []⟩, {})
      s.2.calls = segmentCalls port (frameDesc a frags dev) mask ∧
        s.1 = rmnetFragSegmentCoalData port (frameDesc a frags dev) mask [] := by
  obtain ⟨frags', stats, hb, hstart⟩ := segmentStart_frame port hf a dev hm
  refine ⟨frags', stats, hb, ?_, ?_⟩
  · unfold segmentCalls
    rw [hstart]
    simp only
    rw [if_neg (by rw [hbuggy]; exact Bool.false_ne_true), if_neg (by rw [hfast]; exact Bool.false_ne_true)]
    rfl
  · rw [segNlos_traced, segmentCoalData_start hstart]
    unfold segmentMeasured
    rw [if_neg (by rw [hbuggy]; exact Bool.false_ne_true), if_neg (by rw [hfast]; exact Bool.false_ne_true)]
    rfl

/-- The coalesced descriptor of an exact frame. -/
theorem ExactFrame.measuredDesc (hf : CoalFrame frags hd ip) (hx : ExactFrame m hd ip) (a : ℕ) (dev : NetDevice)
    {frags' : List SkbFrag} (hb : fragsBytes frags' = ip) :
    Measured (Rmnet.measuredDesc a frags' dev m) m ∧ (Rmnet.measuredDesc a frags' dev m).len = ip.length := by
  have hsize : fragsSize frags' = ip.length := by
    rw [← hb, fragsBytes_length]
  exact ⟨measuredDesc_measured (by rw [hsize]; exact hf.ip_length) (by rw [hb]; exact hx.measured), hsize⟩

/-- The failing run of a frame beside the plan. -/
theorem fragLag_run (port : RmnetPort) (hf : CoalFrame frags hd ip) (hx : ExactFrame m hd ip) (a : ℕ)
    (dev : NetDevice) (mask : ℕ) (hbuggy : (rmnetMapV5CsumBuggy (coalHeaderOf hd) && !m.zeroCsum) = false)
    (hfast : (dev.groHw && m.plain && (coalHeaderOf hd).numNlos = 1 && (coalHeaderOf hd).csumValid) = false)
    (hfrags : ∀ c ∈ segmentCalls port (frameDesc a frags dev) mask, c.2.FragsOk) :
    ∃ coal s, coal.bytes = ip ∧ s.2.calls = segmentCalls port (frameDesc a frags dev) mask ∧ s.2.keys.Nodup ∧
      s.1 = rmnetFragSegmentCoalData port (frameDesc a frags dev) mask [] ∧
      (LagClean coal m s (tracedPlan (dev.groHw && m.plain) m.hlen (framePairs hd) mask) ∨
        ∃ pre x post tail outs e rest ds ds', LagBroken coal m s
          (tracedPlan (dev.groHw && m.plain) m.hlen (framePairs hd) mask) pre x post tail outs e rest ds ds') := by
  obtain ⟨frags', stats, hb, hcalls, hlist⟩ := segmentCalls_frame port hf a dev hx.measured mask hbuggy hfast
  obtain ⟨hc, hlen⟩ := hx.measuredDesc hf a dev hb
  have hcount : ((framePairs hd).map NlPair.numPackets).sum ≤ 48 := hx.count
  have hok : LagOk m (measuredDesc a frags' dev m).len
      (tracedPlan (dev.groHw && m.plain) m.hlen (framePairs hd) mask) := by
    refine ⟨?_, ?_⟩
    · rw [tracedPlan_fst, hlen]
      exact hx.planFits _ mask
    · rw [tracedPlan, traced_pkts]
      show 0 + _ < _
      omega
  have hinit : FragLag (measuredDesc a frags' dev m) m
      (⟨{ port with stats := stats }, measuredDesc a frags' dev m, []⟩, {}) ({}, {}) :=
    ⟨⟨{}, rfl, rfl, Nat.le_refl _⟩, by decide, rfl, fun h => absurd rfl h,
      fun _ => .inl ⟨rfl, by simp, rfl, rfl, rfl⟩⟩
  have hrun := (fragLag hc).run (framePairs hd) hinit hok
  refine ⟨measuredDesc a frags' dev m, _, hb, hcalls, ?_, hlist, hrun.progress ?_⟩
  · refine traced_nodup (framePairs hd) (by omega) ⟨List.nodup_nil, ?_⟩
    intro k hk
    cases hk
  · rw [hcalls]
    exact hfrags

/-- The run without failures makes the calls of the plan and emits what it emits. -/
theorem segmentCalls_free {free : RmnetPort} (hfree : free.AllocOk) (hf : CoalFrame frags hd ip)
    (hx : ExactFrame m hd ip) (a : ℕ) (dev : NetDevice) (mask : ℕ)
    (hbuggy : (rmnetMapV5CsumBuggy (coalHeaderOf hd) && !m.zeroCsum) = false)
    (hfast : (dev.groHw && m.plain && (coalHeaderOf hd).numNlos = 1 && (coalHeaderOf hd).csumValid) = false) :
    let t := tracedPlan (dev.groHw && m.plain) m.hlen (framePairs hd) mask
    (segmentCalls free (frameDesc a frags dev) mask).map Prod.fst = t.2.keys ∧ t.1.out.length = t.2.keys.length ∧
      (rmnetFragSegmentCoalData free (frameDesc a frags dev) mask []).list.map RmnetFragDescriptor.segView
        = t.1.out.map (emissionView m ip) := by
  obtain ⟨frags', stats, hb, hcalls, -⟩ := segmentCalls_frame free hf a dev hx.measured mask hbuggy hfast
  obtain ⟨hc, hlen⟩ := hx.measuredDesc hf a dev hb
  have hall : ∀ c ∈ segmentCalls free (frameDesc a frags dev) mask, c.2.Got ∧ c.2.FragsOk := by
    rw [← hcalls]
    have hfits : PlanFits m.hlen (measuredDesc a frags' dev m).len
        (segmentPlan (dev.groHw && m.plain) m.hlen (framePairs hd) mask) := by
      rw [hlen]
      exact hx.planFits _ mask
    exact ((tracedFragSim hc).run (framePairs hd) ⟨⟨hfree, rfl, [], rfl, .nil⟩, by simp⟩ hfits).2
  obtain ⟨coal, s, hbytes, hs, -, hlist, hrun⟩ := fragLag_run free hf hx a dev mask hbuggy hfast
    fun c hc => (hall c hc).2
  rcases hrun with hclean | ⟨pre, x, post, tail, outs, e, rest, ds, ds', hbroken⟩
  · refine ⟨?_, hclean.count, ?_⟩
    · rw [← hclean.keys, ← hs]
      rfl
    · rw [← hlist, hclean.views, hbytes]
  · refine absurd (hall x ?_).1 hbroken.failed
    rw [← hs, hbroken.calls]
    exact List.mem_append_right _ List.mem_cons_self

/-- **When a failure costs only the packet it hits.**  An exact frame on the segmentation loop, with any failures of
`rmnet_get_frag_descriptor`, beside the same frame on a port where nothing fails.  If after a call that fails none
gets a descriptor, the descriptors are those of the run without failures, less the entries of the calls that fail.
For TCP packets with payload it is so in no other case. -/
theorem failure_costs_iff {port free : RmnetPort} (hfree : free.AllocOk) (hf : CoalFrame frags hd ip)
    (hx : ExactFrame m hd ip) (a : ℕ) (dev : NetDevice) (mask : ℕ)
    (hbuggy : (rmnetMapV5CsumBuggy (coalHeaderOf hd) && !m.zeroCsum) = false)
    (hfast : (dev.groHw && m.plain && (coalHeaderOf hd).numNlos = 1 && (coalHeaderOf hd).csumValid) = false)
    (hfrags : ∀ c ∈ segmentCalls port (frameDesc a frags dev) mask, c.2.FragsOk) :
    let calls := segmentCalls port (frameDesc a frags dev) mask
    let keys := (segmentCalls free (frameDesc a frags dev) mask).map Prod.fst
    let out := (rmnetFragSegmentCoalData port (frameDesc a frags dev) mask []).list.map RmnetFragDescriptor.segView
    let freeOut := (rmnetFragSegmentCoalData free (frameDesc a frags dev) mask []).list.map RmnetFragDescriptor.segView
    (NothingAfterFailure calls keys → out = withoutFailed calls keys freeOut) ∧
      (m.transProto = ipprotoTcp → (∀ p ∈ framePairs hd, m.hlen < p.pktLen) →
        out = withoutFailed calls keys freeOut → NothingAfterFailure calls keys) := by
  intro calls keys out freeOut
  obtain ⟨hkeys, hcount, hfreeOut⟩ := segmentCalls_free hfree hf hx a dev mask hbuggy hfast
  obtain ⟨coal, s, hbytes, hcalls, hnodup, hlist, hrun⟩ := fragLag_run port hf hx a dev mask hbuggy hfast hfrags
  have hout : out = s.1.list.map RmnetFragDescriptor.segView := by
    rw [hlist]
  rw [hout, show freeOut = _ from hfreeOut, show keys = _ from hkeys, show calls = _ from hcalls.symm, ← hbytes]
  rcases hrun with hclean | ⟨pre, x, post, tail, outs, e, rest, ds, ds', hbroken⟩
  · have hgot : ∀ k ∈ (tracedPlan (dev.groHw && m.plain) m.hlen (framePairs hd) mask).2.keys,
        ¬ FailedIn s.2.calls k := by
      rintro k - ⟨c, hc, -, hfail⟩
      exact hfail (hclean.got c hc)
    refine ⟨fun _ => ?_, fun _ _ _ => ?_⟩
    · rw [withoutFailed_of_got (by rw [List.length_map, hcount]) hgot, hclean.views]
    · exact List.pairwise_of_forall_mem_list fun c hc _ _ hfail => absurd (hclean.got c hc) hfail
  · refine ⟨hbroken.out_of_nothing hnodup hcount, fun htcp hpos => hbroken.nothing_of_out hnodup hcount htcp ?_ ?_⟩
    · rw [tracedPlan_fst]
      exact plan_increasing _ (fun p hp => ⟨hpos p hp, coalHeaderOf_pktLen hd p (List.mem_of_mem_take hp)⟩) mask
    · rw [tracedPlan_fst]
      intro e he
      have hin := (hx.planFits (dev.groHw && m.plain) mask).1 e he
      have hlt := hf.ip_length
      omega

end Frame

/-- A port whose pool is empty, so that every descriptor is allocated. -/
def failingPort (alloc : ℕ → Bool) : RmnetPort := { freshPort with freeList := [], alloc := alloc }

/-- The call for the bad packet fails, and so do all after it: the good packets come out as they should. -/
theorem failure_costs_last :
    let desc := frameDesc 0 (twoFrags (runHeaders 42 4 3) (tcp4Header 7 100 0x11 ++ [1, 2, 3, 4, 5, 6]))
      (plainDevice.withGro true)
    let port := failingPort fun n => n < 4
    (segmentCalls port desc 4).map (fun c => decide c.2.Got) = [true, false, false] ∧
      (rmnetFragSegmentCoalData port desc 4 []).list.map RmnetFragDescriptor.segView
        = withoutFailed (segmentCalls port desc 4) ((segmentCalls freshPort desc 4).map Prod.fst)
            ((rmnetFragSegmentCoalData freshPort desc 4 []).list.map RmnetFragDescriptor.segView) := by
  intro desc port
  have hf : CoalFrame (twoFrags (runHeaders 42 4 3) (tcp4Header 7 100 0x11 ++ [1, 2, 3, 4, 5, 6]))
      (runHeaders 42 4 3) (tcp4Header 7 100 0x11 ++ [1, 2, 3, 4, 5, 6]) :=
    twoFrags_frame (by decide) (by decide)
  have hx : ExactFrame tcp4Meta (runHeaders 42 4 3) (tcp4Header 7 100 0x11 ++ [1, 2, 3, 4, 5, 6]) :=
    ⟨by decide, by decide, by decide, by decide⟩
  have hfrags : ∀ c ∈ segmentCalls port desc 4, c.2.FragsOk := by decide +kernel
  have hnothing : NothingAfterFailure (segmentCalls port desc 4) ((segmentCalls freshPort desc 4).map Prod.fst) := by
    unfold NothingAfterFailure
    decide +kernel
  exact ⟨by decide +kernel, (failure_costs_iff (fun _ => rfl) hf hx 0 (plainDevice.withGro true) 4 (by decide)
    (by decide) hfrags).1 hnothing⟩

/-- Only the call for the bad packet fails, and the call at the end of the pair passes its data on as good. -/
theorem failure_passes_bad_packet :
    let hd := runHeaders 42 4 3
    let ip := tcp4Header 7 100 0x11 ++ [1, 2, 3, 4, 5, 6]
    let desc := frameDesc 0 (twoFrags hd ip) (plainDevice.withGro true)
    let port := (rmnetFragDataCheckCoalHeader (failingPort fun n => n ≠ 4) desc).1
    let out := (rmnetFragSegmentCoalData port desc 4 []).list.map RmnetFragDescriptor.segView
    let expected := withoutFailed (segmentCalls port desc 4) ((segmentCalls freshPort desc 4).map Prod.fst)
      ((rmnetFragSegmentCoalData freshPort desc 4 []).list.map RmnetFragDescriptor.segView)
    CoalFrame (twoFrags hd ip) hd ip ∧ ExactFrame tcp4Meta hd ip ∧
      (rmnetFragDataCheckCoalHeader (failingPort fun n => n ≠ 4) desc).2 = some 4 ∧
      (∀ c ∈ segmentCalls port desc 4, c.2.FragsOk) ∧
      out = [([1, 2, 3, 4], some 100, true), ([5, 6], some 104, true)] ∧
      expected = [([1, 2, 3, 4], some 100, true)] ∧ out ≠ expected := by
  refine ⟨twoFrags_frame (by decide) (by decide), ⟨by decide, by decide, by decide, by decide⟩, ?_, ?_, ?_, ?_, ?_⟩
  · decide +kernel
  · decide +kernel
  · decide +kernel
  · decide +kernel
  · decide +kernel

end Rmnet
