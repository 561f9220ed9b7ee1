import Rmnet.Frag.Descriptor

/-!
# De-aggregation of received buffers

`rmnet_frag_deaggregate` cuts the page fragments of a received buffer into QMAP packets, one descriptor
each, consuming the fragments in place.  A fragment that is used up has size zero and holds no bytes, so
the model drops it: the index `start_frag` into the array is the head of the list that is left.

The result is a parser of the byte stream.  `qmapPackets` is that parser, on bytes alone, and
`deaggregate_parses` says that the descriptors are its packets for every way of laying the bytes out in
pages.  The loop makes progress in bytes, not in fragments: each packet takes at least five.
-/

namespace Rmnet

open Word Field

/-! ### The code -/

/-- A received buffer: linear part, page fragments still to be consumed, and what `skb_copy_bits` finds
behind them on the `frag_list`. -/
structure RxSkb where
  linear : Bytes := []
  frags : List SkbFrag
  chain : Bytes := []

/-- `skb_copy_bits`, which counts the linear part and the fragments that are left. -/
def skbCopyBits (skb : RxSkb) (off len : ℕ) : Option Bytes :=
  let data := skb.linear ++ fragsBytes skb.frags ++ skb.chain
  if data.length < off + len then none else some ((data.drop off).take len)

/-- The bytes at the front of the first fragment if it holds `n` of them, else a copy. -/
def RxSkb.front (skb : RxSkb) (off len : ℕ) : Option Bytes :=
  match skb.frags with
  | [] => none
  | f :: _ => if off + len ≤ f.size then some (f.slice off len).bytes else skbCopyBits skb off len

/-- The size of the v5 header that a type byte announces. -/
def v5HeaderSize (type : ℕ) : ℕ :=
  if type / 2 = headerTypeCoalescing then v5CoalHeaderSize
  else if type / 2 = headerTypeCsumOffload then v5CsumHeaderSize
  else 0

/-- The length of the frame in the buffer: `none` when the type byte cannot be read. -/
def RxSkb.frameLen (skb : RxSkb) (dataFormat : ℕ) (maph : MapHeader) : Option ℕ :=
  let pktLen := maph.pktLen + mapHeaderSize
  if ingressMapCksumv4 dataFormat then some (pktLen + dlCsumTrailerSize)
  else if (ingressMapCksumv5 dataFormat || ingressCoalesce dataFormat) && !maph.cdBit then
    (skb.front mapHeaderSize 1).map fun type => pktLen + v5HeaderSize (byteAt type 0)
  else some pktLen

/-- The loop of `rmnet_frag_deaggregate_one` over the fragments: those left and the bytes still missing,
or `none` when a fragment could not be added. -/
def takeFrags (port : RmnetPort) (desc : RmnetFragDescriptor) :
    List SkbFrag → ℕ → RmnetPort × RmnetFragDescriptor × Option (List SkbFrag × ℕ)
  | [], pktLen => (port, desc, some ([], pktLen))
  | f :: fs, pktLen =>
      if pktLen = 0 then (port, desc, some (f :: fs, 0))
      else
        let copyLen := min f.size pktLen
        match rmnetFragDescriptorAddFrag port desc (f.slice 0 copyLen) with
        | (port, desc, false) => (port, desc, none)
        | (port, desc, true) =>
            if f.size - copyLen = 0 then takeFrags port desc fs (pktLen - copyLen)
            else
              -- the fragment is not exhausted, so the packet is complete
              (port, desc, some (f.slice copyLen (f.size - copyLen) :: fs, pktLen - copyLen))

/-- `rmnet_frag_deaggregate_one`: the descriptor added to the list and the fragments left, or `none`
for -1. -/
def rmnetFragDeaggregateOne (port : RmnetPort) (skb : RxSkb) :
    RmnetPort × Option (RmnetFragDescriptor × List SkbFrag) :=
  match (skb.front 0 mapHeaderSize).map MapHeader.parse with
  | none => (port, none)
  | some maph =>
      if maph.pktLen = 0 then (port, none)
      else
        match rmnetGetFragDescriptor port with
        | (port, none) => (port, none)
        | (port, some desc) =>
            match skb.frameLen port.dataFormat maph with
            | none => (port, none)
            | some pktLen =>
                match takeFrags port desc skb.frags pktLen with
                | (port, desc, none) => ((rmnetRecycleFragDescriptor port desc).1, none)
                | (port, desc, some (rest, left)) =>
                    if left ≠ 0 then ((rmnetRecycleFragDescriptor port desc).1, none)
                    else (port, some (desc, rest))

/-- The loop of `rmnet_frag_deaggregate`; `none` is running out of fuel. -/
def deaggregateLoop : ℕ → RmnetPort → RxSkb → List RmnetFragDescriptor →
    Option (RmnetPort × List RmnetFragDescriptor)
  | 0, _, _, _ => none
  | fuel + 1, port, skb, list =>
      if skb.frags.isEmpty then some (port, list)
      else
        match rmnetFragDeaggregateOne port skb with
        | (port, none) => some (port, list)
        | (port, some (desc, rest)) => deaggregateLoop fuel port { skb with frags := rest } (list ++ [desc])

/-- `rmnet_frag_deaggregate`. -/
def rmnetFragDeaggregate (port : RmnetPort) (skb : RxSkb) (list : List RmnetFragDescriptor) :
    Option (RmnetPort × List RmnetFragDescriptor) :=
  deaggregateLoop (fragsSize skb.frags + 1) port skb list

/-! ### Reading the front of a buffer -/

theorem MapHeader.parse_take (b : Bytes) : MapHeader.parse (b.take mapHeaderSize) = MapHeader.parse b := by
  simp only [MapHeader.parse, mapHeaderSize, byteAt_take (show 0 < 4 by omega),
    byteAt_take (show 1 < 4 by omega), be16At_take (show 2 + 1 < 4 by omega)]

/-- Without linear part and chain, the front is read from the byte stream wherever it lies. -/
theorem front_eq (f : SkbFrag) (fs : List SkbFrag) (off len : ℕ) :
    RxSkb.front { frags := f :: fs } off len
      = if fragsSize (f :: fs) < off + len then none
        else some (((fragsBytes (f :: fs)).drop off).take len) := by
  unfold RxSkb.front skbCopyBits
  simp only [List.nil_append, List.append_nil, fragsBytes_length]
  by_cases hfit : off + len ≤ f.size
  · rw [if_pos hfit, if_neg (by rw [fragsSize_cons]; omega), SkbFrag.slice_bytes f hfit, fragsBytes_cons,
      f.drop_append_of_le _ (by omega), List.take_append_of_le_length (by simp; omega)]
  · rw [if_neg hfit]

/-! ### Taking the fragments of a packet -/

/-- What the loop leaves in the descriptor and in the buffer, when every fragment could be added. -/
theorem takeFrags_some (fs : List SkbFrag) :
    ∀ (port port' : RmnetPort) (desc desc' : RmnetFragDescriptor) (pktLen left : ℕ) (rest : List SkbFrag),
      takeFrags port desc fs pktLen = (port', desc', some (rest, left)) →
      fragsBytes desc'.frags = fragsBytes desc.frags ++ (fragsBytes fs).take pktLen ∧
        fragsBytes rest = (fragsBytes fs).drop pktLen ∧ left = pktLen - fragsSize fs := by
  induction fs with
  | nil =>
    intro port port' desc desc' pktLen left rest h
    simp only [takeFrags, Prod.mk.injEq, Option.some.injEq] at h
    obtain ⟨-, rfl, rfl, rfl⟩ := h
    simp
  | cons f fs ih =>
    intro port port' desc desc' pktLen left rest h
    rw [takeFrags] at h
    split at h
    · rename_i hz
      simp only [Prod.mk.injEq, Option.some.injEq] at h
      obtain ⟨-, rfl, rfl, rfl⟩ := h
      subst hz
      simp
    · simp only [rmnetFragDescriptorAddFrag, RmnetPort.kalloc] at h
      cases hal : port.alloc 0 with
      | false =>
        simp only [hal] at h
        cases h
      | true =>
        simp only [hal] at h
        rw [fragsBytes_cons]
        split at h
        · -- the whole fragment is taken
          rename_i hsz
          have hmin : min f.size pktLen = f.size := by omega
          obtain ⟨hb, hr, hl⟩ := ih _ _ _ _ _ _ _ h
          rw [hmin] at hb hr hl
          refine ⟨?_, ?_, ?_⟩
          · have hall : (f.slice 0 f.size).bytes = f.bytes := by
              rw [SkbFrag.slice_bytes f (by omega), List.drop_zero, List.take_of_length_le (by simp)]
            rw [hb, fragsBytes_append, fragsBytes_cons, fragsBytes_nil, List.append_nil, hall,
              List.append_assoc, f.take_append_of_ge _ (by omega)]
          · rw [hr, f.drop_append_of_ge _ (by omega)]
          · rw [hl, fragsSize_cons]
            omega
        · -- the packet ends inside the fragment
          rename_i hsz
          have hmin : min f.size pktLen = pktLen := by omega
          simp only [Prod.mk.injEq, Option.some.injEq] at h
          obtain ⟨-, rfl, rfl, rfl⟩ := h
          rw [hmin]
          refine ⟨?_, ?_, ?_⟩
          · rw [fragsBytes_append, fragsBytes_cons, fragsBytes_nil, List.append_nil,
              SkbFrag.slice_bytes f (by omega), List.drop_zero,
              List.take_append_of_le_length (by simp; omega)]
          · rw [fragsBytes_cons, SkbFrag.slice_bytes f (by omega), f.drop_append_of_le _ (by omega),
              List.take_of_length_le (by simp)]
          · rw [fragsSize_cons]
            omega

theorem takeFrags_allocOk {port : RmnetPort} (halloc : port.AllocOk) (fs : List SkbFrag) :
    ∀ (desc : RmnetFragDescriptor) (pktLen : ℕ), desc.len + pktLen < 4294967296 →
      ∃ desc' rest left, takeFrags port desc fs pktLen = (port, desc', some (rest, left)) ∧
        desc'.len = desc.len + min pktLen (fragsSize fs) := by
  induction fs with
  | nil =>
    intro desc pktLen _
    exact ⟨desc, [], pktLen, rfl, by simp⟩
  | cons f fs ih =>
    intro desc pktLen hlt
    rw [takeFrags]
    split
    · rename_i hz
      exact ⟨desc, f :: fs, 0, rfl, by omega⟩
    · simp only [rmnetFragDescriptorAddFrag, kalloc_of_allocOk halloc, SkbFrag.slice]
      rw [u32_of_lt (by omega), fragsSize_cons]
      split
      · rename_i hsz
        obtain ⟨desc', rest, left, heq, hlen⟩ := ih
          { desc with frags := desc.frags ++ [f.slice 0 (min f.size pktLen)]
                      len := desc.len + min f.size pktLen }
          (pktLen - min f.size pktLen) (by simp only; omega)
        refine ⟨desc', rest, left, heq, ?_⟩
        rw [hlen]
        simp only
        omega
      · exact ⟨_, _, _, rfl, by simp only; omega⟩

/-! ### The reference parser -/

/-- The size of the packet at the front of a byte string, headers included. -/
def qmapSize (dataFormat : ℕ) (s : Bytes) : Option ℕ :=
  let hdr := MapHeader.parse s
  if s.length < 4 ∨ hdr.pktLen = 0 then none
  else if ingressMapCksumv4 dataFormat then some (4 + hdr.pktLen + 8)
  else if (ingressMapCksumv5 dataFormat || ingressCoalesce dataFormat) && !hdr.cdBit then
    if s.length < 5 then none else some (4 + hdr.pktLen + v5HeaderSize (byteAt s 4))
  else some (4 + hdr.pktLen)

/-- A packet is never empty. -/
theorem qmapSize_pos {dataFormat : ℕ} {s : Bytes} {n : ℕ} (h : qmapSize dataFormat s = some n) :
    5 ≤ n ∧ 4 ≤ s.length ∧ n < 131072 := by
  unfold qmapSize at h
  have hlt := be16At_lt s 2
  have hpkt : (MapHeader.parse s).pktLen = be16At s 2 := rfl
  have hv5 : v5HeaderSize (byteAt s 4) ≤ 28 := by
    unfold v5HeaderSize
    split
    · exact le_rfl
    · split
      · exact (by decide : v5CsumHeaderSize ≤ 28)
      · omega
  simp only at h
  split at h
  · cases h
  · rename_i hfront
    split at h
    · have := Option.some.inj h
      omega
    · split at h
      · split at h
        · cases h
        · have := Option.some.inj h
          omega
      · have := Option.some.inj h
        omega

/-- The packets of a byte string: read the header at the front, cut the packet off, go on behind it. -/
def qmapPackets (dataFormat : ℕ) (s : Bytes) : List Bytes :=
  match _h : qmapSize dataFormat s with
  | none => []
  | some n =>
      if s.length < n then []
      else s.take n :: qmapPackets dataFormat (s.drop n)
  termination_by s.length
  decreasing_by
    have := qmapSize_pos _h
    rw [List.length_drop]
    omega

theorem qmapPackets_none {dataFormat : ℕ} {s : Bytes} (h : qmapSize dataFormat s = none) :
    qmapPackets dataFormat s = [] := by
  rw [qmapPackets]
  split
  · rfl
  · rename_i hn
    rw [h] at hn
    cases hn

theorem qmapPackets_some {dataFormat : ℕ} {s : Bytes} {n : ℕ} (h : qmapSize dataFormat s = some n) :
    qmapPackets dataFormat s
      = if s.length < n then [] else s.take n :: qmapPackets dataFormat (s.drop n) := by
  rw [qmapPackets]
  split
  · rename_i hn
    rw [h] at hn
    cases hn
  · rename_i k hk
    rw [h, Option.some.injEq] at hk
    subst hk
    rfl

/-! ### One packet -/

theorem getFragDescriptor_allocOk {port : RmnetPort} (halloc : port.AllocOk) :
    ∃ port' a, rmnetGetFragDescriptor port = (port', some { addr := a }) ∧ port'.AllocOk ∧
      port'.dataFormat = port.dataFormat := by
  unfold rmnetGetFragDescriptor
  cases hf : port.freeList with
  | cons a rest => exact ⟨_, a, rfl, halloc, rfl⟩
  | nil =>
    simp only [kalloc_of_allocOk halloc]
    exact ⟨_, _, rfl, halloc, rfl⟩

/-- The code's length of the frame is the reference's, read through the fragments. -/
theorem frameLen_eq (dataFormat : ℕ) (f : SkbFrag) (fs : List SkbFrag)
    (hfront : ¬ ((fragsBytes (f :: fs)).length < 4 ∨ (MapHeader.parse (fragsBytes (f :: fs))).pktLen = 0)) :
    RxSkb.frameLen { frags := f :: fs } dataFormat (MapHeader.parse (fragsBytes (f :: fs)))
      = qmapSize dataFormat (fragsBytes (f :: fs)) := by
  unfold RxSkb.frameLen qmapSize
  simp only [if_neg hfront, front_eq, ← fragsBytes_length, mapHeaderSize, dlCsumTrailerSize]
  generalize fragsBytes (f :: fs) = s
  have hadd : (MapHeader.parse s).pktLen + 4 = 4 + (MapHeader.parse s).pktLen := Nat.add_comm _ _
  rw [hadd]
  split
  · rfl
  · split
    · split
      · rfl
      · have htype : byteAt ((s.drop 4).take 1) 0 = byteAt s 4 := by
          rw [byteAt_take (by omega), byteAt_drop]
        rw [Option.map_some, htype]
    · rfl

theorem front_header (f : SkbFrag) (fs : List SkbFrag) :
    (RxSkb.front { frags := f :: fs } 0 mapHeaderSize).map MapHeader.parse
      = if (fragsBytes (f :: fs)).length < 4 then none else some (MapHeader.parse (fragsBytes (f :: fs))) := by
  rw [front_eq, fragsBytes_length, mapHeaderSize, Nat.zero_add]
  split
  · rfl
  · rw [Option.map_some, List.drop_zero]
    exact congrArg some (MapHeader.parse_take _)

/-- Behind a header that announces `n` bytes, the outcome is that of taking them. -/
theorem deaggregateOne_frame {port port₁ : RmnetPort} {skb : RxSkb} {maph : MapHeader}
    {desc : RmnetFragDescriptor} {n : ℕ}
    (hfront : (skb.front 0 mapHeaderSize).map MapHeader.parse = some maph) (hz : ¬ maph.pktLen = 0)
    (hdesc : rmnetGetFragDescriptor port = (port₁, some desc))
    (hlen : skb.frameLen port₁.dataFormat maph = some n) :
    rmnetFragDeaggregateOne port skb
      = match takeFrags port₁ desc skb.frags n with
        | (port, desc, none) => ((rmnetRecycleFragDescriptor port desc).1, none)
        | (port, desc, some (rest, left)) =>
            if left ≠ 0 then ((rmnetRecycleFragDescriptor port desc).1, none)
            else (port, some (desc, rest)) := by
  unfold rmnetFragDeaggregateOne
  rw [hfront]
  simp only [if_neg hz, hdesc, hlen]

/-- No packet at the front: the call fails. -/
theorem deaggregateOne_stop {port : RmnetPort} (halloc : port.AllocOk) (f : SkbFrag) (fs : List SkbFrag)
    (h : ∀ n, qmapSize port.dataFormat (fragsBytes (f :: fs)) = some n → (fragsBytes (f :: fs)).length < n) :
    (rmnetFragDeaggregateOne port { frags := f :: fs }).2 = none := by
  unfold rmnetFragDeaggregateOne
  rw [front_header]
  by_cases hshort : (fragsBytes (f :: fs)).length < 4
  · rw [if_pos hshort]
  · rw [if_neg hshort]
    simp only
    by_cases hz : (MapHeader.parse (fragsBytes (f :: fs))).pktLen = 0
    · rw [if_pos hz]
    · rw [if_neg hz]
      obtain ⟨port', a, hget, halloc', hfmt⟩ := getFragDescriptor_allocOk halloc
      rw [hget]
      simp only
      rw [frameLen_eq port'.dataFormat f fs (by omega), hfmt]
      cases hsize : qmapSize port.dataFormat (fragsBytes (f :: fs)) with
      | none => rfl
      | some n =>
        have hlt := (qmapSize_pos hsize).2.2
        have hmissing := h n hsize
        obtain ⟨desc', rest, left, htake, -⟩ := takeFrags_allocOk halloc' (f :: fs) { addr := a } n
          (by simp only; omega)
        obtain ⟨-, -, hleft⟩ := takeFrags_some _ _ _ _ _ _ _ _ htake
        rw [fragsBytes_length] at hmissing
        simp only [htake]
        rw [if_pos (by omega)]

/-- A packet at the front: the call cuts it off. -/
theorem deaggregateOne_packet {port : RmnetPort} (halloc : port.AllocOk) (f : SkbFrag)
    (fs : List SkbFrag) {n : ℕ} (hsize : qmapSize port.dataFormat (fragsBytes (f :: fs)) = some n)
    (hfit : n ≤ (fragsBytes (f :: fs)).length) :
    ∃ port' desc rest, rmnetFragDeaggregateOne port { frags := f :: fs } = (port', some (desc, rest)) ∧
      port'.AllocOk ∧ port'.dataFormat = port.dataFormat ∧
      desc.bytes = (fragsBytes (f :: fs)).take n ∧ desc.len = n ∧
      fragsBytes rest = (fragsBytes (f :: fs)).drop n := by
  have hfront : ¬ ((fragsBytes (f :: fs)).length < 4 ∨
      (MapHeader.parse (fragsBytes (f :: fs))).pktLen = 0) := by
    intro hbad
    unfold qmapSize at hsize
    simp only [if_pos hbad] at hsize
    cases hsize
  unfold rmnetFragDeaggregateOne
  rw [front_header, if_neg (fun h => hfront (.inl h))]
  simp only
  rw [if_neg (fun h => hfront (.inr h))]
  obtain ⟨port', a, hget, halloc', hfmt⟩ := getFragDescriptor_allocOk halloc
  rw [hget]
  simp only
  rw [frameLen_eq port'.dataFormat f fs hfront, hfmt, hsize]
  have hlt := (qmapSize_pos hsize).2.2
  obtain ⟨desc', rest, left, htake, hlen⟩ := takeFrags_allocOk halloc' (f :: fs) { addr := a } n
    (by simp only; omega)
  obtain ⟨hbytes, hrest, hleft⟩ := takeFrags_some _ _ _ _ _ _ _ _ htake
  rw [fragsBytes_length] at hfit
  simp only [htake]
  rw [if_neg (by omega)]
  refine ⟨port', desc', rest, rfl, halloc', hfmt, ?_, ?_, hrest⟩
  · rw [RmnetFragDescriptor.bytes, hbytes]
    rfl
  · rw [hlen]
    simp only
    omega

/-! ### The loop -/

/-- The loop, with fuel for every byte: by induction on the fuel, the bytes left are the measure. -/
theorem deaggregateLoop_parses (fuel : ℕ) :
    ∀ (port : RmnetPort) (frags : List SkbFrag) (list : List RmnetFragDescriptor), port.AllocOk →
      fragsSize frags < fuel →
      ∃ port' descs, deaggregateLoop fuel port { frags := frags } list = some (port', list ++ descs) ∧
        descs.map RmnetFragDescriptor.bytes = qmapPackets port.dataFormat (fragsBytes frags) ∧
        ∀ desc ∈ descs, desc.len = desc.bytes.length := by
  induction fuel with
  | zero =>
    intro port frags list _ hfuel
    omega
  | succ fuel ih =>
    intro port frags list halloc hfuel
    cases frags with
    | nil =>
      refine ⟨port, [], by simp [deaggregateLoop], ?_, by simp⟩
      have hnone : qmapSize port.dataFormat (fragsBytes []) = none := by simp [qmapSize]
      rw [qmapPackets_none hnone, List.map_nil]
    | cons f fs =>
      rw [deaggregateLoop]
      simp only [List.isEmpty_cons, Bool.false_eq_true, if_false]
      by_cases hpkt : ∃ n, qmapSize port.dataFormat (fragsBytes (f :: fs)) = some n ∧
          n ≤ (fragsBytes (f :: fs)).length
      · obtain ⟨n, hsize, hfit⟩ := hpkt
        obtain ⟨port', desc, rest, hone, halloc', hfmt, hbytes, hlen, hrest⟩ :=
          deaggregateOne_packet halloc f fs hsize hfit
        have hn := (qmapSize_pos hsize).1
        have hsz : fragsSize rest = fragsSize (f :: fs) - n := by
          rw [← fragsBytes_length, hrest, List.length_drop, fragsBytes_length]
        rw [fragsBytes_length] at hfit
        obtain ⟨port'', descs, hloop, hmap, hlens⟩ := ih port' rest (list ++ [desc]) halloc' (by omega)
        refine ⟨port'', desc :: descs, ?_, ?_, ?_⟩
        · rw [hone]
          simp only
          rw [hloop, List.append_assoc, List.singleton_append]
        · rw [qmapPackets_some hsize, if_neg (by rw [fragsBytes_length]; omega), List.map_cons, hmap,
            hbytes, hrest, hfmt]
        · intro d hd
          rcases List.mem_cons.mp hd with rfl | hd
          · rw [hbytes, hlen, List.length_take, fragsBytes_length]
            omega
          · exact hlens d hd
      · have hstop : ∀ n, qmapSize port.dataFormat (fragsBytes (f :: fs)) = some n →
            (fragsBytes (f :: fs)).length < n := by
          intro n hn
          by_contra hle
          exact hpkt ⟨n, hn, by omega⟩
        have hone := deaggregateOne_stop halloc f fs hstop
        cases hres : rmnetFragDeaggregateOne port { frags := f :: fs } with
        | mk port' r =>
          rw [hres] at hone
          simp only at hone
          subst hone
          refine ⟨port', [], by simp, ?_, by simp⟩
          cases hsize : qmapSize port.dataFormat (fragsBytes (f :: fs)) with
          | none => rw [qmapPackets_none hsize, List.map_nil]
          | some n => rw [qmapPackets_some hsize, if_pos (hstop n hsize), List.map_nil]

/-- **De-aggregation is a parser of the byte stream.**  On a buffer with no linear data and no
`frag_list`, with allocations succeeding, `rmnet_frag_deaggregate` terminates and appends descriptors
whose contents are the packets that the reference parser cuts from the bytes of the fragments, whatever
the fragments are. -/
theorem deaggregate_parses (port : RmnetPort) (halloc : port.AllocOk) (frags : List SkbFrag)
    (list : List RmnetFragDescriptor) :
    ∃ port' descs, rmnetFragDeaggregate port { frags := frags } list = some (port', list ++ descs) ∧
      descs.map RmnetFragDescriptor.bytes = qmapPackets port.dataFormat (fragsBytes frags) ∧
      ∀ desc ∈ descs, desc.len = desc.bytes.length :=
  deaggregateLoop_parses _ port frags list halloc (Nat.lt_succ_self _)

/-- Two packets in three pages, the first header cut in the middle. -/
theorem deaggregate_split_header :
    ∃ port' descs, rmnetFragDeaggregate (rmnetDescriptorInit 0 (fun _ => none) fun _ => true)
        { frags := [.ofBytes [0, 1, 0], .ofBytes [2, 9], .ofBytes [8, 0, 1, 0, 1, 7]] } []
          = some (port', descs) ∧
      descs.map RmnetFragDescriptor.bytes = [[0, 1, 0, 2, 9, 8], [0, 1, 0, 1, 7]] := by
  obtain ⟨port', descs, hrun, hbytes, -⟩ := deaggregate_parses
    (rmnetDescriptorInit 0 (fun _ => none) fun _ => true) (fun _ => rfl)
    [.ofBytes [0, 1, 0], .ofBytes [2, 9], .ofBytes [8, 0, 1, 0, 1, 7]] []
  refine ⟨port', descs, hrun, ?_⟩
  have hfirst : qmapSize 0 [0, 1, 0, 2, 9, 8, 0, 1, 0, 1, 7] = some 6 := by decide
  have hsecond : qmapSize 0 [0, 1, 0, 1, 7] = some 5 := by decide
  have hend : qmapSize 0 [] = none := by decide
  rw [hbytes]
  show qmapPackets 0 [0, 1, 0, 2, 9, 8, 0, 1, 0, 1, 7] = _
  rw [qmapPackets_some hfirst]
  show [0, 1, 0, 2, 9, 8] :: qmapPackets 0 [0, 1, 0, 1, 7] = _
  rw [qmapPackets_some hsecond]
  show [0, 1, 0, 2, 9, 8] :: [0, 1, 0, 1, 7] :: qmapPackets 0 [] = _
  rw [qmapPackets_none hend]

end Rmnet
