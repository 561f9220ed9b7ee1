import Rmnet.Frag.DeliveredCsum
import Rmnet.Frag.HeaderPtr
import Rmnet.Uplink.Aggregate

/-!
# Building a buffer and flattening it

`rmnet_alloc_skb` keeps the lengths of the head by hand while it attaches fragments to the head and to a chain of
further buffers.  It rewrites header fields at `rmnet_map_data_ptr`, which is the linear part, or the page of the
first fragment where the linear part is empty; and it rewrites fields of the IP and transport headers where the new
buffer has them, whether they are within the buffer or not.  `rmnetAllocSkb` computes the lengths at the end and
writes to the linear part only; here all of it is as in the source, with the pages in one memory and buffers as large
as `alloc_skb` makes them.  A write behind the end of a buffer leaves no result.

* `addFrags_eq` — the lengths kept by hand are the lengths;
* `finishSkbIn_eq_some_iff` — when the fields are within the buffer;
* `allocSkbIn_raw` — the buffer before the header fields are written;
* `rmnetAllocSkbIn_eq` — with a linear part, the function is `rmnetAllocSkb`;
* `memOverrides_apply` — what a byte of the first fragment becomes;
* `alloc_skb_flatten_iff` — when the buffer has the bytes of the descriptor, and that it can be flattened.
-/

namespace Rmnet

open Word Field Checksum

/-! ### Pages in memory -/

/-- The fragment at the address `off` of a memory. -/
def SkbFrag.inMemory (mem : Memory) (f : SkbFrag) : SkbFrag := { f with page := mem }

/-- The buffer with its fragments in a memory. -/
def SkBuff.inMemory (mem : Memory) (skb : SkBuff) : SkBuff :=
  { skb with
    frags := skb.frags.map (.inMemory mem)
    fragList := skb.fragList.map (List.map (.inMemory mem)) }

/-- The descriptor with its fragments in a memory. -/
def RmnetFragDescriptor.inMemory (mem : Memory) (desc : RmnetFragDescriptor) : RmnetFragDescriptor :=
  { desc with frags := desc.frags.map (.inMemory mem) }

/-- Bytes written to a memory. -/
def Memory.write (mem : Memory) (a : ℕ) (b : Bytes) : Memory := memcpy mem a b.length fun i => b.getD i 0

/-- The big-endian 16-bit word at an address. -/
def Memory.be16 (mem : Memory) (a : ℕ) : ℕ := (mem a).toNat * 256 + (mem (a + 1)).toNat

/-! ### The code -/

/-- `skb_add_rx_frag`, on the head. -/
def SkBuff.addRxFrag (skb : SkBuff) (f : SkbFrag) : SkBuff :=
  { skb with frags := skb.frags ++ [f], len := u32 (skb.len + f.size), dataLen := u32 (skb.dataLen + f.size) }

/-- `skb_add_rx_frag` on a buffer of the chain, and the lengths of the head by hand. -/
def SkBuff.addChainFrag (skb : SkBuff) (chain : List (List SkbFrag)) (f : SkbFrag) : SkBuff :=
  { skb with fragList := chain, len := u32 (skb.len + f.size), dataLen := u32 (skb.dataLen + f.size) }

/-- The fragment loop of `rmnet_alloc_skb`, with the lengths as it keeps them.  A fragment that needs a further
buffer is the first of it. -/
def addFrags (port : RmnetPort) (skb : SkBuff) : List SkbFrag → RmnetPort × SkBuff
  | [] => (port, skb)
  | f :: fs =>
      match skb.fragList.getLast? with
      | none =>
          if skb.frags.length < maxSkbFrags then addFrags port (skb.addRxFrag f) fs
          else
            match port.kalloc with
            | (false, port) => (port, skb)
            | (true, port) => addFrags port (skb.addChainFrag [[f]] f) fs
      | some current =>
          if current.length < maxSkbFrags then
            addFrags port (skb.addChainFrag (skb.fragList.dropLast ++ [current ++ [f]]) f) fs
          else
            match port.kalloc with
            | (false, port) => (port, skb)
            | (true, port) => addFrags port (skb.addChainFrag (skb.fragList ++ [[f]]) f) fs

/-- The header fields that segmentation left in the descriptor, written to memory. -/
def memOverrides (mem : Memory) (a : ℕ) (desc : RmnetFragDescriptor) : Memory :=
  let mem := if desc.ipIdSet then
      let mem := mem.write (a + 10) (be16 (csumReplace2 (mem.be16 (a + 10)) (mem.be16 (a + 4)) desc.ipId))
      mem.write (a + 4) (be16 desc.ipId)
    else mem
  let mem := if desc.tcpSeqSet then mem.write (a + desc.ipLen + 4) (be32 desc.tcpSeq) else mem
  if desc.tcpFlagsSet then mem.write (a + desc.ipLen + 12) (be16 desc.tcpFlags) else mem

/-- A header field of the head, `off` bytes behind `skb->data` in a buffer of `size` bytes. -/
def putField (size : ℕ) (hdr : Bytes) (off : ℕ) (b : Bytes) : Option Bytes :=
  if mapDeaggrHeadroom + off + b.length ≤ size then some (overwrite hdr off b) else none

/-- A header field that is written if it is set. -/
def putFieldIf (set : Bool) (size : ℕ) (hdr : Bytes) (off : ℕ) (b : Bytes) : Option Bytes :=
  if set then putField size hdr off b else some hdr

/-- `fragOverrides`, in a buffer. -/
def fragOverridesIn (size : ℕ) (hdr : Bytes) (desc : RmnetFragDescriptor) : Option Bytes := do
  let hdr ← putFieldIf desc.ipIdSet size hdr 10 (be16 (csumReplace2 (be16At hdr 10) (be16At hdr 4) desc.ipId))
  let hdr ← putFieldIf desc.ipIdSet size hdr 4 (be16 desc.ipId)
  let hdr ← putFieldIf desc.tcpSeqSet size hdr (desc.ipLen + 4) (be32 desc.tcpSeq)
  putFieldIf desc.tcpFlagsSet size hdr (desc.ipLen + 12) (be16 desc.tcpFlags)

/-- The header fields that segmentation left in the descriptor, written at `rmnet_map_data_ptr`. -/
def writeOverrides (size : ℕ) (mem : Memory) (skb : SkBuff) (desc : RmnetFragDescriptor) : Option (Memory × SkBuff) :=
  match skb.frags with
  | frag₀ :: _ =>
      if skb.nonlinear ∧ skb.len = skb.dataLen then
        let mem := memOverrides mem frag₀.off desc
        some (mem, skb.inMemory mem)
      else (fragOverridesIn size skb.linear desc).map fun hdr => (mem, { skb with linear := hdr })
  | [] => (fragOverridesIn size skb.linear desc).map fun hdr => (mem, { skb with linear := hdr })

/-- `partialNetwork`, in a buffer. -/
def partialNetworkIn (size : ℕ) (hdr : Bytes) (ipProto len : ℕ) : Option Bytes :=
  if ipProto = 4 then do
    let hdr ← putField size hdr 2 (be16 len)
    let hdr ← putField size hdr 10 (be16 0)
    putField size hdr 10 (be16 (ipFastCsum hdr))
  else putField size hdr 4 (be16 (sub32 len 40))

/-- `badNetwork`, in a buffer. -/
def badNetworkIn (size : ℕ) (hdr : Bytes) (ipProto len : ℕ) : Option Bytes :=
  if ipProto = 4 then do
    let hdr ← putField size hdr 10 (be16 (csumReplace2 (be16At hdr 10) (be16At hdr 2) (u16 len)))
    putField size hdr 2 (be16 len)
  else putField size hdr 4 (be16 (sub32 len 40))

/-- `udpLength`, in a buffer. -/
def udpLengthIn (size : ℕ) (hdr : Bytes) (offset transProto len : ℕ) : Option Bytes :=
  if transProto = ipprotoTcp then some hdr else putField size hdr (offset + 4) (be16 len)

/-- `rmnet_frag_partial_csum`, in a buffer. -/
def partialCsumIn (size : ℕ) (skb : SkBuff) (desc : RmnetFragDescriptor) : Option SkBuff := do
  let pktLen := u16 (sub32 skb.len desc.ipLen)
  let hdr ← partialNetworkIn size skb.linear desc.ipProto skb.len
  let pseudo := pseudoSum desc.ipProto hdr pktLen desc.transProto
  let hdr ← udpLengthIn size hdr desc.ipLen desc.transProto pktLen
  let hdr ← putField size hdr (desc.ipLen + checkOffset desc.transProto) (be16 pseudo)
  some { skb with
    linear := hdr
    csumOffset := checkOffset desc.transProto
    ipSummed := .checksumPartial
    csumStart := desc.ipLen }

/-- The branch that fakes a bad checksum, in a buffer.  `skb_checksum` stops the kernel when it is to start behind the
end of the packet. -/
def badCsumIn (size : ℕ) (skb : SkBuff) (desc : RmnetFragDescriptor) : Option SkBuff := do
  let offset := skbTransportOffset desc
  let dgramLen := sub32 skb.len desc.ipLen
  let hdr ← badNetworkIn size skb.linear desc.ipProto skb.len
  let pseudo := pseudoSum desc.ipProto hdr dgramLen desc.transProto
  let hdr ← udpLengthIn size hdr offset desc.transProto dgramLen
  let check := offset + checkOffset desc.transProto
  let hdr ← putField size hdr check (be16 pseudo)
  let skb := { skb with linear := hdr }
  let csum ← if offset ≤ skb.len then some (wordSum (skb.bytes.drop offset)) else none
  let hdr ← putField size skb.linear check (be16 (csum16Add (csumFold csum) 1))
  some { skb with
    linear := hdr
    ipSummed := .checksumNone }

/-- The checksum part of `rmnet_alloc_skb`. -/
def fragCsumIn (size : ℕ) (skb : SkBuff) (desc : RmnetFragDescriptor) : Option SkBuff :=
  if desc.csumValid && desc.hdrsValid then partialCsumIn size skb desc
  else if desc.csumValid then some { skb with ipSummed := .checksumUnnecessary }
  else if desc.hdrsValid && (desc.transProto = ipprotoTcp || desc.transProto = ipprotoUdp) then
    badCsumIn size skb desc
  else some skb

/-- The part of `rmnet_alloc_skb` behind the header fields. -/
def finishSkbIn (size : ℕ) (skb : SkBuff) (desc : RmnetFragDescriptor) : Option SkBuff :=
  (fragCsumIn size skb desc).map fun skb =>
    if 1 < desc.gsoSegs then gsoStamp skb desc.ipProto desc.transProto desc.gsoSize desc.gsoSegs else skb

/-- The part of `rmnet_alloc_skb` behind `skip_frags`. -/
def fillSkbIn (size : ℕ) (mem : Memory) (skb : SkBuff) (desc : RmnetFragDescriptor) : Option (Memory × SkBuff) :=
  (writeOverrides size mem skb desc).bind fun (mem, skb) => (finishSkbIn size skb desc).map fun skb => (mem, skb)

/-- `rmnet_alloc_skb`, for a descriptor with its fragments in a memory; `skbEnd n` is the size of the buffer that
`alloc_skb` makes for `n` bytes. -/
def rmnetAllocSkbIn (skbEnd : ℕ → ℕ) (mem : Memory) (port : RmnetPort) (desc : RmnetFragDescriptor) :
    Option (RmnetPort × RmnetFragDescriptor × Memory × Option SkBuff) :=
  match port.kalloc with
  | (false, port) => some (port, desc, mem, none)
  | (true, port) =>
      if desc.hdrsValid then
        let hdrLen := u16 (desc.ipLen + desc.transLen)
        let size := skbEnd (hdrLen + mapDeaggrHeadroom)
        let hdr := (rmnetFragCopyData desc 0 hdrLen).getD []
        let head : SkBuff := { linear := hdr, len := u32 hdr.length }
        if hdrLen = desc.len then
          (fillSkbIn size mem head desc).map fun (mem, skb) => (port, desc, mem, some skb)
        else
          match rmnetFragPull port desc hdrLen with
          | (port, desc, false) => some (port, desc, mem, none)
          | (port, desc, true) =>
              let (port, skb) := addFrags port head desc.frags
              (fillSkbIn size mem skb desc).map fun (mem, skb) => (port, desc, mem, some skb)
      else
        let size := skbEnd (256 + mapDeaggrHeadroom)
        let (port, skb) := addFrags port { linear := [], len := 0 } desc.frags
        (fillSkbIn size mem skb desc).map fun (mem, skb) => (port, desc, mem, some skb)

/-! ### The lengths -/

@[simp] theorem SkBuff.ofFrags_frags (linear : Bytes) (head : List SkbFrag) (chain : List (List SkbFrag)) :
    (SkBuff.ofFrags linear head chain).frags = head := rfl

@[simp] theorem SkBuff.ofFrags_fragList (linear : Bytes) (head : List SkbFrag) (chain : List (List SkbFrag)) :
    (SkBuff.ofFrags linear head chain).fragList = chain := rfl

/-- **The lengths kept by hand are the lengths.** -/
theorem addFrags_eq (linear : Bytes) (fs : List SkbFrag) :
    ∀ (port : RmnetPort) (head : List SkbFrag) (chain : List (List SkbFrag)),
      addFrags port (.ofFrags linear head chain) fs
        = match addRxFrags port head chain fs with
          | (port, head, chain) => (port, .ofFrags linear head chain) := by
  induction fs with
  | nil =>
    intro port head chain
    rfl
  | cons f fs ih =>
    intro port head chain
    rw [addFrags, addRxFrags]
    have hhead : (SkBuff.ofFrags linear head chain).addRxFrag f = .ofFrags linear (head ++ [f]) chain := by
      simp [SkBuff.addRxFrag, SkBuff.ofFrags, fragsSize, u32]
      omega
    have hchain : ∀ chain', (chain'.map fragsSize).sum = (chain.map fragsSize).sum + f.size →
        (SkBuff.ofFrags linear head chain).addChainFrag chain' f = .ofFrags linear head chain' := by
      intro chain' hsum
      simp [SkBuff.addChainFrag, SkBuff.ofFrags, hsum, u32]
      omega
    simp only [SkBuff.ofFrags_frags, SkBuff.ofFrags_fragList]
    cases hlast : chain.getLast? with
    | none =>
      have hnil : chain = [] := List.getLast?_eq_none_iff.mp hlast
      subst hnil
      by_cases hroom : head.length < maxSkbFrags
      · simp only [if_pos hroom, hhead]
        exact ih port (head ++ [f]) []
      · simp only [if_neg hroom, hchain [[f]] (by simp)]
        cases port.kalloc with
        | mk ok port =>
          cases ok with
          | false => rfl
          | true => exact ih port head [[f]]
    | some current =>
      have hsplit : chain = chain.dropLast ++ [current] := (List.dropLast_append_getLast? current hlast).symm
      by_cases hroom : current.length < maxSkbFrags
      · have hlast' : ((chain.dropLast ++ [current ++ [f]]).map fragsSize).sum
            = (chain.map fragsSize).sum + f.size := by
          conv_rhs => rw [hsplit]
          simp [fragsSize]
          omega
        simp only [if_pos hroom, hchain _ hlast']
        exact ih port head (chain.dropLast ++ [current ++ [f]])
      · simp only [if_neg hroom, hchain (chain ++ [[f]]) (by simp)]
        cases port.kalloc with
        | mk ok port =>
          cases ok with
          | false => rfl
          | true => exact ih port head (chain ++ [[f]])

/-! ### What is rewritten -/

/-- A buffer with its linear part rewritten. -/
structure SkBuff.Rewritten (s t : SkBuff) : Prop where
  linear_length : t.linear.length = s.linear.length
  frags : t.frags = s.frags
  fragList : t.fragList = s.fragList
  len : t.len = s.len
  dataLen : t.dataLen = s.dataLen

theorem SkBuff.Rewritten.trans {s t u : SkBuff} (h : s.Rewritten t) (h' : t.Rewritten u) : s.Rewritten u :=
  ⟨h'.linear_length.trans h.linear_length, h'.frags.trans h.frags, h'.fragList.trans h.fragList, h'.len.trans h.len,
    h'.dataLen.trans h.dataLen⟩

theorem SkBuff.Rewritten.bytes_drop {s t : SkBuff} (h : s.Rewritten t) {n : ℕ} (hn : s.linear.length ≤ n) :
    t.bytes.drop n = s.bytes.drop n := by
  have hl := h.linear_length
  have hdrop : ∀ a b : Bytes, a.length ≤ n → (a ++ b).drop n = b.drop (n - a.length) := by
    intro a b ha
    rw [List.drop_append, List.drop_eq_nil_of_le ha, List.nil_append]
  rw [SkBuff.bytes, SkBuff.bytes, h.frags, h.fragList, List.append_assoc, List.append_assoc,
    hdrop _ _ (hl.le.trans hn), hdrop _ _ hn, hl]

theorem SkBuff.Rewritten.coherent {s t : SkBuff} (h : s.Rewritten t) (hs : s.Coherent) : t.Coherent := by
  refine ⟨?_, ?_, ?_⟩
  · rw [h.len, hs.len_eq]
    simp only [SkBuff.bytes, List.length_append, h.linear_length, h.frags, h.fragList]
  · rw [h.dataLen, h.len, h.linear_length, hs.dataLen_eq]
  · rw [h.len]
    exact hs.len_lt

theorem fragOverrides_length (hdr : Bytes) (desc : RmnetFragDescriptor) :
    (fragOverrides hdr desc).length = hdr.length := by
  unfold fragOverrides
  simp only [apply_ite List.length, overwrite_length, ite_self]

theorem partialNetwork_length (hdr : Bytes) (ipProto len : ℕ) :
    (partialNetwork hdr ipProto len).length = hdr.length := by
  unfold partialNetwork
  simp only [apply_ite List.length, overwrite_length, ite_self]

theorem badNetwork_length (hdr : Bytes) (ipProto len : ℕ) : (badNetwork hdr ipProto len).length = hdr.length := by
  unfold badNetwork
  simp only [apply_ite List.length, overwrite_length, ite_self]

theorem udpLength_length (hdr : Bytes) (ipLen transProto len : ℕ) :
    (udpLength hdr ipLen transProto len).length = hdr.length := by
  unfold udpLength
  simp only [apply_ite List.length, overwrite_length, ite_self]

/-- The checksum part of `rmnet_alloc_skb`, with what is written behind the linear part left out. -/
def fragCsum (skb : SkBuff) (desc : RmnetFragDescriptor) : SkBuff :=
  if desc.csumValid && desc.hdrsValid then rmnetFragPartialCsum skb desc
  else if desc.csumValid then { skb with ipSummed := .checksumUnnecessary }
  else if desc.hdrsValid && (desc.transProto = ipprotoTcp || desc.transProto = ipprotoUdp) then
    fragBadCsum skb desc
  else skb

/-- Likewise the part behind the header fields. -/
def finishSkb (skb : SkBuff) (desc : RmnetFragDescriptor) : SkBuff :=
  let skb := fragCsum skb desc
  if 1 < desc.gsoSegs then gsoStamp skb desc.ipProto desc.transProto desc.gsoSize desc.gsoSegs else skb

/-- Behind the header fields, only the linear part is written to. -/
theorem finishSkb_rewritten (skb : SkBuff) (desc : RmnetFragDescriptor) : skb.Rewritten (finishSkb skb desc) := by
  have hgso : ∀ s : SkBuff, skb.Rewritten s → skb.Rewritten
      (if 1 < desc.gsoSegs then gsoStamp s desc.ipProto desc.transProto desc.gsoSize desc.gsoSegs else s) := by
    intro s hs
    split
    · exact ⟨hs.linear_length, hs.frags, hs.fragList, hs.len, hs.dataLen⟩
    · exact hs
  refine hgso _ ?_
  unfold fragCsum
  split
  · exact ⟨by simp only [rmnetFragPartialCsum, overwrite_length, udpLength_length, partialNetwork_length], rfl, rfl,
      rfl, rfl⟩
  · split
    · exact ⟨rfl, rfl, rfl, rfl, rfl⟩
    · split
      · exact ⟨by simp only [fragBadCsum, overwrite_length, udpLength_length, badNetwork_length], rfl, rfl, rfl, rfl⟩
      · exact ⟨rfl, rfl, rfl, rfl, rfl⟩

/-- A buffer whose lengths were counted is coherent. -/
theorem ofFrags_coherent (linear : Bytes) (head : List SkbFrag) (chain : List (List SkbFrag)) {len : ℕ}
    (hlen : linear.length + (fragsSize head + (chain.map fragsSize).sum) = len) (hlt : len < 4294967296) :
    (SkBuff.ofFrags linear head chain).Coherent ∧ (SkBuff.ofFrags linear head chain).len = len ∧
      (SkBuff.ofFrags linear head chain).dataLen = len - linear.length := by
  have hlen' : (SkBuff.ofFrags linear head chain).len = len := by
    show u32 (linear.length + (fragsSize head + (chain.map fragsSize).sum)) = len
    rw [hlen, u32_of_lt hlt]
  have hdata : (SkBuff.ofFrags linear head chain).dataLen = len - linear.length := by
    show u32 (fragsSize head + (chain.map fragsSize).sum) = len - linear.length
    rw [u32_of_lt (by omega)]
    omega
  refine ⟨⟨?_, ?_, by rw [hlen']; exact hlt⟩, hlen', hdata⟩
  · rw [hlen']
    simp only [SkBuff.bytes, SkBuff.ofFrags, List.length_append, fragsBytes_length, fragsBytes_flatten_length]
    omega
  · rw [hdata, hlen']
    rfl

/-! ### Within the buffer -/

section

variable {size : ℕ} {hdr out : Bytes} {skb out' : SkBuff} {desc : RmnetFragDescriptor}

/-- The first `n` bytes behind `skb->data` are in a buffer of `size` bytes. -/
def InBuffer (size n : ℕ) : Prop := mapDeaggrHeadroom + n ≤ size

theorem InBuffer.mono {n n' : ℕ} (h : InBuffer size n) (hle : n' ≤ n) : InBuffer size n' := by
  unfold InBuffer at h ⊢
  omega

theorem putField_eq_some_iff {off : ℕ} {b : Bytes} :
    putField size hdr off b = some out ↔ InBuffer size (off + b.length) ∧ out = overwrite hdr off b := by
  unfold putField
  rw [Nat.add_assoc]
  constructor
  · intro h
    split at h
    · rename_i hfits
      exact ⟨hfits, (Option.some.inj h).symm⟩
    · cases h
  · rintro ⟨hfits, rfl⟩
    exact if_pos hfits

/-- Two fields one after the other. -/
theorem putField_bind_eq_some_iff {off : ℕ} {b : Bytes} {β : Type} {f : Bytes → Option β} {r : β} :
    (putField size hdr off b).bind f = some r ↔ InBuffer size (off + b.length) ∧ f (overwrite hdr off b) = some r := by
  constructor
  · intro h
    obtain ⟨hdr', hput, hf⟩ := Option.bind_eq_some_iff.mp h
    obtain ⟨hfits, rfl⟩ := putField_eq_some_iff.mp hput
    exact ⟨hfits, hf⟩
  · rintro ⟨hfits, hf⟩
    rw [putField_eq_some_iff.mpr ⟨hfits, rfl⟩]
    exact hf

/-- Where the fields of the IP header that are written end. -/
def networkEnd (ipProto : ℕ) : ℕ := if ipProto = 4 then 12 else 6

/-- Where those of the transport header end, from its start. -/
def transportEnd (transProto : ℕ) : ℕ := checkOffset transProto + 2

theorem partialNetworkIn_eq_some_iff {ipProto len : ℕ} :
    partialNetworkIn size hdr ipProto len = some out ↔
      InBuffer size (networkEnd ipProto) ∧ out = partialNetwork hdr ipProto len := by
  unfold partialNetworkIn partialNetwork networkEnd
  split
  · simp only [Option.bind_eq_bind, putField_bind_eq_some_iff, putField_eq_some_iff, be16_length]
    constructor
    · rintro ⟨-, hend, -, rfl⟩
      exact ⟨hend, rfl⟩
    · rintro ⟨hend, rfl⟩
      exact ⟨hend.mono (by omega), hend, hend, rfl⟩
  · rw [putField_eq_some_iff, be16_length]

theorem badNetworkIn_eq_some_iff {ipProto len : ℕ} :
    badNetworkIn size hdr ipProto len = some out ↔
      InBuffer size (networkEnd ipProto) ∧ out = badNetwork hdr ipProto len := by
  unfold badNetworkIn badNetwork networkEnd
  split
  · simp only [Option.bind_eq_bind, putField_bind_eq_some_iff, putField_eq_some_iff, be16_length]
    constructor
    · rintro ⟨hend, -, rfl⟩
      exact ⟨hend, rfl⟩
    · rintro ⟨hend, rfl⟩
      exact ⟨hend, hend.mono (by omega), rfl⟩
  · rw [putField_eq_some_iff, be16_length]

/-- The length field of UDP is in front of the checksum. -/
theorem udpLengthIn_check {offset transProto len : ℕ} {b : Bytes} (hb : b.length = 2) {β : Type}
    {f : Bytes → Option β} {r : β} :
    ((udpLengthIn size hdr offset transProto len).bind fun hdr =>
        (putField size hdr (offset + checkOffset transProto) b).bind f) = some r ↔
      InBuffer size (offset + transportEnd transProto) ∧
        f (overwrite (udpLength hdr offset transProto len) (offset + checkOffset transProto) b) = some r := by
  unfold udpLengthIn udpLength transportEnd
  rw [← Nat.add_assoc]
  split
  · rw [Option.bind_some, putField_bind_eq_some_iff, hb]
  · rename_i hudp
    have hcheck : checkOffset transProto = 6 := if_neg hudp
    rw [putField_bind_eq_some_iff, putField_bind_eq_some_iff, be16_length, hb]
    refine ⟨fun h => h.2, fun h => ⟨h.1.mono (by omega), h⟩⟩

theorem partialCsumIn_eq_some_iff :
    partialCsumIn size skb desc = some out' ↔
      (InBuffer size (networkEnd desc.ipProto) ∧ InBuffer size (desc.ipLen + transportEnd desc.transProto)) ∧
        out' = rmnetFragPartialCsum skb desc := by
  unfold partialCsumIn
  constructor
  · intro h
    obtain ⟨hdr, hnet, hrest⟩ := Option.bind_eq_some_iff.mp h
    obtain ⟨hend, rfl⟩ := partialNetworkIn_eq_some_iff.mp hnet
    obtain ⟨hcheck, hout⟩ := (udpLengthIn_check (be16_length _)).mp hrest
    exact ⟨⟨hend, hcheck⟩, (Option.some.inj hout).symm⟩
  · rintro ⟨⟨hend, hcheck⟩, rfl⟩
    rw [partialNetworkIn_eq_some_iff.mpr ⟨hend, rfl⟩]
    exact (udpLengthIn_check (be16_length _)).mpr ⟨hcheck, rfl⟩

theorem badCsumIn_eq_some_iff :
    badCsumIn size skb desc = some out' ↔
      (InBuffer size (networkEnd desc.ipProto) ∧
        InBuffer size (skbTransportOffset desc + transportEnd desc.transProto) ∧
        skbTransportOffset desc ≤ skb.len) ∧ out' = fragBadCsum skb desc := by
  unfold badCsumIn
  constructor
  · intro h
    obtain ⟨hdr, hnet, hrest⟩ := Option.bind_eq_some_iff.mp h
    obtain ⟨hend, rfl⟩ := badNetworkIn_eq_some_iff.mp hnet
    obtain ⟨hcheck, hspoil⟩ := (udpLengthIn_check (be16_length _)).mp hrest
    by_cases hle : skbTransportOffset desc ≤ skb.len
    · simp only [if_pos hle] at hspoil
      obtain ⟨-, hout⟩ := putField_bind_eq_some_iff.mp hspoil
      exact ⟨⟨hend, hcheck, hle⟩, (Option.some.inj hout).symm⟩
    · simp only [if_neg hle] at hspoil
      cases hspoil
  · rintro ⟨⟨hend, hcheck, hle⟩, rfl⟩
    rw [badNetworkIn_eq_some_iff.mpr ⟨hend, rfl⟩]
    refine (udpLengthIn_check (be16_length _)).mpr ⟨hcheck, ?_⟩
    simp only [if_pos hle]
    exact putField_bind_eq_some_iff.mpr ⟨by rwa [be16_length, Nat.add_assoc], rfl⟩

/-- The fields that segmentation left are in the buffer. -/
def RmnetFragDescriptor.OverridesFit (size : ℕ) (desc : RmnetFragDescriptor) : Prop :=
  (desc.ipIdSet = true → InBuffer size 12) ∧ (desc.tcpSeqSet = true → InBuffer size (desc.ipLen + 8)) ∧
    (desc.tcpFlagsSet = true → InBuffer size (desc.ipLen + 14))

theorem putFieldIf_eq_some_iff {set : Bool} {off : ℕ} {b : Bytes} :
    putFieldIf set size hdr off b = some out ↔
      (set = true → InBuffer size (off + b.length)) ∧ out = if set then overwrite hdr off b else hdr := by
  cases set with
  | false => simp [putFieldIf, eq_comm]
  | true => simp [putFieldIf, putField_eq_some_iff]

theorem putFieldIf_bind_eq_some_iff {set : Bool} {off : ℕ} {b : Bytes} {β : Type} {f : Bytes → Option β} {r : β} :
    (putFieldIf set size hdr off b).bind f = some r ↔
      (set = true → InBuffer size (off + b.length)) ∧ f (if set then overwrite hdr off b else hdr) = some r := by
  cases set with
  | false => simp [putFieldIf]
  | true => simp [putFieldIf, putField_bind_eq_some_iff]

theorem fragOverridesIn_eq_some_iff :
    fragOverridesIn size hdr desc = some out ↔ desc.OverridesFit size ∧ out = fragOverrides hdr desc := by
  have hid : (if desc.ipIdSet then overwrite (if desc.ipIdSet then
        overwrite hdr 10 (be16 (csumReplace2 (be16At hdr 10) (be16At hdr 4) desc.ipId)) else hdr) 4 (be16 desc.ipId)
      else if desc.ipIdSet then overwrite hdr 10 (be16 (csumReplace2 (be16At hdr 10) (be16At hdr 4) desc.ipId))
      else hdr)
      = if desc.ipIdSet then
          overwrite (overwrite hdr 10 (be16 (csumReplace2 (be16At hdr 10) (be16At hdr 4) desc.ipId))) 4
            (be16 desc.ipId)
        else hdr := by
    cases desc.ipIdSet with
    | false => rfl
    | true => rfl
  unfold fragOverridesIn fragOverrides RmnetFragDescriptor.OverridesFit
  simp only [Option.bind_eq_bind, putFieldIf_bind_eq_some_iff, putFieldIf_eq_some_iff, be16_length, be32_length,
    Nat.add_assoc, and_assoc, hid]
  exact ⟨fun ⟨hcheck, _, hrest⟩ => ⟨hcheck, hrest⟩,
    fun ⟨hcheck, hrest⟩ => ⟨hcheck, fun hset => (hcheck hset).mono (by omega), hrest⟩⟩

/-- The fields that are written for the checksum of a packet of `len` bytes are in the buffer, and what is summed is
in the packet. -/
structure RmnetFragDescriptor.ChecksumFits (size len : ℕ) (desc : RmnetFragDescriptor) : Prop where
  good : desc.hdrsValid = true → desc.csumValid = true →
    InBuffer size (networkEnd desc.ipProto) ∧ InBuffer size (desc.ipLen + transportEnd desc.transProto)
  bad : desc.hdrsValid = true → desc.csumValid = false → desc.transProto = ipprotoTcp ∨ desc.transProto = ipprotoUdp →
    InBuffer size (networkEnd desc.ipProto) ∧
      InBuffer size (skbTransportOffset desc + transportEnd desc.transProto) ∧ skbTransportOffset desc ≤ len

/-- Where the fragments are does not matter for it. -/
theorem checksumFits_inMemory (mem : Memory) {size len : ℕ} :
    (desc.inMemory mem).ChecksumFits size len ↔ desc.ChecksumFits size len :=
  ⟨fun h => ⟨h.good, h.bad⟩, fun h => ⟨h.good, h.bad⟩⟩

theorem fragCsumIn_eq_some_iff :
    fragCsumIn size skb desc = some out' ↔ desc.ChecksumFits size skb.len ∧ out' = fragCsum skb desc := by
  have hdone : ∀ (t s : SkBuff) (P : Prop), P → (some s = some t ↔ P ∧ t = s) := fun t s P hP =>
    ⟨fun h => ⟨hP, (Option.some.inj h).symm⟩, fun h => congrArg some h.2.symm⟩
  unfold fragCsumIn fragCsum
  cases hvalid : desc.hdrsValid with
  | false =>
    have hfits : desc.ChecksumFits size skb.len :=
      ⟨fun h => absurd (hvalid.symm.trans h) (by decide), fun h => absurd (hvalid.symm.trans h) (by decide)⟩
    simp only [Bool.and_false, Bool.false_and, Bool.false_eq_true, if_false]
    cases desc.csumValid with
    | true => exact hdone _ _ _ hfits
    | false => exact hdone _ _ _ hfits
  | true =>
    simp only [Bool.and_true, Bool.true_and]
    cases hcsum : desc.csumValid with
    | true =>
      simp only [if_true]
      rw [partialCsumIn_eq_some_iff]
      exact and_congr_left' ⟨fun h => ⟨fun _ _ => h, fun _ hbad => absurd (hcsum.symm.trans hbad) (by decide)⟩,
        fun h => h.good hvalid hcsum⟩
    | false =>
      have hgood : ¬ desc.csumValid = true := fun h => absurd (hcsum.symm.trans h) (by decide)
      simp only [Bool.false_eq_true, if_false, Bool.or_eq_true, decide_eq_true_eq]
      by_cases hproto : desc.transProto = ipprotoTcp ∨ desc.transProto = ipprotoUdp
      · rw [if_pos hproto, if_pos hproto, badCsumIn_eq_some_iff]
        exact and_congr_left' ⟨fun h => ⟨fun _ h' => absurd h' hgood, fun _ _ _ => h⟩,
          fun h => h.bad hvalid hcsum hproto⟩
      · rw [if_neg hproto, if_neg hproto]
        exact hdone _ _ _ ⟨fun _ h' => absurd h' hgood, fun _ _ h => absurd h hproto⟩

theorem finishSkbIn_eq_some_iff :
    finishSkbIn size skb desc = some out' ↔ desc.ChecksumFits size skb.len ∧ out' = finishSkb skb desc := by
  rw [finishSkbIn, Option.map_eq_some_iff]
  constructor
  · rintro ⟨t, ht, rfl⟩
    obtain ⟨hfits, rfl⟩ := fragCsumIn_eq_some_iff.mp ht
    exact ⟨hfits, rfl⟩
  · rintro ⟨hfits, rfl⟩
    exact ⟨_, fragCsumIn_eq_some_iff.mpr ⟨hfits, rfl⟩, rfl⟩

end

/-! ### Pages -/

theorem inMemory_inMemory (mem mem' : Memory) (fs : List SkbFrag) :
    (fs.map (SkbFrag.inMemory mem)).map (SkbFrag.inMemory mem') = fs.map (SkbFrag.inMemory mem') := by
  rw [List.map_map]
  rfl

theorem fragsSize_inMemory (mem : Memory) (fs : List SkbFrag) : fragsSize (fs.map (.inMemory mem)) = fragsSize fs := by
  rw [fragsSize, List.map_map]
  rfl

/-- A buffer without linear part, in a memory. -/
theorem inMemory_bytes (mem : Memory) (head : List SkbFrag) (chain : List (List SkbFrag)) :
    ((SkBuff.ofFrags [] head chain).inMemory mem).bytes = fragsBytes ((head ++ chain.flatten).map (.inMemory mem)) := by
  rw [List.map_append, fragsBytes_append, List.map_flatten, fragsBytes_flatten]
  rfl

theorem SkBuff.Coherent.inMemory (mem : Memory) {skb : SkBuff} (h : skb.Coherent) : (skb.inMemory mem).Coherent := by
  have hbytes : (skb.inMemory mem).bytes.length = skb.bytes.length := by
    have hsize : ∀ chain : List (List SkbFrag),
        ((chain.map (List.map (.inMemory mem))).map fragsSize).sum = (chain.map fragsSize).sum := by
      intro chain
      simp only [List.map_map, Function.comp_def, fragsSize_inMemory]
    simp only [SkBuff.bytes, SkBuff.inMemory, List.length_append, fragsBytes_length, fragsBytes_flatten_length,
      fragsSize_inMemory, hsize]
  exact ⟨h.len_eq.trans hbytes.symm, h.dataLen_eq, h.len_lt⟩

/-! ### Before the header fields -/

/-- The bytes that go to the linear part. -/
def RmnetFragDescriptor.linearLen (desc : RmnetFragDescriptor) : ℕ :=
  if desc.hdrsValid then u16 (desc.ipLen + desc.transLen) else 0

/-- The bytes that the head is allocated for. -/
def RmnetFragDescriptor.headRequest (desc : RmnetFragDescriptor) : ℕ :=
  if desc.hdrsValid then u16 (desc.ipLen + desc.transLen) + mapDeaggrHeadroom else 256 + mapDeaggrHeadroom

/-- A header field is left to be written. -/
def RmnetFragDescriptor.overridden (desc : RmnetFragDescriptor) : Bool :=
  desc.ipIdSet || desc.tcpSeqSet || desc.tcpFlagsSet

section

variable {mem : Memory} {port : RmnetPort} {d : RmnetFragDescriptor}

/-- The headers are copied. -/
theorem copyData_header (hsize : d.len = fragsSize d.frags) (hlt : d.len < 4294967296) {n : ℕ} (hn : n ≤ d.len) :
    (rmnetFragCopyData d 0 n).getD [] = d.bytes.take n ∧ (d.bytes.take n).length = n := by
  have hlen : d.bytes.length = d.len := by rw [RmnetFragDescriptor.bytes, fragsBytes_length, hsize]
  have hin : ¬ d.outside 0 n := by
    unfold RmnetFragDescriptor.outside
    rw [Nat.zero_add, u32_of_lt (by omega)]
    omega
  refine ⟨?_, by rw [List.length_take, hlen]; omega⟩
  rw [rmnetFragCopyData, if_neg hin, copyFrags_eq, List.drop_zero]
  rfl

/-- The headers are pulled off. -/
theorem fragPull_header (port : RmnetPort) (hsize : d.len = fragsSize d.frags) (hlt : d.len < 4294967296) {n : ℕ}
    (hn : n < d.len) :
    ∃ frags, rmnetFragPull port d n = (port, { d with frags := frags, len := d.len - n }, true) ∧
      fragsBytes frags = d.bytes.drop n ∧ (n = 0 → frags = d.frags) := by
  obtain ⟨hb, hl⟩ := pullFrags_eq d.frags n d.len hsize.symm hn.le hlt
  refine ⟨(pullFrags d.frags n d.len).1, ?_, hb, fun hz => ?_⟩
  · rw [rmnetFragPull, if_neg (by omega)]
    simp only [hl]
    rw [dataPtr_isSome_of_bytes]
    intro hnil
    have hlen := congrArg List.length hb
    rw [show fragsBytes (pullFrags d.frags n d.len).1 = [] from hnil] at hlen
    simp only [List.length_nil, List.length_drop, fragsBytes_length, ← hsize] at hlen
    omega
  · subst hz
    cases d.frags with
    | nil => rfl
    | cons f fs => rfl

/-- The first fragment goes to the head. -/
theorem addFrags_first (halloc : port.AllocOk) (linear : Bytes) (fs : List SkbFrag) :
    ∃ head chain, addFrags port (.ofFrags linear [] []) fs = (port, .ofFrags linear head chain) ∧
      head ++ chain.flatten = fs ∧ head.head? = fs.head? := by
  obtain ⟨head, chain, heq, -, hfs⟩ := addRxFrags_frags halloc fs [] []
  refine ⟨head, chain, by rw [addFrags_eq, heq], by simpa using hfs, ?_⟩
  cases fs with
  | nil =>
    cases heq
    rfl
  | cons f fs =>
    rw [addRxFrags] at heq
    obtain ⟨head', chain', heq', ⟨rest, hpre⟩, -⟩ := addRxFrags_frags halloc fs [f] []
    have hsame : head' = head := congrArg (fun r => r.2.1) (heq'.symm.trans heq)
    rw [← hsame, ← hpre]
    rfl

/-- **The buffer before the header fields are written**: the headers are the linear part, and the fragments hold the
rest. -/
theorem allocSkbIn_raw (skbEnd : ℕ → ℕ) (mem : Memory) (halloc : port.AllocOk) (hsize : d.len = fragsSize d.frags)
    (hlt : d.len < 4294967296) (hfit : d.linearLen ≤ d.len) :
    ∃ desc' head chain, rmnetAllocSkbIn skbEnd mem port d
        = (fillSkbIn (skbEnd d.headRequest) mem (.ofFrags (d.bytes.take d.linearLen) head chain) d).map
            (fun r => (port, desc', r.1, some r.2)) ∧
      fragsBytes (head ++ chain.flatten) = d.bytes.drop d.linearLen ∧
      (d.linearLen = 0 → 0 < d.len → head ++ chain.flatten = d.frags ∧ head.head? = d.frags.head?) := by
  unfold rmnetAllocSkbIn
  rw [kalloc_of_allocOk halloc]
  simp only
  by_cases hvalid : d.hdrsValid = true
  · have hn : u16 (d.ipLen + d.transLen) = d.linearLen := by rw [RmnetFragDescriptor.linearLen, if_pos hvalid]
    have hrequest : d.headRequest = d.linearLen + mapDeaggrHeadroom := by
      rw [RmnetFragDescriptor.headRequest, if_pos hvalid, hn]
    obtain ⟨hcopy, htake⟩ := copyData_header hsize hlt hfit
    have hhead : ({ linear := d.bytes.take d.linearLen, len := u32 (d.bytes.take d.linearLen).length } : SkBuff)
        = .ofFrags (d.bytes.take d.linearLen) [] [] := rfl
    rw [if_pos hvalid, hn, hcopy, hhead, hrequest]
    by_cases hall : d.linearLen = d.len
    · rw [if_pos hall]
      refine ⟨d, [], [], rfl, ?_, fun hz hpos => absurd hpos (by omega)⟩
      rw [List.drop_eq_nil_of_le (by rw [RmnetFragDescriptor.bytes, fragsBytes_length]; omega)]
      rfl
    · rw [if_neg hall]
      obtain ⟨frags, hpull, hb, hz⟩ := fragPull_header port hsize hlt (show d.linearLen < d.len by omega)
      obtain ⟨head, chain, heq, hfs, hfirst⟩ := addFrags_first halloc (d.bytes.take d.linearLen) frags
      rw [hpull]
      simp only [heq]
      refine ⟨_, head, chain, rfl, by rw [hfs, hb], fun hzero _ => ?_⟩
      rw [hfs, hfirst, hz hzero]
      exact ⟨rfl, rfl⟩
  · have hzero : d.linearLen = 0 := by rw [RmnetFragDescriptor.linearLen, if_neg hvalid]
    have hrequest : d.headRequest = 256 + mapDeaggrHeadroom := by rw [RmnetFragDescriptor.headRequest, if_neg hvalid]
    obtain ⟨head, chain, heq, hfs, hfirst⟩ := addFrags_first halloc [] d.frags
    have hhead : ({ linear := [], len := 0 } : SkBuff) = .ofFrags [] [] [] := rfl
    rw [if_neg hvalid, hhead, heq, hzero, hrequest, List.take_zero]
    exact ⟨d, head, chain, rfl, by rw [hfs, List.drop_zero, RmnetFragDescriptor.bytes], fun _ _ => ⟨hfs, hfirst⟩⟩

/-- The header fields go to the buffer, and to no page. -/
theorem fillSkbIn_header (size : ℕ) (mem : Memory) (d : RmnetFragDescriptor) {skb : SkBuff}
    (h : skb.dataLen = 0 ∨ skb.len ≠ skb.dataLen) (r : Memory × SkBuff) :
    fillSkbIn size mem skb d = some r ↔
      (d.OverridesFit size ∧ d.ChecksumFits size skb.len) ∧ r = (mem, fillSkb skb d) := by
  have hwrite : writeOverrides size mem skb d
      = (fragOverridesIn size skb.linear d).map fun hdr => (mem, { skb with linear := hdr }) := by
    unfold writeOverrides
    split
    · rw [if_neg]
      rintro ⟨hnonlinear, heq⟩
      rcases h with hzero | hne
      · rw [SkBuff.nonlinear, hzero] at hnonlinear
        cases hnonlinear
      · exact hne heq
    · rfl
  rw [fillSkbIn, hwrite]
  constructor
  · intro hr
    obtain ⟨⟨mem', skb'⟩, hset, hfinish⟩ := Option.bind_eq_some_iff.mp hr
    obtain ⟨hdr, hover, heq⟩ := Option.map_eq_some_iff.mp hset
    cases heq
    obtain ⟨t, ht, rfl⟩ := Option.map_eq_some_iff.mp hfinish
    obtain ⟨hfits, rfl⟩ := fragOverridesIn_eq_some_iff.mp hover
    obtain ⟨hcsum, rfl⟩ := finishSkbIn_eq_some_iff.mp ht
    exact ⟨⟨hfits, hcsum⟩, rfl⟩
  · rintro ⟨⟨hfits, hcsum⟩, rfl⟩
    rw [fragOverridesIn_eq_some_iff.mpr ⟨hfits, rfl⟩, Option.map_some, Option.bind_some, Option.map_eq_some_iff]
    exact ⟨_, finishSkbIn_eq_some_iff.mpr ⟨hcsum, rfl⟩, rfl⟩

/-- The header fields go to the page of the first fragment. -/
theorem fillSkbIn_bare (size : ℕ) (mem : Memory) (d : RmnetFragDescriptor) {skb : SkBuff} {f : SkbFrag}
    {fs : List SkbFrag} (hfrags : skb.frags = f :: fs) (hdata : skb.dataLen ≠ 0) (hlen : skb.len = skb.dataLen)
    (r : Memory × SkBuff) :
    fillSkbIn size mem skb d = some r ↔
      d.ChecksumFits size skb.len ∧
        r = (memOverrides mem f.off d, finishSkb (skb.inMemory (memOverrides mem f.off d)) d) := by
  have hwrite : writeOverrides size mem skb d
      = some (memOverrides mem f.off d, skb.inMemory (memOverrides mem f.off d)) := by
    unfold writeOverrides
    rw [hfrags]
    simp only
    rw [if_pos ⟨by rw [SkBuff.nonlinear]; exact decide_eq_true hdata, hlen⟩]
  rw [fillSkbIn, hwrite, Option.bind_some]
  constructor
  · intro hr
    obtain ⟨t, ht, rfl⟩ := Option.map_eq_some_iff.mp hr
    obtain ⟨hcsum, rfl⟩ := finishSkbIn_eq_some_iff.mp ht
    exact ⟨hcsum, rfl⟩
  · rintro ⟨hcsum, rfl⟩
    rw [Option.map_eq_some_iff]
    exact ⟨_, finishSkbIn_eq_some_iff.mpr ⟨hcsum, rfl⟩, rfl⟩

theorem fillSkb_rewritten (skb : SkBuff) (d : RmnetFragDescriptor) : skb.Rewritten (fillSkb skb d) := by
  have hwrite : skb.Rewritten { skb with linear := fragOverrides skb.linear d } :=
    ⟨fragOverrides_length skb.linear d, rfl, rfl, rfl, rfl⟩
  exact hwrite.trans (finishSkb_rewritten _ d)

/-- With a linear part and the fields in the buffer, the function is `rmnetAllocSkb`, and no page is written to. -/
theorem rmnetAllocSkbIn_eq {skbEnd : ℕ → ℕ} (halloc : port.AllocOk) (hsize : d.len = fragsSize d.frags)
    (hlt : d.len < 4294967296) (hfit : d.linearLen ≤ d.len) (hpos : 0 < d.linearLen)
    (hover : d.OverridesFit (skbEnd d.headRequest)) (hcsum : d.ChecksumFits (skbEnd d.headRequest) d.len) :
    rmnetAllocSkbIn skbEnd mem port d
      = some ((rmnetAllocSkb port d).1, (rmnetAllocSkb port d).2.1, mem, (rmnetAllocSkb port d).2.2) := by
  have hvalid : d.hdrsValid = true := by
    by_contra hvalid
    rw [RmnetFragDescriptor.linearLen, if_neg hvalid] at hpos
    omega
  have hn : u16 (d.ipLen + d.transLen) = d.linearLen := by rw [RmnetFragDescriptor.linearLen, if_pos hvalid]
  rw [RmnetFragDescriptor.headRequest, if_pos hvalid, hn] at hover hcsum
  have hfill : ∀ skb : SkBuff, skb.len = d.len → skb.dataLen = 0 ∨ skb.len ≠ skb.dataLen →
      fillSkbIn (skbEnd (d.linearLen + mapDeaggrHeadroom)) mem skb d = some (mem, fillSkb skb d) :=
    fun skb hlen hskb => (fillSkbIn_header _ mem d hskb _).mpr ⟨⟨hover, hlen ▸ hcsum⟩, rfl⟩
  obtain ⟨hcopy, htake⟩ := copyData_header hsize hlt hfit
  have hhead : ({ linear := d.bytes.take d.linearLen, len := u32 (d.bytes.take d.linearLen).length } : SkBuff)
      = .ofFrags (d.bytes.take d.linearLen) [] [] := rfl
  unfold rmnetAllocSkbIn rmnetAllocSkb
  rw [kalloc_of_allocOk halloc]
  simp only [if_pos hvalid, hn, hcopy, hhead]
  by_cases hall : d.linearLen = d.len
  · have hlen : (SkBuff.ofFrags (d.bytes.take d.linearLen) [] []).len = d.len := by
      rw [← hhead]
      simp only [htake]
      rw [hall, u32_of_lt hlt]
    rw [if_pos hall, if_pos hall, hfill _ hlen (.inl rfl), Option.map_some]
  · rw [if_neg hall, if_neg hall]
    obtain ⟨frags, hpull, hb, -⟩ := fragPull_header port hsize hlt (show d.linearLen < d.len by omega)
    obtain ⟨head, chain, heq, -, hfs⟩ := addRxFrags_frags halloc frags [] []
    have hrest : fragsSize head + (chain.map fragsSize).sum = d.len - d.linearLen := by
      have hlen := congrArg List.length (congrArg fragsBytes hfs)
      simp only [fragsBytes_append, List.length_append, fragsBytes_flatten, fragsBytes_flatten_length, List.flatten_nil,
        fragsBytes_nil, List.length_nil, Nat.zero_add, hb, List.length_drop, fragsBytes_length] at hlen
      rw [hlen, RmnetFragDescriptor.bytes, fragsBytes_length, hsize]
    obtain ⟨-, hlen, hdata⟩ := ofFrags_coherent (d.bytes.take d.linearLen) head chain
      (show _ = d.len by omega) hlt
    have hwritten := hfill (.ofFrags (d.bytes.take d.linearLen) head chain) hlen
      (.inr (by rw [hlen, hdata, htake]; omega))
    rw [hpull]
    simp only [addFrags_eq, heq]
    change (fillSkbIn (skbEnd (d.linearLen + mapDeaggrHeadroom)) mem _ d).map _ = _
    rw [hwritten]
    rfl

end

/-! ### The page of the first fragment -/

/-- The byte that a field at the address `a` has at the address `i`. -/
def byteIn (a : ℕ) (b : Bytes) (i : ℕ) : Option UInt8 := if a ≤ i then b[i - a]? else none

/-- The byte that the last of the fields that are set gives the address `i`, for headers at the address `a`. -/
def RmnetFragDescriptor.fieldAt (mem : Memory) (a : ℕ) (desc : RmnetFragDescriptor) (i : ℕ) : Option UInt8 :=
  (if desc.tcpFlagsSet then byteIn (a + desc.ipLen + 12) (be16 desc.tcpFlags) i else none) <|>
    (if desc.tcpSeqSet then byteIn (a + desc.ipLen + 4) (be32 desc.tcpSeq) i else none) <|>
    (if desc.ipIdSet then byteIn (a + 4) (be16 desc.ipId) i else none) <|>
    (if desc.ipIdSet then
      byteIn (a + 10) (be16 (csumReplace2 (mem.be16 (a + 10)) (mem.be16 (a + 4)) desc.ipId)) i else none)

theorem memory_write_apply (mem : Memory) (a : ℕ) (b : Bytes) (i : ℕ) :
    mem.write a b i = (byteIn a b i).getD (mem i) := by
  unfold Memory.write memcpy byteIn
  by_cases hle : a ≤ i
  · rw [if_pos hle]
    by_cases hlt : i < a + b.length
    · have hin : i - a < b.length := by omega
      rw [if_pos ⟨hle, hlt⟩, List.getElem?_eq_getElem hin]
      exact List.getD_eq_getElem _ _ hin
    · rw [if_neg (fun h => hlt h.2), List.getElem?_eq_none (by omega)]
      rfl
  · rw [if_neg hle, if_neg (fun h => hle h.1)]
    rfl

/-- **What a byte of the page becomes.** -/
theorem memOverrides_apply (mem : Memory) (a : ℕ) (desc : RmnetFragDescriptor) (i : ℕ) :
    memOverrides mem a desc i = (desc.fieldAt mem a i).getD (mem i) := by
  have hgetD : ∀ (o p : Option UInt8) (b : UInt8), (o <|> p).getD b = o.getD (p.getD b) := by
    intro o p b
    cases o with
    | none => rfl
    | some x => rfl
  have hwrite : ∀ (set : Bool) (mem : Memory) (a : ℕ) (b : Bytes),
      (if set then mem.write a b else mem) i = (if set then byteIn a b i else none).getD (mem i) := by
    intro set mem a b
    cases set with
    | false => rfl
    | true => exact memory_write_apply mem a b i
  unfold memOverrides RmnetFragDescriptor.fieldAt
  simp only [hgetD, hwrite]
  cases desc.ipIdSet with
  | false => rfl
  | true =>
    simp only [if_true]
    rw [memory_write_apply, memory_write_apply]

theorem fieldAt_none {desc : RmnetFragDescriptor} (h : desc.overridden = false) (mem : Memory) (a i : ℕ) :
    desc.fieldAt mem a i = none := by
  rw [RmnetFragDescriptor.overridden, Bool.or_eq_false_iff, Bool.or_eq_false_iff] at h
  obtain ⟨⟨hid, hseq⟩, hflags⟩ := h
  rw [RmnetFragDescriptor.fieldAt, hid, hseq, hflags]
  rfl

/-- The addresses of the bytes of a packet. -/
def RmnetFragDescriptor.addresses (desc : RmnetFragDescriptor) : List ℕ :=
  desc.frags.flatMap fun f => (List.range f.size).map (f.off + ·)

theorem inMemory_bytes_eq (desc : RmnetFragDescriptor) (mem : Memory) :
    (desc.inMemory mem).bytes = desc.addresses.map mem := by
  rw [RmnetFragDescriptor.bytes, RmnetFragDescriptor.addresses, RmnetFragDescriptor.inMemory, fragsBytes,
    List.map_flatMap, List.flatMap_def, List.map_map]
  congr 1
  apply List.map_congr_left
  intro f _
  rw [List.map_map]
  rfl

/-! ### The condition -/

/-- The memory once the header fields are written at the first fragment. -/
def RmnetFragDescriptor.rewritten (mem : Memory) (desc : RmnetFragDescriptor) : Memory :=
  match desc.frags with
  | [] => mem
  | f :: _ => memOverrides mem f.off desc

/-- The part of the packet that may be rewritten. -/
def RmnetFragDescriptor.headersLen (desc : RmnetFragDescriptor) : ℕ :=
  if desc.hdrsValid then desc.ipLen + desc.transLen else 0

/-- The fields that are written to the head, which is `size` bytes large, are in it: those that segmentation left,
unless they go to a page, and those for the checksum. -/
structure RmnetFragDescriptor.FieldsFit (size : ℕ) (desc : RmnetFragDescriptor) : Prop where
  overrides : desc.linearLen ≠ 0 ∨ desc.len = 0 → desc.OverridesFit size
  checksum : desc.ChecksumFits size desc.len

/-- The headers have a linear part of their own; or every byte of the packet behind them that lies in a field to be
written, for headers at the first fragment, has the value of that field already. -/
def RmnetFragDescriptor.HeadersApart (mem : Memory) (desc : RmnetFragDescriptor) : Prop :=
  desc.linearLen = 0 → ∀ f, desc.frags.head? = some f → ∀ i ∈ desc.addresses.drop desc.headersLen,
    ∀ b, desc.fieldAt mem f.off i = some b → mem i = b

section

variable {mem : Memory} {port : RmnetPort} {desc : RmnetFragDescriptor}

theorem linearLen_le_headersLen (desc : RmnetFragDescriptor) : desc.linearLen ≤ desc.headersLen := by
  rw [RmnetFragDescriptor.linearLen, RmnetFragDescriptor.headersLen]
  split
  · exact Nat.mod_le _ _
  · exact le_rfl

theorem headersLen_le
    (hmeta : if desc.hdrsValid then desc.ipLen + desc.transLen ≤ desc.len else desc.overridden = false) :
    desc.headersLen ≤ desc.len := by
  rw [RmnetFragDescriptor.headersLen]
  split at hmeta
  · rename_i hvalid
    rw [if_pos hvalid]
    exact hmeta
  · rename_i hvalid
    rw [if_neg hvalid]
    exact Nat.zero_le _

theorem inMemory_bytes_length (hsize : desc.len = fragsSize desc.frags) (m : Memory) :
    (desc.inMemory m).bytes.length = desc.len := by
  rw [RmnetFragDescriptor.bytes, fragsBytes_length, hsize]
  exact fragsSize_inMemory m desc.frags

/-- Before the header fields are written, the buffer has the bytes of the descriptor. -/
theorem ofFrags_bytes {head : List SkbFrag} {chain : List (List SkbFrag)}
    (hbehind : fragsBytes (head ++ chain.flatten) = desc.bytes.drop desc.linearLen) :
    (SkBuff.ofFrags (desc.bytes.take desc.linearLen) head chain).bytes = desc.bytes := by
  rw [fragsBytes_append, fragsBytes_flatten] at hbehind
  rw [SkBuff.bytes, List.append_assoc]
  simp only [SkBuff.ofFrags_frags, SkBuff.ofFrags_fragList, hbehind]
  exact List.take_append_drop _ _

/-- What the writes to the page may change is what keeps the headers from being apart. -/
theorem headersApart_iff (hzero : desc.linearLen = 0) :
    (desc.inMemory (desc.rewritten mem)).bytes.drop desc.headersLen = (desc.inMemory mem).bytes.drop desc.headersLen ↔
      desc.HeadersApart mem := by
  rw [inMemory_bytes_eq, inMemory_bytes_eq, ← List.map_drop, ← List.map_drop, List.map_inj_left]
  unfold RmnetFragDescriptor.HeadersApart RmnetFragDescriptor.rewritten
  cases hfrags : desc.frags with
  | nil => simp
  | cons f fs =>
    have hbyte : ∀ i, memOverrides mem f.off desc i = mem i ↔
        ∀ b, desc.fieldAt mem f.off i = some b → mem i = b := by
      intro i
      rw [memOverrides_apply]
      cases desc.fieldAt mem f.off i with
      | none => simp
      | some b => simp [eq_comm]
    simp only [hbyte, hzero, List.head?_cons, Option.some.injEq, forall_const, forall_eq']

/-- With a linear part, or without any bytes, the headers are apart. -/
theorem headersApart_of_header (hsize : desc.len = fragsSize desc.frags)
    (hcase : ¬ (desc.linearLen = 0 ∧ 0 < desc.len)) : desc.HeadersApart mem := by
  intro hzero f _ i hi
  have hlen := inMemory_bytes_length hsize mem
  rw [inMemory_bytes_eq, List.length_map] at hlen
  have hnil : desc.addresses = [] := List.length_eq_zero_iff.mp (by omega)
  rw [hnil, List.drop_nil] at hi
  cases hi

/-- Without a linear part, the header fields are written to the page of the first fragment. -/
theorem finishSkb_first (size : ℕ) (hsize : desc.len = fragsSize desc.frags) (hpos : 0 < desc.len)
    {head : List SkbFrag} {chain : List (List SkbFrag)} (hfs : head ++ chain.flatten = (desc.inMemory mem).frags)
    (hfirst : head.head? = (desc.inMemory mem).frags.head?) (hlen : (SkBuff.ofFrags [] head chain).len = desc.len)
    (hdata : (SkBuff.ofFrags [] head chain).dataLen = desc.len) :
    ∃ skb, (∀ r, fillSkbIn size mem (.ofFrags [] head chain) (desc.inMemory mem) = some r ↔
        desc.ChecksumFits size desc.len ∧ r = (desc.rewritten mem, skb)) ∧
      ((SkBuff.ofFrags [] head chain).inMemory (desc.rewritten mem)).Rewritten skb ∧
      skb.bytes = (desc.inMemory (desc.rewritten mem)).bytes := by
  obtain ⟨f, hf, hrewritten⟩ : ∃ f : SkbFrag, head.head? = some (f.inMemory mem) ∧
      desc.rewritten mem = memOverrides mem f.off desc := by
    rw [hfirst, RmnetFragDescriptor.rewritten, RmnetFragDescriptor.inMemory]
    cases hfrags : desc.frags with
    | nil =>
      rw [hfrags, fragsSize_nil] at hsize
      omega
    | cons f fs => exact ⟨f, rfl, rfl⟩
  obtain ⟨rest, hhead⟩ : ∃ rest, head = f.inMemory mem :: rest := List.head?_eq_some_iff.mp hf
  have hfill := fillSkbIn_bare size mem (desc.inMemory mem)
    (show (SkBuff.ofFrags [] head chain).frags = f.inMemory mem :: rest from hhead) (by omega) (by omega)
  simp only [hlen, checksumFits_inMemory] at hfill
  have hwritten := finishSkb_rewritten ((SkBuff.ofFrags [] head chain).inMemory (desc.rewritten mem))
    (desc.inMemory mem)
  refine ⟨_, ?_, hwritten, ?_⟩
  · rw [hrewritten]
    exact hfill
  · have hbytes := hwritten.bytes_drop (n := 0) (Nat.zero_le 0)
    rw [List.drop_zero, List.drop_zero, inMemory_bytes, hfs, RmnetFragDescriptor.inMemory, inMemory_inMemory] at hbytes
    exact hbytes

end

/-! ### The whole function -/

/-- There is a result exactly when the fields fit, and it is this buffer: its length is that of the descriptor, its
lengths count what is there, and behind the first `headersLen` bytes it has the bytes of the descriptor exactly when
the headers are apart. -/
theorem allocSkbIn_spec (skbEnd : ℕ → ℕ) (mem : Memory) {port : RmnetPort} (halloc : port.AllocOk)
    (desc : RmnetFragDescriptor) (hsize : desc.len = fragsSize desc.frags) (hlt : desc.len < 4294967296)
    (hmeta : if desc.hdrsValid then desc.ipLen + desc.transLen ≤ desc.len else desc.overridden = false) :
    ∃ desc' mem' skb, (∀ r, rmnetAllocSkbIn skbEnd mem port (desc.inMemory mem) = some r ↔
        desc.FieldsFit (skbEnd desc.headRequest) ∧ r = (port, desc', mem', some skb)) ∧
      skb.len = desc.len ∧ skb.Coherent ∧
      (skb.bytes.drop desc.headersLen = (desc.inMemory mem).bytes.drop desc.headersLen ↔ desc.HeadersApart mem) := by
  have hsize' : (desc.inMemory mem).len = fragsSize (desc.inMemory mem).frags :=
    hsize.trans (fragsSize_inMemory mem desc.frags).symm
  have hlinear : (desc.inMemory mem).linearLen = desc.linearLen := rfl
  have hrequest : (desc.inMemory mem).headRequest = desc.headRequest := rfl
  have hbytes := inMemory_bytes_length hsize mem
  have hle := linearLen_le_headersLen desc
  have hfits := headersLen_le hmeta
  obtain ⟨desc', head, chain, heq, hbehind, hbare⟩ :=
    allocSkbIn_raw skbEnd mem halloc hsize' hlt (show (desc.inMemory mem).linearLen ≤ _ from hle.trans hfits)
  have hraw := ofFrags_bytes hbehind
  rw [hlinear] at heq hbehind hbare hraw
  rw [hrequest] at heq
  have htake : ((desc.inMemory mem).bytes.take desc.linearLen).length = desc.linearLen := by
    rw [List.length_take, hbytes]
    omega
  have hrest : fragsSize head + (chain.map fragsSize).sum = desc.len - desc.linearLen := by
    have hlen := congrArg List.length hbehind
    rw [fragsBytes_append, List.length_append, fragsBytes_length, fragsBytes_flatten, fragsBytes_flatten_length,
      List.length_drop, hbytes] at hlen
    exact hlen
  obtain ⟨hcoherent, hlen, hdata⟩ := ofFrags_coherent ((desc.inMemory mem).bytes.take desc.linearLen)
    head chain (show _ = desc.len by omega) hlt
  rw [htake] at hdata
  -- the result, once the two ways to fill the buffer are known
  have hresult : ∀ (P : Prop) (mem' : Memory) (skb : SkBuff),
      (∀ r, fillSkbIn (skbEnd desc.headRequest) mem
          (.ofFrags ((desc.inMemory mem).bytes.take desc.linearLen) head chain) (desc.inMemory mem) = some r ↔
        P ∧ r = (mem', skb)) →
      ∀ r, rmnetAllocSkbIn skbEnd mem port (desc.inMemory mem) = some r ↔ P ∧ r = (port, desc', mem', some skb) := by
    intro P mem' skb hfill r
    rw [heq, Option.map_eq_some_iff]
    constructor
    · rintro ⟨q, hq, rfl⟩
      obtain ⟨hP, rfl⟩ := (hfill q).mp hq
      exact ⟨hP, rfl⟩
    · rintro ⟨hP, rfl⟩
      exact ⟨_, (hfill _).mpr ⟨hP, rfl⟩, rfl⟩
  by_cases hcase : desc.linearLen = 0 ∧ 0 < desc.len
  · obtain ⟨hzero, hpos⟩ := hcase
    obtain ⟨hfs, hfirst⟩ := hbare hzero hpos
    rw [hzero, List.take_zero] at hlen hdata hcoherent hresult
    obtain ⟨skb, hfill, hrewritten, hwritten⟩ :=
      finishSkb_first (skbEnd desc.headRequest) hsize hpos hfs hfirst hlen hdata
    refine ⟨desc', desc.rewritten mem, skb, fun r => ?_, hrewritten.len.trans hlen,
      hrewritten.coherent (hcoherent.inMemory _), ?_⟩
    · rw [hresult _ _ _ hfill]
      exact and_congr_left' ⟨fun h => ⟨fun hcase => absurd hcase (by omega), h⟩, fun h => h.checksum⟩
    · rw [hwritten]
      exact headersApart_iff hzero
  · have hfill := fillSkbIn_header (skbEnd desc.headRequest) mem (desc.inMemory mem)
      (show (SkBuff.ofFrags ((desc.inMemory mem).bytes.take desc.linearLen) head chain).dataLen = 0 ∨
        (SkBuff.ofFrags ((desc.inMemory mem).bytes.take desc.linearLen) head chain).len
          ≠ (SkBuff.ofFrags ((desc.inMemory mem).bytes.take desc.linearLen) head chain).dataLen by
        rw [hlen, hdata]
        omega)
    simp only [hlen, checksumFits_inMemory] at hfill
    have hheader := fillSkb_rewritten (.ofFrags ((desc.inMemory mem).bytes.take desc.linearLen) head chain)
      (desc.inMemory mem)
    refine ⟨desc', mem, _, fun r => ?_, hheader.len.trans hlen, hheader.coherent hcoherent,
      iff_of_true ?_ (headersApart_of_header hsize hcase)⟩
    · rw [hresult _ _ _ hfill]
      exact and_congr_left' ⟨fun h => ⟨fun _ => h.1, h.2⟩, fun h => ⟨h.overrides (by omega), h.checksum⟩⟩
    · rw [hheader.bytes_drop (by rw [SkBuff.ofFrags, htake]; exact hle), hraw]

/-- Whole headers hold the fields, in a buffer that is as large as it was asked to be. -/
theorem RmnetFragDescriptor.WellFormed.fieldsFit {desc : RmnetFragDescriptor} (h : desc.WellFormed) {skbEnd : ℕ → ℕ}
    (hend : ∀ n, n ≤ skbEnd n) (hflags : desc.tcpFlagsSet = true → desc.transProto = ipprotoTcp) :
    desc.FieldsFit (skbEnd desc.headRequest) := by
  have hfits := h.fits
  have hshort := h.short
  have hroom : mapDeaggrHeadroom + (desc.ipLen + desc.transLen) ≤ skbEnd desc.headRequest := by
    have hrequest : desc.headRequest = desc.ipLen + desc.transLen + mapDeaggrHeadroom := by
      rw [RmnetFragDescriptor.headRequest, if_pos h.valid, u16_of_lt (by omega)]
    have hle := hend desc.headRequest
    omega
  have hnetwork : 20 ≤ desc.ipLen := by
    by_cases hv : desc.ipProto = 4
    · exact (h.v4 hv).2.1
    · exact le_trans (by decide) (h.v6 hv)
  have htrans : 8 ≤ desc.transLen ∧ transportEnd desc.transProto ≤ desc.transLen := by
    rw [transportEnd, checkOffset]
    rcases h.proto with hp | hp
    · have htcp := h.tcp hp
      rw [if_pos hp]
      omega
    · have hudp := h.udp hp
      rw [if_neg (by rw [hp]; decide)]
      omega
  have hin : ∀ n ≤ desc.ipLen + desc.transLen, InBuffer (skbEnd desc.headRequest) n := fun n hn => by
    unfold InBuffer
    omega
  have hip : InBuffer (skbEnd desc.headRequest) (networkEnd desc.ipProto) := by
    refine hin _ ?_
    rw [networkEnd]
    split
    · omega
    · omega
  have hcheck := hin (desc.ipLen + transportEnd desc.transProto) (by omega)
  refine ⟨fun _ => ⟨fun _ => hin _ (by omega), fun _ => hin _ (by omega), fun hset => ?_⟩,
    ⟨fun _ _ => ⟨hip, hcheck⟩, fun _ _ _ => ?_⟩⟩
  · have htcp := h.tcp (hflags hset)
    exact hin _ (by omega)
  · rw [skbTransportOffset_set (by omega)]
    exact ⟨hip, hcheck, by omega⟩

/-- Without measured headers and fields to write, nothing can go wrong. -/
theorem plain_fits {desc : RmnetFragDescriptor} (hvalid : desc.hdrsValid = false) (hnone : desc.overridden = false)
    (size : ℕ) (mem : Memory) : desc.FieldsFit size ∧ desc.HeadersApart mem := by
  have hclear : ¬ desc.hdrsValid = true := by simp [hvalid]
  refine ⟨⟨fun _ => ?_, ⟨fun h => absurd h hclear, fun h => absurd h hclear⟩⟩, fun _ f _ i _ b hb => ?_⟩
  · rw [RmnetFragDescriptor.overridden, Bool.or_eq_false_iff, Bool.or_eq_false_iff] at hnone
    obtain ⟨⟨hid, hseq⟩, hflags⟩ := hnone
    simp [RmnetFragDescriptor.OverridesFit, hid, hseq, hflags]
  · rw [fieldAt_none hnone] at hb
    cases hb

/-- **Building and flattening preserve the bytes, when the headers can be rewritten where they are.**  For every
descriptor whose length is the sum of its fragments, with measured headers that it holds or none and nothing to
rewrite: a buffer that is built has the length of the descriptor, and flattening it ends and appends its bytes, that
many.  There is one, with the bytes of the descriptor behind the headers where these were measured, exactly when the
fields that are written fit and the headers are apart. -/
theorem alloc_skb_flatten_iff (skbEnd : ℕ → ℕ) (mem : Memory) (port : RmnetPort) (halloc : port.AllocOk)
    (desc : RmnetFragDescriptor) (hsize : desc.len = fragsSize desc.frags) (hlt : desc.len < 4294967296)
    (hmeta : if desc.hdrsValid then desc.ipLen + desc.transLen ≤ desc.len else desc.overridden = false) :
    (∀ port' desc' mem' skb,
        rmnetAllocSkbIn skbEnd mem port (desc.inMemory mem) = some (port', desc', mem', some skb) →
          skb.len = desc.len ∧ skb.bytes.length = desc.len ∧
          ∀ dst : AggSkb, desc.len ≤ dst.tailroom →
            rmnetMapLinearizeCopy dst skb
              = .ok { data := dst.data ++ skb.bytes, tailroom := dst.tailroom - desc.len }) ∧
      ((∃ desc' mem' skb, rmnetAllocSkbIn skbEnd mem port (desc.inMemory mem) = some (port, desc', mem', some skb) ∧
          skb.bytes.drop desc.headersLen = (desc.inMemory mem).bytes.drop desc.headersLen) ↔
        desc.FieldsFit (skbEnd desc.headRequest) ∧ desc.HeadersApart mem) := by
  obtain ⟨desc', mem', skb, hresult, hlen, hcoherent, hiff⟩ := allocSkbIn_spec skbEnd mem halloc desc hsize hlt hmeta
  constructor
  · intro port₁ desc₁ mem₁ skb₁ h
    obtain ⟨-, heq⟩ := (hresult _).mp h
    simp only [Prod.mk.injEq, Option.some.injEq] at heq
    obtain ⟨-, -, -, rfl⟩ := heq
    refine ⟨hlen, hcoherent.len_eq.symm.trans hlen, fun dst hroom => ?_⟩
    rw [rmnetMapLinearizeCopy_eq dst skb₁ hcoherent, hlen, if_pos hroom]
  · rw [← hiff]
    constructor
    · rintro ⟨desc₁, mem₁, skb₁, h, hbytes⟩
      obtain ⟨hfits, heq⟩ := (hresult _).mp h
      simp only [Prod.mk.injEq, Option.some.injEq, true_and] at heq
      obtain ⟨-, -, rfl⟩ := heq
      exact ⟨hfits, hbytes⟩
    · rintro ⟨hfits, hbytes⟩
      exact ⟨desc', mem', skb, (hresult _).mpr ⟨hfits, rfl⟩, hbytes⟩

/-- `SKB_DATA_ALIGN` with cache lines of 64 bytes. -/
def skbDataAlign (n : ℕ) : ℕ := (n + 63) / 64 * 64

theorem le_skbDataAlign (n : ℕ) : n ≤ skbDataAlign n := by
  unfold skbDataAlign
  omega

/-- A TCP segment of four bytes with its headers in two pages, and a new identification and sequence number. -/
def headedDesc : RmnetFragDescriptor :=
  { addr := 0, frags := [⟨fun _ => 0, 69, 30⟩, ⟨fun _ => 0, 200, 14⟩], len := 44, hdrsValid := true, ipProto := 4,
    ipLen := 20, transProto := 6, transLen := 20, csumValid := true, ipIdSet := true, ipId := 7, tcpSeqSet := true,
    tcpSeq := 9 }

theorem alloc_skb_flatten_headed :
    ∃ desc' mem' skb,
      rmnetAllocSkbIn skbDataAlign (fun i => UInt8.ofNat i) (rmnetDescriptorInit 0 (fun _ => none) fun _ => true)
        (headedDesc.inMemory fun i => UInt8.ofNat i)
          = some (rmnetDescriptorInit 0 (fun _ => none) fun _ => true, desc', mem', some skb) ∧
      skb.bytes.drop 40 = [210, 211, 212, 213] ∧
      rmnetMapLinearizeCopy { data := [], tailroom := 50 } skb = .ok { data := skb.bytes, tailroom := 6 } := by
  have hwell : (headedDesc.inMemory fun i => UInt8.ofNat i).WellFormed :=
    ⟨rfl, by decide, by decide, fun _ => by decide, fun h => absurd rfl h, .inl rfl, fun _ => by decide,
      fun _ => by decide, by decide⟩
  have hfits := hwell.fieldsFit le_skbDataAlign nofun
  obtain ⟨hflat, hiff⟩ := alloc_skb_flatten_iff skbDataAlign (fun i => UInt8.ofNat i)
    (rmnetDescriptorInit 0 (fun _ => none) fun _ => true) (fun _ => rfl) headedDesc (by decide) (by decide) (by decide)
  obtain ⟨desc', mem', skb, heq, hbytes⟩ :=
    hiff.mpr ⟨⟨hfits.overrides, ⟨hfits.checksum.good, hfits.checksum.bad⟩⟩, fun hzero => absurd hzero (by decide)⟩
  exact ⟨desc', mem', skb, heq, hbytes, (hflat _ _ _ _ heq).2.2 { data := [], tailroom := 50 } (by decide)⟩

/-- A coalesced frame of two TCP segments of 24 bytes, with a header length of 0 in its IPv4 header and a data offset
of 0 where the TCP header is then looked for. -/
def bareFrame : Bytes :=
  [0x40, 1, 0, 76, 0x02, 0x10, 0, 0, 0, 24, 0, 2] ++ List.replicate 20 0 ++
    [0x40, 0, 0, 24, 0, 7, 0, 0, 0x40, 6, 0, 0, 0x0A, 0, 0, 1, 0x0A, 0, 0, 2, 0, 53, 0, 54] ++ List.replicate 24 0xAA

/-- The second descriptor that segmentation makes of the frame. -/
def bareDesc : RmnetFragDescriptor :=
  (rmnetFragSegmentCoalData (rmnetDescriptorInit 48 (fun _ => none) fun _ => true)
    (frameDesc 0 [.ofBytes bareFrame] { id := 0, groHw := false, rxcsum := true }) 0 []).list.getD 1 { addr := 0 }

/-- Segmentation measures no headers in the frame and leaves an identification and a sequence number to be written.
They are written over bytes 4 to 7, 10 and 11 of the second segment. -/
theorem alloc_skb_rewrites :
    bareDesc.len = fragsSize bareDesc.frags ∧ bareDesc.hdrsValid = true ∧
    bareDesc.ipLen + bareDesc.transLen ≤ bareDesc.len ∧ bareDesc.headersLen = 0 ∧
    (bareDesc.inMemory fun i => bareFrame.getD i 0).bytes = List.replicate 24 0xAA ∧
    ((rmnetAllocSkbIn skbDataAlign (fun i => bareFrame.getD i 0)
        (rmnetDescriptorInit 48 (fun _ => none) fun _ => true)
        (bareDesc.inMemory fun i => bareFrame.getD i 0)).bind fun r => r.2.2.2.map SkBuff.bytes)
      = some ([0xAA, 0xAA, 0xAA, 0xAA, 0, 7, 0, 24, 0xAA, 0xAA, 0x55, 0x4D] ++ List.replicate 12 0xAA) := by
  decide +kernel

-- with a bad checksum, the transport header is not set, and the checksum is written far behind the buffer
example : (rmnetAllocSkbIn skbDataAlign (fun i => bareFrame.getD i 0)
    (rmnetDescriptorInit 48 (fun _ => none) fun _ => true)
    ({ bareDesc with csumValid := false }.inMemory fun i => bareFrame.getD i 0)).isNone = true := by
  decide +kernel

end Rmnet
