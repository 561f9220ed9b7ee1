import Rmnet.Skb

/-!
# Fragment descriptors

`struct rmnet_frag_descriptor`, the pool it comes from and the functions that read, shorten and extend
it.  A descriptor is passed by value together with its address: a function that changes one returns the
new contents, and the pool holds the addresses of the free ones (whose contents are zero).

Every kernel allocation asks the port's `alloc`, the outcomes of the allocations to come, so that a
statement "with allocations succeeding" is a hypothesis and a statement for every pattern of failures is
none.  `events` records the calls on the pool and `stats` the counters of the devices.

* `rmnetFragPull_eq`, `rmnetFragTrim_eq`, `rmnetFragHeaderPtr_eq`, `rmnetFragCopyData_eq`,
  `rmnetFragDescriptorAddFragsFrom_eq` — each function in terms of the bytes of the descriptor.
-/

namespace Rmnet

open Word Field

/-! ### Data -/

/-- The part of a `net_device` that the data path reads. -/
structure NetDevice where
  id : ℕ
  /-- `NETIF_F_GRO_HW`. -/
  groHw : Bool
  /-- `NETIF_F_RXCSUM`. -/
  rxcsum : Bool
  deriving DecidableEq, Repr

/-- The reasons counted by `struct rmnet_coal_close_stats`. -/
inductive CoalClose
  | nonCoal
  | ipMiss
  | transMiss
  | hwNl
  | hwPkt
  | hwByte
  | hwTime
  | hwEvict
  | coal
  deriving DecidableEq, Repr

/-- The counters of `struct rmnet_priv_stats` that the receive path writes. -/
inductive PrivStat
  | csumOk
  | csumValidUnset
  | csumValidationFailed
  | csumErrInvalidIpVersion
  | csumErrInvalidTransport
  | csumFragmentedPkt
  | csumSkipped
  | csumSw
  | coalRx
  | coalPkts
  | coalHdrNloErr
  | coalHdrPktErr
  | coalCsumErr
  | coalReconstruct
  | coalIpInvalid
  | coalTransInvalid
  | coalClose (reason : CoalClose)
  | coalVeid (veid : ℕ)
  | coalTcp
  | coalTcpBytes
  | coalUdp
  | coalUdpBytes
  deriving DecidableEq, Repr

/-- The DL marker part of `struct rmnet_port_priv_stats`. -/
structure DlMarkerStats where
  hdrLastQmapVers : ℕ := 0
  hdrLastEpId : ℕ := 0
  hdrLastTransId : ℕ := 0
  hdrLastSeq : ℕ := 0
  hdrLastBytes : ℕ := 0
  hdrLastPkts : ℕ := 0
  hdrLastFlows : ℕ := 0
  hdrCount : ℕ := 0
  hdrTotalBytes : ℕ := 0
  hdrTotalPkts : ℕ := 0
  trlLastSeq : ℕ := 0
  trlCount : ℕ := 0
  deriving DecidableEq, Repr

/-- What QMAP commands do outside the port: notifications of the DL marker handlers, queue control of a
device and acknowledgements, with the bytes transmitted. -/
inductive ControlEvent
  | dlHdrNotify (dlhdr cmd : Bytes)
  | dlTrlNotify (dltrl cmd : Bytes)
  | flowControl (dev : NetDevice) (enable : Bool)
  | ack (bytes : Bytes)
  deriving DecidableEq, Repr

/-- The calls on the descriptor pool. -/
inductive PoolEvent
  | got (addr : ℕ)
  | recycled (addr : ℕ)
  deriving DecidableEq, Repr

/-- `struct rmnet_port` with its descriptor pool.  Descriptors are numbered in the order of their
allocation, so `poolSize` is also the next address. -/
structure RmnetPort where
  dataFormat : ℕ
  /-- `rmnet_get_endpoint` and the `egress_dev` of the endpoint. -/
  endpoint : ℕ → Option NetDevice
  freeList : List ℕ
  poolSize : ℕ
  alloc : ℕ → Bool
  events : List PoolEvent
  stats : ℕ → PrivStat → ℕ
  dlMarker : DlMarkerStats := {}
  control : List ControlEvent := []
  delivered : List SkBuff

/-- `struct rmnet_frag_descriptor`.  `tcp_seq`, `ip_id` and `tcp_flags` are kept in host order. -/
structure RmnetFragDescriptor where
  addr : ℕ
  frags : List SkbFrag := []
  dev : Option NetDevice := none
  len : ℕ := 0
  tcpSeq : ℕ := 0
  ipId : ℕ := 0
  tcpFlags : ℕ := 0
  dataOffset : ℕ := 0
  gsoSize : ℕ := 0
  gsoSegs : ℕ := 0
  ipLen : ℕ := 0
  transLen : ℕ := 0
  ipProto : ℕ := 0
  transProto : ℕ := 0
  pktId : ℕ := 0
  csumValid : Bool := false
  hdrsValid : Bool := false
  ipIdSet : Bool := false
  tcpSeqSet : Bool := false
  tcpFlagsSet : Bool := false

/-- The bytes that a descriptor stands for. -/
def RmnetFragDescriptor.bytes (desc : RmnetFragDescriptor) : Bytes := fragsBytes desc.frags

/-- Add to a counter of a device. -/
def RmnetPort.bump (port : RmnetPort) (dev : Option NetDevice) (stat : PrivStat) (n : ℕ) : RmnetPort :=
  match dev with
  | none => port
  | some d =>
      { port with
        stats := fun i s => if i = d.id ∧ s = stat then port.stats i s + n else port.stats i s }

/-- One kernel allocation: its outcome. -/
def RmnetPort.kalloc (port : RmnetPort) : Bool × RmnetPort :=
  (port.alloc 0, { port with alloc := fun n => port.alloc (n + 1) })

/-! ### The pool -/

/-- `RMNET_FRAG_DESCRIPTOR_POOL_SIZE`. -/
def fragDescriptorPoolSize : ℕ := 64

/-- The port after a successful `rmnet_descriptor_init`. -/
def rmnetDescriptorInit (dataFormat : ℕ) (endpoint : ℕ → Option NetDevice) (alloc : ℕ → Bool) : RmnetPort :=
  { dataFormat := dataFormat
    endpoint := endpoint
    freeList := List.range fragDescriptorPoolSize
    poolSize := fragDescriptorPoolSize
    alloc := alloc
    events := []
    stats := fun _ _ => 0
    delivered := [] }

/-- `rmnet_get_frag_descriptor`. -/
def rmnetGetFragDescriptor (port : RmnetPort) : RmnetPort × Option RmnetFragDescriptor :=
  match port.freeList with
  | a :: rest => ({ port with freeList := rest, events := port.events ++ [.got a] }, some { addr := a })
  | [] =>
      match port.kalloc with
      | (false, port) => (port, none)
      | (true, port) =>
          ({ port with poolSize := port.poolSize + 1, events := port.events ++ [.got port.poolSize] },
            some { addr := port.poolSize })

/-- `rmnet_recycle_frag_descriptor`: the descriptor leaves the list it is on, is zeroed and goes to the
end of the free list. -/
def rmnetRecycleFragDescriptor (port : RmnetPort) (desc : RmnetFragDescriptor) :
    RmnetPort × RmnetFragDescriptor :=
  ({ port with
      freeList := port.freeList.erase desc.addr ++ [desc.addr]
      events := port.events ++ [.recycled desc.addr] },
    { addr := desc.addr })

/-! ### Pulling and trimming -/

/-- `rmnet_frag_data_ptr`: what memory holds from the first fragment's address on. -/
def rmnetFragDataPtr (desc : RmnetFragDescriptor) : Option (ℕ → UInt8) :=
  desc.frags.head?.map fun f i => f.page (f.off + i)

/-- The loop of `rmnet_frag_pull`: fragments and length. -/
def pullFrags : List SkbFrag → ℕ → ℕ → List SkbFrag × ℕ
  | [], _, len => ([], len)
  | f :: fs, size, len =>
      if size = 0 then (f :: fs, len)
      else if f.size ≤ size then pullFrags fs (size - f.size) (sub32 len f.size)
      else ({ f with off := f.off + size, size := f.size - size } :: fs, sub32 len size)

/-- `rmnet_frag_pull`: the last component tells whether the pointer returned is not `NULL`. -/
def rmnetFragPull (port : RmnetPort) (desc : RmnetFragDescriptor) (size : ℕ) :
    RmnetPort × RmnetFragDescriptor × Bool :=
  if desc.len ≤ size then
    let (port, desc) := rmnetRecycleFragDescriptor port desc
    (port, desc, false)
  else
    let (frags, len) := pullFrags desc.frags size desc.len
    let desc := { desc with frags := frags, len := len }
    (port, desc, (rmnetFragDataPtr desc).isSome)

/-- The loop of `rmnet_frag_trim`, from the last fragment backwards. -/
def trimFragsRev : List SkbFrag → ℕ → ℕ → List SkbFrag × ℕ
  | [], _, len => ([], len)
  | f :: fs, eat, len =>
      if eat = 0 then (f :: fs, len)
      else if f.size ≤ eat then trimFragsRev fs (eat - f.size) (sub32 len f.size)
      else ({ f with size := f.size - eat } :: fs, sub32 len eat)

/-- `rmnet_frag_trim`. -/
def rmnetFragTrim (port : RmnetPort) (desc : RmnetFragDescriptor) (size : ℕ) :
    RmnetPort × RmnetFragDescriptor × Bool :=
  if size = 0 then
    let (port, desc) := rmnetRecycleFragDescriptor port desc
    (port, desc, false)
  else if desc.len ≤ size then (port, desc, (rmnetFragDataPtr desc).isSome)
  else
    let (frags, len) := trimFragsRev desc.frags.reverse (desc.len - size) desc.len
    let desc := { desc with frags := frags.reverse, len := len }
    (port, desc, (rmnetFragDataPtr desc).isSome)

/-! ### Reading -/

/-- `n` bytes of a fragment from an offset on. -/
def SkbFrag.slice (f : SkbFrag) (off n : ℕ) : SkbFrag := { f with off := f.off + off, size := n }

/-- The loop of `rmnet_frag_copy_data`: the bytes written to the buffer. -/
def copyFrags : List SkbFrag → ℕ → ℕ → Bytes
  | [], _, _ => []
  | f :: fs, off, len =>
      if len = 0 then []
      else if off < f.size then
        let copyLen := min len (f.size - off)
        (f.slice off copyLen).bytes ++ copyFrags fs 0 (len - copyLen)
      else copyFrags fs (off - f.size) len

/-- The sanity check of the reading functions, in 32-bit arithmetic. -/
def RmnetFragDescriptor.outside (desc : RmnetFragDescriptor) (off len : ℕ) : Prop :=
  desc.len < off ∨ desc.len < len ∨ desc.len < u32 (off + len)

instance (desc : RmnetFragDescriptor) (off len : ℕ) : Decidable (desc.outside off len) :=
  inferInstanceAs (Decidable (_ ∨ _ ∨ _))

/-- `rmnet_frag_copy_data`: `none` is `-EINVAL`. -/
def rmnetFragCopyData (desc : RmnetFragDescriptor) (off len : ℕ) : Option Bytes :=
  if desc.outside off len then none else some (copyFrags desc.frags off len)

/-- The search of `rmnet_frag_header_ptr` for a fragment that holds the whole header. -/
def headerFrag : List SkbFrag → ℕ → ℕ → Option SkbFrag
  | [], _, _ => none
  | f :: fs, off, len =>
      if off < f.size then
        if u32 (off + len) ≤ f.size then some (f.slice off len) else none
      else headerFrag fs (off - f.size) len

/-- `rmnet_frag_header_ptr`: the `len` bytes at the returned pointer. -/
def rmnetFragHeaderPtr (desc : RmnetFragDescriptor) (off len : ℕ) : Option Bytes :=
  if desc.outside off len then none
  else
    match headerFrag desc.frags off len with
    | some f => some f.bytes
    | none => rmnetFragCopyData desc off len

/-! ### Adding fragments -/

/-- `rmnet_frag_descriptor_add_frag`: the last component tells whether it returned 0. -/
def rmnetFragDescriptorAddFrag (port : RmnetPort) (desc : RmnetFragDescriptor) (frag : SkbFrag) :
    RmnetPort × RmnetFragDescriptor × Bool :=
  match port.kalloc with
  | (false, port) => (port, desc, false)
  | (true, port) =>
      (port, { desc with frags := desc.frags ++ [frag], len := u32 (desc.len + frag.size) }, true)

/-- The loop of `rmnet_frag_descriptor_add_frags_from`. -/
def addFragsLoop (port : RmnetPort) (dst : RmnetFragDescriptor) :
    List SkbFrag → ℕ → ℕ → RmnetPort × RmnetFragDescriptor × Bool
  | [], _, _ => (port, dst, true)
  | f :: fs, off, len =>
      if len = 0 then (port, dst, true)
      else if off < f.size then
        let copyLen := min len (f.size - off)
        match rmnetFragDescriptorAddFrag port dst (f.slice off copyLen) with
        | (port, dst, false) => (port, dst, false)
        | (port, dst, true) => addFragsLoop port dst fs 0 (len - copyLen)
      else addFragsLoop port dst fs (off - f.size) len

/-- `rmnet_frag_descriptor_add_frags_from`. -/
def rmnetFragDescriptorAddFragsFrom (port : RmnetPort) (dst src : RmnetFragDescriptor) (off len : ℕ) :
    RmnetPort × RmnetFragDescriptor × Bool :=
  if src.outside off len then (port, dst, false) else addFragsLoop port dst src.frags off len

/-! ### The IPv6 extension headers -/

/-- `ipv6_ext_hdr`: hop-by-hop, routing, fragment, authentication, none, destination options. -/
def ipv6ExtHdr (nexthdr : ℕ) : Bool :=
  nexthdr = 0 || nexthdr = 43 || nexthdr = 44 || nexthdr = 51 || nexthdr = 59 || nexthdr = 60

/-- What `rmnet_frag_ipv6_skip_exthdr` returns and writes: the offset (`none` for `-EINVAL`), the next
header and the fragment offset field. -/
structure SkipExthdr where
  start : Option ℕ
  nexthdr : ℕ
  fragOff : ℕ
  deriving DecidableEq, Repr

/-- The walk of `rmnet_frag_ipv6_skip_exthdr` over the headers that `hdr` reads. -/
def skipExthdrLoop (hdr : ℕ → ℕ → Option Bytes) (nexthdr₀ : ℕ) : ℕ → ℕ → ℕ → ℕ → Option SkipExthdr
  | 0, _, _, _ => none
  | fuel + 1, start, nexthdr, fragOff =>
      if !ipv6ExtHdr nexthdr then some ⟨some start, nexthdr, fragOff⟩
      else if nexthdr = 59 then some ⟨none, nexthdr₀, fragOff⟩
      else
        match hdr start 2 with
        | none => some ⟨none, nexthdr₀, fragOff⟩
        | some hp =>
            if nexthdr = 44 then
              match hdr (start + 2) 2 with
              | none => some ⟨none, nexthdr₀, fragOff⟩
              | some fp =>
                  -- a fragment other than the first stops the walk
                  if be16At fp 0 / 8 ≠ 0 then some ⟨some start, nexthdr, be16At fp 0⟩
                  else skipExthdrLoop hdr nexthdr₀ fuel (start + 8) (byteAt hp 0) (be16At fp 0)
            else if nexthdr = 51 then
              skipExthdrLoop hdr nexthdr₀ fuel (start + (byteAt hp 1 + 2) * 4) (byteAt hp 0) fragOff
            else
              skipExthdrLoop hdr nexthdr₀ fuel (start + (byteAt hp 1 + 1) * 8) (byteAt hp 0) fragOff

/-- `rmnet_frag_ipv6_skip_exthdr`.  Every round advances by at least eight bytes and reads inside the
descriptor, so its length is fuel enough. -/
def rmnetFragIpv6SkipExthdr (desc : RmnetFragDescriptor) (start nexthdr : ℕ) : Option SkipExthdr :=
  skipExthdrLoop (rmnetFragHeaderPtr desc) nexthdr (desc.len + 2) start nexthdr 0

/-! ### The functions in terms of bytes -/

/-- Allocations succeed from here on. -/
def RmnetPort.AllocOk (port : RmnetPort) : Prop := ∀ n, port.alloc n = true

theorem kalloc_of_allocOk {port : RmnetPort} (h : port.AllocOk) : port.kalloc = (true, port) := by
  have halloc : (fun n => port.alloc (n + 1)) = port.alloc := by
    funext n
    rw [h n, h (n + 1)]
  rw [RmnetPort.kalloc, h 0, halloc]

/-- The length field counts the bytes of the fragments. -/
structure RmnetFragDescriptor.Sized (desc : RmnetFragDescriptor) : Prop where
  len_eq : desc.len = fragsSize desc.frags
  len_lt : desc.len < 2147483648

theorem RmnetFragDescriptor.Sized.length_bytes {desc : RmnetFragDescriptor} (h : desc.Sized) :
    desc.bytes.length = desc.len := by
  rw [RmnetFragDescriptor.bytes, fragsBytes_length, h.len_eq]

theorem SkbFrag.slice_bytes (f : SkbFrag) {off n : ℕ} (h : off + n ≤ f.size) :
    (f.slice off n).bytes = (f.bytes.drop off).take n := by
  apply List.ext_getElem
  · simp [SkbFrag.slice]
    omega
  · intro i h₁ h₂
    simp [SkbFrag.slice, SkbFrag.bytes, Nat.add_assoc]

theorem copyFrags_eq (fs : List SkbFrag) :
    ∀ off len, copyFrags fs off len = ((fragsBytes fs).drop off).take len := by
  induction fs with
  | nil =>
    intro off len
    simp [copyFrags]
  | cons f fs ih =>
    intro off len
    rw [copyFrags, fragsBytes_cons]
    by_cases hlen : len = 0
    · rw [if_pos hlen, hlen, List.take_zero]
    · rw [if_neg hlen]
      by_cases hoff : off < f.size
      · rw [if_pos hoff, f.drop_append_of_le _ (by omega), List.take_append]
        simp only [List.length_drop, SkbFrag.bytes_length]
        rw [SkbFrag.slice_bytes f (by omega), ih, List.drop_zero]
        congr 1
        · rcases Nat.le_total len (f.size - off) with hle | hle
          · rw [Nat.min_eq_left hle]
          · rw [Nat.min_eq_right hle, List.take_of_length_le (by simp),
              List.take_of_length_le (by simp; omega)]
        · congr 1
          omega
      · rw [if_neg hoff, ih, f.drop_append_of_ge _ (by omega)]

theorem headerFrag_bytes (fs : List SkbFrag) :
    ∀ off len g, off + len < 4294967296 → headerFrag fs off len = some g →
      g.bytes = ((fragsBytes fs).drop off).take len := by
  induction fs with
  | nil =>
    intro off len g _ h
    cases h
  | cons f fs ih =>
    intro off len g hlt h
    rw [headerFrag] at h
    rw [fragsBytes_cons]
    split at h
    · rename_i hoff
      split at h
      · rename_i hfit
        rw [u32_of_lt hlt] at hfit
        rw [← Option.some.inj h, SkbFrag.slice_bytes f hfit, f.drop_append_of_le _ (by omega),
          List.take_append_of_le_length (by simp; omega)]
      · cases h
    · rename_i hoff
      rw [ih (off - f.size) len g (by omega) h, f.drop_append_of_ge _ (by omega)]

/-- Below 2³¹ bytes the 32-bit check is the exact one. -/
theorem outside_iff {desc : RmnetFragDescriptor} (h : desc.Sized) (off len : ℕ) :
    desc.outside off len ↔ desc.len < off + len := by
  have hlt := h.len_lt
  unfold RmnetFragDescriptor.outside
  constructor
  · rintro (h₁ | h₂ | h₃)
    · omega
    · omega
    · exact Nat.lt_of_lt_of_le h₃ (Nat.mod_le _ _)
  · intro hsum
    by_cases hoff : desc.len < off
    · exact .inl hoff
    · by_cases hlen : desc.len < len
      · exact .inr (.inl hlen)
      · rw [u32_of_lt (by omega)]
        exact .inr (.inr hsum)

/-- **`rmnet_frag_copy_data`** reads the bytes of the descriptor. -/
theorem rmnetFragCopyData_eq {desc : RmnetFragDescriptor} (h : desc.Sized) (off len : ℕ) :
    rmnetFragCopyData desc off len = readBytes desc.bytes off len := by
  unfold rmnetFragCopyData readBytes
  simp only [outside_iff h, copyFrags_eq, h.length_bytes]
  rfl

/-- **`rmnet_frag_header_ptr`** reads the bytes of the descriptor, wherever the fragments end. -/
theorem rmnetFragHeaderPtr_eq {desc : RmnetFragDescriptor} (h : desc.Sized) (off len : ℕ) :
    rmnetFragHeaderPtr desc off len = readBytes desc.bytes off len := by
  unfold rmnetFragHeaderPtr
  simp only [outside_iff h, rmnetFragCopyData_eq h]
  split
  · rename_i hout
    rw [readBytes, if_pos (by rw [h.length_bytes]; exact hout)]
  · rename_i hin
    have hlt := h.len_lt
    cases hf : headerFrag desc.frags off len with
    | none => rfl
    | some g =>
      simp only
      rw [headerFrag_bytes desc.frags off len g (by omega) hf,
        readBytes_of_le (by rw [h.length_bytes]; omega)]
      rfl

/-- The walk over the extension headers of a byte string. -/
def ipv6SkipExthdr (b : Bytes) (start nexthdr : ℕ) : Option SkipExthdr :=
  skipExthdrLoop (readBytes b) nexthdr (b.length + 2) start nexthdr 0

/-- **`rmnet_frag_ipv6_skip_exthdr`** walks over the bytes of the descriptor. -/
theorem rmnetFragIpv6SkipExthdr_eq {desc : RmnetFragDescriptor} (h : desc.Sized) (start nexthdr : ℕ) :
    rmnetFragIpv6SkipExthdr desc start nexthdr = ipv6SkipExthdr desc.bytes start nexthdr := by
  have hread : rmnetFragHeaderPtr desc = readBytes desc.bytes := by
    funext off len
    exact rmnetFragHeaderPtr_eq h off len
  rw [rmnetFragIpv6SkipExthdr, ipv6SkipExthdr, hread, h.length_bytes]

/-- A walk that succeeds also succeeds where more can be read. -/
theorem skipExthdrLoop_mono {hdr hdr' : ℕ → ℕ → Option Bytes}
    (hmono : ∀ off len x, hdr off len = some x → hdr' off len = some x) (nexthdr₀ : ℕ) (fuel : ℕ) :
    ∀ {fuel' start nexthdr fragOff : ℕ} {r : SkipExthdr}, fuel ≤ fuel' →
      skipExthdrLoop hdr nexthdr₀ fuel start nexthdr fragOff = some r → r.start ≠ none →
      skipExthdrLoop hdr' nexthdr₀ fuel' start nexthdr fragOff = some r := by
  induction fuel with
  | zero =>
    intro fuel' start nexthdr fragOff r _ h _
    cases h
  | succ fuel ih =>
    intro fuel' start nexthdr fragOff r hle h hr
    obtain ⟨n, rfl⟩ : ∃ n, fuel' = n + 1 := ⟨fuel' - 1, by omega⟩
    rw [skipExthdrLoop] at h ⊢
    have hstop : ∀ {n f : ℕ}, some (⟨none, n, f⟩ : SkipExthdr) = some r → False := by
      intro n f hn
      rw [← Option.some.inj hn] at hr
      exact hr rfl
    split at h
    · rename_i hext
      rw [if_pos hext]
      exact h
    · rename_i hext
      rw [if_neg hext]
      split at h
      · exact (hstop h).elim
      · rename_i h59
        rw [if_neg h59]
        cases hread : hdr start 2 with
        | none =>
          rw [hread] at h
          exact (hstop h).elim
        | some hp =>
          rw [hread] at h
          rw [hmono _ _ _ hread]
          simp only at h ⊢
          split at h
          · rename_i h44
            rw [if_pos h44]
            cases hfrag : hdr (start + 2) 2 with
            | none =>
              rw [hfrag] at h
              exact (hstop h).elim
            | some fp =>
              rw [hfrag] at h
              rw [hmono _ _ _ hfrag]
              simp only at h ⊢
              split at h
              · rename_i hoff
                rw [if_pos hoff]
                exact h
              · rename_i hoff
                rw [if_neg hoff]
                exact ih (by omega) h hr
          · rename_i h44
            rw [if_neg h44]
            split at h
            · rename_i h51
              rw [if_pos h51]
              exact ih (by omega) h hr
            · rename_i h51
              rw [if_neg h51]
              exact ih (by omega) h hr

/-- More bytes behind the extension headers do not change the walk. -/
theorem ipv6SkipExthdr_append {b : Bytes} (c : Bytes) {start nexthdr : ℕ} {r : SkipExthdr}
    (h : ipv6SkipExthdr b start nexthdr = some r) (hr : r.start ≠ none) :
    ipv6SkipExthdr (b ++ c) start nexthdr = some r :=
  skipExthdrLoop_mono (fun _ _ _ hx => readBytes_append c hx) nexthdr (b.length + 2)
    (by rw [List.length_append]; omega) h hr

/-- Pulling drops bytes from the front. -/
theorem pullFrags_bytes (fs : List SkbFrag) :
    ∀ size len, fragsBytes (pullFrags fs size len).1 = (fragsBytes fs).drop size := by
  induction fs with
  | nil =>
    intro size len
    simp [pullFrags]
  | cons f fs ih =>
    intro size len
    rw [pullFrags]
    split
    · rename_i hz
      rw [hz, List.drop_zero]
    · split
      · rename_i hle
        rw [ih, fragsBytes_cons, f.drop_append_of_ge _ hle]
      · rename_i hlt
        simp only
        rw [fragsBytes_cons, SkbFrag.bytes_drop, fragsBytes_cons, f.drop_append_of_le _ (by omega)]

theorem pullFrags_eq (fs : List SkbFrag) :
    ∀ size len, fragsSize fs = len → size ≤ len → len < 4294967296 →
      fragsBytes (pullFrags fs size len).1 = (fragsBytes fs).drop size ∧
        (pullFrags fs size len).2 = len - size := by
  induction fs with
  | nil =>
    intro size len hsum hle _
    rw [fragsSize_nil] at hsum
    exact ⟨pullFrags_bytes [] size len, by simp only [pullFrags]; omega⟩
  | cons f fs ih =>
    intro size len hsum hle hlt
    refine ⟨pullFrags_bytes (f :: fs) size len, ?_⟩
    rw [fragsSize_cons] at hsum
    rw [pullFrags]
    split
    · omega
    · split
      · rw [sub32_of_le (by omega) hlt]
        obtain ⟨-, hl⟩ := ih (size - f.size) (len - f.size) (by omega) (by omega) (by omega)
        rw [hl]
        omega
      · exact sub32_of_le hle hlt

/-- Pulling leaves no empty fragment behind. -/
theorem pullFrags_pos (fs : List SkbFrag) :
    ∀ size len, (∀ f ∈ fs, 0 < f.size) → ∀ f ∈ (pullFrags fs size len).1, 0 < f.size := by
  induction fs with
  | nil =>
    intro size len _ f hf
    cases hf
  | cons g fs ih =>
    intro size len hpos f hf
    rw [pullFrags] at hf
    split at hf
    · exact hpos f hf
    · split at hf
      · exact ih _ _ (fun f hf => hpos f (List.mem_cons_of_mem _ hf)) f hf
      · rename_i hlt
        rcases List.mem_cons.mp hf with rfl | hf
        · simp only
          omega
        · exact hpos f (List.mem_cons_of_mem _ hf)

/-- A descriptor with bytes has a first fragment. -/
theorem dataPtr_isSome_of_bytes {desc : RmnetFragDescriptor} (h : desc.bytes ≠ []) :
    (rmnetFragDataPtr desc).isSome = true := by
  unfold rmnetFragDataPtr
  cases hf : desc.frags with
  | nil =>
    rw [RmnetFragDescriptor.bytes, hf] at h
    exact absurd rfl h
  | cons f fs => rfl

/-- The first fragment, if it is not empty, starts with the first byte. -/
theorem dataPtr_front {desc : RmnetFragDescriptor} (hb : desc.bytes ≠ [])
    (hpos : ∀ f ∈ desc.frags, 0 < f.size) :
    ∃ data, rmnetFragDataPtr desc = some data ∧ (data 0).toNat = byteAt desc.bytes 0 := by
  unfold rmnetFragDataPtr
  cases hf : desc.frags with
  | nil =>
    rw [RmnetFragDescriptor.bytes, hf] at hb
    exact absurd rfl hb
  | cons f fs =>
    refine ⟨_, rfl, ?_⟩
    have hsz : 0 < f.size := hpos f (by rw [hf]; exact List.mem_cons_self)
    rw [RmnetFragDescriptor.bytes, hf, fragsBytes_cons,
      byteAt_append_left _ (by rw [SkbFrag.bytes_length]; exact hsz)]
    simp [byteAt, SkbFrag.bytes, List.getD, hsz]

/-- **`rmnet_frag_pull`** drops bytes from the front, if any are left behind them. -/
theorem rmnetFragPull_eq (port : RmnetPort) {desc : RmnetFragDescriptor} (h : desc.Sized) {size : ℕ}
    (hsize : size < desc.len) :
    ∃ frags, rmnetFragPull port desc size
        = (port, { desc with frags := frags, len := desc.len - size }, true) ∧
      fragsBytes frags = desc.bytes.drop size ∧
      ((∀ f ∈ desc.frags, 0 < f.size) → ∀ f ∈ frags, 0 < f.size) := by
  have hlt := h.len_lt
  obtain ⟨hb, hl⟩ := pullFrags_eq desc.frags size desc.len h.len_eq.symm (by omega) (by omega)
  refine ⟨(pullFrags desc.frags size desc.len).1, ?_, hb, pullFrags_pos desc.frags size desc.len⟩
  unfold rmnetFragPull
  rw [if_neg (by omega)]
  simp only [hl]
  rw [dataPtr_isSome_of_bytes]
  intro hnil
  have hlen := congrArg List.length hb
  rw [show fragsBytes (pullFrags desc.frags size desc.len).1 = [] from hnil] at hlen
  simp only [List.length_nil, List.length_drop, fragsBytes_length, ← h.len_eq] at hlen
  omega

theorem sized_of_drop {desc : RmnetFragDescriptor} (h : desc.Sized) {frags : List SkbFrag} {size : ℕ}
    (hb : fragsBytes frags = desc.bytes.drop size) :
    ({ desc with frags := frags, len := desc.len - size } : RmnetFragDescriptor).Sized := by
  have hlt := h.len_lt
  refine ⟨?_, by simp only; omega⟩
  simp only
  rw [← fragsBytes_length, hb, List.length_drop, h.length_bytes]

theorem trimFragsRev_eq (rs : List SkbFrag) :
    ∀ eat len, fragsSize rs = len → eat ≤ len → len < 4294967296 →
      fragsBytes (trimFragsRev rs eat len).1.reverse = (fragsBytes rs.reverse).take (len - eat) ∧
        (trimFragsRev rs eat len).2 = len - eat := by
  induction rs with
  | nil =>
    intro eat len hsum hle _
    rw [fragsSize_nil] at hsum
    simp only [trimFragsRev, List.reverse_nil, fragsBytes_nil, List.take_nil]
    exact ⟨trivial, by omega⟩
  | cons f rs ih =>
    intro eat len hsum hle hlt
    rw [fragsSize_cons] at hsum
    have hrev : (fragsBytes rs.reverse).length = fragsSize rs := by
      rw [fragsBytes_length, fragsSize, fragsSize, List.map_reverse, List.sum_reverse]
    have hsingle : ∀ g : SkbFrag, fragsBytes [g] = g.bytes := fun g => by
      rw [fragsBytes_cons, fragsBytes_nil, List.append_nil]
    rw [trimFragsRev]
    split
    · rename_i hz
      rw [hz, Nat.sub_zero]
      refine ⟨(List.take_of_length_le ?_).symm, rfl⟩
      rw [List.reverse_cons, fragsBytes_append, List.length_append, hrev, hsingle, SkbFrag.bytes_length]
      omega
    · split
      · rename_i hfe
        rw [sub32_of_le (by omega) hlt]
        obtain ⟨hb, hl⟩ := ih (eat - f.size) (len - f.size) (by omega) (by omega) (by omega)
        have hsub : len - f.size - (eat - f.size) = len - eat := by omega
        rw [hsub] at hb hl
        refine ⟨?_, hl⟩
        rw [hb, List.reverse_cons, fragsBytes_append, List.take_append_of_le_length (by rw [hrev]; omega)]
      · rename_i hfe
        rw [sub32_of_le hle hlt]
        refine ⟨?_, rfl⟩
        rw [List.reverse_cons, List.reverse_cons, fragsBytes_append, fragsBytes_append, hsingle, hsingle,
          SkbFrag.bytes_take f (by omega), List.take_append, hrev,
          List.take_of_length_le (show (fragsBytes rs.reverse).length ≤ len - eat by rw [hrev]; omega)]
        congr 2
        omega

/-- **`rmnet_frag_trim`** cuts bytes off the end, and leaves at least one. -/
theorem rmnetFragTrim_eq (port : RmnetPort) {desc : RmnetFragDescriptor} (h : desc.Sized) {size : ℕ}
    (hlen : 0 < desc.len) (hsize : 0 < size) :
    ∃ frags, rmnetFragTrim port desc size
        = (port, { desc with frags := frags, len := min desc.len size }, true) ∧
      fragsBytes frags = desc.bytes.take size := by
  have hlt := h.len_lt
  have hne : ∀ {frags : List SkbFrag} {n : ℕ}, fragsBytes frags = desc.bytes.take size →
      (rmnetFragDataPtr { desc with frags := frags, len := n }).isSome = true := by
    intro frags n hb
    apply dataPtr_isSome_of_bytes
    show fragsBytes frags ≠ []
    intro hnil
    have hl := congrArg List.length hb
    rw [hnil, List.length_take, h.length_bytes] at hl
    simp only [List.length_nil] at hl
    omega
  unfold rmnetFragTrim
  rw [if_neg (by omega)]
  split
  · rename_i hle
    have hb : fragsBytes desc.frags = desc.bytes.take size :=
      (List.take_of_length_le (by rw [fragsBytes_length, ← h.len_eq]; exact hle)).symm
    refine ⟨desc.frags, ?_, hb⟩
    rw [Nat.min_eq_left hle]
    show (port, desc, (rmnetFragDataPtr { desc with frags := desc.frags, len := desc.len }).isSome) = _
    rw [hne hb]
  · rename_i hle
    have hsum : fragsSize desc.frags.reverse = desc.len := by
      rw [fragsSize, List.map_reverse, List.sum_reverse, h.len_eq, fragsSize]
    obtain ⟨hb, hl⟩ := trimFragsRev_eq desc.frags.reverse (desc.len - size) desc.len hsum (by omega) (by omega)
    rw [List.reverse_reverse, show desc.len - (desc.len - size) = size by omega] at hb
    rw [show desc.len - (desc.len - size) = size by omega] at hl
    refine ⟨(trimFragsRev desc.frags.reverse (desc.len - size) desc.len).1.reverse, ?_, hb⟩
    simp only [hl, Nat.min_eq_right (show size ≤ desc.len by omega)]
    rw [hne hb]

/-- The fragments that the loop of `rmnet_frag_descriptor_add_frags_from` adds. -/
def sliceFrags : List SkbFrag → ℕ → ℕ → List SkbFrag
  | [], _, _ => []
  | f :: fs, off, len =>
      if len = 0 then []
      else if off < f.size then
        f.slice off (min len (f.size - off)) :: sliceFrags fs 0 (len - min len (f.size - off))
      else sliceFrags fs (off - f.size) len

theorem fragsBytes_sliceFrags (fs : List SkbFrag) :
    ∀ off len, fragsBytes (sliceFrags fs off len) = ((fragsBytes fs).drop off).take len := by
  intro off len
  rw [← copyFrags_eq]
  induction fs generalizing off len with
  | nil => rfl
  | cons f fs ih =>
    rw [sliceFrags, copyFrags]
    split
    · rfl
    · split
      · rw [fragsBytes_cons, ih]
      · exact ih _ _

theorem addFragsLoop_eq {port : RmnetPort} (halloc : port.AllocOk) (fs : List SkbFrag) :
    ∀ (dst : RmnetFragDescriptor) (off len : ℕ), off + len ≤ fragsSize fs →
      dst.len + len < 4294967296 →
      addFragsLoop port dst fs off len
        = (port, { dst with frags := dst.frags ++ sliceFrags fs off len, len := dst.len + len }, true) := by
  induction fs with
  | nil =>
    intro dst off len hle _
    rw [fragsSize_nil] at hle
    have hz : len = 0 := by omega
    subst hz
    simp [addFragsLoop, sliceFrags]
  | cons f fs ih =>
    intro dst off len hle hlt
    rw [fragsSize_cons] at hle
    rw [addFragsLoop, sliceFrags]
    split
    · rename_i hz
      subst hz
      simp
    · split
      · rename_i hoff
        simp only [rmnetFragDescriptorAddFrag, kalloc_of_allocOk halloc]
        rw [u32_of_lt (by simp only [SkbFrag.slice]; omega), ih _ 0 _ (by omega)
          (by simp only [SkbFrag.slice]; omega)]
        simp only [SkbFrag.slice, List.append_assoc, List.singleton_append]
        congr 3
        omega
      · exact ih _ _ _ (by omega) hlt

/-- **`rmnet_frag_descriptor_add_frags_from`** appends a slice of the source's bytes. -/
theorem rmnetFragDescriptorAddFragsFrom_eq {port : RmnetPort} (halloc : port.AllocOk)
    (dst : RmnetFragDescriptor) {src : RmnetFragDescriptor} (hsrc : src.Sized) {off len : ℕ}
    (hin : off + len ≤ src.len) (hlt : dst.len + len < 4294967296) :
    rmnetFragDescriptorAddFragsFrom port dst src off len
      = (port, { dst with frags := dst.frags ++ sliceFrags src.frags off len, len := dst.len + len },
          true) := by
  rw [rmnetFragDescriptorAddFragsFrom, if_neg (by rw [outside_iff hsrc]; omega)]
  exact addFragsLoop_eq halloc src.frags dst off len (by rw [← hsrc.len_eq]; exact hin) hlt

/-- What is added when the allocations succeed that were made. -/
theorem addFragsLoop_ok (fs : List SkbFrag) : ∀ (port : RmnetPort) (dst : RmnetFragDescriptor) (off len : ℕ),
    (addFragsLoop port dst fs off len).2.2 = true → ∃ n, (addFragsLoop port dst fs off len).2.1
        = { dst with frags := dst.frags ++ sliceFrags fs off len, len := n } ∧
      (off + len ≤ fragsSize fs → dst.len + len < 4294967296 → n = dst.len + len) := by
  induction fs with
  | nil =>
    intro port dst off len _
    refine ⟨dst.len, by simp [addFragsLoop, sliceFrags], ?_⟩
    intro hle _
    rw [fragsSize_nil] at hle
    omega
  | cons f fs ih =>
    intro port dst off len hok
    rw [addFragsLoop] at hok ⊢
    rw [sliceFrags, fragsSize_cons]
    split
    · rename_i hlen
      exact ⟨dst.len, by simp, fun _ _ => by omega⟩
    · rename_i hlen
      rw [if_neg hlen] at hok
      split
      · rename_i hoff
        rw [if_pos hoff] at hok
        unfold rmnetFragDescriptorAddFrag at hok ⊢
        cases hk : port.kalloc with
        | mk ok port₁ =>
          rw [hk] at hok
          cases ok with
          | false => cases hok
          | true =>
            simp only at hok ⊢
            obtain ⟨n, hd, hn⟩ := ih _ _ _ _ hok
            refine ⟨n, by rw [hd, List.append_assoc]; rfl, ?_⟩
            intro hle hlt
            have hsize : (f.slice off (min len (f.size - off))).size = min len (f.size - off) := rfl
            have hu : u32 (dst.len + min len (f.size - off)) = dst.len + min len (f.size - off) :=
              u32_of_lt (by omega)
            simp only [hsize, hu] at hn
            rw [hn (by omega) (by omega)]
            omega
      · rename_i hoff
        rw [if_neg hoff] at hok
        obtain ⟨n, hd, hn⟩ := ih _ _ _ _ hok
        exact ⟨n, hd, fun hle hlt => hn (by omega) hlt⟩

theorem addFragsFrom_frags (port : RmnetPort) (dst src : RmnetFragDescriptor) (off len : ℕ)
    (hok : (rmnetFragDescriptorAddFragsFrom port dst src off len).2.2 = true) :
    (rmnetFragDescriptorAddFragsFrom port dst src off len).2.1.frags
      = dst.frags ++ sliceFrags src.frags off len := by
  unfold rmnetFragDescriptorAddFragsFrom at hok ⊢
  split
  · rename_i hout
    rw [if_pos hout] at hok
    cases hok
  · rename_i hout
    rw [if_neg hout] at hok
    obtain ⟨n, hd, -⟩ := addFragsLoop_ok src.frags port dst off len hok
    rw [hd]

/-- `rmnet_frag_descriptor_add_frags_from` when it returns 0. -/
theorem addFragsFrom_ok {port : RmnetPort} {dst src : RmnetFragDescriptor} (hsrc : src.Sized) {off len : ℕ}
    (hok : (rmnetFragDescriptorAddFragsFrom port dst src off len).2.2 = true)
    (hlt : dst.len + len < 4294967296) :
    off + len ≤ src.len ∧ ∃ port', rmnetFragDescriptorAddFragsFrom port dst src off len
      = (port', { dst with frags := dst.frags ++ sliceFrags src.frags off len, len := dst.len + len }, true) := by
  unfold rmnetFragDescriptorAddFragsFrom at hok ⊢
  split
  · rename_i hout
    rw [if_pos hout] at hok
    cases hok
  · rename_i hout
    rw [if_neg hout] at hok
    rw [outside_iff hsrc] at hout
    obtain ⟨n, hd, hn⟩ := addFragsLoop_ok src.frags port dst off len hok
    refine ⟨by omega, _, Prod.ext rfl (Prod.ext ?_ hok)⟩
    rw [hd, hn (by rw [← hsrc.len_eq]; omega) hlt]

end Rmnet
