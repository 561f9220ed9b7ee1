import Rmnet.Map

/-!
# Socket buffers

An `sk_buff` as the driver sees it: a linear part, the page fragments of its shared info, and the
page fragments of the buffers chained on its `frag_list` (the driver only ever chains buffers that
have no linear part, see `rmnet_alloc_skb`).  `len` and `data_len` are kept as fields because the code
maintains them by hand; `SkBuff.Coherent` says that they count what is there.

A page fragment names memory by a page, an offset and a size.  The page is modelled by what memory
holds from its address on, so an access past the fragment's end is a value of the model too.
-/

namespace Rmnet

/-- `skb_frag_t`: a page (the memory from its address on), an offset into it and a size. -/
structure SkbFrag where
  page : ℕ → UInt8
  off : ℕ
  size : ℕ

/-- The bytes of a fragment. -/
def SkbFrag.bytes (f : SkbFrag) : Bytes := (List.range f.size).map fun i => f.page (f.off + i)

/-- A fragment with given bytes, at the start of a page. -/
def SkbFrag.ofBytes (b : Bytes) : SkbFrag := { page := fun i => b.getD i 0, off := 0, size := b.length }

theorem SkbFrag.ofBytes_bytes (b : Bytes) : (SkbFrag.ofBytes b).bytes = b := by
  apply List.ext_getElem
  · simp [SkbFrag.bytes, SkbFrag.ofBytes]
  · intro i h₁ h₂
    simp [SkbFrag.bytes, SkbFrag.ofBytes, List.getD, h₂]

/-- The bytes of a list of fragments, in order. -/
def fragsBytes (fs : List SkbFrag) : Bytes := (fs.map SkbFrag.bytes).flatten

/-- The sum of the sizes of a list of fragments. -/
def fragsSize (fs : List SkbFrag) : ℕ := (fs.map SkbFrag.size).sum

@[simp] theorem SkbFrag.bytes_length (f : SkbFrag) : f.bytes.length = f.size := by
  simp [SkbFrag.bytes]

@[simp] theorem fragsBytes_nil : fragsBytes [] = [] := rfl

@[simp] theorem fragsBytes_cons (f : SkbFrag) (fs : List SkbFrag) :
    fragsBytes (f :: fs) = f.bytes ++ fragsBytes fs := rfl

@[simp] theorem fragsBytes_append (fs gs : List SkbFrag) :
    fragsBytes (fs ++ gs) = fragsBytes fs ++ fragsBytes gs := by
  simp [fragsBytes]

@[simp] theorem fragsSize_nil : fragsSize [] = 0 := rfl

@[simp] theorem fragsSize_cons (f : SkbFrag) (fs : List SkbFrag) :
    fragsSize (f :: fs) = f.size + fragsSize fs := by
  simp [fragsSize]

@[simp] theorem fragsBytes_length (fs : List SkbFrag) : (fragsBytes fs).length = fragsSize fs := by
  induction fs with
  | nil => rfl
  | cons f fs ih => simp [ih]

/-- Advancing the offset drops bytes from the front. -/
theorem SkbFrag.bytes_drop (f : SkbFrag) (n : ℕ) :
    ({ f with off := f.off + n, size := f.size - n } : SkbFrag).bytes = f.bytes.drop n := by
  apply List.ext_getElem
  · simp
  · intro i h₁ h₂
    simp [SkbFrag.bytes, Nat.add_assoc]

/-- Shrinking the size drops bytes from the end. -/
theorem SkbFrag.bytes_take (f : SkbFrag) {n : ℕ} (h : n ≤ f.size) :
    ({ f with size := n } : SkbFrag).bytes = f.bytes.take n := by
  apply List.ext_getElem
  · simp [h]
  · intro i h₁ h₂
    simp [SkbFrag.bytes]

theorem SkbFrag.drop_append_of_le (f : SkbFrag) (b : Bytes) {n : ℕ} (h : n ≤ f.size) :
    (f.bytes ++ b).drop n = f.bytes.drop n ++ b :=
  List.drop_append_of_le_length (by rw [SkbFrag.bytes_length]; exact h)

theorem SkbFrag.drop_append_of_ge (f : SkbFrag) (b : Bytes) {n : ℕ} (h : f.size ≤ n) :
    (f.bytes ++ b).drop n = b.drop (n - f.size) := by
  have hnil : f.bytes.drop n = [] := List.drop_eq_nil_of_le (by rw [SkbFrag.bytes_length]; exact h)
  rw [List.drop_append, SkbFrag.bytes_length, hnil, List.nil_append]

theorem SkbFrag.take_append_of_ge (f : SkbFrag) (b : Bytes) {n : ℕ} (h : f.size ≤ n) :
    (f.bytes ++ b).take n = f.bytes ++ b.take (n - f.size) := by
  have hall : f.bytes.take n = f.bytes := List.take_of_length_le (by rw [SkbFrag.bytes_length]; exact h)
  rw [List.take_append, SkbFrag.bytes_length, hall]

/-- `skb->protocol`, as far as the driver tells protocols apart. -/
inductive SkbProtocol
  | ip
  | ipv6
  | other
  deriving DecidableEq, Repr

/-- `skb->ip_summed`. -/
inductive IpSummed
  | checksumNone
  | checksumUnnecessary
  | checksumPartial
  deriving DecidableEq, Repr

/-- `skb_shinfo(skb)->gso_type`, as far as the driver sets it. -/
inductive GsoType
  | unset
  | tcpv4
  | tcpv6
  | udpL4
  deriving DecidableEq, Repr

/-- `struct sk_buff`. -/
structure SkBuff where
  linear : Bytes
  frags : List SkbFrag := []
  fragList : List (List SkbFrag) := []
  len : ℕ
  dataLen : ℕ := 0
  priority : ℕ := 0
  ipSummed : IpSummed := .checksumNone
  /-- `csum_start`, counted from `skb->data`. -/
  csumStart : ℕ := 0
  csumOffset : ℕ := 0
  gsoType : GsoType := .unset
  gsoSize : ℕ := 0
  gsoSegs : ℕ := 0

/-- The packet an `sk_buff` carries: linear part, page fragments, `frag_list` chain. -/
def SkBuff.bytes (skb : SkBuff) : Bytes :=
  skb.linear ++ fragsBytes skb.frags ++ (skb.fragList.map fragsBytes).flatten

/-- The length fields count the bytes that are there, in a 32-bit `len`. -/
structure SkBuff.Coherent (skb : SkBuff) : Prop where
  len_eq : skb.len = skb.bytes.length
  dataLen_eq : skb.dataLen = skb.len - skb.linear.length
  len_lt : skb.len < 4294967296

end Rmnet
