import Rmnet.Errno
import Rmnet.Frag.Descriptor
import Rmnet.Lib.Transition

/-!
# Fragment descriptors implement byte strings

A descriptor is a list of page pieces and a length field; what it is for is one byte string.  The abstract
model is a store of byte strings, one an address, on which the four operations append, drop and take.  A
descriptor that `rmnet_frag_pull` or `rmnet_frag_trim` recycles is the empty string again, so on the
abstract side neither has a special case.

* `RmnetFragDescriptor.Good` — the invariant: the length counts the pieces, and no piece is empty;
* `addFragsFrom_spec`, `fragPull_spec`, `fragTrim_spec` — one operation, result and return value;
* `descStep_simulates`, `descriptors_implement_bytes` — one step, and every run.
-/

namespace Rmnet

open Word Transition

/-! ### The invariant -/

/-- A descriptor whose length field counts its fragments, none of them empty. -/
structure RmnetFragDescriptor.Good (desc : RmnetFragDescriptor) : Prop extends desc.Sized where
  frags_pos : ∀ f ∈ desc.frags, 0 < f.size

/-- A fresh descriptor is good. -/
theorem good_fresh (a : ℕ) : RmnetFragDescriptor.Good { addr := a } :=
  ⟨⟨rfl, by simp⟩, by simp⟩

/-- Good is a property of the fragments and the length. -/
theorem good_of_bytes {desc : RmnetFragDescriptor} (hlen : desc.len = desc.bytes.length)
    (hlt : desc.len < 2147483648) (hpos : ∀ f ∈ desc.frags, 0 < f.size) : desc.Good :=
  ⟨⟨by rw [hlen, RmnetFragDescriptor.bytes, fragsBytes_length], hlt⟩, hpos⟩

/-! ### Addresses -/

/-- A byte of memory: a page and an offset into it. -/
abbrev PageAddr := (ℕ → UInt8) × ℕ

/-- The address of byte `i` of a list of fragments. -/
def locate : List SkbFrag → ℕ → Option PageAddr
  | [], _ => none
  | f :: fs, i => if i < f.size then some (f.page, f.off + i) else locate fs (i - f.size)

/-- The address that `rmnet_frag_data_ptr` returns: that of the first fragment. -/
def RmnetFragDescriptor.dataAddr (desc : RmnetFragDescriptor) : Option PageAddr :=
  desc.frags.head?.map fun f => (f.page, f.off)

/-- The pointer returned by a function that leaves a descriptor and says whether the pointer is there. -/
def returnedAddr (r : RmnetPort × RmnetFragDescriptor × Bool) : Option PageAddr :=
  if r.2.2 then r.2.1.dataAddr else none

theorem locate_zero {fs : List SkbFrag} (hpos : ∀ f ∈ fs, 0 < f.size) :
    locate fs 0 = fs.head?.map fun f => (f.page, f.off) := by
  cases fs with
  | nil => rfl
  | cons f fs =>
    rw [locate, if_pos (hpos f List.mem_cons_self)]
    rfl

/-- What is pulled off moves no byte. -/
theorem locate_pullFrags (fs : List SkbFrag) :
    ∀ (size len i : ℕ), locate (pullFrags fs size len).1 i = locate fs (size + i) := by
  induction fs with
  | nil =>
    intro size len i
    rfl
  | cons f fs ih =>
    intro size len i
    rw [pullFrags]
    split
    · rename_i hz
      rw [hz, Nat.zero_add]
    · split
      · rename_i hle
        rw [ih, locate, if_neg (by omega)]
        congr 1
        omega
      · rename_i hlt
        rw [locate, locate]
        by_cases hi : i < f.size - size
        · rw [if_pos hi, if_pos (by omega), Nat.add_assoc]
        · rw [if_neg hi, if_neg (by omega)]
          congr 1
          simp only
          omega

/-! ### No empty pieces -/

theorem trimFragsRev_pos (rs : List SkbFrag) :
    ∀ eat len, (∀ f ∈ rs, 0 < f.size) → ∀ f ∈ (trimFragsRev rs eat len).1, 0 < f.size := by
  induction rs with
  | nil =>
    intro eat len _ f hf
    cases hf
  | cons g rs ih =>
    intro eat len hpos f hf
    have hrest : ∀ f ∈ rs, 0 < f.size := fun f hf => hpos f (List.mem_cons_of_mem _ hf)
    rw [trimFragsRev] at hf
    split at hf
    · exact hpos f hf
    · split at hf
      · exact ih _ _ hrest f hf
      · rcases List.mem_cons.mp hf with rfl | hf
        · simp only
          omega
        · exact hrest f hf

theorem sliceFrags_pos (fs : List SkbFrag) :
    ∀ off len, ∀ f ∈ sliceFrags fs off len, 0 < f.size := by
  induction fs with
  | nil =>
    intro off len f hf
    cases hf
  | cons g fs ih =>
    intro off len f hf
    rw [sliceFrags] at hf
    split at hf
    · cases hf
    · split at hf
      · rcases List.mem_cons.mp hf with rfl | hf
        · simp only [SkbFrag.slice]
          omega
        · exact ih _ _ f hf
      · exact ih _ _ f hf

/-! ### One operation -/

/-- What `rmnet_frag_descriptor_add_frags_from` returns. -/
def addFragsFromRc (port : RmnetPort) (dst src : RmnetFragDescriptor) (off len : ℕ) : ℤ :=
  if src.outside off len then -einval
  else if (rmnetFragDescriptorAddFragsFrom port dst src off len).2.2 then 0
  else -enomem

/-- **`rmnet_frag_descriptor_add_frag`** appends the bytes of one piece. -/
theorem addFrag_spec {port : RmnetPort} (halloc : port.AllocOk) {desc : RmnetFragDescriptor}
    (h : desc.Good) {frag : SkbFrag} (hpos : 0 < frag.size) (hlt : desc.len + frag.size < 2147483648) :
    ∃ desc', rmnetFragDescriptorAddFrag port desc frag = (port, desc', true) ∧ desc'.Good ∧
      desc'.addr = desc.addr ∧ desc'.bytes = desc.bytes ++ frag.bytes := by
  have hbytes : fragsBytes (desc.frags ++ [frag]) = desc.bytes ++ frag.bytes := by
    rw [fragsBytes_append, fragsBytes_cons, fragsBytes_nil, List.append_nil]
    rfl
  refine ⟨{ desc with frags := desc.frags ++ [frag], len := u32 (desc.len + frag.size) }, ?_, ?_, rfl, hbytes⟩
  · rw [rmnetFragDescriptorAddFrag, kalloc_of_allocOk halloc]
  · rw [u32_of_lt (by omega)]
    refine good_of_bytes ?_ hlt ?_
    · show desc.len + frag.size = (fragsBytes (desc.frags ++ [frag])).length
      rw [hbytes, List.length_append, h.length_bytes, SkbFrag.bytes_length]
    · intro f hf
      rcases List.mem_append.mp hf with hf | hf
      · exact h.frags_pos f hf
      · rw [List.mem_singleton.mp hf]
        exact hpos

/-- **`rmnet_frag_descriptor_add_frags_from`** fails exactly when the range is not inside the source, and
then changes nothing; otherwise it appends the range. -/
theorem addFragsFrom_spec {port : RmnetPort} (halloc : port.AllocOk) {dst src : RmnetFragDescriptor}
    (hdst : dst.Good) (hsrc : src.Good) (off len : ℕ) :
    (addFragsFromRc port dst src off len = -einval ↔ src.len < off + len) ∧
    (src.len < off + len → rmnetFragDescriptorAddFragsFrom port dst src off len = (port, dst, false)) ∧
    (off + len ≤ src.len → dst.len + len < 2147483648 →
      addFragsFromRc port dst src off len = 0 ∧
        ∃ dst', rmnetFragDescriptorAddFragsFrom port dst src off len = (port, dst', true) ∧ dst'.Good ∧
          dst'.addr = dst.addr ∧ dst'.bytes = dst.bytes ++ (src.bytes.drop off).take len) := by
  have hout := outside_iff hsrc.toSized off len
  refine ⟨⟨?_, ?_⟩, ?_, ?_⟩
  · intro hrc
    by_contra hin
    rw [addFragsFromRc, if_neg (by rw [hout]; exact hin)] at hrc
    split at hrc
    · cases hrc
    · cases hrc
  · intro hlt
    rw [addFragsFromRc, if_pos (hout.mpr hlt)]
  · intro hlt
    rw [rmnetFragDescriptorAddFragsFrom, if_pos (hout.mpr hlt)]
  · intro hin hsum
    have heq := rmnetFragDescriptorAddFragsFrom_eq halloc dst hsrc.toSized hin (by omega)
    refine ⟨?_, _, heq, ?_, rfl, ?_⟩
    · rw [addFragsFromRc, if_neg (by rw [hout]; omega), heq]
      rfl
    · refine good_of_bytes ?_ hsum ?_
      · show dst.len + len = (fragsBytes _).length
        rw [fragsBytes_append, List.length_append, fragsBytes_sliceFrags, List.length_take, List.length_drop,
          fragsBytes_length, fragsBytes_length, ← hdst.len_eq, ← hsrc.len_eq]
        omega
      · intro f hf
        rcases List.mem_append.mp hf with hf | hf
        · exact hdst.frags_pos f hf
        · exact sliceFrags_pos _ _ _ f hf
    · show fragsBytes _ = _
      rw [fragsBytes_append, fragsBytes_sliceFrags]
      rfl

/-- **`rmnet_frag_pull`** drops bytes from the front and returns the address of the new first byte, or
recycles the descriptor and returns `NULL` when no byte would be left. -/
theorem fragPull_spec (port : RmnetPort) {desc : RmnetFragDescriptor} (h : desc.Good) (size : ℕ) :
    (size < desc.len → ∃ desc', rmnetFragPull port desc size = (port, desc', true) ∧ desc'.Good ∧
      desc'.addr = desc.addr ∧ desc'.bytes = desc.bytes.drop size ∧
      (locate desc.frags size).isSome ∧
      returnedAddr (rmnetFragPull port desc size) = locate desc.frags size) ∧
    (desc.len ≤ size →
      rmnetFragPull port desc size = ((rmnetRecycleFragDescriptor port desc).1, { addr := desc.addr }, false) ∧
      returnedAddr (rmnetFragPull port desc size) = none) := by
  refine ⟨?_, ?_⟩
  · intro hlt
    have hmax := h.len_lt
    obtain ⟨hbytes, hlen⟩ := pullFrags_eq desc.frags size desc.len h.len_eq.symm (by omega) (by omega)
    have hpos := pullFrags_pos desc.frags size desc.len h.frags_pos
    obtain ⟨frags, heq, hb, -⟩ := rmnetFragPull_eq port h.toSized hlt
    have hrun : rmnetFragPull port desc size
        = (port, { desc with frags := (pullFrags desc.frags size desc.len).1, len := desc.len - size },
            true) := by
      have hfrags : frags = (pullFrags desc.frags size desc.len).1 := by
        have := congrArg (fun r => r.2.1.frags) heq
        simp only [rmnetFragPull, if_neg (show ¬ desc.len ≤ size by omega)] at this
        exact this.symm
      rw [heq, hfrags]
    have haddr : returnedAddr (rmnetFragPull port desc size) = locate desc.frags size := by
      rw [hrun, returnedAddr, if_pos rfl, RmnetFragDescriptor.dataAddr, ← locate_zero hpos, locate_pullFrags,
        Nat.add_zero]
    have hgood : RmnetFragDescriptor.Good
        { desc with frags := (pullFrags desc.frags size desc.len).1, len := desc.len - size } := by
      refine good_of_bytes ?_ (by simp only; omega) hpos
      show desc.len - size = (fragsBytes _).length
      rw [hbytes, List.length_drop, fragsBytes_length, ← h.len_eq]
    refine ⟨_, hrun, hgood, rfl, hbytes, ?_, haddr⟩
    -- some byte is left, so there is a first fragment
    have hne : (fragsBytes (pullFrags desc.frags size desc.len).1) ≠ [] := by
      intro hnil
      have hzero := congrArg List.length hbytes
      rw [hnil, List.length_drop, fragsBytes_length, ← h.len_eq] at hzero
      simp only [List.length_nil] at hzero
      omega
    rw [← haddr, hrun, returnedAddr, if_pos rfl, RmnetFragDescriptor.dataAddr, Option.isSome_map]
    cases hfs : (pullFrags desc.frags size desc.len).1 with
    | nil =>
      rw [hfs] at hne
      exact absurd rfl hne
    | cons f fs => rfl
  · intro hle
    have hrun : rmnetFragPull port desc size
        = ((rmnetRecycleFragDescriptor port desc).1, { addr := desc.addr }, false) := by
      rw [rmnetFragPull, if_pos hle]
      rfl
    exact ⟨hrun, by rw [hrun]; rfl⟩

/-- **`rmnet_frag_trim`** keeps bytes from the front, or recycles the descriptor and returns `NULL` when it
is to keep none. -/
theorem fragTrim_spec (port : RmnetPort) {desc : RmnetFragDescriptor} (h : desc.Good) (size : ℕ) :
    (0 < size → ∃ desc' ptr, rmnetFragTrim port desc size = (port, desc', ptr) ∧ desc'.Good ∧
      desc'.addr = desc.addr ∧ desc'.bytes = desc.bytes.take (min size desc.len)) ∧
    (size = 0 →
      rmnetFragTrim port desc size = ((rmnetRecycleFragDescriptor port desc).1, { addr := desc.addr }, false) ∧
      returnedAddr (rmnetFragTrim port desc size) = none) := by
  have hall : ∀ n, desc.len ≤ n → desc.bytes.take n = desc.bytes := fun n hn =>
    List.take_of_length_le (by rw [h.length_bytes]; exact hn)
  refine ⟨?_, ?_⟩
  · intro hsize
    by_cases hle : desc.len ≤ size
    · refine ⟨desc, (rmnetFragDataPtr desc).isSome, ?_, h, rfl, ?_⟩
      · rw [rmnetFragTrim, if_neg (by omega), if_pos hle]
      · rw [Nat.min_eq_right hle, hall _ le_rfl]
    · have hmax := h.len_lt
      have hsum : fragsSize desc.frags.reverse = desc.len := by
        rw [fragsSize, List.map_reverse, List.sum_reverse, h.len_eq, fragsSize]
      obtain ⟨hb, hl⟩ := trimFragsRev_eq desc.frags.reverse (desc.len - size) desc.len hsum (by omega) (by omega)
      rw [List.reverse_reverse, show desc.len - (desc.len - size) = size by omega] at hb
      rw [show desc.len - (desc.len - size) = size by omega] at hl
      have hpos := trimFragsRev_pos desc.frags.reverse (desc.len - size) desc.len
        fun f hf => h.frags_pos f (List.mem_reverse.mp hf)
      refine ⟨{ desc with
          frags := (trimFragsRev desc.frags.reverse (desc.len - size) desc.len).1.reverse, len := size },
        (rmnetFragTrim port desc size).2.2, ?_,
        good_of_bytes ?_ (by simp only; omega) fun f hf => hpos f (List.mem_reverse.mp hf), rfl, ?_⟩
      · rw [rmnetFragTrim, if_neg (by omega), if_neg hle]
        simp only [hl]
      · show size = (fragsBytes _).length
        rw [hb, List.length_take, fragsBytes_length, ← h.len_eq]
        omega
      · rw [Nat.min_eq_left (by omega)]
        exact hb
  · intro hz
    have hrun : rmnetFragTrim port desc size
        = ((rmnetRecycleFragDescriptor port desc).1, { addr := desc.addr }, false) := by
      rw [rmnetFragTrim, if_pos hz]
      rfl
    exact ⟨hrun, by rw [hrun]; rfl⟩

/-! ### Runs -/

/-- The descriptors by their addresses, and the port they come from. -/
structure DescStore where
  port : RmnetPort
  desc : ℕ → RmnetFragDescriptor

/-- Every descriptor fresh. -/
def freshStore (port : RmnetPort) : DescStore := ⟨port, fun a => { addr := a }⟩

/-- Write back what a function left of a descriptor. -/
def DescStore.put (s : DescStore) (r : RmnetPort × RmnetFragDescriptor × Bool) : DescStore :=
  ⟨r.1, Function.update s.desc r.2.1.addr r.2.1⟩

/-- The operations on descriptors. -/
inductive DescOp
  | addFrag (a : ℕ) (frag : SkbFrag)
  | addFragsFrom (dst src off len : ℕ)
  | pull (a size : ℕ)
  | trim (a size : ℕ)

/-- Pieces to add are not empty, the two descriptors of a transfer are distinct, and no descriptor grows to
2³¹ bytes. -/
def DescOp.Fits (s : DescStore) : DescOp → Prop
  | .addFrag a frag => 0 < frag.size ∧ (s.desc a).len + frag.size < 2147483648
  | .addFragsFrom dst src off len =>
      dst ≠ src ∧ (off + len ≤ (s.desc src).len → (s.desc dst).len + len < 2147483648)
  | .pull _ _ => True
  | .trim _ _ => True

instance (s : DescStore) : (op : DescOp) → Decidable (op.Fits s)
  | .addFrag a frag =>
      inferInstanceAs (Decidable (0 < frag.size ∧ (s.desc a).len + frag.size < 2147483648))
  | .addFragsFrom dst src off len =>
      inferInstanceAs (Decidable
        (dst ≠ src ∧ (off + len ≤ (s.desc src).len → (s.desc dst).len + len < 2147483648)))
  | .pull _ _ => inferInstanceAs (Decidable True)
  | .trim _ _ => inferInstanceAs (Decidable True)

/-- One operation of the code. -/
def DescOp.exec (s : DescStore) : DescOp → DescStore
  | .addFrag a frag => s.put (rmnetFragDescriptorAddFrag s.port (s.desc a) frag)
  | .addFragsFrom dst src off len =>
      s.put (rmnetFragDescriptorAddFragsFrom s.port (s.desc dst) (s.desc src) off len)
  | .pull a size => s.put (rmnetFragPull s.port (s.desc a) size)
  | .trim a size => s.put (rmnetFragTrim s.port (s.desc a) size)

/-- One operation that fits; runs are made of these. -/
def descStep (s : DescStore) (op : DescOp) : Option DescStore :=
  if op.Fits s then some (op.exec s) else none

/-- **The abstract model**: one byte string an address.  A recycled descriptor is the empty string. -/
def specStep (b : ℕ → Bytes) : DescOp → ℕ → Bytes
  | .addFrag a frag => Function.update b a (b a ++ frag.bytes)
  | .addFragsFrom dst src off len =>
      if off + len ≤ (b src).length then Function.update b dst (b dst ++ ((b src).drop off).take len) else b
  | .pull a size => Function.update b a ((b a).drop size)
  | .trim a size => Function.update b a ((b a).take size)

/-- The store implements the byte strings. -/
structure Implements (s : DescStore) (b : ℕ → Bytes) : Prop where
  alloc : s.port.AllocOk
  addr : ∀ a, (s.desc a).addr = a
  good : ∀ a, (s.desc a).Good
  bytes : ∀ a, (s.desc a).bytes = b a

theorem Implements.length {s : DescStore} {b : ℕ → Bytes} (h : Implements s b) (a : ℕ) :
    (b a).length = (s.desc a).len := by
  rw [← h.bytes a, (h.good a).length_bytes]

/-- Writing back a good descriptor with the new string of its address. -/
theorem Implements.put {s : DescStore} {b : ℕ → Bytes} (h : Implements s b) {port : RmnetPort}
    (halloc : port.AllocOk) {desc : RmnetFragDescriptor} {a : ℕ} (ha : desc.addr = a) (hgood : desc.Good)
    {new : Bytes} (hnew : desc.bytes = new) (ptr : Bool) :
    Implements (s.put (port, desc, ptr)) (Function.update b a new) := by
  have hdesc : (s.put (port, desc, ptr)).desc = Function.update s.desc a desc := by
    rw [← ha]
    rfl
  refine ⟨halloc, ?_, ?_, ?_⟩
  all_goals
    intro c
    rw [hdesc]
    by_cases hc : c = a
  · rw [hc, Function.update_self]
    exact ha
  · rw [Function.update_of_ne hc]
    exact h.addr c
  · rw [hc, Function.update_self]
    exact hgood
  · rw [Function.update_of_ne hc]
    exact h.good c
  · rw [hc, Function.update_self, Function.update_self]
    exact hnew
  · rw [Function.update_of_ne hc, Function.update_of_ne hc]
    exact h.bytes c

/-- A recycled descriptor is the empty string. -/
theorem Implements.recycle {s : DescStore} {b : ℕ → Bytes} (h : Implements s b) (a : ℕ) :
    Implements (s.put ((rmnetRecycleFragDescriptor s.port (s.desc a)).1, { addr := (s.desc a).addr }, false))
      (Function.update b a []) := by
  have halloc : (rmnetRecycleFragDescriptor s.port (s.desc a)).1.AllocOk := h.alloc
  refine h.put halloc ?_ (good_fresh (s.desc a).addr) rfl false
  exact h.addr a

/-- **One step simulates the abstract one.** -/
theorem descStep_simulates {s s' : DescStore} {b : ℕ → Bytes} (h : Implements s b) {op : DescOp}
    (hstep : descStep s op = some s') : Implements s' (specStep b op) := by
  unfold descStep at hstep
  split at hstep
  · rename_i hfits
    rw [← Option.some.inj hstep]
    cases op with
    | addFrag a frag =>
      obtain ⟨desc, hrun, hgood, haddr, hbytes⟩ := addFrag_spec h.alloc (h.good a) hfits.1 hfits.2
      rw [DescOp.exec, hrun]
      exact h.put h.alloc (haddr.trans (h.addr a)) hgood (by rw [hbytes, h.bytes a]) true
    | addFragsFrom dst src off len =>
      obtain ⟨-, hfail, hok⟩ := addFragsFrom_spec h.alloc (h.good dst) (h.good src) off len
      rw [DescOp.exec, specStep, h.length src]
      by_cases hin : off + len ≤ (s.desc src).len
      · obtain ⟨-, desc, hrun, hgood, haddr, hbytes⟩ := hok hin (hfits.2 hin)
        rw [if_pos hin, hrun]
        exact h.put h.alloc (haddr.trans (h.addr dst)) hgood (by rw [hbytes, h.bytes dst, h.bytes src]) true
      · rw [if_neg hin, hfail (by omega)]
        have hsame := h.put h.alloc (h.addr dst) (h.good dst) (h.bytes dst) false
        rwa [Function.update_eq_self] at hsame
    | pull a size =>
      obtain ⟨hpull, hdrop⟩ := fragPull_spec s.port (h.good a) size
      rw [DescOp.exec, specStep]
      by_cases hlt : size < (s.desc a).len
      · obtain ⟨desc, hrun, hgood, haddr, hbytes, -⟩ := hpull hlt
        rw [hrun]
        exact h.put h.alloc (haddr.trans (h.addr a)) hgood (by rw [hbytes, h.bytes a]) true
      · rw [(hdrop (by omega)).1, List.drop_eq_nil_of_le (by rw [h.length a]; omega)]
        exact h.recycle a
    | trim a size =>
      obtain ⟨htrim, hdrop⟩ := fragTrim_spec s.port (h.good a) size
      rw [DescOp.exec, specStep]
      by_cases hz : size = 0
      · rw [(hdrop hz).1, hz, List.take_zero]
        exact h.recycle a
      · obtain ⟨desc, ptr, hrun, hgood, haddr, hbytes⟩ := htrim (by omega)
        rw [hrun]
        refine h.put h.alloc (haddr.trans (h.addr a)) hgood ?_ ptr
        rw [hbytes, h.bytes a, ← h.length a]
        exact List.take_eq_take_min.symm
  · cases hstep

/-- **Fragment descriptors implement byte strings.**  After every run from fresh descriptors, with
allocations succeeding and no descriptor grown to 2³¹ bytes, every descriptor is good and holds the string
of the abstract run.  From the state reached, `rmnet_frag_descriptor_add_frags_from` fails with `-EINVAL`
exactly when the range leaves the source, and then changes nothing, and appends the range otherwise;
`rmnet_frag_pull` drops bytes and returns the address of the new first one, or recycles; and
`rmnet_frag_trim` keeps bytes, or recycles. -/
theorem descriptors_implement_bytes (port : RmnetPort) (halloc : port.AllocOk) (ops : List DescOp)
    (s : DescStore) (hrun : runList descStep (freshStore port) ops = some s) :
    (∀ a, (s.desc a).Good ∧ (s.desc a).bytes = ops.foldl specStep (fun _ => []) a) ∧
    (∀ dst src off len, dst ≠ src →
      (addFragsFromRc s.port (s.desc dst) (s.desc src) off len = -einval ↔
        (s.desc src).len < off + len) ∧
      ((s.desc src).len < off + len →
        rmnetFragDescriptorAddFragsFrom s.port (s.desc dst) (s.desc src) off len
          = (s.port, s.desc dst, false)) ∧
      (off + len ≤ (s.desc src).len → (s.desc dst).len + len < 2147483648 →
        addFragsFromRc s.port (s.desc dst) (s.desc src) off len = 0 ∧
        ∃ dst', rmnetFragDescriptorAddFragsFrom s.port (s.desc dst) (s.desc src) off len
            = (s.port, dst', true) ∧ dst'.Good ∧
          dst'.bytes = (s.desc dst).bytes ++ ((s.desc src).bytes.drop off).take len ∧
          (DescOp.addFragsFrom dst src off len |>.exec s).desc src = s.desc src)) ∧
    (∀ a size,
      (size < (s.desc a).len → ∃ desc', rmnetFragPull s.port (s.desc a) size = (s.port, desc', true) ∧
        desc'.Good ∧ desc'.bytes = (s.desc a).bytes.drop size ∧ (locate (s.desc a).frags size).isSome ∧
        returnedAddr (rmnetFragPull s.port (s.desc a) size) = locate (s.desc a).frags size) ∧
      ((s.desc a).len ≤ size → rmnetFragPull s.port (s.desc a) size
          = ((rmnetRecycleFragDescriptor s.port (s.desc a)).1, { addr := a }, false) ∧
        returnedAddr (rmnetFragPull s.port (s.desc a) size) = none)) ∧
    (∀ a size,
      (0 < size → ∃ desc' ptr, rmnetFragTrim s.port (s.desc a) size = (s.port, desc', ptr) ∧ desc'.Good ∧
        desc'.bytes = (s.desc a).bytes.take (min size (s.desc a).len)) ∧
      (size = 0 → rmnetFragTrim s.port (s.desc a) size
          = ((rmnetRecycleFragDescriptor s.port (s.desc a)).1, { addr := a }, false) ∧
        returnedAddr (rmnetFragTrim s.port (s.desc a) size) = none)) := by
  have hinit : Implements (freshStore port) (List.foldl specStep (fun _ => []) []) :=
    ⟨halloc, fun _ => rfl, fun a => good_fresh a, fun _ => rfl⟩
  have h : Implements s (ops.foldl specStep fun _ => []) := by
    have hrule := runList_invariant (I := fun done s => Implements s (done.foldl specStep fun _ => []))
      (fun done s op s' hI hs => by
        rw [List.foldl_append]
        exact descStep_simulates hI hs) ops [] _ s hinit hrun
    exact hrule
  refine ⟨fun a => ⟨h.good a, h.bytes a⟩, ?_, ?_, ?_⟩
  · intro dst src off len hne
    obtain ⟨hrc, hfail, hok⟩ := addFragsFrom_spec h.alloc (h.good dst) (h.good src) off len
    refine ⟨hrc, hfail, ?_⟩
    intro hin hlt
    obtain ⟨hzero, dst', heq, hgood, haddr, hbytes⟩ := hok hin hlt
    refine ⟨hzero, dst', heq, hgood, hbytes, ?_⟩
    rw [DescOp.exec, heq]
    show Function.update s.desc dst'.addr dst' src = s.desc src
    rw [haddr, h.addr dst, Function.update_of_ne hne.symm]
  · intro a size
    obtain ⟨hpull, hdrop⟩ := fragPull_spec s.port (h.good a) size
    rw [h.addr a] at hdrop
    refine ⟨?_, hdrop⟩
    intro hlt
    obtain ⟨desc', heq, hgood, -, hrest⟩ := hpull hlt
    exact ⟨desc', heq, hgood, hrest⟩
  · intro a size
    obtain ⟨htrim, hdrop⟩ := fragTrim_spec s.port (h.good a) size
    rw [h.addr a] at hdrop
    refine ⟨?_, hdrop⟩
    intro hsize
    obtain ⟨desc', ptr, heq, hgood, -, hbytes⟩ := htrim hsize
    exact ⟨desc', ptr, heq, hgood, hbytes⟩

/-- Two pieces added, the middle of them transferred, then one byte pulled and one cut off. -/
def sampleOps : List DescOp :=
  [.addFrag 0 (.ofBytes [1, 2, 3]), .addFrag 0 (.ofBytes [4, 5]), .addFragsFrom 1 0 1 3, .pull 1 1, .trim 1 1]

/-- The transferred string crosses the boundary between the pieces. -/
theorem descriptors_implement_sample :
    ∃ s, runList descStep (freshStore (rmnetDescriptorInit 0 (fun _ => none) fun _ => true)) sampleOps
        = some s ∧
      (s.desc 0).bytes = [1, 2, 3, 4, 5] ∧ (s.desc 1).bytes = [3] ∧ (s.desc 1).len = 1 := by
  have hlen : (runList descStep (freshStore (rmnetDescriptorInit 0 (fun _ => none) fun _ => true))
      sampleOps).map (fun s => (s.desc 1).len) = some 1 := by decide
  obtain ⟨s, hrun, hs⟩ := Option.map_eq_some_iff.mp hlen
  obtain ⟨hall, -⟩ := descriptors_implement_bytes _ (fun _ => rfl) sampleOps s hrun
  refine ⟨s, hrun, ?_, ?_, hs⟩
  · rw [(hall 0).2]
    decide
  · rw [(hall 1).2]
    decide

end Rmnet
