import Rmnet.Frag.ByteString

/-!
# Header access

`rmnet_frag_header_ptr` hands out a pointer into a page where a header lies in one fragment, and gathers the header
in the caller's buffer with `rmnet_frag_copy_data` where it does not.  `rmnetFragHeaderPtr` gives the bytes at the
pointer; here the pointer is an address, and the buffer is memory that is written piece by piece.

* `copyFragsTo_eq` — what the copy loop leaves in the buffer, byte by byte;
* `headerStart_locate` — a header found in one fragment is where the descriptor has it;
* `header_ptr_exact` — both ways, and when there is no pointer.
-/

namespace Rmnet

open Word Field

/-! ### The buffer and the pointer -/

/-- Memory from an address on. -/
abbrev Memory := ℕ → UInt8

/-- `memcpy` of `n` bytes to an offset of a buffer. -/
def memcpy (buf : Memory) (dst n : ℕ) (src : Memory) : Memory := fun i =>
  if dst ≤ i ∧ i < dst + n then src (i - dst) else buf i

/-- The loop of `rmnet_frag_copy_data`: the buffer afterwards. -/
def copyFragsTo : List SkbFrag → ℕ → ℕ → ℕ → Memory → Memory
  | [], _, _, _, buf => buf
  | f :: fs, off, len, bufOffset, buf =>
      if len = 0 then buf
      else if off < f.size then
        let copyLen := min len (f.size - off)
        copyFragsTo fs 0 (len - copyLen) (u32 (bufOffset + copyLen))
          (memcpy buf bufOffset copyLen fun i => f.page (f.off + off + i))
      else copyFragsTo fs (off - f.size) len bufOffset buf

/-- `rmnet_frag_copy_data`: the buffer and the return value. -/
def rmnetFragCopyDataTo (desc : RmnetFragDescriptor) (off len : ℕ) (buf : Memory) : Memory × ℤ :=
  if desc.outside off len then (buf, -einval) else (copyFragsTo desc.frags off len 0 buf, 0)

/-- What `rmnet_frag_header_ptr` points to: an address in a page, or the caller's buffer. -/
inductive HeaderPtr
  | page (addr : PageAddr)
  | buf

/-- The bytes at a pointer. -/
def HeaderPtr.read (buf : Memory) (n : ℕ) : HeaderPtr → Bytes
  | .page addr => (List.range n).map fun i => addr.1 (addr.2 + i)
  | .buf => (List.range n).map buf

/-- The search of `rmnet_frag_header_ptr`: the address of a header that one fragment holds. -/
def headerStart : List SkbFrag → ℕ → ℕ → Option PageAddr
  | [], _, _ => none
  | f :: fs, off, len =>
      if off < f.size then
        if u32 (off + len) ≤ f.size then some (f.page, f.off + off) else none
      else headerStart fs (off - f.size) len

/-- `rmnet_frag_header_ptr`: the buffer and the pointer. -/
def rmnetFragHeaderPtrTo (desc : RmnetFragDescriptor) (off len : ℕ) (buf : Memory) : Memory × Option HeaderPtr :=
  if desc.outside off len then (buf, none)
  else
    match headerStart desc.frags off len with
    | some addr => (buf, some (.page addr))
    | none =>
        match rmnetFragCopyDataTo desc off len buf with
        | (buf, rc) => if rc < 0 then (buf, none) else (buf, some .buf)

/-! ### The copy loop -/

theorem memcpy_of_mem {buf src : Memory} {dst n i : ℕ} (h : dst ≤ i ∧ i < dst + n) :
    memcpy buf dst n src i = src (i - dst) := if_pos h

theorem memcpy_of_notMem {buf src : Memory} {dst n i : ℕ} (h : ¬ (dst ≤ i ∧ i < dst + n)) :
    memcpy buf dst n src i = buf i := if_neg h

/-- Byte `i` of a list of fragments. -/
def fragsByte (fs : List SkbFrag) (i : ℕ) : UInt8 := (fragsBytes fs).getD i 0

theorem fragsByte_of_lt (f : SkbFrag) (fs : List SkbFrag) {i : ℕ} (h : i < f.size) :
    fragsByte (f :: fs) i = f.page (f.off + i) := by
  rw [fragsByte, fragsBytes_cons, List.getD_append _ _ _ _ (by rw [SkbFrag.bytes_length]; exact h)]
  simp [SkbFrag.bytes, List.getD, h]

theorem fragsByte_of_ge (f : SkbFrag) (fs : List SkbFrag) {i : ℕ} (h : f.size ≤ i) :
    fragsByte (f :: fs) i = fragsByte fs (i - f.size) := by
  rw [fragsByte, fragsByte, fragsBytes_cons, List.getD_append_right _ _ _ _ (by rw [SkbFrag.bytes_length]; exact h),
    SkbFrag.bytes_length]

/-- **The copy loop.**  It writes the range to the buffer from the running offset on, and nothing else. -/
theorem copyFragsTo_eq (fs : List SkbFrag) :
    ∀ (off len bufOffset : ℕ) (buf : Memory), off + len ≤ fragsSize fs → bufOffset + len < 4294967296 →
      ∀ i, copyFragsTo fs off len bufOffset buf i
        = if bufOffset ≤ i ∧ i < bufOffset + len then fragsByte fs (off + (i - bufOffset)) else buf i := by
  induction fs with
  | nil =>
    intro off len bufOffset buf hin _ i
    rw [fragsSize_nil] at hin
    rw [copyFragsTo, if_neg (by omega)]
  | cons f fs ih =>
    intro off len bufOffset buf hin hlt i
    rw [fragsSize_cons] at hin
    rw [copyFragsTo]
    by_cases hlen : len = 0
    · rw [if_pos hlen, if_neg (by omega)]
    · rw [if_neg hlen]
      by_cases hoff : off < f.size
      · rw [if_pos hoff]
        have hle : min len (f.size - off) ≤ len := Nat.min_le_left _ _
        have hmin : min len (f.size - off) = len ∨ min len (f.size - off) = f.size - off := by omega
        rw [u32_of_lt (by omega), ih _ _ _ _ (by omega) (by omega)]
        -- the byte is behind this piece, in it, or outside the range
        by_cases hbehind : bufOffset + min len (f.size - off) ≤ i ∧ i < bufOffset + len
        · rw [if_pos (by omega), if_pos (by omega), fragsByte_of_ge f fs (by omega)]
          congr 1
          omega
        · rw [if_neg (by omega)]
          by_cases hpiece : bufOffset ≤ i ∧ i < bufOffset + min len (f.size - off)
          · rw [memcpy_of_mem hpiece, if_pos (by omega), fragsByte_of_lt f fs (by omega), Nat.add_assoc]
          · rw [memcpy_of_notMem hpiece, if_neg (by omega)]
      · rw [if_neg hoff, ih _ _ _ _ (by omega) hlt]
        by_cases hi : bufOffset ≤ i ∧ i < bufOffset + len
        · rw [if_pos hi, if_pos hi, fragsByte_of_ge f fs (by omega)]
          congr 1
          omega
        · rw [if_neg hi, if_neg hi]

/-! ### The search -/

/-- A header found in one fragment is in the pages of the descriptor, byte by byte. -/
theorem headerStart_locate (fs : List SkbFrag) :
    ∀ (off len : ℕ) (addr : PageAddr), off + len < 4294967296 → headerStart fs off len = some addr →
      ∀ i < len, locate fs (off + i) = some (addr.1, addr.2 + i) := by
  induction fs with
  | nil =>
    intro off len addr _ h
    cases h
  | cons f fs ih =>
    intro off len addr hlt h i hi
    rw [headerStart] at h
    rw [locate]
    split at h
    · rename_i hoff
      split at h
      · rename_i hfit
        rw [u32_of_lt hlt] at hfit
        cases h
        rw [if_pos (by omega), Nat.add_assoc]
      · cases h
    · rename_i hoff
      rw [if_neg (by omega), show off + i - f.size = off - f.size + i by omega]
      exact ih _ _ _ (by omega) h i hi

/-- What is at the address of a byte. -/
theorem fragsByte_locate (fs : List SkbFrag) :
    ∀ (i : ℕ) (addr : PageAddr), locate fs i = some addr → addr.1 addr.2 = fragsByte fs i := by
  induction fs with
  | nil =>
    intro i addr h
    cases h
  | cons f fs ih =>
    intro i addr h
    rw [locate] at h
    split at h
    · rename_i hlt
      cases h
      exact (fragsByte_of_lt f fs hlt).symm
    · rename_i hge
      rw [fragsByte_of_ge f fs (by omega)]
      exact ih _ _ h

/-- A range of the bytes, byte by byte. -/
theorem bytes_range {desc : RmnetFragDescriptor} (h : desc.Sized) {off len : ℕ} (hin : off + len ≤ desc.len) :
    (List.range len).map (fun i => fragsByte desc.frags (off + i)) = (desc.bytes.drop off).take len := by
  have hlen := h.length_bytes
  apply List.ext_getElem
  · simp only [List.length_map, List.length_range, List.length_take, List.length_drop]
    omega
  · intro i h₁ h₂
    simp only [List.length_map, List.length_range] at h₁
    rw [List.getElem_map, List.getElem_range, List.getElem_take, List.getElem_drop]
    exact (List.getElem_eq_getD 0).symm

/-! ### Both ways -/

/-- **`rmnet_frag_copy_data`** refuses a range that leaves the descriptor and then writes nothing; otherwise it
writes the range to the front of the buffer and nothing behind it. -/
theorem copyDataTo_exact {desc : RmnetFragDescriptor} (h : desc.Sized) (off len : ℕ) (buf : Memory) :
    (desc.len < off + len → rmnetFragCopyDataTo desc off len buf = (buf, -einval)) ∧
    (off + len ≤ desc.len → (rmnetFragCopyDataTo desc off len buf).2 = 0 ∧
      ∀ i, (rmnetFragCopyDataTo desc off len buf).1 i
        = if i < len then fragsByte desc.frags (off + i) else buf i) := by
  have hlt := h.len_lt
  have hsize := h.len_eq
  unfold rmnetFragCopyDataTo
  refine ⟨fun hout => if_pos ((outside_iff h off len).mpr hout), fun hin => ?_⟩
  rw [if_neg (by rw [outside_iff h]; omega)]
  refine ⟨rfl, fun i => ?_⟩
  simp only
  rw [copyFragsTo_eq desc.frags off len 0 buf (by omega) (by omega) i]
  simp only [Nat.zero_le, true_and, Nat.zero_add, Nat.sub_zero]

/-- What `rmnet_frag_header_ptr` does with a range inside the descriptor. -/
theorem headerPtrTo_inside {desc : RmnetFragDescriptor} (h : desc.Sized) {off len : ℕ} (buf : Memory)
    (hin : off + len ≤ desc.len) :
    (∃ addr, headerStart desc.frags off len = some addr ∧
      rmnetFragHeaderPtrTo desc off len buf = (buf, some (.page addr))) ∨
    rmnetFragHeaderPtrTo desc off len buf = ((rmnetFragCopyDataTo desc off len buf).1, some .buf) := by
  unfold rmnetFragHeaderPtrTo
  rw [if_neg (by rw [outside_iff h]; omega)]
  cases hstart : headerStart desc.frags off len with
  | some addr => exact .inl ⟨addr, rfl, rfl⟩
  | none =>
    have hrc := ((copyDataTo_exact h off len buf).2 hin).1
    simp only
    rw [if_neg (by rw [hrc]; decide)]
    exact .inr rfl

/-- There is no pointer exactly when the range leaves the descriptor. -/
theorem headerPtrTo_none {desc : RmnetFragDescriptor} (h : desc.Sized) (off len : ℕ) (buf : Memory) :
    (rmnetFragHeaderPtrTo desc off len buf).2 = none ↔ desc.len < off + len := by
  by_cases hin : off + len ≤ desc.len
  · refine iff_of_false (fun hnone => ?_) (by omega)
    rcases headerPtrTo_inside h buf hin with ⟨addr, -, heq⟩ | heq
    · rw [heq] at hnone
      cases hnone
    · rw [heq] at hnone
      cases hnone
  · refine iff_of_true ?_ (by omega)
    unfold rmnetFragHeaderPtrTo
    rw [if_pos ((outside_iff h off len).mpr (by omega))]

/-- A pointer into a page is to the range itself, and the buffer is left alone. -/
theorem headerPtrTo_page {desc : RmnetFragDescriptor} (h : desc.Sized) {off len : ℕ} {buf : Memory}
    {addr : PageAddr} (hp : (rmnetFragHeaderPtrTo desc off len buf).2 = some (.page addr)) :
    (rmnetFragHeaderPtrTo desc off len buf).1 = buf ∧
      ∀ i < len, locate desc.frags (off + i) = some (addr.1, addr.2 + i) := by
  have hlt := h.len_lt
  have hin : off + len ≤ desc.len := by
    by_contra hout
    rw [(headerPtrTo_none h off len buf).mpr (by omega)] at hp
    cases hp
  rcases headerPtrTo_inside h buf hin with ⟨addr', hstart, heq⟩ | heq
  · rw [heq] at hp ⊢
    cases hp
    exact ⟨rfl, headerStart_locate desc.frags off len addr (by omega) hstart⟩
  · rw [heq] at hp
    cases hp

/-- The bytes of the range are at the pointer. -/
theorem headerPtrTo_read {desc : RmnetFragDescriptor} (h : desc.Sized) {off len : ℕ} {buf : Memory}
    {p : HeaderPtr} (hp : (rmnetFragHeaderPtrTo desc off len buf).2 = some p) :
    p.read (rmnetFragHeaderPtrTo desc off len buf).1 len = (desc.bytes.drop off).take len := by
  have hin : off + len ≤ desc.len := by
    by_contra hout
    rw [(headerPtrTo_none h off len buf).mpr (by omega)] at hp
    cases hp
  rw [← bytes_range h hin]
  cases p with
  | page addr =>
    obtain ⟨-, hloc⟩ := headerPtrTo_page h hp
    refine List.map_congr_left fun i hi => ?_
    exact fragsByte_locate desc.frags (off + i) (addr.1, addr.2 + i) (hloc i (List.mem_range.mp hi))
  | buf =>
    rcases headerPtrTo_inside h buf hin with ⟨addr, -, heq⟩ | heq
    · rw [heq] at hp
      cases hp
    · rw [heq]
      refine List.map_congr_left fun i hi => ?_
      simp only
      rw [((copyDataTo_exact h off len buf).2 hin).2 i, if_pos (List.mem_range.mp hi)]

/-- The bytes at the pointer are those that `rmnetFragHeaderPtr` returns. -/
theorem headerPtrTo_bytes {desc : RmnetFragDescriptor} (h : desc.Sized) (off len : ℕ) (buf : Memory) :
    (rmnetFragHeaderPtrTo desc off len buf).2.map
        (HeaderPtr.read (rmnetFragHeaderPtrTo desc off len buf).1 len)
      = rmnetFragHeaderPtr desc off len := by
  rw [rmnetFragHeaderPtr_eq h, readBytes, h.length_bytes]
  cases hp : (rmnetFragHeaderPtrTo desc off len buf).2 with
  | none =>
    rw [if_pos ((headerPtrTo_none h off len buf).mp hp)]
    rfl
  | some p =>
    have hin : ¬ desc.len < off + len := by
      rw [← headerPtrTo_none h off len buf, hp]
      simp
    rw [if_neg hin, Option.map_some, headerPtrTo_read h hp]

/-- **Header access is independent of fragmentation.**  `rmnet_frag_header_ptr` returns `NULL` exactly when the
range leaves the descriptor.  At the pointer that it returns otherwise are the bytes of the range: in a page of the
descriptor, with the buffer as it was, or in the buffer.  `rmnet_frag_copy_data` returns an error for the same
ranges, and otherwise writes the bytes of the range to the front of the buffer and nothing behind them. -/
theorem header_ptr_exact (desc : RmnetFragDescriptor) (h : desc.Sized) (off len : ℕ) (buf : Memory) :
    ((rmnetFragHeaderPtrTo desc off len buf).2 = none ↔ desc.len < off + len) ∧
    (∀ p, (rmnetFragHeaderPtrTo desc off len buf).2 = some p →
      p.read (rmnetFragHeaderPtrTo desc off len buf).1 len = (desc.bytes.drop off).take len) ∧
    (∀ addr, (rmnetFragHeaderPtrTo desc off len buf).2 = some (.page addr) →
      (rmnetFragHeaderPtrTo desc off len buf).1 = buf ∧
      ∀ i < len, locate desc.frags (off + i) = some (addr.1, addr.2 + i)) ∧
    ((rmnetFragCopyDataTo desc off len buf).2 < 0 ↔ desc.len < off + len) ∧
    (off + len ≤ desc.len → ((desc.bytes.drop off).take len).length = len ∧
      ∀ i, (rmnetFragCopyDataTo desc off len buf).1 i
        = if i < len then ((desc.bytes.drop off).take len).getD i 0 else buf i) := by
  obtain ⟨hfail, hok⟩ := copyDataTo_exact h off len buf
  refine ⟨headerPtrTo_none h off len buf, fun p hp => headerPtrTo_read h hp, fun addr hp => headerPtrTo_page h hp,
    ⟨fun hrc => ?_, fun hout => ?_⟩, fun hin => ⟨?_, fun i => ?_⟩⟩
  · by_contra hin
    rw [(hok (by omega)).1] at hrc
    exact absurd hrc (by decide)
  · rw [hfail hout]
    show -einval < 0
    decide
  · rw [List.length_take, List.length_drop, h.length_bytes]
    omega
  · rw [(hok hin).2 i]
    split
    · rename_i hi
      rw [← bytes_range h hin, List.getD_eq_getElem _ _ (by simpa using hi), List.getElem_map, List.getElem_range]
    · rfl

/-- Three bytes in a page and two in another, with a header across the boundary and one in each. -/
def splitDesc : RmnetFragDescriptor :=
  { addr := 0, frags := [.ofBytes [1, 2, 3], .ofBytes [4, 5]], len := 5 }

theorem header_ptr_split :
    (((rmnetFragHeaderPtrTo splitDesc 2 2 fun _ => 0).2.map
        (HeaderPtr.read (rmnetFragHeaderPtrTo splitDesc 2 2 fun _ => 0).1 2)) = some [3, 4]) ∧
    (rmnetFragHeaderPtrTo splitDesc 3 4294967295 fun _ => 0).2 = none := by
  have h : splitDesc.Sized := ⟨by decide, by decide⟩
  obtain ⟨hnone, hread, -⟩ := header_ptr_exact splitDesc h 2 2 fun _ => 0
  refine ⟨?_, (header_ptr_exact splitDesc h 3 4294967295 fun _ => 0).1.mpr (by decide)⟩
  cases hp : (rmnetFragHeaderPtrTo splitDesc 2 2 fun _ => 0).2 with
  | none => exact absurd (hnone.mp hp) (by decide)
  | some p =>
    rw [Option.map_some, hread p hp]
    decide

end Rmnet
