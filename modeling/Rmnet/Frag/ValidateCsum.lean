import Rmnet.Frag.AllocSkb
import Rmnet.Frag.SegmentLoop

/-!
# Re-validation of a checksum in software

`rmnet_frag_validate_csum` sums up the transport part of a packet and its pseudo-header.  It takes the address
of the first fragment and reads on from there to the length of the descriptor, wherever the packet's other
fragments lie.

A fragment is placed in one memory here, by its page's address, an offset and a size.  `LayoutIndependent` says
of a packet split into pieces that, wherever the pieces lie, the answer is right and no byte outside them is
read.  `validate_layout_iff` says which splits that is: the packet in one piece.
-/

namespace Rmnet

open Word Field Checksum

/-! ### What is verified -/

/-- The words of the pseudo-header: the addresses of an IP header, a length and the protocol. -/
def pseudoWords (ipProto : ℕ) (hdr : Bytes) (len transProto : ℕ) : ℕ :=
  (if ipProto = 4 then wordSum ((hdr.drop 12).take 4) + wordSum ((hdr.drop 16).take 4)
    else wordSum ((hdr.drop 8).take 16) + wordSum ((hdr.drop 24).take 16)) + len + transProto

/-- The transport checksum of a packet verifies: the ones'-complement sum of its transport part and the
pseudo-header is zero. -/
def TransportVerifies (ipProto ipLen transProto : ℕ) (packet : Bytes) : Prop :=
  (wordSum (packet.drop ipLen) + pseudoWords ipProto packet (packet.length - ipLen) transProto) % 65535 = 0

instance (ipProto ipLen transProto : ℕ) (packet : Bytes) :
    Decidable (TransportVerifies ipProto ipLen transProto packet) := inferInstanceAs (Decidable (_ = _))

theorem pseudoSum_eq (ipProto : ℕ) (hdr : Bytes) (len transProto : ℕ) :
    pseudoSum ipProto hdr len transProto = fold (pseudoWords ipProto hdr len transProto) := by
  have hback : ∀ n, 65535 - csumFold n = fold n := by
    intro n
    have hle := fold_le n
    rw [csumFold]
    omega
  rw [pseudoSum, pseudoWords, csumMagic, csumMagic]
  split
  · exact hback _
  · exact hback _

/-! ### What is read -/

/-- The offsets from the data pointer that `rmnet_frag_validate_csum` reads: the addresses of the IP header,
then everything behind that header. -/
def validateReads (desc : RmnetFragDescriptor) : List ℕ :=
  (if desc.ipProto = 4 then List.range' 12 8 else List.range' 8 32) ++
    List.range' desc.ipLen (sub32 desc.len desc.ipLen)

theorem mem_validateReads {desc : RmnetFragDescriptor} {i : ℕ} :
    i ∈ validateReads desc ↔ (desc.ipProto = 4 ∧ 12 ≤ i ∧ i < 20) ∨ (desc.ipProto ≠ 4 ∧ 8 ≤ i ∧ i < 40) ∨
      (desc.ipLen ≤ i ∧ i < desc.ipLen + sub32 desc.len desc.ipLen) := by
  rw [validateReads, List.mem_append, List.mem_range'_1]
  split
  · rename_i hv
    simp only [List.mem_range'_1, hv, true_and, ne_eq, not_true_eq_false, false_and, false_or]
  · rename_i hv
    simp only [List.mem_range'_1, hv, false_and, false_or, ne_eq, not_false_eq_true, true_and]

/-- The sum that `rmnet_frag_validate_csum` folds, for what memory holds from the data pointer on. -/
def validateSum (desc : RmnetFragDescriptor) (data : ℕ → UInt8) : ℕ :=
  let bytes := fun off n => (List.range n).map fun i => data (off + i)
  let datagramLen := sub32 desc.len desc.ipLen
  wordSum (bytes desc.ipLen datagramLen) + (65535 - if desc.ipProto = 4 then
      csumMagic (bytes 12 4) (bytes 16 4) datagramLen desc.transProto
    else csumMagic (bytes 8 16) (bytes 24 16) datagramLen desc.transProto)

theorem rmnetFragValidateCsum_eq {desc : RmnetFragDescriptor} {data : ℕ → UInt8}
    (h : rmnetFragDataPtr desc = some data) :
    rmnetFragValidateCsum desc = decide (csumFold (validateSum desc data) = 0) := by
  rw [rmnetFragValidateCsum, h]
  rfl

/-- **The sum depends only on the bytes at these offsets.** -/
theorem validateSum_congr {desc : RmnetFragDescriptor} {data data' : ℕ → UInt8}
    (hread : ∀ i ∈ validateReads desc, data i = data' i) : validateSum desc data = validateSum desc data' := by
  have hbytes : ∀ off n, (∀ i, off ≤ i → i < off + n → i ∈ validateReads desc) →
      ((List.range n).map fun i => data (off + i)) = (List.range n).map fun i => data' (off + i) := by
    intro off n hin
    apply List.map_congr_left
    intro i hi
    have hlt := List.mem_range.mp hi
    exact hread _ (hin _ (by omega) (by omega))
  unfold validateSum
  simp only
  rw [hbytes desc.ipLen _ fun i h₁ h₂ => mem_validateReads.mpr (.inr (.inr ⟨h₁, h₂⟩))]
  by_cases hv : desc.ipProto = 4
  · rw [if_pos hv, if_pos hv, hbytes 12 4 fun i h₁ h₂ => mem_validateReads.mpr (.inl ⟨hv, by omega, by omega⟩),
      hbytes 16 4 fun i h₁ h₂ => mem_validateReads.mpr (.inl ⟨hv, by omega, by omega⟩)]
  · rw [if_neg hv, if_neg hv,
      hbytes 8 16 fun i h₁ h₂ => mem_validateReads.mpr (.inr (.inl ⟨hv, by omega, by omega⟩)),
      hbytes 24 16 fun i h₁ h₂ => mem_validateReads.mpr (.inr (.inl ⟨hv, by omega, by omega⟩))]

/-- The fields that segmentation sets lie inside a packet: its addresses, and a transport part. -/
structure HeadersIn (ipProto ipLen transProto len : ℕ) : Prop where
  v4 : ipProto = 4 → 20 ≤ len
  v6 : ipProto ≠ 4 → 40 ≤ len
  trans : ipLen < len
  proto : 0 < transProto

theorem coalMeta_headersIn {b : Bytes} {m : CoalMeta} (h : coalMeta b = some m) :
    HeadersIn m.ipProto m.ipLen m.transProto b.length := by
  have hm := coalMeta_measures h
  have hv6 : m.ipProto ≠ 4 → 40 ≤ b.length := by
    intro hne
    unfold coalMeta coalMetaOf at h
    cases hip : ipMetaOf (byteAt b 0 / 16) b with
    | none =>
      rw [hip] at h
      cases h
    | some r =>
      obtain ⟨ipProto, ipLen, transProto, plain⟩ := r
      have hproto : m.ipProto = ipProto := by
        rw [hip] at h
        simp only at h
        split at h
        · split at h
          · cases h
          · exact congrArg CoalMeta.ipProto (Option.some.inj h).symm
        · split at h
          · split at h
            · cases h
            · exact congrArg CoalMeta.ipProto (Option.some.inj h).symm
          · cases h
      unfold ipMetaOf at hip
      split at hip
      · split at hip
        · cases hip
        · rw [Option.some.injEq, Prod.mk.injEq] at hip
          exact absurd (hproto.trans hip.1.symm) hne
      · split at hip
        · split at hip
          · cases hip
          · omega
        · cases hip
  refine ⟨fun hv => (hm.v4 hv).1, hv6, ?_, ?_⟩
  · rcases hm.proto with hp | hp
    · have := hm.tcp hp
      omega
    · have := (hm.udp hp).1
      omega
  · rcases hm.proto with hp | hp
    · rw [hp]
      decide
    · rw [hp]
      decide

theorem range_map_getD {b : Bytes} {off n : ℕ} (h : off + n ≤ b.length) :
    ((List.range n).map fun i => b.getD (off + i) 0) = (b.drop off).take n := by
  apply List.ext_getElem
  · rw [List.length_map, List.length_range, List.length_take, List.length_drop]
    omega
  · intro i h₁ h₂
    have hi : i < n := by simpa using h₁
    rw [List.getElem_map, List.getElem_range, List.getElem_take, List.getElem_drop,
      List.getD_eq_getElem _ _ (by omega)]

/-- **The right answer.**  Where memory holds the packet at the offsets that are read, the answer is whether its
checksum verifies. -/
theorem validateCsum_verifies {desc : RmnetFragDescriptor} {data : ℕ → UInt8} {b : Bytes}
    (h : rmnetFragDataPtr desc = some data) (hlen : desc.len = b.length) (hlt : b.length < 4294967296)
    (hin : HeadersIn desc.ipProto desc.ipLen desc.transProto b.length)
    (hread : ∀ i ∈ validateReads desc, data i = b.getD i 0) :
    rmnetFragValidateCsum desc = true ↔ TransportVerifies desc.ipProto desc.ipLen desc.transProto b := by
  have htrans := hin.trans
  have hproto := hin.proto
  have hsub : sub32 desc.len desc.ipLen = b.length - desc.ipLen := by
    rw [hlen, sub32_of_le (by omega) hlt]
  have hsum : validateSum desc (fun i => b.getD i 0) = wordSum (b.drop desc.ipLen)
      + fold (pseudoWords desc.ipProto b (b.length - desc.ipLen) desc.transProto) := by
    have hbody : (b.drop desc.ipLen).take (b.length - desc.ipLen) = b.drop desc.ipLen := by
      rw [← List.length_drop, List.take_length]
    rw [← pseudoSum_eq, pseudoSum, validateSum]
    simp only [hsub]
    rw [range_map_getD (by omega), hbody]
    by_cases hv : desc.ipProto = 4
    · have h20 := hin.v4 hv
      rw [if_pos hv, if_pos hv, range_map_getD (by omega), range_map_getD (by omega)]
    · have h40 := hin.v6 hv
      rw [if_neg hv, if_neg hv, range_map_getD (by omega), range_map_getD (by omega)]
  have hpos : 0 < fold (pseudoWords desc.ipProto b (b.length - desc.ipLen) desc.transProto) := by
    apply fold_pos
    rw [pseudoWords]
    omega
  rw [rmnetFragValidateCsum_eq h, validateSum_congr hread, hsum, decide_eq_true_iff, csumFold_eq_zero (by omega),
    TransportVerifies, Nat.add_mod, fold_mod, ← Nat.add_mod]

/-! ### Where the fragments lie -/

/-- The place of a page fragment: the address of its page, its offset and its size. -/
structure FragPlace where
  page : ℕ
  off : ℕ
  size : ℕ

/-- `skb_frag_address`. -/
def FragPlace.addr (p : FragPlace) : ℕ := p.page + p.off

/-- An address inside a fragment. -/
def FragPlace.Covers (p : FragPlace) (a : ℕ) : Prop := p.addr ≤ a ∧ a < p.addr + p.size

/-- The fragment at a place of a memory. -/
def FragPlace.frag (mem : ℕ → UInt8) (p : FragPlace) : SkbFrag :=
  { page := fun i => mem (p.page + i), off := p.off, size := p.size }

/-- A descriptor for a packet in pieces, with the fields of its IP header as segmentation measures them. -/
structure HoldsPacket (mem : ℕ → UInt8) (places : List FragPlace) (m : CoalMeta) (pieces : List Bytes)
    (desc : RmnetFragDescriptor) : Prop where
  frags : desc.frags = places.map (FragPlace.frag mem)
  pieces_eq : places.map (fun p => (p.frag mem).bytes) = pieces
  len : desc.len = pieces.flatten.length
  ip_proto : desc.ipProto = m.ipProto
  ip_len : desc.ipLen = m.ipLen
  trans_proto : desc.transProto = m.transProto

/-- Validation is right about a packet in pieces and stays inside them, wherever they lie. -/
def LayoutIndependent (pieces : List Bytes) (m : CoalMeta) : Prop :=
  ∀ (mem : ℕ → UInt8) (p : FragPlace) (places : List FragPlace) (desc : RmnetFragDescriptor),
    HoldsPacket mem (p :: places) m pieces desc →
      (rmnetFragValidateCsum desc = true ↔ TransportVerifies m.ipProto m.ipLen m.transProto pieces.flatten) ∧
        ∀ i ∈ validateReads desc, ∃ q ∈ p :: places, q.Covers (p.addr + i)

section

variable {mem : ℕ → UInt8} {p : FragPlace} {places : List FragPlace} {m : CoalMeta} {pieces : List Bytes}
  {desc : RmnetFragDescriptor}

theorem FragPlace.byte_mem (p : FragPlace) {i : ℕ} (h : i < p.size) :
    (p.frag mem).bytes.getD i 0 = mem (p.addr + i) := by
  rw [List.getD_eq_getElem _ _ (by rw [SkbFrag.bytes_length]; exact h)]
  simp only [SkbFrag.bytes, FragPlace.frag, List.getElem_map, List.getElem_range, FragPlace.addr, Nat.add_assoc]

theorem HoldsPacket.dataPtr (h : HoldsPacket mem (p :: places) m pieces desc) :
    rmnetFragDataPtr desc = some fun i => mem (p.addr + i) := by
  rw [rmnetFragDataPtr, h.frags]
  simp only [List.map_cons, List.head?_cons, Option.map_some, FragPlace.frag, FragPlace.addr, Nat.add_assoc]

/-- Fragments that lie one behind the other from an address on. -/
def Contiguous : ℕ → List FragPlace → Prop
  | _, [] => True
  | a, p :: ps => p.addr = a ∧ Contiguous (a + p.size) ps

/-- In contiguous fragments, memory goes on with the packet. -/
theorem contiguous_bytes (mem : ℕ → UInt8) (places : List FragPlace) :
    ∀ {a : ℕ}, Contiguous a places → ∀ i < ((places.map fun p => (p.frag mem).bytes).flatten).length,
      mem (a + i) = ((places.map fun p => (p.frag mem).bytes).flatten).getD i 0 ∧
        ∃ q ∈ places, q.Covers (a + i) := by
  induction places with
  | nil =>
    intro a _ i hi
    cases hi
  | cons p ps ih =>
    intro a hc i hi
    obtain ⟨ha, hrest⟩ := hc
    have hsize : (p.frag mem).bytes.length = p.size := SkbFrag.bytes_length _
    rw [List.map_cons, List.flatten_cons] at hi ⊢
    by_cases hin : i < p.size
    · refine ⟨?_, p, List.mem_cons_self, by omega, by omega⟩
      rw [List.getD_append _ _ _ _ (by omega), p.byte_mem hin, ha]
    · rw [List.length_append] at hi
      obtain ⟨hmem, q, hq, hcov⟩ := ih hrest (i - p.size) (by omega)
      rw [show a + p.size + (i - p.size) = a + i by omega] at hmem hcov
      refine ⟨?_, q, List.mem_cons_of_mem _ hq, hcov⟩
      rw [List.getD_append_right _ _ _ _ (by omega), hsize]
      exact hmem

/-- The offsets that are read lie inside the packet. -/
theorem validateReads_lt {n : ℕ} (hlen : desc.len = n) (hlt : n < 4294967296)
    (hin : HeadersIn desc.ipProto desc.ipLen desc.transProto n) {i : ℕ} (hi : i ∈ validateReads desc) : i < n := by
  have htrans := hin.trans
  have hsub : sub32 desc.len desc.ipLen = n - desc.ipLen := by rw [hlen, sub32_of_le (by omega) hlt]
  rcases mem_validateReads.mp hi with ⟨hv, -, h⟩ | ⟨hv, -, h⟩ | ⟨-, h⟩
  · have h20 := hin.v4 hv
    omega
  · have h40 := hin.v6 hv
    omega
  · omega

/-- **Contiguous fragments.**  The answer is right, and every byte read lies in a fragment. -/
theorem validate_contiguous (h : HoldsPacket mem (p :: places) m pieces desc)
    (hm : coalMeta pieces.flatten = some m) (hlt : pieces.flatten.length < 4294967296)
    (hc : Contiguous p.addr (p :: places)) :
    (rmnetFragValidateCsum desc = true ↔ TransportVerifies m.ipProto m.ipLen m.transProto pieces.flatten) ∧
      ∀ i ∈ validateReads desc, ∃ q ∈ p :: places, q.Covers (p.addr + i) := by
  have hin := coalMeta_headersIn hm
  rw [← h.ip_proto, ← h.ip_len, ← h.trans_proto] at hin ⊢
  have hbytes : ∀ i ∈ validateReads desc, mem (p.addr + i) = pieces.flatten.getD i 0 ∧
      ∃ q ∈ p :: places, q.Covers (p.addr + i) := by
    intro i hi
    have hlen := validateReads_lt h.len hlt hin hi
    have hcont := contiguous_bytes mem (p :: places) hc i
    rw [h.pieces_eq] at hcont
    exact hcont hlen
  exact ⟨validateCsum_verifies h.dataPtr h.len hlt hin fun i hi => (hbytes i hi).1, fun i hi => (hbytes i hi).2⟩

/-! ### A packet in several pieces -/

/-- Places for some pieces, one behind the other from an address on. -/
def placesFrom : ℕ → List Bytes → List FragPlace
  | _, [] => []
  | a, x :: xs => { page := a, off := 0, size := x.length } :: placesFrom (a + x.length) xs

theorem placesFrom_bytes (mem : ℕ → UInt8) (xs : List Bytes) :
    ∀ a, (∀ i < xs.flatten.length, mem (a + i) = xs.flatten.getD i 0) →
      (placesFrom a xs).map (fun p => (p.frag mem).bytes) = xs := by
  induction xs with
  | nil =>
    intro a _
    rfl
  | cons x xs ih =>
    intro a hmem
    rw [List.flatten_cons, List.length_append] at hmem
    have hhead : (FragPlace.frag mem { page := a, off := 0, size := x.length }).bytes = x := by
      apply List.ext_getElem
      · exact SkbFrag.bytes_length _
      · intro i h₁ h₂
        have hi := hmem i (by omega)
        rw [List.getD_append _ _ _ _ h₂, List.getD_eq_getElem _ _ h₂] at hi
        simp only [SkbFrag.bytes, FragPlace.frag, List.getElem_map, List.getElem_range, Nat.zero_add]
        exact hi
    rw [placesFrom, List.map_cons, hhead, ih]
    intro i hi
    have hnext := hmem (x.length + i) (by omega)
    rw [List.getD_append_right _ _ _ _ (Nat.le_add_right _ _), Nat.add_sub_cancel_left] at hnext
    rw [Nat.add_assoc]
    exact hnext

theorem placesFrom_ge (xs : List Bytes) : ∀ {a : ℕ}, ∀ p ∈ placesFrom a xs, a ≤ p.addr := by
  induction xs with
  | nil =>
    intro a p hp
    cases hp
  | cons x xs ih =>
    intro a p hp
    rcases List.mem_cons.mp hp with rfl | hp
    · exact Nat.le_refl _
    · exact Nat.le_trans (Nat.le_add_right _ _) (ih p hp)

/-- The descriptor of a packet in pieces whose other pieces lie behind some bytes that are not the packet's. -/
def strandedDesc (m : CoalMeta) (x : Bytes) (xs : List Bytes) (stray : Bytes) : RmnetFragDescriptor :=
  { addr := 0
    frags := (placesFrom 0 [x] ++ placesFrom (x.length + stray.length) xs).map
      (FragPlace.frag fun i => (x ++ stray ++ xs.flatten).getD i 0)
    len := (x :: xs).flatten.length
    ipProto := m.ipProto
    ipLen := m.ipLen
    transProto := m.transProto }

theorem strandedDesc_holds (m : CoalMeta) (x : Bytes) (xs : List Bytes) (stray : Bytes) :
    HoldsPacket (fun i => (x ++ stray ++ xs.flatten).getD i 0)
      ({ page := 0, off := 0, size := x.length } :: placesFrom (x.length + stray.length) xs) m (x :: xs)
      (strandedDesc m x xs stray) := by
  refine ⟨rfl, ?_, rfl, rfl, rfl, rfl⟩
  have hfirst : (placesFrom 0 [x]).map (fun p => (p.frag fun i => (x ++ stray ++ xs.flatten).getD i 0).bytes)
      = [x] := by
    apply placesFrom_bytes (fun i => (x ++ stray ++ xs.flatten).getD i 0)
    intro i hi
    rw [List.flatten_singleton] at hi ⊢
    rw [Nat.zero_add, List.append_assoc, List.getD_append _ _ _ _ hi]
  have hrest := placesFrom_bytes (fun i => (x ++ stray ++ xs.flatten).getD i 0) xs (x.length + stray.length) (by
    intro i hi
    rw [List.getD_append_right _ _ _ _ (by rw [List.length_append]; omega), List.length_append,
      Nat.add_sub_cancel_left])
  rw [List.map_cons, hrest]
  exact congrArg (fun l => l ++ xs) hfirst

/-- **Several pieces.**  With the second piece elsewhere, the last byte read lies in no fragment. -/
theorem layout_dependent {x y : Bytes} {xs : List Bytes} (hy : y ≠ [])
    (hm : coalMeta (x :: y :: xs).flatten = some m) (hlt : (x :: y :: xs).flatten.length < 4294967296) :
    ¬ LayoutIndependent (x :: y :: xs) m := by
  intro hind
  have hin := coalMeta_headersIn hm
  have htrans := hin.trans
  have hypos : 0 < y.length := List.length_pos_iff.mpr hy
  have hlen : (x :: y :: xs).flatten.length = x.length + (y.length + xs.flatten.length) := by
    rw [List.flatten_cons, List.flatten_cons, List.length_append, List.length_append]
  have hsub : sub32 (x :: y :: xs).flatten.length m.ipLen = (x :: y :: xs).flatten.length - m.ipLen :=
    sub32_of_le (by omega) hlt
  generalize hstray : List.replicate (y :: xs).flatten.length (0 : UInt8) = stray
  have hslen : stray.length = y.length + xs.flatten.length := by
    rw [← hstray, List.length_replicate, List.flatten_cons, List.length_append]
  obtain ⟨-, hreads⟩ := hind _ _ _ _ (strandedDesc_holds m x (y :: xs) stray)
  obtain ⟨q, hq, hcov⟩ := hreads ((x :: y :: xs).flatten.length - 1) (mem_validateReads.mpr
    (.inr (.inr ⟨show m.ipLen ≤ _ by omega,
      show _ < m.ipLen + sub32 (x :: y :: xs).flatten.length m.ipLen by omega⟩)))
  obtain ⟨hlow, hhigh⟩ := hcov
  rw [show FragPlace.addr { page := 0, off := 0, size := x.length } = 0 from rfl, Nat.zero_add] at hlow hhigh
  rcases List.mem_cons.mp hq with rfl | hq
  · rw [show FragPlace.addr { page := 0, off := 0, size := x.length } = 0 from rfl, Nat.zero_add] at hhigh
    change _ < x.length at hhigh
    omega
  · have hge := placesFrom_ge (y :: xs) q hq
    omega

theorem pseudoWords_append {ipProto : ℕ} {hdr : Bytes} (h : (if ipProto = 4 then 20 else 40) ≤ hdr.length)
    (rest : Bytes) (len transProto : ℕ) :
    pseudoWords ipProto (hdr ++ rest) len transProto = pseudoWords ipProto hdr len transProto := by
  have hslice : ∀ off n, off + n ≤ hdr.length → ((hdr ++ rest).drop off).take n = (hdr.drop off).take n := by
    intro off n hfit
    rw [List.drop_append_of_le_length (by omega), List.take_append_of_le_length (by rw [List.length_drop]; omega)]
  unfold pseudoWords
  by_cases hv : ipProto = 4
  · rw [if_pos hv] at h
    rw [if_pos hv, if_pos hv, hslice 12 4 (by omega), hslice 16 4 (by omega)]
  · rw [if_neg hv] at h
    rw [if_neg hv, if_neg hv, hslice 8 16 (by omega), hslice 24 16 (by omega)]

/-- A packet that verifies no longer does with another last byte. -/
theorem verifies_last {l : Bytes} {c c' : UInt8} (hc : c.toNat ≠ c'.toNat)
    (hhdr : (if m.ipProto = 4 then 20 else 40) ≤ m.ipLen) (hfit : m.ipLen ≤ l.length)
    (h : TransportVerifies m.ipProto m.ipLen m.transProto (l ++ [c])) :
    ¬ TransportVerifies m.ipProto m.ipLen m.transProto (l ++ [c']) := by
  intro h'
  have hsum : ∀ d : UInt8, wordSum ((l ++ [d]).drop m.ipLen)
      + pseudoWords m.ipProto (l ++ [d]) ((l ++ [d]).length - m.ipLen) m.transProto
      = wordSum (l.drop m.ipLen) + d.toNat * (if (l.drop m.ipLen).length % 2 = 0 then 256 else 1)
        + pseudoWords m.ipProto l (l.length + 1 - m.ipLen) m.transProto := by
    intro d
    rw [List.drop_append_of_le_length hfit, wordSum_snoc, pseudoWords_append (by omega), List.length_append,
      List.length_singleton]
  have hlt := c.toNat_lt
  have hlt' := c'.toNat_lt
  unfold TransportVerifies at h h'
  rw [hsum] at h h'
  split at h
  · rename_i heven
    rw [if_pos heven] at h'
    omega
  · rename_i hodd
    rw [if_neg hodd] at h'
    omega

/-- **A good packet in several pieces** is rejected where the bytes behind its first piece are not its own. -/
theorem split_packet_rejected {x y : Bytes} {xs : List Bytes} (hy : y ≠ [])
    (hm : coalMeta (x :: y :: xs).flatten = some m) (hlt : (x :: y :: xs).flatten.length < 4294967296)
    (hhdr : (if m.ipProto = 4 then 20 else 40) ≤ m.ipLen)
    (hgood : TransportVerifies m.ipProto m.ipLen m.transProto (x :: y :: xs).flatten) :
    ∃ mem p places desc, HoldsPacket mem (p :: places) m (x :: y :: xs) desc ∧
      rmnetFragValidateCsum desc = false := by
  have hin := coalMeta_headersIn hm
  rcases List.eq_nil_or_concat (y :: xs).flatten with hnil | ⟨r, c, hrest⟩
  · have hypos : 0 < y.length := List.length_pos_iff.mpr hy
    have hlen := congrArg List.length hnil
    rw [List.flatten_cons, List.length_append, List.length_nil] at hlen
    omega
  · have hbytes : (x :: y :: xs).flatten = (x ++ r) ++ [c] := by
      rw [List.flatten_cons, hrest, List.concat_eq_append, List.append_assoc]
    have hc : c.toNat ≠ (c + 1).toNat := by
      have hlt := c.toNat_lt
      rw [UInt8.toNat_add]
      show c.toNat ≠ (c.toNat + 1) % 256
      omega
    have hlen : (x :: y :: xs).flatten.length = (x ++ (r ++ [c + 1])).length := by
      rw [hbytes]
      simp only [List.length_append, List.length_singleton]
      omega
    have hholds := strandedDesc_holds m x (y :: xs) (r ++ [c + 1])
    refine ⟨_, _, _, strandedDesc m x (y :: xs) (r ++ [c + 1]), hholds, ?_⟩
    rw [← Bool.not_eq_true, validateCsum_verifies hholds.dataPtr hlen (hlen ▸ hlt) (hlen ▸ hin)]
    · rw [← List.append_assoc]
      rw [hbytes] at hgood hin
      have htrans := hin.trans
      rw [List.length_append, List.length_singleton] at htrans
      exact verifies_last hc hhdr (by omega) hgood
    · intro i hi
      have hlti := validateReads_lt rfl hlt hin hi
      rw [show FragPlace.addr { page := 0, off := 0, size := x.length } = 0 from rfl, Nat.zero_add]
      exact List.getD_append _ _ _ _ (hlen ▸ hlti)

/-- **When validation does not depend on the layout.**  Of a TCP or UDP packet in non-empty pieces, the answer is
right and no byte outside the pieces is read, wherever they lie, if and only if the packet is in one piece. -/
theorem validate_layout_iff (hne : ∀ x ∈ pieces, x ≠ []) (hm : coalMeta pieces.flatten = some m)
    (hlt : pieces.flatten.length < 4294967296) : LayoutIndependent pieces m ↔ pieces.length = 1 := by
  constructor
  · intro hind
    cases hp : pieces with
    | nil =>
      rw [hp] at hm
      cases hm
    | cons x rest =>
      cases rest with
      | nil => rfl
      | cons y xs =>
        subst hp
        exact absurd hind (layout_dependent (hne y (List.mem_cons_of_mem _ List.mem_cons_self)) hm hlt)
  · intro hone mem p places desc h
    have hplaces : (p :: places).length = 1 := by
      have hlen := congrArg List.length h.pieces_eq
      rw [List.length_map] at hlen
      rw [hlen, hone]
    have hnil : places = [] := List.length_eq_zero_iff.mp (by rw [List.length_cons] at hplaces; omega)
    subst hnil
    exact validate_contiguous h hm hlt ⟨rfl, trivial⟩

end

/-- An IPv4 header for a UDP packet of ten bytes. -/
def datagramIp : Bytes := [0x45, 0, 0, 30, 0, 1, 0, 0, 64, 17, 102, 204, 10, 0, 0, 1, 10, 0, 0, 2]

/-- A UDP packet of ten bytes, with its checksum. -/
def datagramUdp : Bytes := [19, 136, 19, 137, 0, 10, 99, 100, 97, 98]

/-- The headers of this packet. -/
def datagramMeta : CoalMeta := ⟨4, 20, 17, 8, true, false⟩

theorem validate_layout_one : LayoutIndependent [datagramIp ++ datagramUdp] datagramMeta :=
  (validate_layout_iff (by decide) (by decide) (by decide)).mpr rfl

/-- A packet with the right checksum, its transport part in a fragment of its own: it is rejected. -/
theorem validate_layout_two :
    TransportVerifies 4 20 17 (datagramIp ++ datagramUdp) ∧
      rmnetFragValidateCsum
        { addr := 0, frags := [SkbFrag.ofBytes datagramIp, SkbFrag.ofBytes datagramUdp], len := 30, ipProto := 4,
          ipLen := 20, transProto := 17 } = false ∧
      ¬ LayoutIndependent [datagramIp, datagramUdp] datagramMeta := by
  refine ⟨by decide, by decide, ?_⟩
  apply layout_dependent
  · decide
  · decide
  · decide

end Rmnet
