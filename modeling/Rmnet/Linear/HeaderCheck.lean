import Rmnet.Linear.Segment

/-!
# The packet count of the coalescing header

Both header checks add the packet counts of the six NL pairs in a byte and compare the byte with the limit
after each addition.  The byte can only be fooled by an addition that takes it from at most 48 past 255:
`checkNlPairs_some` says that the check passes exactly when all partial sums are small modulo 256.  So a table
above the limit is refused unless it jumps over the range from 49 to 255 (`check_counts_iff`).
-/

namespace Rmnet

open Word Field

/-- The exact number of packets of some pairs. -/
def packetSum (pairs : List NlPair) : ℕ := (pairs.map NlPair.numPackets).sum

@[simp] theorem packetSum_nil : packetSum [] = 0 := rfl

@[simp] theorem packetSum_cons (p : NlPair) (ps : List NlPair) :
    packetSum (p :: ps) = p.numPackets + packetSum ps := by
  simp [packetSum]

/-! ### The running total -/

/-- The total of a table that passes is the sum modulo 256, and all partial sums are at most 48 modulo 256. -/
theorem checkNlPairs_some (ps : List NlPair) :
    ∀ i mask pkts r, checkNlPairs ps i mask pkts = some r →
      r.2 = (if ps = [] then pkts else u8 (pkts + packetSum ps)) ∧
        ∀ k, 1 ≤ k → k ≤ ps.length → u8 (pkts + packetSum (ps.take k)) ≤ v5MaxPackets := by
  induction ps with
  | nil =>
    intro i mask pkts r h
    rw [checkNlPairs, Option.some.injEq] at h
    refine ⟨by rw [← h, if_pos rfl], ?_⟩
    intro k h₁ h₂
    rw [List.length_nil] at h₂
    omega
  | cons p ps ih =>
    intro i mask pkts r h
    rw [checkNlPairs] at h
    split at h
    · cases h
    · rename_i hle
      obtain ⟨hr, hall⟩ := ih _ _ _ _ h
      have hshift : ∀ n, u8 (u8 (pkts + p.numPackets) + n) = u8 (pkts + (p.numPackets + n)) := by
        intro n
        rw [← Nat.add_assoc]
        exact Nat.mod_add_mod _ 256 n
      refine ⟨?_, ?_⟩
      · rw [hr, if_neg (List.cons_ne_nil _ _), packetSum_cons]
        split
        · rename_i hnil
          rw [hnil, packetSum_nil, Nat.add_zero]
        · exact hshift _
      · intro k h₁ h₂
        rw [List.length_cons] at h₂
        obtain ⟨j, rfl⟩ : ∃ j, k = j + 1 := ⟨k - 1, by omega⟩
        rw [List.take_succ_cons, packetSum_cons]
        by_cases hj : j = 0
        · rw [hj, List.take_zero, packetSum_nil, Nat.add_zero]
          omega
        · have hprev := hall j (by omega) (by omega)
          rw [hshift] at hprev
          exact hprev

/-- A table that is refused has a partial sum above 48 modulo 256. -/
theorem checkNlPairs_none (ps : List NlPair) :
    ∀ i mask pkts, checkNlPairs ps i mask pkts = none →
      ∃ k, v5MaxPackets < u8 (pkts + packetSum (ps.take k)) := by
  induction ps with
  | nil =>
    intro i mask pkts h
    cases h
  | cons p ps ih =>
    intro i mask pkts h
    rw [checkNlPairs] at h
    split at h
    · rename_i hlt
      refine ⟨1, ?_⟩
      rw [List.take_succ_cons, List.take_zero, packetSum_cons, packetSum_nil, Nat.add_zero]
      exact hlt
    · obtain ⟨k, hk⟩ := ih _ _ _ h
      refine ⟨k + 1, ?_⟩
      have hshift : u8 (u8 (pkts + p.numPackets) + packetSum (ps.take k))
          = u8 (pkts + (p.numPackets + packetSum (ps.take k))) := by
        rw [← Nat.add_assoc]
        exact Nat.mod_add_mod _ 256 _
      rw [List.take_succ_cons, packetSum_cons, ← hshift]
      exact hk

/-! ### The counters -/

/-- What a header check should do: accept only what counts at most 48 packets, which it adds to the counter of
packets, and write an error counter alone when it refuses. -/
structure CountsPackets (port : RmnetPort) (dev : NetDevice) (coalHdr : V5CoalHeader)
    (r : RmnetPort × Option ℕ) : Prop where
  accepted : ∀ mask, r.2 = some mask → packetSum coalHdr.nlPairs ≤ v5MaxPackets ∧
    r.1.stats dev.id .coalPkts = port.stats dev.id .coalPkts + packetSum coalHdr.nlPairs
  refused : r.2 = none →
    r.1 = port.bump (some dev) .coalHdrNloErr 1 ∨ r.1 = port.bump (some dev) .coalHdrPktErr 1

/-- The byte cannot be fooled by the table: there is a bad number of pairs, or the exact sum keeps to the limit,
or some partial sum is from 49 to 255 modulo 256. -/
def CountSeen (coalHdr : V5CoalHeader) : Prop :=
  coalHdr.numNlos = 0 ∨ v5MaxNlos < coalHdr.numNlos ∨ packetSum coalHdr.nlPairs ≤ v5MaxPackets ∨
    ∃ k, v5MaxPackets < packetSum (coalHdr.nlPairs.take k) % 256

theorem checkCoalHeader_counts (port : RmnetPort) (dev : NetDevice) {coalHdr : V5CoalHeader}
    (hlen : coalHdr.nlPairs.length = v5MaxNlos) :
    CountsPackets port dev coalHdr (checkCoalHeader port (some dev) coalHdr) ↔ CountSeen coalHdr := by
  by_cases hnlos : coalHdr.numNlos = 0 ∨ v5MaxNlos < coalHdr.numNlos
  · rw [checkCoalHeader_nlos port _ hnlos]
    exact iff_of_true ⟨(by intro mask h; cases h), fun _ => .inl rfl⟩ (hnlos.imp_right .inl)
  · cases hcheck : checkNlPairs coalHdr.nlPairs 0 0 0 with
    | none =>
      rw [checkCoalHeader_refused port _ hnlos hcheck]
      obtain ⟨k, hk⟩ := checkNlPairs_none _ _ _ _ hcheck
      rw [Nat.zero_add] at hk
      exact iff_of_true ⟨(by intro mask h; cases h), fun _ => .inr rfl⟩ (.inr (.inr (.inr ⟨k, hk⟩)))
    | some r =>
      obtain ⟨mask, pkts⟩ := r
      obtain ⟨hmask, hstats⟩ := checkCoalHeader_accepted port dev hnlos hcheck
      obtain ⟨htotal, hall⟩ := checkNlPairs_some _ _ _ _ _ hcheck
      have hne : coalHdr.nlPairs ≠ [] := by
        intro hnil
        rw [hnil] at hlen
        cases hlen
      rw [if_neg hne, Nat.zero_add] at htotal
      constructor
      · intro h
        exact .inr (.inr (.inl (h.accepted mask hmask).1))
      · rintro (hz | hbig | hle | ⟨k, hk⟩)
        · exact absurd (.inl hz) hnlos
        · exact absurd (.inr hbig) hnlos
        · have hexact : pkts = packetSum coalHdr.nlPairs := by
            rw [show pkts = _ from htotal]
            exact u8_of_lt (Nat.lt_of_le_of_lt hle (by decide))
          refine ⟨fun _ _ => ⟨hle, hexact ▸ hstats⟩, fun h => ?_⟩
          rw [hmask] at h
          cases h
        · -- no partial sum is that large
          exfalso
          rcases Nat.eq_zero_or_pos k with rfl | hpos
          · rw [List.take_zero, packetSum_nil] at hk
            cases hk
          · have hsmall := hall (min k coalHdr.nlPairs.length) (by omega) (Nat.min_le_right _ _)
            rw [← List.take_eq_take_min, Nat.zero_add] at hsmall
            exact absurd hk (Nat.not_lt.mpr hsmall)

/-- **The header checks.**  Each of the two does what it should exactly when the byte is not fooled; a descriptor
that holds no complete header is refused without a trace. -/
theorem check_counts_iff (port : RmnetPort) (dev : NetDevice) {desc : RmnetFragDescriptor}
    (hdev : desc.dev = some dev) (skb : SkBuff) :
    (∀ hdr, rmnetFragHeaderPtr desc mapHeaderSize v5CoalHeaderSize = some hdr →
        (CountsPackets port dev (V5CoalHeader.parse hdr) (rmnetFragDataCheckCoalHeader port desc)
          ↔ CountSeen (V5CoalHeader.parse hdr))) ∧
      (rmnetFragHeaderPtr desc mapHeaderSize v5CoalHeaderSize = none →
        rmnetFragDataCheckCoalHeader port desc = (port, none)) ∧
      let coalHdr := V5CoalHeader.parse (memBytes (rmnetMapDataPtr skb) mapHeaderSize v5CoalHeaderSize)
      (CountsPackets port dev coalHdr (rmnetMapDataCheckCoalHeader port dev skb) ↔ CountSeen coalHdr) := by
  refine ⟨?_, ?_, checkCoalHeader_counts port dev (V5CoalHeader.parse_nlPairs_length _)⟩
  · intro hdr hread
    rw [rmnetFragDataCheckCoalHeader, hread, hdev]
    exact checkCoalHeader_counts port dev (V5CoalHeader.parse_nlPairs_length _)
  · intro hread
    rw [rmnetFragDataCheckCoalHeader, hread]

/-- A QMAP and coalescing header with two NL pairs, of 48 packets and of a given number. -/
def pairsHd (n : UInt8) : Bytes :=
  [0x40, 1, 0, 60, 0x02, 0x20, 0, 0, 0, 30, 0, 48, 0, 30, 0, n] ++ List.replicate 16 0

/-- The header in a descriptor. -/
def pairsDesc (n : UInt8) : RmnetFragDescriptor :=
  { addr := 0, frags := [.ofBytes (pairsHd n)], dev := some ⟨0, true, true⟩, len := 32 }

/-- A table of 49 packets is refused by both. -/
theorem check_counts_refused :
    CountsPackets (rmnetDescriptorInit 48 (fun _ => none) fun _ => true) ⟨0, true, true⟩
        (V5CoalHeader.parse ((pairsHd 1).drop mapHeaderSize))
        (rmnetFragDataCheckCoalHeader (rmnetDescriptorInit 48 (fun _ => none) fun _ => true)
          (pairsDesc 1)) ∧
      CountsPackets (rmnetDescriptorInit 48 (fun _ => none) fun _ => true) ⟨0, true, true⟩
        (V5CoalHeader.parse (memBytes (rmnetMapDataPtr (linearSkb (pairsHd 1))) mapHeaderSize v5CoalHeaderSize))
        (rmnetMapDataCheckCoalHeader (rmnetDescriptorInit 48 (fun _ => none) fun _ => true) ⟨0, true, true⟩
          (linearSkb (pairsHd 1))) := by
  have hdev : (pairsDesc 1).dev = some ⟨0, true, true⟩ := rfl
  obtain ⟨hfrag, -, hmap⟩ := check_counts_iff (rmnetDescriptorInit 48 (fun _ => none) fun _ => true)
    ⟨0, true, true⟩ hdev (linearSkb (pairsHd 1))
  have hread : rmnetFragHeaderPtr (pairsDesc 1) mapHeaderSize v5CoalHeaderSize
      = some ((pairsHd 1).drop mapHeaderSize) := by decide +kernel
  exact ⟨(hfrag _ hread).mpr (.inr (.inr (.inr ⟨2, by decide +kernel⟩))),
    hmap.mpr (.inr (.inr (.inr ⟨2, by decide +kernel⟩)))⟩

/-- A table of 298 packets is accepted by both, as one of 42. -/
theorem check_fooled :
    ¬ CountsPackets (rmnetDescriptorInit 48 (fun _ => none) fun _ => true) ⟨0, true, true⟩
        (V5CoalHeader.parse ((pairsHd 250).drop mapHeaderSize))
        (rmnetFragDataCheckCoalHeader (rmnetDescriptorInit 48 (fun _ => none) fun _ => true)
          (pairsDesc 250)) ∧
      ¬ CountsPackets (rmnetDescriptorInit 48 (fun _ => none) fun _ => true) ⟨0, true, true⟩
        (V5CoalHeader.parse (memBytes (rmnetMapDataPtr (linearSkb (pairsHd 250))) mapHeaderSize v5CoalHeaderSize))
        (rmnetMapDataCheckCoalHeader (rmnetDescriptorInit 48 (fun _ => none) fun _ => true) ⟨0, true, true⟩
          (linearSkb (pairsHd 250))) := by
  refine ⟨fun h => ?_, fun h => ?_⟩
  · have hle := (h.accepted 0 (by decide +kernel)).1
    revert hle
    decide +kernel
  · have hle := (h.accepted 0 (by decide +kernel)).1
    revert hle
    decide +kernel

end Rmnet
