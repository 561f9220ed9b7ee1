import Rmnet.Errno
import Rmnet.Frag.Descriptor
import Rmnet.Lib.Fuel

/-!
# The walk over IPv6 extension headers

`rmnet_frag_ipv6_skip_exthdr` follows the next-header fields from `start` on.  Here `start` is the `int` that it is,
cast to a `u32` for every read.  The reference is the walk over the byte string: `ExtWalk.next` leads from one header
to the next, and none where the walk stops or is refused.

* `skipExthdrLoopInt_step` — one pass of the loop is one step of the walk;
* `skipExthdrLoopInt_eq` — the loop is the walk, with the same fuel;
* `skip_exthdr_exact` — the walk ends, and the code returns what its end says.
-/

namespace Rmnet

open Word Field StateTransition

/-! ### The code -/

/-- What `rmnet_frag_ipv6_skip_exthdr` returns, and what it leaves in `*nexthdrp` and `*fragp`. -/
structure SkipExthdrInt where
  rc : ℤ
  nexthdr : ℕ
  fragOff : ℕ
  deriving DecidableEq, Repr

/-- The `while` loop of `rmnet_frag_ipv6_skip_exthdr`; `none` is running out of fuel. -/
def skipExthdrLoopInt (hdr : ℕ → ℕ → Option Bytes) (nexthdr₀ : ℕ) :
    ℕ → ℤ → ℕ → ℕ → Option SkipExthdrInt
  | 0, _, _, _ => none
  | fuel + 1, start, nexthdr, fragOff =>
      if !ipv6ExtHdr nexthdr then some ⟨start, nexthdr, fragOff⟩
      else if nexthdr = 59 then some ⟨-einval, nexthdr₀, fragOff⟩
      else
        match hdr (toU32 start) 2 with
        | none => some ⟨-einval, nexthdr₀, fragOff⟩
        | some hp =>
            if nexthdr = 44 then
              match hdr (u32 (toU32 start + 2)) 2 with
              | none => some ⟨-einval, nexthdr₀, fragOff⟩
              | some fp =>
                  -- a fragment other than the first stops the walk
                  if be16At fp 0 / 8 ≠ 0 then some ⟨start, nexthdr, be16At fp 0⟩
                  else skipExthdrLoopInt hdr nexthdr₀ fuel (int32 (start + 8)) (byteAt hp 0) (be16At fp 0)
            else if nexthdr = 51 then
              skipExthdrLoopInt hdr nexthdr₀ fuel (int32 (start + (byteAt hp 1 + 2) * 4)) (byteAt hp 0) fragOff
            else
              skipExthdrLoopInt hdr nexthdr₀ fuel (int32 (start + (byteAt hp 1 + 1) * 8)) (byteAt hp 0) fragOff

/-- `rmnet_frag_ipv6_skip_exthdr`. -/
def rmnetFragIpv6SkipExthdrInt (desc : RmnetFragDescriptor) (start : ℤ) (nexthdr : ℕ) : Option SkipExthdrInt :=
  skipExthdrLoopInt (rmnetFragHeaderPtr desc) nexthdr (desc.len + 2) start nexthdr 0

/-! ### The reference -/

/-- A place on the walk: the offset, the type of the header there, and the offset and flags field of the last
fragment header examined. -/
structure ExtWalk where
  off : ℕ
  type : ℕ
  frag : ℕ
  deriving DecidableEq, Repr

/-- The first two bytes of the header, and the offset field of a fragment header, lie in the packet. -/
def ExtWalk.Inside (b : Bytes) (w : ExtWalk) : Prop := w.off + (if w.type = 44 then 4 else 2) ≤ b.length

/-- The header is that of a fragment other than the first. -/
def ExtWalk.LaterFragment (b : Bytes) (w : ExtWalk) : Prop := w.type = 44 ∧ be16At b (w.off + 2) / 8 ≠ 0

/-- The walk is refused: there is no next header, or the header does not lie in the packet. -/
def ExtWalk.Refused (b : Bytes) (w : ExtWalk) : Prop :=
  ipv6ExtHdr w.type = true ∧ (w.type = 59 ∨ ¬ w.Inside b)

/-- The length of the header. -/
def ExtWalk.hdrLen (b : Bytes) (w : ExtWalk) : ℕ :=
  if w.type = 44 then 8
  else if w.type = 51 then (byteAt b (w.off + 1) + 2) * 4
  else (byteAt b (w.off + 1) + 1) * 8

/-- The offset and flags field of the last fragment header, that of this header included. -/
def ExtWalk.examined (b : Bytes) (w : ExtWalk) : ℕ := if w.type = 44 then be16At b (w.off + 2) else w.frag

instance ExtWalk.decidableInside (b : Bytes) (w : ExtWalk) : Decidable (w.Inside b) :=
  inferInstanceAs (Decidable (_ ≤ _))

instance (b : Bytes) (w : ExtWalk) : Decidable (w.LaterFragment b) := inferInstanceAs (Decidable (_ ∧ _))

instance (b : Bytes) (w : ExtWalk) : Decidable (w.Refused b) := inferInstanceAs (Decidable (_ ∧ (_ ∨ ¬ _)))

/-- The next header of the walk, while the type is that of an extension header. -/
def ExtWalk.next (b : Bytes) (w : ExtWalk) : Option ExtWalk :=
  if ipv6ExtHdr w.type = false ∨ w.Refused b ∨ w.LaterFragment b then none
  else some ⟨w.off + w.hdrLen b, byteAt b w.off, w.examined b⟩

/-- What the code makes of the end of the walk. -/
def ExtWalk.outcome (b : Bytes) (nexthdr₀ : ℕ) (w : ExtWalk) : SkipExthdrInt :=
  if w.Refused b then ⟨-einval, nexthdr₀, w.frag⟩ else ⟨w.off, w.type, w.examined b⟩

/-! ### One pass -/

section

variable {b : Bytes} {w : ExtWalk}

theorem ExtWalk.hdrLen_ge (b : Bytes) (w : ExtWalk) : 8 ≤ w.hdrLen b := by
  unfold ExtWalk.hdrLen
  split
  · omega
  · split <;> omega

theorem ExtWalk.hdrLen_le (b : Bytes) (w : ExtWalk) : w.hdrLen b ≤ 2048 := by
  have hlt := byteAt_lt b (w.off + 1)
  unfold ExtWalk.hdrLen
  split
  · omega
  · split <;> omega

/-- A step starts in the packet and goes forward. -/
theorem ExtWalk.next_some {t : ExtWalk} (h : w.next b = some t) :
    w.off + 2 ≤ b.length ∧ w.off + 8 ≤ t.off ∧ t.off ≤ w.off + 2048 := by
  unfold ExtWalk.next at h
  split at h
  · cases h
  · rename_i hgo
    have hge := w.hdrLen_ge b
    have hle := w.hdrLen_le b
    have hin : w.Inside b := by
      by_contra hout
      refine hgo (.inr (.inl ⟨?_, .inr hout⟩))
      cases hext : ipv6ExtHdr w.type with
      | true => rfl
      | false => exact absurd (.inl hext) hgo
    unfold ExtWalk.Inside at hin
    cases h
    simp only
    split at hin
    · omega
    · omega

theorem readBytes_of_gt {off len : ℕ} (h : b.length < off + len) : readBytes b off len = none := if_pos h

/-- **One pass of the loop is one step of the walk.** -/
theorem skipExthdrLoopInt_step (hlen : b.length ≤ 1073741824) (nexthdr₀ fuel : ℕ) {off : ℕ}
    (hoff : off < 1073745920) (type frag : ℕ) :
    skipExthdrLoopInt (readBytes b) nexthdr₀ (fuel + 1) off type frag
      = match ExtWalk.next b ⟨off, type, frag⟩ with
        | none => some (ExtWalk.outcome b nexthdr₀ ⟨off, type, frag⟩)
        | some t => skipExthdrLoopInt (readBytes b) nexthdr₀ fuel t.off t.type t.frag := by
  have hb₁ := byteAt_lt b (off + 1)
  rw [skipExthdrLoopInt, toU32_of_lt (show off < 4294967296 by omega), u32_of_lt (show off + 2 < 4294967296 by omega)]
  unfold ExtWalk.next ExtWalk.outcome ExtWalk.Refused ExtWalk.LaterFragment ExtWalk.Inside ExtWalk.examined
    ExtWalk.hdrLen
  by_cases hext : ipv6ExtHdr type = true
  · by_cases h59 : type = 59
    · subst h59
      simp [hext]
    · by_cases hread : b.length < off + 2
      · have hout : ¬ off + (if type = 44 then 4 else 2) ≤ b.length := by split <;> omega
        simp [hext, h59, readBytes_of_gt hread, hout]
      · rw [readBytes_of_le (show off + 2 ≤ b.length by omega)]
        have hhp₀ : byteAt ((b.drop off).take 2) 0 = byteAt b off := by
          rw [byteAt_take (by omega), byteAt_drop, Nat.add_zero]
        have hhp₁ : byteAt ((b.drop off).take 2) 1 = byteAt b (off + 1) := by
          rw [byteAt_take (by omega), byteAt_drop]
        by_cases h44 : type = 44
        · subst h44
          by_cases hfrag : b.length < off + 2 + 2
          · have hout : ¬ off + 4 ≤ b.length := by omega
            simp [hext, readBytes_of_gt hfrag, hout]
          · have hin : off + 4 ≤ b.length := by omega
            have hfp : be16At ((b.drop (off + 2)).take 2) 0 = be16At b (off + 2) := by
              rw [be16At_take (by omega), be16At_drop, Nat.add_zero]
            rw [readBytes_of_le (show off + 2 + 2 ≤ b.length by omega)]
            simp only [hhp₀, hfp]
            by_cases hlater : be16At b (off + 2) / 8 ≠ 0
            · simp [hext, hlater, hin]
            · have hint := int32_of_lt (show off + 8 < 2147483648 by omega)
              push_cast at hint
              simp [hext, hlater, hin, hint]
        · have hin : off + 2 ≤ b.length := by omega
          by_cases h51 : type = 51
          · subst h51
            have hint := int32_of_lt (show off + (byteAt b (off + 1) + 2) * 4 < 2147483648 by omega)
            push_cast at hint
            simp [hext, hhp₀, hhp₁, hin, hint]
          · have hint := int32_of_lt (show off + (byteAt b (off + 1) + 1) * 8 < 2147483648 by omega)
            push_cast at hint
            simp [hext, h59, h44, h51, hhp₀, hhp₁, hin, hint]
  · have h44 : type ≠ 44 := by
      rintro rfl
      exact hext (by decide)
    simp [Bool.not_eq_true _ ▸ hext, h44]

/-- **The loop is the walk**, with the same fuel. -/
theorem skipExthdrLoopInt_eq (hlen : b.length ≤ 1073741824) (nexthdr₀ fuel : ℕ) :
    ∀ w : ExtWalk, w.off < 1073745920 →
      skipExthdrLoopInt (readBytes b) nexthdr₀ fuel w.off w.type w.frag
        = (Fuel.run (ExtWalk.next b) fuel w).map (ExtWalk.outcome b nexthdr₀) := by
  induction fuel with
  | zero =>
    intro w _
    rfl
  | succ fuel ih =>
    intro w hoff
    rw [skipExthdrLoopInt_step hlen nexthdr₀ fuel hoff, Fuel.run]
    cases hnext : w.next b with
    | none => rfl
    | some t =>
      obtain ⟨hin, -, hle⟩ := ExtWalk.next_some hnext
      exact ih t (by omega)

/-- The walk ends: every step leaves less of the packet. -/
theorem walk_ends (b : Bytes) (w : ExtWalk) :
    ∃ e ∈ eval (ExtWalk.next b) w, Fuel.run (ExtWalk.next b) (b.length + 2) w = some e := by
  refine Fuel.run_of_measure (fun w => b.length - w.off) ?_ (b.length + 2) w (by omega)
  intro s t hnext
  obtain ⟨hin, hge, -⟩ := ExtWalk.next_some hnext
  omega

/-- The walk never goes back. -/
theorem walk_forward {w e : ExtWalk} (h : Reaches (ExtWalk.next b) w e) : w.off ≤ e.off := by
  refine Fuel.reaches_invariant (I := fun t => w.off ≤ t.off) ?_ h le_rfl
  intro s t hs hnext
  obtain ⟨-, hge, -⟩ := ExtWalk.next_some hnext
  exact hs.trans (by omega)

end

/-! ### The function -/

/-- The function in terms of the bytes of the descriptor. -/
theorem rmnetFragIpv6SkipExthdrInt_eq {desc : RmnetFragDescriptor} (h : desc.Sized) (start : ℤ) (nexthdr : ℕ) :
    rmnetFragIpv6SkipExthdrInt desc start nexthdr
      = skipExthdrLoopInt (readBytes desc.bytes) nexthdr (desc.bytes.length + 2) start nexthdr 0 := by
  have hread : rmnetFragHeaderPtr desc = readBytes desc.bytes := by
    funext off len
    exact rmnetFragHeaderPtr_eq h off len
  rw [rmnetFragIpv6SkipExthdrInt, hread, h.length_bytes]

/-- The result with the offset as an `int`. -/
def SkipExthdr.toInt (r : SkipExthdr) : SkipExthdrInt where
  rc := match r.start with
    | none => -einval
    | some start => start
  nexthdr := r.nexthdr
  fragOff := r.fragOff

/-- In packets of at most 2^30 bytes the `int` never leaves the naturals: the loop is the one that the segmentation
is modelled with. -/
theorem skipExthdrLoopInt_toInt {b : Bytes} (hlen : b.length ≤ 1073741824) (nexthdr₀ fuel : ℕ) :
    ∀ (off type frag : ℕ), off < 1073745920 →
      skipExthdrLoopInt (readBytes b) nexthdr₀ fuel off type frag
        = (skipExthdrLoop (readBytes b) nexthdr₀ fuel off type frag).map SkipExthdr.toInt := by
  induction fuel with
  | zero =>
    intro off type frag _
    rfl
  | succ fuel ih =>
    intro off type frag hoff
    rw [skipExthdrLoopInt, skipExthdrLoop, toU32_of_lt (show off < 4294967296 by omega),
      u32_of_lt (show off + 2 < 4294967296 by omega)]
    by_cases hext : (!ipv6ExtHdr type) = true
    · rw [if_pos hext, if_pos hext]
      rfl
    · rw [if_neg hext, if_neg hext]
      by_cases h59 : type = 59
      · rw [if_pos h59, if_pos h59]
        rfl
      · rw [if_neg h59, if_neg h59]
        cases hread : readBytes b off 2 with
        | none => rfl
        | some hp =>
          have hin : off + 2 ≤ b.length := by
            by_contra hout
            rw [readBytes_of_gt (by omega)] at hread
            cases hread
          have hlt := byteAt_lt hp 1
          -- each of the three lengths leaves the offset below 2^31
          have hstep : ∀ n ≤ 2048, ∀ type frag,
              skipExthdrLoopInt (readBytes b) nexthdr₀ fuel (int32 ((off + n : ℕ) : ℤ)) type frag
                = (skipExthdrLoop (readBytes b) nexthdr₀ fuel (off + n) type frag).map SkipExthdr.toInt := by
            intro n hn type frag
            rw [int32_of_lt (show off + n < 2147483648 by omega)]
            exact ih _ _ _ (by omega)
          push_cast at hstep
          simp only
          split
          · cases readBytes b (off + 2) 2 with
            | none => rfl
            | some fp =>
              simp only
              split
              · rfl
              · exact hstep 8 (by omega) _ _
          · split
            · exact_mod_cast hstep ((byteAt hp 1 + 2) * 4) (by omega) _ _
            · exact_mod_cast hstep ((byteAt hp 1 + 1) * 8) (by omega) _ _

theorem rmnetFragIpv6SkipExthdrInt_toInt {desc : RmnetFragDescriptor} (h : desc.Sized) (hlen : desc.len ≤ 1073741824)
    {start : ℕ} (hstart : start ≤ 1073741824) (nexthdr : ℕ) :
    rmnetFragIpv6SkipExthdrInt desc start nexthdr
      = (rmnetFragIpv6SkipExthdr desc start nexthdr).map SkipExthdr.toInt := by
  rw [rmnetFragIpv6SkipExthdrInt_eq h, rmnetFragIpv6SkipExthdr_eq h, ipv6SkipExthdr]
  exact skipExthdrLoopInt_toInt (h.length_bytes.le.trans hlen) _ _ start _ _ (by omega)

/-- **The walk over the extension headers terminates and is exact.**  It runs to the place `w` where the walk over
the byte string ends.  It returns `-EINVAL` exactly when the walk is refused there, and the type is then as it was;
otherwise it returns the offset, the type and the offset field of the last fragment header examined. -/
theorem skip_exthdr_exact (desc : RmnetFragDescriptor) (h : desc.Sized) (hlen : desc.len ≤ 1073741824) (start : ℕ)
    (hstart : start ≤ 1073741824) (nexthdr : ℕ) :
    ∃ r, rmnetFragIpv6SkipExthdrInt desc start nexthdr = some r ∧
      ∃ w ∈ eval (ExtWalk.next desc.bytes) ⟨start, nexthdr, 0⟩,
        (r.rc = -einval ↔ w.Refused desc.bytes) ∧
        (w.Refused desc.bytes → r.nexthdr = nexthdr) ∧
        (¬ w.Refused desc.bytes → start ≤ w.off ∧ r = ⟨w.off, w.type, w.examined desc.bytes⟩) := by
  have hb : desc.bytes.length ≤ 1073741824 := h.length_bytes.le.trans hlen
  obtain ⟨w, hw, hrun⟩ := walk_ends desc.bytes ⟨start, nexthdr, 0⟩
  refine ⟨w.outcome desc.bytes nexthdr, ?_, w, hw, ?_, ?_, ?_⟩
  · have hloop := skipExthdrLoopInt_eq hb nexthdr (desc.bytes.length + 2) ⟨start, nexthdr, 0⟩
      (show start < 1073745920 by omega)
    rw [hrun] at hloop
    rw [rmnetFragIpv6SkipExthdrInt_eq h]
    exact hloop
  · unfold ExtWalk.outcome
    split
    · rename_i hrefused
      exact iff_of_true rfl hrefused
    · rename_i hrefused
      refine iff_of_false (fun hrc => ?_) hrefused
      simp only [einval] at hrc
      omega
  · intro hrefused
    unfold ExtWalk.outcome
    rw [if_pos hrefused]
  · intro hrefused
    unfold ExtWalk.outcome
    rw [if_neg hrefused]
    exact ⟨walk_forward (mem_eval.mp hw).1, rfl⟩

/-- A hop-by-hop header of 8 bytes across two pages, a first fragment's header and a TCP port. -/
def chainDesc : RmnetFragDescriptor :=
  { addr := 0, frags := [.ofBytes [44], .ofBytes [0, 0, 0, 0, 0, 0, 0, 6, 0, 0, 1], .ofBytes [0, 0, 0, 0, 0x1f]],
    len := 17 }

theorem skip_exthdr_chain :
    ∃ r, rmnetFragIpv6SkipExthdrInt chainDesc 0 0 = some r ∧
      ∃ w ∈ eval (ExtWalk.next chainDesc.bytes) ⟨0, 0, 0⟩, (r.rc = -einval ↔ w.Refused chainDesc.bytes) := by
  obtain ⟨r, hr, w, hw, hrc, -⟩ := skip_exthdr_exact chainDesc ⟨by decide, by decide⟩ (by decide) 0 (by decide) 0
  exact ⟨r, hr, w, hw, hrc⟩

example : rmnetFragIpv6SkipExthdrInt chainDesc 0 0 = some ⟨16, 6, 1⟩ := by decide

end Rmnet
