import Mathlib.Data.List.Nodup
import Rmnet.Coalesce.Plan

/-!
# The calls of the segmentation loop

Each emission of the loop is a call, which the loop makes for an NL pair with the value of `total_pkt` and a
checksum status.  `SegOps.traced` writes down these keys, with what is observed of the state before the call;
two runs over one table can then be compared call by call, also when one of them makes calls that the other
does not.  No key is used twice (`traced_nodup`).
-/

namespace Rmnet

open Word

variable {σ α : Type}

/-- What tells a call from the others of a run: the number of the NL pair, `total_pkt` and `csum_valid`. -/
structure CallKey where
  nlo : ℕ
  totalPkt : ℕ
  csumValid : Bool
  deriving DecidableEq, Repr

/-- The pairs that were begun, the packets that were counted, and the calls. -/
structure Trace (α : Type) where
  nlo : ℕ := 0
  pkts : ℕ := 0
  calls : List (CallKey × α) := []

/-- The keys of some calls. -/
def Trace.keys (tr : Trace α) : List CallKey := tr.calls.map Prod.fst

/-- The operations with a trace. -/
def SegOps.traced (ops : SegOps σ) (obs : σ → α) : SegOps (σ × Trace α) where
  setSize n s := (ops.setSize n s.1, { s.2 with nlo := s.2.nlo + 1 })
  segs s := ops.segs s.1
  setSegs n s := (ops.setSegs n s.1, { s.2 with pkts := s.2.pkts + 1 })
  emit i c s := (ops.emit i c s.1, { s.2 with calls := s.2.calls ++ [(⟨s.2.nlo, i, c⟩, obs s.1)] })
  csumErr s := (ops.csumErr s.1, s.2)

/-- The trace changes nothing. -/
theorem segNlos_traced (ops : SegOps σ) (obs : σ → α) (gro : Bool) (hlen : ℕ) (ps : List NlPair) (i mask : ℕ)
    (s : σ × Trace α) :
    (segNlos (ops.traced obs) gro hlen ps i mask s).1 = segNlos ops gro hlen ps i mask s.1 :=
  segNlos_fst (fun _ => rfl) (fun _ _ => rfl) (fun _ _ => rfl) (fun _ => rfl) (fun _ _ _ => rfl) gro hlen ps i mask s

/-! ### The packets that were counted -/

section Count

variable (ops : SegOps σ) (obs : σ → α) {gro : Bool}

theorem traced_flush_pkts (i : ℕ) (s : σ × Trace α) : (segFlush (ops.traced obs) i s).2.pkts = s.2.pkts := by
  unfold segFlush
  split
  · rfl
  · rfl

theorem traced_packet_pkts (i : ℕ) (e : Bool) (s : σ × Trace α) :
    (segPacket (ops.traced obs) gro i e s).2.pkts = s.2.pkts + 1 := by
  cases gro with
  | false => cases e <;> rfl
  | true =>
    cases e with
    | false => rfl
    | true =>
      show (segFlush (ops.traced obs) i ((ops.traced obs).csumErr s)).2.pkts + 1 = _
      rw [traced_flush_pkts]
      rfl

theorem traced_packets_pkts (n : ℕ) : ∀ (i mask : ℕ) (s : σ × Trace α),
    (segPackets (ops.traced obs) gro n i mask s).2.2.2.pkts = s.2.pkts + n := by
  induction n with
  | zero =>
    intro i mask s
    rfl
  | succ n ih =>
    intro i mask s
    rw [segPackets, ih, traced_packet_pkts]
    omega

/-- The loop counts the packets of all pairs. -/
theorem traced_pkts {hlen : ℕ} (ps : List NlPair) : ∀ (i mask : ℕ) (s : σ × Trace α),
    (segNlos (ops.traced obs) gro hlen ps i mask s).2.pkts = s.2.pkts + (ps.map NlPair.numPackets).sum := by
  induction ps with
  | nil =>
    intro i mask s
    rfl
  | cons p ps ih =>
    intro i mask s
    rw [segNlos, ih, traced_flush_pkts, traced_packets_pkts, List.map_cons, List.sum_cons, ← Nat.add_assoc]
    rfl

end Count

/-! ### No key is used twice -/

/-- The keys are different, and those of the current pair are for packets before number `i`. -/
structure KeysBelow (i : ℕ) (tr : Trace α) : Prop where
  nodup : tr.keys.Nodup
  below : ∀ k ∈ tr.keys, k.nlo < tr.nlo ∨ k.nlo = tr.nlo ∧ k.totalPkt < i

/-- The keys are different, and for pairs that were begun. -/
structure KeysBegun (tr : Trace α) : Prop where
  nodup : tr.keys.Nodup
  begun : ∀ k ∈ tr.keys, k.nlo ≤ tr.nlo

section Keys

variable {ops : SegOps σ} {obs : σ → α} {gro : Bool}

theorem traced_emit_keys (i : ℕ) (c : Bool) (s : σ × Trace α) :
    ((ops.traced obs).emit i c s).2.keys = s.2.keys ++ [⟨s.2.nlo, i, c⟩] := by
  show (s.2.calls ++ [_]).map Prod.fst = _
  rw [List.map_append]
  rfl

/-- A new key at the end. -/
theorem nodup_concat {l : List CallKey} {k : CallKey} (h : l.Nodup) (hk : k ∉ l) : (l ++ [k]).Nodup := by
  rw [List.nodup_append]
  refine ⟨h, List.nodup_singleton k, ?_⟩
  rintro a ha b hb rfl
  rw [List.mem_singleton] at hb
  exact hk (hb ▸ ha)

/-- The key of the next call is new. -/
theorem KeysBelow.new {i : ℕ} {tr : Trace α} (h : KeysBelow i tr) (c : Bool) :
    (⟨tr.nlo, i, c⟩ : CallKey) ∉ tr.keys := by
  intro hmem
  rcases h.below _ hmem with hlt | ⟨-, hlt⟩
  · exact Nat.lt_irrefl _ hlt
  · exact Nat.lt_irrefl _ hlt

/-- One call for packet number `i`. -/
theorem KeysBelow.emit {i : ℕ} {s : σ × Trace α} (h : KeysBelow i s.2) (c : Bool) :
    KeysBelow (i + 1) ((ops.traced obs).emit i c s).2 := by
  constructor
  · rw [traced_emit_keys]
    exact nodup_concat h.nodup (h.new c)
  · intro k hk
    rw [traced_emit_keys] at hk
    rcases List.mem_append.mp hk with hk | hk
    · exact (h.below k hk).imp_right fun hb => ⟨hb.1, Nat.lt_succ_of_lt hb.2⟩
    · rw [List.mem_singleton.mp hk]
      exact .inr ⟨rfl, Nat.lt_succ_self i⟩

theorem KeysBelow.packet {i : ℕ} {s : σ × Trace α} (h : KeysBelow i s.2) (e : Bool) :
    KeysBelow (i + 1) (segPacket (ops.traced obs) gro i e s).2 := by
  have hsucc : KeysBelow (i + 1) s.2 :=
    ⟨h.nodup, fun k hk => (h.below k hk).imp_right fun hb => ⟨hb.1, Nat.lt_succ_of_lt hb.2⟩⟩
  cases gro with
  | false =>
    have hset : ∀ s' : σ × Trace α, s'.2.keys = s.2.keys → s'.2.nlo = s.2.nlo → KeysBelow i s'.2 := by
      intro s' hkeys hnlo
      exact ⟨by rw [hkeys]; exact h.nodup, by rw [hkeys, hnlo]; exact h.below⟩
    cases e with
    | false => exact (hset ((ops.traced obs).setSegs 1 s) rfl rfl).emit true
    | true => exact (hset ((ops.traced obs).csumErr ((ops.traced obs).setSegs 1 s)) rfl rfl).emit false
  | true =>
    cases e with
    | false => exact ⟨hsucc.nodup, hsucc.below⟩
    | true =>
      -- the call for the pending packets, if any, has another checksum status
      show KeysBelow (i + 1) ((ops.traced obs).emit i false ((ops.traced obs).setSegs 1
        (segFlush (ops.traced obs) i ((ops.traced obs).csumErr s)))).2
      by_cases hpos : (ops.traced obs).segs ((ops.traced obs).csumErr s) ≠ 0
      · rw [segFlush, if_pos hpos]
        have hflush : KeysBelow (i + 1) ((ops.traced obs).emit i true ((ops.traced obs).csumErr s)).2 :=
          KeysBelow.emit (s := (ops.traced obs).csumErr s) ⟨h.nodup, h.below⟩ true
        have hnew : (⟨s.2.nlo, i, false⟩ : CallKey) ∉ s.2.keys ++ [⟨s.2.nlo, i, true⟩] := by
          rw [List.mem_append, not_or, List.mem_singleton]
          exact ⟨h.new false, by simp⟩
        have hkeys : ((ops.traced obs).emit i true ((ops.traced obs).csumErr s)).2.keys
            = s.2.keys ++ [⟨s.2.nlo, i, true⟩] := traced_emit_keys i true _
        constructor
        · rw [traced_emit_keys]
          refine nodup_concat hflush.nodup ?_
          show (⟨s.2.nlo, i, false⟩ : CallKey) ∉ ((ops.traced obs).emit i true ((ops.traced obs).csumErr s)).2.keys
          rw [hkeys]
          exact hnew
        · intro k hk
          rw [traced_emit_keys] at hk
          rcases List.mem_append.mp hk with hk | hk
          · exact hflush.below k hk
          · rw [List.mem_singleton.mp hk]
            exact .inr ⟨rfl, Nat.lt_succ_self i⟩
      · rw [segFlush, if_neg hpos]
        exact KeysBelow.emit (s := (ops.traced obs).setSegs 1 ((ops.traced obs).csumErr s)) ⟨h.nodup, h.below⟩ false

theorem KeysBelow.packets (n : ℕ) : ∀ {i : ℕ} (mask : ℕ) {s : σ × Trace α}, i + n < 256 → KeysBelow i s.2 →
    (segPackets (ops.traced obs) gro n i mask s).1 = i + n ∧
      KeysBelow (i + n) (segPackets (ops.traced obs) gro n i mask s).2.2.2 := by
  induction n with
  | zero =>
    intro i mask s _ h
    exact ⟨rfl, h⟩
  | succ n ih =>
    intro i mask s hlt h
    rw [segPackets, u8_of_lt (by omega), show i + (n + 1) = i + 1 + n by omega]
    exact ih (mask / 2) (by omega) (h.packet _)

theorem KeysBelow.flush {i : ℕ} {s : σ × Trace α} (h : KeysBelow i s.2) :
    KeysBegun (segFlush (ops.traced obs) i s).2 := by
  have hbegun : ∀ {j : ℕ} {tr : Trace α}, KeysBelow j tr → KeysBegun tr := fun h =>
    ⟨h.nodup, fun k hk => (h.below k hk).elim Nat.le_of_lt fun hb => hb.1.le⟩
  unfold segFlush
  split
  · exact hbegun (h.emit true)
  · exact hbegun h

/-- **No key is used twice.** -/
theorem traced_nodup {hlen : ℕ} (ps : List NlPair) : ∀ {i mask : ℕ} {s : σ × Trace α},
    i + (ps.map NlPair.numPackets).sum < 256 → KeysBegun s.2 →
      (segNlos (ops.traced obs) gro hlen ps i mask s).2.keys.Nodup := by
  induction ps with
  | nil =>
    intro i mask s _ h
    exact h.nodup
  | cons p ps ih =>
    intro i mask s hlt h
    rw [List.map_cons, List.sum_cons] at hlt
    have hsize : KeysBelow i ((ops.traced obs).setSize (sub16 p.pktLen hlen) s).2 :=
      ⟨h.nodup, fun k hk => .inl (Nat.lt_succ_of_le (h.begun k hk))⟩
    obtain ⟨hcount, hpackets⟩ := KeysBelow.packets p.numPackets mask (by omega) hsize
    rw [segNlos]
    refine ih ?_ ?_
    · rw [hcount]
      omega
    · rw [hcount]
      exact hpackets.flush

end Keys

end Rmnet
