import Rmnet.Lib.Transition
import Rmnet.Uplink.Aggregate
import Mathlib.Tactic.Linarith

/-!
# Uplink aggregation loses, duplicates and reorders nothing

The sequential semantics of the uplink path: each operation runs its critical section and then, at once,
what that section left to do.  `rmnetMapTxAggregate` loops through the `new_packet` label with fuel.

The invariant is a **ledger**: the frames submitted so far split, in order, into the groups that were
transmitted (one group a buffer) and the frames still pending in `agg_skb`.  Conservation, order,
"no frame is split" and the meaning of `agg_count` are all read off it.

* `ledger_pass` — one pass of `rmnet_map_tx_aggregate` with its transmissions keeps the ledger;
* `rmnetMapTxAggregate_outcome` — the call comes back after at most one jump to `new_packet`;
* `ulStep_ledger`, `uplink_conservation` — one operation, and every run.
-/

namespace Rmnet

open Word Transition

/-! ### The sequential semantics -/

/-- Carry out one action after the unlock. -/
def execPost (port : UlPort) : Post → UlPort
  | .hrtimerCancel => { port with hrtimerArmed := false }
  | .devQueueXmit buf => { port with sent := port.sent ++ [buf] }
  | .newPacket => port

/-- Carry out everything a critical section left to do. -/
def execPosts (port : UlPort) (posts : List Post) : UlPort := posts.foldl execPost port

/-- `rmnet_map_tx_aggregate`: `k` counts the jumps to `new_packet`. -/
def rmnetMapTxAggregate (skb : SkBuff) (env : ℕ → TxEnv) : ℕ → ℕ → UlPort → Except Stop (UlPort × ℕ)
  | 0, _, _ => .error .fuel
  | fuel + 1, k, port =>
      match txAggregateLocked skb (env k) port with
      | .error e => .error e
      | .ok (port, posts) =>
          let port := execPosts port posts
          if Post.newPacket ∈ posts then rmnetMapTxAggregate skb env fuel (k + 1) port
          else .ok (port, k)

/-- `rmnet_map_flush_tx_packet_work`. -/
def rmnetMapFlushTxPacketWork (port : UlPort) : UlPort :=
  let (port, posts) := flushTxPacketLocked { port with aggWqQueued := false }
  execPosts port posts

/-- `rmnet_map_tx_qmap_cmd`. -/
def rmnetMapTxQmapCmd (qmapSkb : Bytes) (port : UlPort) : UlPort :=
  let (port, posts) := txQmapCmdLocked qmapSkb port
  execPosts port posts

/-- `rmnet_map_flush_tx_packet_queue`: the timer callback. -/
def rmnetMapFlushTxPacketQueue (port : UlPort) : UlPort :=
  { port with hrtimerArmed := false, aggWqQueued := true }

/-- A frame given to the aggregation: a buffer whose length fields are right. -/
abbrev Frame := { skb : SkBuff // skb.Coherent }

/-- The operations on a port. -/
inductive UlOp
  | txAggregate (skb : Frame) (env : ℕ → TxEnv)
  | hrtimerFires
  | flushWork
  | qmapCmd (qmapSkb : Bytes)
  | updateConfig (size count features time : ℕ) (pages : List ℕ)

/-- One operation; `none` when a copy overruns its buffer. -/
def ulStep (port : UlPort) : UlOp → Option UlPort
  | .txAggregate skb env =>
      match rmnetMapTxAggregate skb.1 env 2 0 port with
      | .ok (port, _) => some port
      | .error _ => none
  | .hrtimerFires => some (rmnetMapFlushTxPacketQueue port)
  | .flushWork => some (rmnetMapFlushTxPacketWork port)
  | .qmapCmd qmapSkb => some (rmnetMapTxQmapCmd qmapSkb port)
  | .updateConfig size count features time pages =>
      some (rmnetMapUpdateUlAggConfig size count features time pages port)

/-- The frame or in-band command an operation submits. -/
def UlOp.submitted : UlOp → List Bytes
  | .txAggregate skb _ => [skb.1.bytes]
  | .qmapCmd qmapSkb => [qmapSkb]
  | .hrtimerFires => []
  | .flushWork => []
  | .updateConfig _ _ _ _ _ => []

/-- The bytes waiting in `agg_skb`. -/
def UlPort.pendingBytes (port : UlPort) : Bytes :=
  match port.aggSkb with
  | none => []
  | some agg => agg.data

/-! ### The ledger -/

/-- The submitted frames, in order, are the transmitted groups followed by the pending frames. -/
structure Ledger (frames : List Bytes) (port : UlPort) (groups : List (List Bytes))
    (pend : List Bytes) : Prop where
  sent_eq : port.sent = groups.map List.flatten
  pending_eq : port.pendingBytes = pend.flatten
  frames_eq : groups.flatten ++ pend = frames
  count_eq : port.aggCount = pend.length
  null_iff : port.aggSkb = none ↔ pend = []
  state_eq : port.aggSkb ≠ none → port.aggState = -eInProgress
  params_lt : port.egressAggParams.aggCount < 256

/-- Transmitting one more buffer of its own after everything else. -/
theorem Ledger.xmit {frames : List Bytes} {port port' : UlPort} {groups : List (List Bytes)}
    (h : Ledger frames port groups []) (hsame : SameConfig port port') (hnone : port'.aggSkb = none)
    (hcnt : port'.aggCount = 0) (buf : Bytes) :
    Ledger (frames ++ [buf]) { port' with sent := port'.sent ++ [buf] } (groups ++ [[buf]]) [] where
  sent_eq := by simp [hsame.sent, h.sent_eq]
  pending_eq := by simp [UlPort.pendingBytes, hnone]
  frames_eq := by simp [← h.frames_eq]
  count_eq := by simp [hcnt]
  null_iff := by simp [hnone]
  state_eq := by simp [hnone]
  params_lt := by simpa [hsame.params] using h.params_lt

/-- Transmitting the pending buffer: its frames become a group. -/
theorem Ledger.flush {frames : List Bytes} {port port' : UlPort} {groups : List (List Bytes)}
    {pend : List Bytes} (h : Ledger frames port groups pend) {agg : AggSkb}
    (hagg : port.aggSkb = some agg) (he : Emptied port port') (armed : Bool) :
    Ledger frames { port' with hrtimerArmed := armed, sent := port'.sent ++ [agg.data] }
      (groups ++ [pend]) [] where
  sent_eq := by
    have hp := h.pending_eq
    rw [UlPort.pendingBytes, hagg] at hp
    simp only at hp
    simp [he.sent, h.sent_eq, hp]
  pending_eq := by simp [UlPort.pendingBytes, he.aggSkb]
  frames_eq := by simp [h.frames_eq]
  count_eq := by simp [he.aggCount]
  null_iff := by simp [he.aggSkb]
  state_eq := by simp [he.aggSkb]
  params_lt := by simpa [he.params] using h.params_lt

/-- The clock, timer, work and page fields are no part of the ledger. -/
theorem Ledger.congr {frames : List Bytes} {port port' : UlPort} {groups : List (List Bytes)}
    {pend : List Bytes} (h : Ledger frames port groups pend) (hsent : port'.sent = port.sent)
    (hskb : port'.aggSkb = port.aggSkb) (hcnt : port'.aggCount = port.aggCount)
    (hstate : port'.aggState = port.aggState) (hparams : port'.egressAggParams.aggCount < 256) :
    Ledger frames port' groups pend where
  sent_eq := by rw [hsent]; exact h.sent_eq
  pending_eq := by rw [UlPort.pendingBytes, hskb]; exact h.pending_eq
  frames_eq := h.frames_eq
  count_eq := by rw [hcnt]; exact h.count_eq
  null_iff := by rw [hskb]; exact h.null_iff
  state_eq := by rw [hskb, hstate]; exact h.state_eq
  params_lt := hparams

theorem Ledger.pend_nil {frames : List Bytes} {port : UlPort} {groups : List (List Bytes)}
    {pend : List Bytes} (h : Ledger frames port groups pend) (hnone : port.aggSkb = none) :
    pend = [] := h.null_iff.mp hnone

/-- **One pass keeps the ledger.**  Either the packet is accounted for, or the pass emptied the buffer
and goes back to `new_packet`. -/
theorem ledger_pass {frames : List Bytes} {port port' : UlPort} {groups : List (List Bytes)}
    {pend : List Bytes} {skb : SkBuff} {posts : List Post} (h : Ledger frames port groups pend)
    (hp : TxPass skb port port' posts) :
    if Post.newPacket ∈ posts then
      (execPosts port' posts).aggSkb = none ∧
        ∃ groups', Ledger frames (execPosts port' posts) groups' []
    else ∃ groups' pend', Ledger (frames ++ [skb.bytes]) (execPosts port' posts) groups' pend' := by
  cases hp with
  | sendFirst agg rest hagg he hrest =>
    have hflush := h.flush hagg he false
    rcases hrest with rfl | rfl
    · rw [if_neg (by simp)]
      exact ⟨_, _, hflush.xmit (SameConfig.refl _) he.aggSkb he.aggCount skb.bytes⟩
    · rw [if_pos (by simp)]
      exact ⟨he.aggSkb, _, hflush⟩
  | direct hnone hsame hnone' hcnt hst ht =>
    rw [if_neg (by simp)]
    have hpend := h.pend_nil hnone
    subst hpend
    have hzero : port'.aggCount = 0 := by
      rcases hcnt with hcnt | hcnt
      · rw [hcnt, h.count_eq]; rfl
      · exact hcnt
    exact ⟨_, _, h.xmit hsame hnone' hzero skb.bytes⟩
  | opened agg hnone hsch hagg hdata hcnt =>
    rw [if_neg (by simp)]
    have hpend := h.pend_nil hnone
    subst hpend
    refine ⟨groups, [skb.bytes], ?_⟩
    exact
      { sent_eq := by simp [execPosts, hsch.sent, h.sent_eq]
        pending_eq := by simp [execPosts, UlPort.pendingBytes, hagg, hdata]
        frames_eq := by simp [← h.frames_eq]
        count_eq := by simp [execPosts, hcnt]
        null_iff := by simp [execPosts, hagg]
        state_eq := fun _ => hsch.aggState
        params_lt := by simpa [execPosts, hsch.params] using h.params_lt }
  | appended agg agg' hagg hsch hagg' hdata hlt hcnt =>
    rw [if_neg (by simp)]
    refine ⟨groups, pend ++ [skb.bytes], ?_⟩
    have hp := h.pending_eq
    rw [UlPort.pendingBytes, hagg] at hp
    simp only at hp
    have hpl := h.params_lt
    exact
      { sent_eq := by simp [execPosts, hsch.sent, h.sent_eq]
        pending_eq := by simp [execPosts, UlPort.pendingBytes, hagg', hdata, hp]
        frames_eq := by simp [← h.frames_eq]
        count_eq := by
          show port'.aggCount = _
          rw [hcnt, u8_of_lt (by omega), h.count_eq]
          simp
        null_iff := by simp [execPosts, hagg']
        state_eq := fun _ => hsch.aggState
        params_lt := by simpa [execPosts, hsch.params] using h.params_lt }

/-! ### The `new_packet` loop -/

/-- The timer and the transmissions do not bring a buffer back. -/
theorem execPosts_aggSkb (posts : List Post) (port : UlPort) :
    (execPosts port posts).aggSkb = port.aggSkb := by
  induction posts generalizing port with
  | nil => rfl
  | cons p posts ih =>
    show (execPosts (execPost port p) posts).aggSkb = _
    rw [ih]
    cases p <;> rfl

/-- Without a buffer a pass never goes back to `new_packet`. -/
theorem newPacket_needs_buffer {skb : SkBuff} {port port' : UlPort} {posts : List Post}
    (hp : TxPass skb port port' posts) (hnone : port.aggSkb = none) : Post.newPacket ∉ posts := by
  cases hp with
  | sendFirst agg rest hagg _ _ => rw [hnone] at hagg; cases hagg
  | direct => simp
  | opened => simp
  | appended agg agg' hagg => rw [hnone] at hagg; cases hagg

/-- A pass that goes back to `new_packet` has emptied the buffer. -/
theorem newPacket_empties {skb : SkBuff} {port port' : UlPort} {posts : List Post}
    (hp : TxPass skb port port' posts) (hmem : Post.newPacket ∈ posts) : port'.aggSkb = none := by
  cases hp with
  | sendFirst agg rest hagg he _ => exact he.aggSkb
  | direct => simp at hmem
  | opened => simp at hmem
  | appended => simp at hmem

/-- A critical section itself never runs out of fuel: the copy of a coherent buffer terminates. -/
theorem txAggregateLocked_error {skb : SkBuff} {env : TxEnv} {port : UlPort} {e : Stop}
    (hc : skb.Coherent) (h : txAggregateLocked skb env port = .error e) : e = .overrun := by
  have hcopy : ∀ {dst : AggSkb} {e : Stop}, rmnetMapLinearizeCopy dst skb = .error e → e = .overrun := by
    intro dst e he
    rw [rmnetMapLinearizeCopy_eq dst skb hc] at he
    split at he
    · cases he
    · cases he; rfl
  unfold txAggregateLocked txAggOpen at h
  simp only at h
  split at h
  · cases h
  · split at h
    · split at h
      · cases h
      · split at h
        · cases h
        · split at h
          · rename_i e' hce
            cases h
            exact hcopy hce
          · cases h
    · split at h
      · cases h
      · split at h
        · rename_i e' hce
          cases h
          exact hcopy hce
        · cases h

/-- A call of `rmnet_map_tx_aggregate` without a buffer is a single pass. -/
theorem rmnetMapTxAggregate_no_buffer (skb : SkBuff) (hc : skb.Coherent) (env : ℕ → TxEnv)
    (fuel k : ℕ) (port : UlPort) (hnone : port.aggSkb = none) :
    (∃ port', rmnetMapTxAggregate skb env (fuel + 1) k port = .ok (port', k)) ∨
      rmnetMapTxAggregate skb env (fuel + 1) k port = .error .overrun := by
  rw [rmnetMapTxAggregate]
  split
  · rename_i e he
    rw [txAggregateLocked_error hc he]
    exact .inr rfl
  · rename_i port' posts hok
    have hn := newPacket_needs_buffer (txAggregateLocked_cases hc hok) hnone
    simp only [if_neg hn]
    exact .inl ⟨_, rfl⟩

/-- **Termination.**  With fuel for two passes the call always comes back, after at most one jump to
`new_packet`, unless a copy overruns its buffer. -/
theorem rmnetMapTxAggregate_outcome (skb : SkBuff) (hc : skb.Coherent) (env : ℕ → TxEnv)
    (fuel : ℕ) (port : UlPort) :
    (∃ port' k, rmnetMapTxAggregate skb env (fuel + 2) 0 port = .ok (port', k) ∧ k ≤ 1) ∨
      rmnetMapTxAggregate skb env (fuel + 2) 0 port = .error .overrun := by
  rw [rmnetMapTxAggregate]
  split
  · rename_i e he
    rw [txAggregateLocked_error hc he]
    exact .inr rfl
  · rename_i port' posts hok
    have hpass := txAggregateLocked_cases hc hok
    by_cases hm : Post.newPacket ∈ posts
    · simp only [if_pos hm]
      have hnone : (execPosts port' posts).aggSkb = none := by
        rw [execPosts_aggSkb]
        exact newPacket_empties hpass hm
      rcases rmnetMapTxAggregate_no_buffer skb hc env fuel (0 + 1) _ hnone with ⟨p, hp⟩ | hp
      · exact .inl ⟨p, 0 + 1, hp, le_rfl⟩
      · exact .inr hp
    · simp only [if_neg hm]
      exact .inl ⟨_, 0, rfl, by omega⟩

/-- Every pass of the call keeps the ledger, so the call does. -/
theorem rmnetMapTxAggregate_ledger {skb : SkBuff} (hc : skb.Coherent) (env : ℕ → TxEnv) (fuel : ℕ) :
    ∀ (k k' : ℕ) (port port' : UlPort) (frames : List Bytes) (groups : List (List Bytes))
      (pend : List Bytes), Ledger frames port groups pend →
      rmnetMapTxAggregate skb env fuel k port = .ok (port', k') →
      ∃ groups' pend', Ledger (frames ++ [skb.bytes]) port' groups' pend' := by
  induction fuel with
  | zero => intro k k' port port' frames groups pend _ h; cases h
  | succ fuel ih =>
    intro k k' port port' frames groups pend hl h
    rw [rmnetMapTxAggregate] at h
    split at h
    · cases h
    · rename_i port₁ posts hok
      have hstep := ledger_pass hl (txAggregateLocked_cases hc hok)
      by_cases hm : Post.newPacket ∈ posts
      · simp only [if_pos hm] at h hstep
        obtain ⟨-, groups', hl'⟩ := hstep
        exact ih _ _ _ _ _ _ _ hl' h
      · simp only [if_neg hm] at h hstep
        cases h
        exact hstep

/-! ### Every operation, and every run -/

/-- The invariant of a run: the ledger, on a port whose format has aggregation on. -/
def UlInv (ops : List UlOp) (port : UlPort) : Prop :=
  port.dataFormat.testBit egressFormatAggregation = true ∧
    ∃ groups pend, Ledger (ops.flatMap UlOp.submitted) port groups pend

theorem flushTxPacket_ledger {frames : List Bytes} {port : UlPort} {groups : List (List Bytes)}
    {pend : List Bytes} (h : Ledger frames port groups pend) :
    ∃ groups' pend', Ledger frames (rmnetMapFlushTxPacketWork port) groups' pend' := by
  cases hagg : port.aggSkb with
  | none =>
    have hrun : ∃ st, rmnetMapFlushTxPacketWork port
        = { port with aggWqQueued := false, aggState := st } := by
      unfold rmnetMapFlushTxPacketWork flushTxPacketLocked
      by_cases hst : port.aggState = -eInProgress
      · simp only [if_pos hst, hagg]
        exact ⟨0, rfl⟩
      · simp only [if_neg hst]
        exact ⟨port.aggState, rfl⟩
    obtain ⟨st, hrun⟩ := hrun
    rw [hrun]
    refine ⟨groups, pend, ⟨h.sent_eq, h.pending_eq, h.frames_eq, h.count_eq, h.null_iff, ?_,
      h.params_lt⟩⟩
    intro hne
    exact absurd hagg hne
  | some agg =>
    have hst : port.aggState = -eInProgress := h.state_eq (by simp [hagg])
    have hrun : rmnetMapFlushTxPacketWork port
        = { resetAgg port with aggWqQueued := false, sent := port.sent ++ [agg.data] } := by
      unfold rmnetMapFlushTxPacketWork flushTxPacketLocked
      simp only [if_pos hst, hagg]
      rfl
    rw [hrun]
    have hl := h.flush hagg (resetAgg_emptied port) port.hrtimerArmed
    exact ⟨_, _, hl.congr rfl rfl rfl rfl hl.params_lt⟩

theorem txQmapCmd_ledger {frames : List Bytes} {port : UlPort} {groups : List (List Bytes)}
    {pend : List Bytes} (h : Ledger frames port groups pend)
    (hfmt : port.dataFormat.testBit egressFormatAggregation = true) (qmapSkb : Bytes) :
    ∃ groups' pend', Ledger (frames ++ [qmapSkb]) (rmnetMapTxQmapCmd qmapSkb port) groups' pend' := by
  unfold rmnetMapTxQmapCmd txQmapCmdLocked
  rw [if_pos hfmt]
  cases hagg : port.aggSkb with
  | none =>
    have hpend := h.pend_nil hagg
    subst hpend
    exact ⟨_, _, h.xmit (SameConfig.refl _) hagg h.count_eq qmapSkb⟩
  | some agg =>
    have hl := h.flush hagg (resetAgg_emptied port) false
    exact ⟨_, _, hl.xmit (SameConfig.refl _) rfl rfl qmapSkb⟩

/-- Changing the parameters leaves the buffer, its count and what was sent alone. -/
theorem rmnetMapUpdateUlAggConfig_frame (size count features time : ℕ) (pages : List ℕ)
    (port : UlPort) :
    let port' := rmnetMapUpdateUlAggConfig size count features time pages port
    port'.sent = port.sent ∧ port'.aggSkb = port.aggSkb ∧ port'.aggCount = port.aggCount ∧
      port'.aggState = port.aggState ∧ port'.dataFormat = port.dataFormat ∧
      port'.egressAggParams.aggCount = u8 count := by
  intro port'
  simp only [port', rmnetMapUpdateUlAggConfig, rmnetAllocAggPages]
  split
  · exact ⟨rfl, rfl, rfl, rfl, rfl, rfl⟩
  · split <;> exact ⟨rfl, rfl, rfl, rfl, rfl, rfl⟩

theorem txAggregateLocked_dataFormat {skb : SkBuff} {env : TxEnv} {port port' : UlPort}
    {posts : List Post} (hc : skb.Coherent)
    (h : txAggregateLocked skb env port = .ok (port', posts)) : port'.dataFormat = port.dataFormat := by
  cases txAggregateLocked_cases hc h with
  | sendFirst agg rest hagg he _ => exact he.dataFormat
  | direct _ hsame => exact hsame.dataFormat
  | opened _ _ hsch => exact hsch.dataFormat
  | appended _ _ _ hsch => exact hsch.dataFormat

theorem execPosts_dataFormat (posts : List Post) (port : UlPort) :
    (execPosts port posts).dataFormat = port.dataFormat := by
  induction posts generalizing port with
  | nil => rfl
  | cons p posts ih =>
    show (execPosts (execPost port p) posts).dataFormat = _
    rw [ih]
    cases p <;> rfl

theorem rmnetMapTxAggregate_dataFormat {skb : SkBuff} (hc : skb.Coherent) (env : ℕ → TxEnv)
    (fuel : ℕ) : ∀ (k k' : ℕ) (port port' : UlPort),
      rmnetMapTxAggregate skb env fuel k port = .ok (port', k') →
      port'.dataFormat = port.dataFormat := by
  induction fuel with
  | zero => intro k k' port port' h; cases h
  | succ fuel ih =>
    intro k k' port port' h
    rw [rmnetMapTxAggregate] at h
    split at h
    · cases h
    · rename_i port₁ posts hok
      have hd := (execPosts_dataFormat posts port₁).trans (txAggregateLocked_dataFormat hc hok)
      simp only at h
      split at h
      · exact (ih _ _ _ _ h).trans hd
      · cases h
        exact hd

theorem rmnetMapFlushTxPacketWork_dataFormat (port : UlPort) :
    (rmnetMapFlushTxPacketWork port).dataFormat = port.dataFormat := by
  unfold rmnetMapFlushTxPacketWork flushTxPacketLocked
  simp only [execPosts_dataFormat]
  split
  · cases port.aggSkb <;> rfl
  · rfl

theorem rmnetMapTxQmapCmd_dataFormat (qmapSkb : Bytes) (port : UlPort) :
    (rmnetMapTxQmapCmd qmapSkb port).dataFormat = port.dataFormat := by
  unfold rmnetMapTxQmapCmd txQmapCmdLocked
  simp only [execPosts_dataFormat]
  split
  · cases port.aggSkb <;> rfl
  · rfl

/-- **One operation keeps the ledger**, extended by what the operation submitted. -/
theorem ulStep_inv (ops : List UlOp) (port : UlPort) (op : UlOp) (port' : UlPort)
    (hinv : UlInv ops port) (h : ulStep port op = some port') : UlInv (ops ++ [op]) port' := by
  obtain ⟨hfmt, groups, pend, hl⟩ := hinv
  unfold UlInv
  rw [List.flatMap_append, List.flatMap_singleton]
  cases op with
  | txAggregate skb env =>
    simp only [ulStep] at h
    split at h
    · rename_i port₁ k hok
      cases h
      exact ⟨by rw [rmnetMapTxAggregate_dataFormat skb.2 env 2 _ _ _ _ hok]; exact hfmt,
        rmnetMapTxAggregate_ledger skb.2 env 2 _ _ _ _ _ _ _ hl hok⟩
    · cases h
  | hrtimerFires =>
    cases h
    refine ⟨hfmt, groups, pend, ?_⟩
    rw [UlOp.submitted, List.append_nil]
    exact hl.congr rfl rfl rfl rfl hl.params_lt
  | flushWork =>
    cases h
    refine ⟨?_, ?_⟩
    · rw [rmnetMapFlushTxPacketWork_dataFormat]
      exact hfmt
    · rw [UlOp.submitted, List.append_nil]
      exact flushTxPacket_ledger hl
  | qmapCmd qmapSkb =>
    cases h
    refine ⟨?_, txQmapCmd_ledger hl hfmt qmapSkb⟩
    rw [rmnetMapTxQmapCmd_dataFormat]
    exact hfmt
  | updateConfig size count features time pages =>
    cases h
    obtain ⟨h₁, h₂, h₃, h₄, h₅, h₆⟩ :=
      rmnetMapUpdateUlAggConfig_frame size count features time pages port
    refine ⟨by rw [h₅]; exact hfmt, groups, pend, ?_⟩
    rw [UlOp.submitted, List.append_nil]
    exact hl.congr h₁ h₂ h₃ h₄ (by rw [h₆]; exact Nat.mod_lt _ (by omega))

theorem init_inv (fmt : ℕ) (hfmt : fmt.testBit egressFormatAggregation = true) :
    UlInv [] (rmnetMapTxAggregateInit fmt) := by
  refine ⟨hfmt, [], [], ?_⟩
  have hport : (rmnetMapTxAggregateInit fmt).aggSkb = none ∧
      (rmnetMapTxAggregateInit fmt).egressAggParams.aggCount = 20 := ⟨rfl, rfl⟩
  exact ⟨rfl, rfl, rfl, rfl, by simp [hport.1], fun h => absurd hport.1 h, by rw [hport.2]; omega⟩

/-- **Nothing is lost, duplicated, reordered or split.**  In every run without an overrun, the
transmitted buffers followed by the pending bytes are the submitted frames and commands in order; the
buffers are groups of whole frames; `agg_count` counts the pending frames; and any call of
`rmnet_map_tx_aggregate` from any state comes back after at most one jump to `new_packet`. -/
theorem uplink_conservation (fmt : ℕ) (hfmt : fmt.testBit egressFormatAggregation = true)
    (ops : List UlOp) (port : UlPort)
    (hrun : runList ulStep (rmnetMapTxAggregateInit fmt) ops = some port) :
    port.sent.flatten ++ port.pendingBytes = (ops.flatMap UlOp.submitted).flatten ∧
    (∃ (groups : List (List Bytes)) (pend : List Bytes),
      port.sent = groups.map List.flatten ∧ port.pendingBytes = pend.flatten ∧
      groups.flatten ++ pend = ops.flatMap UlOp.submitted ∧ port.aggCount = pend.length) ∧
    (port.aggCount = 0 ↔ port.aggSkb = none) ∧
    ∀ (skb : Frame) (env : ℕ → TxEnv) (fuel : ℕ),
      (∃ port' k, rmnetMapTxAggregate skb.1 env (fuel + 2) 0 port = .ok (port', k) ∧ k ≤ 1) ∨
        rmnetMapTxAggregate skb.1 env (fuel + 2) 0 port = .error .overrun := by
  have hinv := runList_invariant (I := UlInv) ulStep_inv ops [] _ port (init_inv fmt hfmt) hrun
  obtain ⟨-, groups, pend, hl⟩ := hinv
  rw [List.nil_append] at hl
  refine ⟨?_, ⟨groups, pend, hl.sent_eq, hl.pending_eq, hl.frames_eq, hl.count_eq⟩, ?_, ?_⟩
  · rw [hl.sent_eq, hl.pending_eq, ← hl.frames_eq, List.flatten_append, List.flatten_flatten]
  · rw [hl.count_eq, hl.null_iff, List.length_eq_zero_iff]
  · intro skb env fuel
    exact rmnetMapTxAggregate_outcome skb.1 skb.2 env fuel port

/-- A linear frame. -/
def linearFrame (b : Bytes) (h : b.length < 4294967296) : Frame :=
  ⟨{ linear := b, len := b.length }, by simp [SkBuff.bytes], by simp, h⟩

/-- An environment with a stopped clock in which every allocation succeeds. -/
def calmEnv : TxEnv :=
  { now := {}, nowAgg := {}, pageRefCount := fun _ => 0, devAllocPages := true, buildSkb := true }

/-- Two aggregated frames, then an in-band command. -/
def commandOps : List UlOp :=
  [.txAggregate (linearFrame [1, 2] (by decide)) (fun _ => calmEnv),
    .txAggregate (linearFrame [3] (by decide)) (fun _ => calmEnv), .qmapCmd [9]]

/-- The buffer of both frames goes out before the command. -/
theorem uplink_conservation_command_flushes :
    ∃ port, runList ulStep (rmnetMapTxAggregateInit (2 ^ 31)) commandOps = some port ∧
      port.sent = [[1, 2, 3], [9]] ∧ port.sent.flatten ++ port.pendingBytes = [1, 2, 3, 9] := by
  have hsent : (runList ulStep (rmnetMapTxAggregateInit (2 ^ 31)) commandOps).map UlPort.sent
      = some [[1, 2, 3], [9]] := rfl
  obtain ⟨port, hrun, hport⟩ := Option.map_eq_some_iff.mp hsent
  exact ⟨port, hrun, hport, (uplink_conservation (2 ^ 31) (by decide) commandOps port hrun).1⟩

end Rmnet
