import Rmnet.Qos.Event

/-!
# A grant for all bearers at once

A flow-status entry with bearer id `0xFF` is a grant for every bearer of the device.
`dfc_all_bearer_flow_ctl` writes it in a loop of its own, which leaves out what `dfc_update_fc_map` does for one
bearer: a RAT switch, a TX link that is down, the bytes in flight, the watchdog, and the queue that is left
alone when the grant stays on its side of zero.

Both are loops over `bearer_head` that write each bearer and set its queues to one and the same state;
`BearersWritten` is what such a loop leaves behind, and the two are compared on it.

* `BearersWritten.of_steps` — the loop rule.
* `allBearerFlowCtl_written`, `eachBearerFcMap_written` — the two loops.
* `broadcast_iff` — when they leave the bearers and the queues in the same state.
-/

namespace Rmnet

/-! ### Loops over the bearers -/

/-- The bearer at `a` is written with `g`, its queues in `P` are set to `v`, and the rest of the bearers and
queues is left alone. -/
structure BearerWritten (g : RmnetBearerMap → RmnetBearerMap) (P : RmnetBearerMap → ℕ → Prop) (v : Bool)
    (qos qos' : QosInfo) (a : Addr) : Prop where
  heap_self : qos'.heap a = g (qos.heap a)
  heap_ne : ∀ c, c ≠ a → qos'.heap c = qos.heap c
  bearerHead : qos'.bearerHead = qos.bearerHead
  numTxQueues : qos'.numTxQueues = qos.numTxQueues
  set : ∀ j, P (qos.heap a) j → j < qos.numTxQueues → qos'.stopped j = v
  keep : ∀ j, ¬ (P (qos.heap a) j ∧ j < qos.numTxQueues) → qos'.stopped j = qos.stopped j

/-- The same for all bearers of a list. -/
structure BearersWritten (g : RmnetBearerMap → RmnetBearerMap) (P : RmnetBearerMap → ℕ → Prop) (v : Bool)
    (qos qos' : QosInfo) (l : List Addr) : Prop where
  heap_mem : ∀ a ∈ l, qos'.heap a = g (qos.heap a)
  heap_out : ∀ c, c ∉ l → qos'.heap c = qos.heap c
  set : ∀ j, (∃ a ∈ l, P (qos.heap a) j) → j < qos.numTxQueues → qos'.stopped j = v
  keep : ∀ j, ¬ ((∃ a ∈ l, P (qos.heap a) j) ∧ j < qos.numTxQueues) → qos'.stopped j = qos.stopped j

/-- The list of bearers and their ids are as in `qos`. -/
def SameIds (qos qos' : QosInfo) : Prop :=
  qos'.bearerHead = qos.bearerHead ∧ ∀ c, (qos'.heap c).bearerId = (qos.heap c).bearerId

theorem SameIds.refl (qos : QosInfo) : SameIds qos qos := ⟨rfl, fun _ => rfl⟩

theorem BearerWritten.sameIds {g : RmnetBearerMap → RmnetBearerMap} {P : RmnetBearerMap → ℕ → Prop} {v : Bool}
    {qos₀ qos qos' : QosInfo} {a : Addr} (h : BearerWritten g P v qos qos' a)
    (hg : ∀ b, (g b).bearerId = b.bearerId) (hsame : SameIds qos₀ qos) : SameIds qos₀ qos' := by
  refine ⟨h.bearerHead.trans hsame.1, fun c => ?_⟩
  by_cases hc : c = a
  · rw [hc, h.heap_self, hg]
    exact hsame.2 a
  · rw [h.heap_ne c hc]
    exact hsame.2 c

/-- **The loop rule.**  A loop over different bearers, each step of which writes its bearer, writes them all. -/
theorem BearersWritten.of_steps {g : RmnetBearerMap → RmnetBearerMap} {P : RmnetBearerMap → ℕ → Prop} {v : Bool}
    {f : QosInfo → Addr → QosInfo} {qos₀ : QosInfo} (hg : ∀ b, (g b).bearerId = b.bearerId) (l : List Addr)
    (hnd : l.Nodup) (hf : ∀ qos, SameIds qos₀ qos → ∀ a ∈ l, BearerWritten g P v qos (f qos a) a) :
    ∀ qos, SameIds qos₀ qos → BearersWritten g P v qos (l.foldl f qos) l := by
  induction l with
  | nil =>
    intro qos _
    refine ⟨fun a ha => absurd ha List.not_mem_nil, fun _ _ => rfl, ?_, fun _ _ => rfl⟩
    intro j hj
    obtain ⟨a, ha, -⟩ := hj
    exact absurd ha List.not_mem_nil
  | cons a l ih =>
    intro qos hsame
    obtain ⟨hal, hnd⟩ := List.nodup_cons.mp hnd
    have hstep := hf qos hsame a List.mem_cons_self
    have hrest := ih hnd (fun q hq c hc => hf q hq c (List.mem_cons_of_mem _ hc)) (f qos a)
      (hstep.sameIds hg hsame)
    have hold : ∀ c ∈ l, (f qos a).heap c = qos.heap c := fun c hc =>
      hstep.heap_ne c fun hca => hal (hca ▸ hc)
    rw [List.foldl_cons]
    refine ⟨?_, ?_, ?_, ?_⟩
    · intro c hc
      rcases List.mem_cons.mp hc with rfl | hc
      · rw [hrest.heap_out c hal]
        exact hstep.heap_self
      · rw [hrest.heap_mem c hc, hold c hc]
    · intro c hc
      rw [hrest.heap_out c fun h => hc (List.mem_cons_of_mem _ h)]
      exact hstep.heap_ne c fun h => hc (h ▸ List.mem_cons_self)
    · intro j hj hlt
      have hlt' : j < (f qos a).numTxQueues := by rw [hstep.numTxQueues]; exact hlt
      by_cases hlater : ∃ c ∈ l, P ((f qos a).heap c) j
      · exact hrest.set j hlater hlt'
      · -- only the first bearer sets the queue
        rw [hrest.keep j fun h => hlater h.1]
        obtain ⟨c, hc, hPc⟩ := hj
        rcases List.mem_cons.mp hc with rfl | hc
        · exact hstep.set j hPc hlt
        · exact absurd ⟨c, hc, by rw [hold c hc]; exact hPc⟩ hlater
    · intro j hj
      have hlater : ¬ ((∃ c ∈ l, P ((f qos a).heap c) j) ∧ j < (f qos a).numTxQueues) := by
        intro h
        obtain ⟨⟨c, hc, hPc⟩, hlt⟩ := h
        rw [hold c hc] at hPc
        rw [hstep.numTxQueues] at hlt
        exact hj ⟨⟨c, List.mem_cons_of_mem _ hc, hPc⟩, hlt⟩
      rw [hrest.keep j hlater]
      exact hstep.keep j fun h => hj ⟨⟨a, List.mem_cons_self, h.1⟩, h.2⟩

/-! ### The queues of a bearer -/

/-- The queues that `dfc_bearer_flow_ctl` sets for a bearer. -/
def RmnetBearerMap.Commands (b : RmnetBearerMap) (j : ℕ) : Prop :=
  j = b.mqIdx ∨ (j = b.ackMqIdx ∧ b.ackMqIdx ≠ invalidMq ∧ (b.grantSize ≠ 0 ∨ b.tcpBidir = false))

theorem flowControl_set (qos : QosInfo) (i : ℕ) (e : Bool) (j : ℕ) :
    (qmiRmnetFlowControl qos i e).stopped j =
      if j = i ∧ j < qos.numTxQueues then !e else qos.stopped j := by
  rw [qmiRmnetFlowControl]
  by_cases hlt : qos.numTxQueues ≤ i
  · rw [if_pos hlt, if_neg (by omega)]
  · rw [if_neg hlt]
    by_cases hj : j = i
    · subst hj
      rw [if_pos ⟨rfl, by omega⟩]
      exact Function.update_self j _ _
    · rw [if_neg fun h => hj h.1]
      exact Function.update_of_ne hj _ _

/-- `dfc_bearer_flow_ctl` sets the queues that it commands, and no others. -/
theorem bearerFlowCtl_set (cfg : DfcConfig) (qos : QosInfo) (a : Addr) (j : ℕ) :
    ((qos.heap a).Commands j → j < qos.numTxQueues →
      (dfcBearerFlowCtl cfg qos a).stopped j = decide ((qos.heap a).grantSize = 0)) ∧
    (¬ ((qos.heap a).Commands j ∧ j < qos.numTxQueues) →
      (dfcBearerFlowCtl cfg qos a).stopped j = qos.stopped j) := by
  have hsend : ∀ q : QosInfo, ∀ p : Prop, ∀ [Decidable p], (if p then dfcSendAck cfg q (qos.heap a).bearerId
      (qos.heap a).seq q.muxId dfcAckTypeDisable else q).stopped = q.stopped := by
    intro q p _
    split
    · obtain ⟨s, t, hs⟩ := dfcSendAck_eq cfg q (qos.heap a).bearerId (qos.heap a).seq q.muxId dfcAckTypeDisable
      rw [hs]
    · rfl
  have henable : (!decide ((qos.heap a).grantSize ≠ 0)) = decide ((qos.heap a).grantSize = 0) := by simp
  rw [dfcBearerFlowCtl]
  simp only [hsend]
  by_cases hack : (qos.heap a).ackMqIdx ≠ invalidMq ∧
      (decide ((qos.heap a).grantSize ≠ 0) || !(qos.heap a).tcpBidir) = true
  · have hack' : (qos.heap a).ackMqIdx ≠ invalidMq ∧
        ((qos.heap a).grantSize ≠ 0 ∨ (qos.heap a).tcpBidir = false) := by simpa using hack
    have hnum : (qmiRmnetFlowControl qos (qos.heap a).mqIdx
        (decide ((qos.heap a).grantSize ≠ 0))).numTxQueues = qos.numTxQueues := by
      obtain ⟨st, heq, -⟩ := flowControl_eq qos (qos.heap a).mqIdx (decide ((qos.heap a).grantSize ≠ 0))
      rw [heq]
    rw [if_pos hack, flowControl_set, flowControl_set, hnum, henable]
    constructor
    · intro hc hlt
      rcases hc with hj | hj
      · rw [if_pos (c := j = (qos.heap a).mqIdx ∧ _) ⟨hj, hlt⟩, ite_self]
      · rw [if_pos ⟨hj.1, hlt⟩]
    · intro hno
      rw [if_neg fun h => hno ⟨.inr ⟨h.1, hack'⟩, h.2⟩, if_neg fun h => hno ⟨.inl h.1, h.2⟩]
  · rw [if_neg hack, flowControl_set, henable]
    constructor
    · intro hc hlt
      rcases hc with hj | hj
      · rw [if_pos ⟨hj, hlt⟩]
      · exact absurd (by simpa using hj.2) hack
    · intro hno
      rw [if_neg fun h => hno ⟨.inl h.1, h.2⟩]

/-! ### The two loops -/

section

variable (cfg : DfcConfig) (ackReq ancillary : ℕ) (fcInfo : FlowStatusInfo)

/-- The queues of a bearer that has the grant of `fcInfo`. -/
def GrantCommands (b : RmnetBearerMap) (j : ℕ) : Prop :=
  j = b.mqIdx ∨ (j = b.ackMqIdx ∧ b.ackMqIdx ≠ invalidMq ∧
    (fcInfo.numBytes ≠ 0 ∨ dfcIsTcpBidir ancillary = false))

/-- `dfc_update_fc_map` ignores the indication: between the start and the end of a RAT switch, or for a grant on
a link that is down. -/
def FcIgnored (b : RmnetBearerMap) : Prop :=
  (dfcIsRatSwitch ancillary = false ∧ b.ratSwitch = true) ∨ (b.txOff = true ∧ 0 < fcInfo.numBytes)

/-- The grant reaches or leaves zero. -/
def GrantTurns (b : RmnetBearerMap) : Prop :=
  (b.grantSize = 0 ∧ 0 < fcInfo.numBytes) ∨ (0 < b.grantSize ∧ fcInfo.numBytes = 0)

instance (b : RmnetBearerMap) : Decidable (FcIgnored ancillary fcInfo b) :=
  inferInstanceAs (Decidable ((_ ∧ _) ∨ (_ ∧ _)))

instance (b : RmnetBearerMap) : Decidable (GrantTurns fcInfo b) :=
  inferInstanceAs (Decidable ((_ ∧ _) ∨ (_ ∧ _)))

/-- `dfc_update_fc_map` for each bearer in turn, with the entry carrying that bearer's id. -/
def eachBearerFcMap (kzalloc : Bool) (qos : QosInfo) : QosInfo :=
  qos.bearerHead.foldl (fun q a => dfcUpdateFcMap cfg kzalloc q ackReq ancillary
    { fcInfo with bearerId := (q.heap a).bearerId } false) qos

/-- One step of `dfc_all_bearer_flow_ctl`. -/
theorem allBearerGrant_written (qos : QosInfo) (a : Addr) :
    BearerWritten (allBearerGrant cfg ackReq ancillary fcInfo) (GrantCommands ancillary fcInfo)
      (decide (fcInfo.numBytes = 0)) qos
      (dfcBearerFlowCtl cfg (qos.modifyBearer a (allBearerGrant cfg ackReq ancillary fcInfo)) a) a := by
  have hwrote := allBearerGrant_wrote cfg qos a ackReq ancillary fcInfo
  have hset := fun j => bearerFlowCtl_set cfg
    (qos.modifyBearer a (allBearerGrant cfg ackReq ancillary fcInfo)) a j
  simp only [modifyBearer_heap_self] at hset
  refine ⟨hwrote.heap_self, fun c hc => hwrote.heap_ne hc, hwrote.bearerHead, ?_, fun j => (hset j).1,
    fun j => (hset j).2⟩
  obtain ⟨-, st, t, ms, heq, -⟩ := hwrote
  rw [heq]

/-- The grant that `dfc_update_fc_map` writes commands the queues of `GrantCommands`. -/
theorem fcMapGrant_commands (b : RmnetBearerMap) (j : ℕ) :
    let b' := fcMapGrant cfg ackReq ancillary fcInfo false fcInfo.numBytes b
    (b'.Commands j ↔ GrantCommands ancillary fcInfo b j) ∧ b'.grantSize = fcInfo.numBytes := by
  simp only [fcMapGrant, Bool.false_eq_true, false_and, and_false, if_false, qmiRmnetWatchdogRemove]
  split <;> exact ⟨Iff.rfl, rfl⟩

/-- The queues after `dfc_update_fc_map` has passed its two checks. -/
theorem applyFcMap_stopped (qos : QosInfo) (a : Addr) (j : ℕ) :
    (GrantTurns fcInfo (qos.heap a) ∧ GrantCommands ancillary fcInfo (qos.heap a) j → j < qos.numTxQueues →
      (applyFcMap cfg qos a ackReq ancillary fcInfo false).stopped j = decide (fcInfo.numBytes = 0)) ∧
    (¬ ((GrantTurns fcInfo (qos.heap a) ∧ GrantCommands ancillary fcInfo (qos.heap a) j) ∧
        j < qos.numTxQueues) →
      (applyFcMap cfg qos a ackReq ancillary fcInfo false).stopped j = qos.stopped j) := by
  obtain ⟨q, hheap, hst, hnum, hfold⟩ : ∃ q : QosInfo,
      q.heap a = fcMapGrant cfg ackReq ancillary fcInfo false fcInfo.numBytes
        { qos.heap a with bytesInFlight := 0 } ∧
      q.stopped = qos.stopped ∧ q.numTxQueues = qos.numTxQueues ∧
      applyFcMap cfg qos a ackReq ancillary fcInfo false =
        if GrantTurns fcInfo (qos.heap a) then dfcBearerFlowCtl cfg q a else q := by
    rw [applyFcMap]
    simp only [Bool.false_eq_true, and_false, if_false]
    -- the message for a parked request
    obtain ⟨s, hs⟩ : ∃ s, (if cfg.dfcQmap = true ∧ (qos.heap a).ackReq ≠ 0 ∧ ackReq = 0 ∧
          (qos.heap a).grantSize ≠ 0 then
        dfcQmapSendAck (qos.modifyBearer a fun _ => { qos.heap a with bytesInFlight := 0 })
          (qos.heap a).bearerId (qos.heap a).seq dfcAckTypeDisable
        else qos.modifyBearer a fun _ => { qos.heap a with bytesInFlight := 0 }) =
        { (qos.modifyBearer a fun _ => { qos.heap a with bytesInFlight := 0 }) with sent := s } := by
      split
      · exact dfcQmapSendAck_eq _ _ _ _
      · exact ⟨qos.sent, rfl⟩
    rw [hs]
    refine ⟨_, ?_, ?_, ?_, rfl⟩
    · simp [QosInfo.modifyBearer]
    · rfl
    · rfl
  rw [hfold]
  by_cases hturn : GrantTurns fcInfo (qos.heap a)
  · rw [if_pos hturn]
    have hset := bearerFlowCtl_set cfg q a j
    obtain ⟨hcommands, hgrant⟩ := fcMapGrant_commands cfg ackReq ancillary fcInfo
      { qos.heap a with bytesInFlight := 0 } j
    rw [hheap, hcommands, hgrant, hst, hnum] at hset
    exact ⟨fun h => hset.1 h.2, fun h => hset.2 fun h' => h ⟨⟨hturn, h'.1⟩, h'.2⟩⟩
  · rw [if_neg hturn, hst]
    exact ⟨fun h => absurd h.1 hturn, fun _ => rfl⟩

/-- `dfc_update_fc_map` for the bearer at `a`: the queues are set when the indication is not ignored and the grant
turns. -/
theorem updateFcMapBearer_written (qos : QosInfo) (a : Addr) :
    BearerWritten (fcMapBearer cfg ackReq ancillary fcInfo false)
      (fun b j => (¬ FcIgnored ancillary fcInfo b ∧ GrantTurns fcInfo b) ∧ GrantCommands ancillary fcInfo b j)
      (decide (fcInfo.numBytes = 0)) qos
      (updateFcMapBearer cfg qos a ackReq ancillary fcInfo false) a := by
  have hwrote := updateFcMapBearer_wrote cfg qos a ackReq ancillary fcInfo false
  have hnum : (updateFcMapBearer cfg qos a ackReq ancillary fcInfo false).numTxQueues = qos.numTxQueues := by
    obtain ⟨-, st, t, ms, heq, -⟩ := hwrote
    rw [heq]
  -- the state after the RAT switch is recorded
  set qos₁ := if dfcIsRatSwitch ancillary then
      qos.modifyBearer a fun b => { b with ratSwitch := fcInfo.numBytes = 0 } else qos with hqos₁
  have hfield : (qos₁.heap a).grantSize = (qos.heap a).grantSize ∧ (qos₁.heap a).mqIdx = (qos.heap a).mqIdx ∧
      (qos₁.heap a).ackMqIdx = (qos.heap a).ackMqIdx ∧ (qos₁.heap a).txOff = (qos.heap a).txOff ∧
      qos₁.stopped = qos.stopped ∧ qos₁.numTxQueues = qos.numTxQueues := by
    rw [hqos₁]
    split
    · rw [modifyBearer_heap_self]
      exact ⟨rfl, rfl, rfl, rfl, rfl, rfl⟩
    · exact ⟨rfl, rfl, rfl, rfl, rfl, rfl⟩
  obtain ⟨hsize, hmq, hack, hoff, hst, hnum₁⟩ := hfield
  have hignored : FcIgnored ancillary fcInfo (qos.heap a) ↔
      ((!dfcIsRatSwitch ancillary) = true ∧ (qos₁.heap a).ratSwitch = true) ∨
        ((qos₁.heap a).txOff = true ∧ 0 < fcInfo.numBytes) := by
    rw [FcIgnored, hoff, hqos₁]
    cases dfcIsRatSwitch ancillary with
    | false => simp
    | true => simp
  have hfold : updateFcMapBearer cfg qos a ackReq ancillary fcInfo false =
      if FcIgnored ancillary fcInfo (qos.heap a) then qos₁
      else applyFcMap cfg qos₁ a ackReq ancillary fcInfo false := by
    rw [updateFcMapBearer]
    simp only [← hqos₁]
    by_cases hrat : (!dfcIsRatSwitch ancillary) = true ∧ (qos₁.heap a).ratSwitch = true
    · rw [if_pos hrat, if_pos (hignored.mpr (.inl hrat))]
    · rw [if_neg hrat]
      by_cases htx : (qos₁.heap a).txOff = true ∧ 0 < fcInfo.numBytes
      · rw [if_pos htx, if_pos (hignored.mpr (.inr htx))]
      · rw [if_neg htx, if_neg fun h => (hignored.mp h).elim hrat htx]
  have hstopped := fun j => applyFcMap_stopped cfg ackReq ancillary fcInfo qos₁ a j
  simp only [GrantTurns, GrantCommands, hsize, hmq, hack, hst, hnum₁] at hstopped
  refine ⟨hwrote.heap_self, fun c hc => hwrote.heap_ne hc, hwrote.bearerHead, hnum, ?_, ?_⟩
  · intro j hj hlt
    rw [hfold, if_neg hj.1.1]
    exact (hstopped j).1 ⟨hj.1.2, hj.2⟩ hlt
  · intro j hj
    rw [hfold]
    by_cases hign : FcIgnored ancillary fcInfo (qos.heap a)
    · rw [if_pos hign, hst]
    · rw [if_neg hign]
      exact (hstopped j).2 fun h => hj ⟨⟨⟨hign, h.1.1⟩, h.1.2⟩, h.2⟩

theorem fcMapBearer_bearerId (b : RmnetBearerMap) :
    (fcMapBearer cfg ackReq ancillary fcInfo false b).bearerId = b.bearerId := by
  rw [fcMapBearer]
  have hkeep : ∀ c : RmnetBearerMap, c.bearerId = b.bearerId →
      (fcMapGrant cfg ackReq ancillary fcInfo false (fcMapAdjust cfg fcInfo false c).2
        (fcMapAdjust cfg fcInfo false c).1).bearerId = b.bearerId := by
    intro c hc
    obtain ⟨n, hn⟩ := fcMapAdjust_keeps cfg fcInfo false c
    rw [(fcMapGrant_keeps cfg ackReq ancillary fcInfo false _ _).1, hn]
    exact hc
  cases dfcIsRatSwitch ancillary with
  | true =>
    simp only [if_true]
    split
    · rfl
    · split
      · rfl
      · exact hkeep _ rfl
  | false =>
    simp only [Bool.false_eq_true, if_false]
    split
    · rfl
    · split
      · rfl
      · exact hkeep _ rfl

/-- The loop of `dfc_all_bearer_flow_ctl`. -/
theorem allBearerFlowCtl_written (qos : QosInfo) (hnd : qos.bearerHead.Nodup) :
    BearersWritten (allBearerGrant cfg ackReq ancillary fcInfo) (GrantCommands ancillary fcInfo)
      (decide (fcInfo.numBytes = 0)) qos (dfcAllBearerFlowCtl cfg qos ackReq ancillary fcInfo)
      qos.bearerHead := by
  refine BearersWritten.of_steps ?_ qos.bearerHead hnd ?_ qos (SameIds.refl qos)
  · exact fun _ => rfl
  · exact fun q _ a _ => allBearerGrant_written cfg ackReq ancillary fcInfo q a

/-- The loop over `dfc_update_fc_map`. -/
theorem eachBearerFcMap_written (kzalloc : Bool) (qos : QosInfo)
    (hids : (qos.bearerHead.map fun a => (qos.heap a).bearerId).Nodup) :
    BearersWritten (fcMapBearer cfg ackReq ancillary fcInfo false)
      (fun b j => (¬ FcIgnored ancillary fcInfo b ∧ GrantTurns fcInfo b) ∧ GrantCommands ancillary fcInfo b j)
      (decide (fcInfo.numBytes = 0)) qos (eachBearerFcMap cfg ackReq ancillary fcInfo kzalloc qos)
      qos.bearerHead := by
  refine BearersWritten.of_steps ?_ qos.bearerHead hids.of_map ?_ qos (SameIds.refl qos)
  · exact fcMapBearer_bearerId cfg ackReq ancillary fcInfo
  · intro q hsame a ha
    have hfind : qmiRmnetGetBearerMap q (q.heap a).bearerId = some a := by
      rw [← hsame.1] at ha
      cases hg : qmiRmnetGetBearerMap q (q.heap a).bearerId with
      | none => exact absurd rfl (getBearerMap_none hg a ha)
      | some c =>
        obtain ⟨hc, hid⟩ := getBearerMap_some hg
        rw [hsame.2, hsame.2] at hid
        rw [hsame.1] at hc ha
        rw [List.inj_on_of_nodup_map hids hc ha hid]
    rw [dfcUpdateFcMap]
    simp only [hfind]
    exact updateFcMapBearer_written cfg ackReq ancillary { fcInfo with bearerId := (q.heap a).bearerId } q a

/-! ### The comparison -/

/-- The bearer already holds the grant of `fcInfo`. -/
structure HoldsGrant (b : RmnetBearerMap) : Prop where
  grantSize : b.grantSize = fcInfo.numBytes
  grantThresh : b.grantThresh = qmiRmnetGrantPer cfg fcInfo.numBytes
  seq : b.seq = fcInfo.seqNum
  ackReq : b.ackReq = ackReq
  tcpBidir : b.tcpBidir = dfcIsTcpBidir ancillary
  lastGrant : b.lastGrant = fcInfo.numBytes
  lastSeq : b.lastSeq = fcInfo.seqNum
  lastAdjustedGrant : b.lastAdjustedGrant = fcInfo.numBytes

/-- What the loop of its own leaves out makes no difference to a bearer. -/
structure BearerAgrees (b : RmnetBearerMap) : Prop where
  ratSwitch : dfcIsRatSwitch ancillary = true → b.ratSwitch = decide (fcInfo.numBytes = 0)
  ignored : FcIgnored ancillary fcInfo b → HoldsGrant cfg ackReq ancillary fcInfo b
  applied : ¬ FcIgnored ancillary fcInfo b →
    b.bytesInFlight = 0 ∧ b.watchdogQuit = true ∧ b.watchdogStarted = false

/-- Every queue that the grant sets is in that state already, or a bearer whose grant turns sets it. -/
def QueuesAgree (qos : QosInfo) : Prop :=
  ∀ a ∈ qos.bearerHead, ∀ j, GrantCommands ancillary fcInfo (qos.heap a) j → j < qos.numTxQueues →
    qos.stopped j = decide (fcInfo.numBytes = 0) ∨
    ∃ c ∈ qos.bearerHead, (¬ FcIgnored ancillary fcInfo (qos.heap c) ∧ GrantTurns fcInfo (qos.heap c)) ∧
      GrantCommands ancillary fcInfo (qos.heap c) j

/-- `fcMapBearer` by what `allBearerGrant` would write. -/
theorem fcMapBearer_eq (b : RmnetBearerMap) :
    fcMapBearer cfg ackReq ancillary fcInfo false b =
      let ratSwitch := if dfcIsRatSwitch ancillary then decide (fcInfo.numBytes = 0) else b.ratSwitch
      if FcIgnored ancillary fcInfo b then { b with ratSwitch := ratSwitch }
      else { allBearerGrant cfg ackReq ancillary fcInfo b with
        ratSwitch := ratSwitch
        bytesInFlight := 0
        watchdogQuit := true
        watchdogArmed := if b.watchdogStarted then false else b.watchdogArmed
        watchdogStarted := false } := by
  have hgrant : ∀ c : RmnetBearerMap, fcMapGrant cfg ackReq ancillary fcInfo false
      (fcMapAdjust cfg fcInfo false c).2 (fcMapAdjust cfg fcInfo false c).1 =
      { allBearerGrant cfg ackReq ancillary fcInfo c with
        bytesInFlight := 0
        watchdogQuit := true
        watchdogArmed := if c.watchdogStarted then false else c.watchdogArmed
        watchdogStarted := false } := by
    intro c
    simp only [fcMapGrant, fcMapAdjust, Bool.false_eq_true, and_false, if_false, qmiRmnetWatchdogRemove,
      allBearerGrant]
    cases c.watchdogStarted <;> simp
  rw [fcMapBearer]
  cases hrat : dfcIsRatSwitch ancillary with
  | true =>
    simp only [if_true, Bool.not_true, Bool.false_eq_true, false_and, if_false]
    rw [hgrant]
    by_cases hoff : b.txOff = true ∧ 0 < fcInfo.numBytes
    · rw [if_pos hoff, if_pos (.inr hoff)]
    · have hno : ¬ FcIgnored ancillary fcInfo b := by simp [FcIgnored, hrat, hoff]
      rw [if_neg hoff, if_neg hno]
      rfl
  | false =>
    simp only [Bool.false_eq_true, if_false, Bool.not_false, true_and]
    rw [hgrant]
    by_cases hsw : b.ratSwitch = true
    · rw [if_pos hsw, if_pos (.inl ⟨hrat, hsw⟩)]
    · rw [if_neg hsw]
      by_cases hoff : b.txOff = true ∧ 0 < fcInfo.numBytes
      · rw [if_pos hoff, if_pos (.inr hoff)]
      · have hno : ¬ FcIgnored ancillary fcInfo b := fun h => h.elim (fun h => hsw h.2) hoff
        rw [if_neg hoff, if_neg hno]
        rfl

theorem fcMapBearer_eq_iff (b : RmnetBearerMap) :
    allBearerGrant cfg ackReq ancillary fcInfo b = fcMapBearer cfg ackReq ancillary fcInfo false b ↔
      BearerAgrees cfg ackReq ancillary fcInfo b := by
  rw [fcMapBearer_eq]
  have hrat : b.ratSwitch = (if dfcIsRatSwitch ancillary then decide (fcInfo.numBytes = 0) else b.ratSwitch) ↔
      (dfcIsRatSwitch ancillary = true → b.ratSwitch = decide (fcInfo.numBytes = 0)) := by
    cases dfcIsRatSwitch ancillary <;> simp
  by_cases hign : FcIgnored ancillary fcInfo b
  · -- the bearer is left alone, up to the RAT switch
    simp only [if_pos hign]
    constructor
    · intro h
      refine ⟨hrat.mp (congrArg RmnetBearerMap.ratSwitch h), fun _ => ?_, fun hno => absurd hign hno⟩
      exact ⟨(congrArg RmnetBearerMap.grantSize h).symm, (congrArg RmnetBearerMap.grantThresh h).symm,
        (congrArg RmnetBearerMap.seq h).symm, (congrArg RmnetBearerMap.ackReq h).symm,
        (congrArg RmnetBearerMap.tcpBidir h).symm, (congrArg RmnetBearerMap.lastGrant h).symm,
        (congrArg RmnetBearerMap.lastSeq h).symm, (congrArg RmnetBearerMap.lastAdjustedGrant h).symm⟩
    · intro h
      obtain ⟨h₁, h₂, h₃, h₄, h₅, h₆, h₇, h₈⟩ := h.ignored hign
      rw [← hrat.mpr h.ratSwitch]
      simp only [allBearerGrant, h₁, h₂, h₃, h₄, h₅, h₆, h₇, h₈]
  · simp only [if_neg hign]
    constructor
    · intro h
      refine ⟨hrat.mp (congrArg RmnetBearerMap.ratSwitch h), fun hyes => absurd hyes hign, fun _ => ?_⟩
      exact ⟨congrArg RmnetBearerMap.bytesInFlight h, congrArg RmnetBearerMap.watchdogQuit h,
        congrArg RmnetBearerMap.watchdogStarted h⟩
    · intro h
      obtain ⟨hflight, hquit, hstarted⟩ := h.applied hign
      rw [← hrat.mpr h.ratSwitch]
      simp only [allBearerGrant, hflight, hquit, hstarted, Bool.false_eq_true, if_false]

/-- Each bearer of the list and its queues are in the same state. -/
def SameBearers (l : List Addr) (qos₁ qos₂ : QosInfo) : Prop :=
  ∀ a ∈ l, qos₁.heap a = qos₂.heap a ∧
    qos₁.stopped (qos₁.heap a).mqIdx = qos₂.stopped (qos₁.heap a).mqIdx ∧
    ((qos₁.heap a).ackMqIdx ≠ invalidMq →
      qos₁.stopped (qos₁.heap a).ackMqIdx = qos₂.stopped (qos₁.heap a).ackMqIdx)

/-- **Exactly when a broadcast grant equals a grant to every bearer.**  On a device whose bearers have different
ids, the loop of `dfc_all_bearer_flow_ctl` leaves bearers and queues as `dfc_update_fc_map` for each bearer in
turn, if and only if what it leaves out makes no difference to any bearer, and no queue is left alone that it
sets. -/
theorem broadcast_iff (kzalloc : Bool) {qos : QosInfo}
    (hids : (qos.bearerHead.map fun a => (qos.heap a).bearerId).Nodup) :
    SameBearers qos.bearerHead (dfcAllBearerFlowCtl cfg qos ackReq ancillary fcInfo)
        (eachBearerFcMap cfg ackReq ancillary fcInfo kzalloc qos) ↔
      (∀ a ∈ qos.bearerHead, BearerAgrees cfg ackReq ancillary fcInfo (qos.heap a)) ∧
        QueuesAgree ancillary fcInfo qos := by
  have hall := allBearerFlowCtl_written cfg ackReq ancillary fcInfo qos hids.of_map
  have heach := eachBearerFcMap_written cfg ackReq ancillary fcInfo kzalloc qos hids
  set qos₁ := dfcAllBearerFlowCtl cfg qos ackReq ancillary fcInfo with hqos₁
  set qos₂ := eachBearerFcMap cfg ackReq ancillary fcInfo kzalloc qos with hqos₂
  constructor
  · intro hsame
    refine ⟨fun a ha => ?_, fun a ha j hj hlt => ?_⟩
    · rw [← fcMapBearer_eq_iff, ← hall.heap_mem a ha, ← heach.heap_mem a ha]
      exact (hsame a ha).1
    · by_contra hno
      -- the queue is set by the broadcast and left alone by the other loop
      have hset := hall.set j ⟨a, ha, hj⟩ hlt
      have hkeep : qos₂.stopped j = qos.stopped j := by
        refine heach.keep j fun h => hno (.inr ?_)
        obtain ⟨⟨c, hc, hact⟩, -⟩ := h
        exact ⟨c, hc, hact⟩
      have hidx : (qos₁.heap a).mqIdx = (qos.heap a).mqIdx ∧ (qos₁.heap a).ackMqIdx = (qos.heap a).ackMqIdx := by
        rw [hall.heap_mem a ha]
        exact ⟨rfl, rfl⟩
      obtain ⟨-, hmq, hack⟩ := hsame a ha
      rw [hidx.1] at hmq
      rw [hidx.2] at hack
      apply hno
      refine .inl ?_
      rw [← hkeep, ← hset]
      rcases hj with rfl | ⟨rfl, hvalid, -⟩
      · exact hmq.symm
      · exact (hack hvalid).symm
  · intro hcond
    have hqueue : ∀ j, qos₁.stopped j = qos₂.stopped j := by
      intro j
      by_cases hwrites : (∃ a ∈ qos.bearerHead, GrantCommands ancillary fcInfo (qos.heap a) j) ∧ j < qos.numTxQueues
      · obtain ⟨⟨a, ha, hj⟩, hlt⟩ := hwrites
        rw [hall.set j ⟨a, ha, hj⟩ hlt]
        by_cases hacts : ∃ c ∈ qos.bearerHead, (¬ FcIgnored ancillary fcInfo (qos.heap c) ∧
            GrantTurns fcInfo (qos.heap c)) ∧ GrantCommands ancillary fcInfo (qos.heap c) j
        · exact (heach.set j hacts hlt).symm
        · rw [heach.keep j fun h => hacts h.1]
          exact ((hcond.2 a ha j hj hlt).resolve_right hacts).symm
      · rw [hall.keep j hwrites, heach.keep j]
        intro h
        obtain ⟨⟨c, hc, -, hj⟩, hlt⟩ := h
        exact hwrites ⟨⟨c, hc, hj⟩, hlt⟩
    intro a ha
    refine ⟨?_, hqueue _, fun _ => hqueue _⟩
    rw [hall.heap_mem a ha, heach.heap_mem a ha]
    exact (fcMapBearer_eq_iff cfg ackReq ancillary fcInfo _).mpr (hcond.1 a ha)

end

/-! ### A bearer on a link that is down -/

/-- A bearer with some grant, nothing in flight and no watchdog. -/
def steadyBearer : RmnetBearerMap := { bearerFive with watchdogQuit := true }

/-- A bearer without grant, on a TX link that is down. -/
def downBearer : RmnetBearerMap := { steadyBearer with grantSize := 0, grantThresh := 0, txOff := true }

/-- A grant of 1000 bytes for all bearers. -/
def broadcastGrant : FlowStatusInfo :=
  { muxId := 1, bearerId := 0xFF, numBytes := 1000, seqNum := 9, rxBytesValid := false, rxBytes := 0 }

/-- A bearer with nothing in flight and no watchdog gets the grant alike. -/
theorem broadcast_steady :
    SameBearers [0] (dfcAllBearerFlowCtl qmapCfg (oneBearer steadyBearer) 0 0 broadcastGrant)
      (eachBearerFcMap qmapCfg 0 0 broadcastGrant true (oneBearer steadyBearer)) := by
  have hone : ((oneBearer steadyBearer).bearerHead.map fun a =>
      ((oneBearer steadyBearer).heap a).bearerId).Nodup := List.nodup_singleton _
  refine (broadcast_iff qmapCfg 0 0 broadcastGrant true hone).mpr ⟨fun a _ => ?_, fun a _ j _ _ => .inl rfl⟩
  refine ⟨fun h => absurd h (by decide), fun h => absurd h ?_, fun _ => ⟨rfl, rfl, rfl⟩⟩
  show ¬ FcIgnored 0 broadcastGrant steadyBearer
  decide

/-- **A grant on a link that is down.**  The broadcast wakes the queue of the bearer and gives it the grant, which
`dfc_update_fc_map` would ignore. -/
theorem broadcast_tx_off :
    let qos := { oneBearer downBearer with stopped := fun q => q = 1 }
    let qos₁ := dfcAllBearerFlowCtl qmapCfg qos 0 0 broadcastGrant
    let qos₂ := eachBearerFcMap qmapCfg 0 0 broadcastGrant true qos
    ¬ SameBearers qos.bearerHead qos₁ qos₂ ∧ ((qos₁.heap 0).grantSize = 1000 ∧ qos₁.stopped 1 = false) ∧
      (qos₂.heap 0).grantSize = 0 ∧ qos₂.stopped 1 = true := by
  intro qos qos₁ qos₂
  have hgrant : (qos₁.heap 0).grantSize = 1000 ∧ (qos₂.heap 0).grantSize = 0 := by decide
  refine ⟨fun h => ?_, ⟨hgrant.1, by decide⟩, hgrant.2, by decide⟩
  have hsame := congrArg RmnetBearerMap.grantSize (h 0 List.mem_cons_self).1
  rw [hgrant.1, hgrant.2] at hsame
  exact absurd hsame (by decide)

end Rmnet
