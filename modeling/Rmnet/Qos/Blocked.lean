import Rmnet.Qos.Event

/-!
# Does a blocked bearer never hold a grant?

A bearer is blocked while its TX link is off or a RAT switch is in progress.  Any order of events of one
device, with flow-status indications for single bearers, any results of allocations, and any delay between
the expiry of a watchdog and its callback.

Every writer of the grant respects the two flags but one: the watchdog's callback looks at `watchdog_quit`
only.  A RAT switch and a TX link that goes down with a grant left both remove the watchdog; a TX link that
goes down at grant zero does not, and the callback then jumpstarts the bearer (`blocked_jumpstart`).
`blocked_iff` says that this is the only way.
-/

namespace Rmnet

open Word Transition

/-- The flow-status indications and query responses that name one bearer. -/
def DfcEvent.PerBearer : DfcEvent → Prop
  | .flowStatus _ _ _ _ fcInfo _ => fcInfo.bearerId ≠ 0xFF
  | _ => True

/-- One event. -/
def BlockedStep (cfg : DfcConfig) (d : DfcDevice) (e : DfcEvent) (d' : DfcDevice) : Prop :=
  e.PerBearer ∧ DfcStep cfg d e d'

/-- A bearer with its TX link off or in a RAT switch. -/
def RmnetBearerMap.Blocked (b : RmnetBearerMap) : Prop := b.txOff = true ∨ b.ratSwitch = true

/-- No blocked bearer of the device holds a grant. -/
def BlockedEmpty (d : DfcDevice) : Prop :=
  ∀ a ∈ d.qos.bearerHead, (d.qos.heap a).Blocked → (d.qos.heap a).grantSize = 0

/-- The side condition on an event: a watchdog callback runs on a bearer that has quit the watchdog, or whose
TX link is on. -/
def JumpstartsUnblocked (d : DfcDevice) : DfcEvent → Prop
  | .watchdogFn a => (d.qos.heap a).watchdogQuit = true ∨ (d.qos.heap a).txOff = false
  | _ => True

/-- The invariant of a bearer. -/
structure BlockedInv (b : RmnetBearerMap) : Prop where
  empty : b.Blocked → b.grantSize = 0
  quit : b.ratSwitch = true → b.watchdogQuit = true

/-! ### One bearer -/

section

variable {b b' : RmnetBearerMap}

/-- The invariant reads four fields. -/
theorem BlockedInv.congr (h : BlockedInv b) (hoff : b'.txOff = b.txOff) (hrat : b'.ratSwitch = b.ratSwitch)
    (hgrant : b'.grantSize = b.grantSize) (hquit : b'.watchdogQuit = b.watchdogQuit) : BlockedInv b' where
  empty := by
    unfold RmnetBearerMap.Blocked
    rw [hoff, hrat, hgrant]
    exact h.empty
  quit := by
    rw [hrat, hquit]
    exact h.quit

/-- Nothing is asked of a bearer that is not blocked. -/
theorem blockedInv_of_unblocked (hoff : b.txOff = false) (hrat : b.ratSwitch = false) : BlockedInv b := by
  refine ⟨fun hb => ?_, fun hr => ?_⟩
  · rcases hb with h | h
    · rw [hoff] at h
      cases h
    · rw [hrat] at h
      cases h
  · rw [hrat] at hr
    cases hr

theorem BlockedInv.sameDfc (h : BlockedInv b) (hs : SameDfc b b') : BlockedInv b' := by
  unfold SameDfc at hs
  rw [hs]
  exact h.congr rfl rfl rfl rfl

theorem fcMapAdjust_le (cfg : DfcConfig) (fcInfo : FlowStatusInfo) (isQuery : Bool) (b : RmnetBearerMap) :
    (fcMapAdjust cfg fcInfo isQuery b).2 ≤ fcInfo.numBytes := by
  unfold fcMapAdjust dfcAdjustGrant
  split
  · split
    · exact le_rfl
    · simp only
      repeat' split
      all_goals omega
  · exact le_rfl

/-- An indication of zero bytes removes the watchdog. -/
theorem fcMapGrant_quit (cfg : DfcConfig) (ackReq ancillary : ℕ) {fcInfo : FlowStatusInfo} (isQuery : Bool)
    (g : ℕ) (b : RmnetBearerMap) (hz : fcInfo.numBytes = 0) :
    (fcMapGrant cfg ackReq ancillary fcInfo isQuery g b).watchdogQuit = true := by
  unfold fcMapGrant qmiRmnetWatchdogRemove
  simp only [hz, Nat.zero_div, Nat.not_lt_zero, and_false, if_false]
  split <;> rfl

theorem BlockedInv.fcMap (h : BlockedInv b) (cfg : DfcConfig) (ackReq ancillary : ℕ)
    (fcInfo : FlowStatusInfo) (isQuery : Bool) :
    BlockedInv (fcMapBearer cfg ackReq ancillary fcInfo isQuery b) := by
  unfold fcMapBearer
  set b₁ := if dfcIsRatSwitch ancillary = true then { b with ratSwitch := fcInfo.numBytes = 0 } else b
    with hb₁
  have hoff₁ : b₁.txOff = b.txOff := by
    rw [hb₁]
    split <;> rfl
  have hgrant₁ : b₁.grantSize = b.grantSize := by
    rw [hb₁]
    split <;> rfl
  simp only
  by_cases hig : (!dfcIsRatSwitch ancillary) = true ∧ b₁.ratSwitch = true
  · rw [if_pos hig]
    have hrat : dfcIsRatSwitch ancillary ≠ true := by simpa using hig.1
    rw [hb₁, if_neg hrat]
    exact h
  · rw [if_neg hig]
    -- a RAT switch that goes on comes with an indication of zero bytes
    have hsw : b₁.ratSwitch = true → fcInfo.numBytes = 0 := by
      intro hs
      by_cases hrat : dfcIsRatSwitch ancillary = true
      · rw [hb₁, if_pos hrat] at hs
        simpa using hs
      · exact absurd ⟨by simpa using hrat, hs⟩ hig
    by_cases hoff : b₁.txOff = true ∧ 0 < fcInfo.numBytes
    · rw [if_pos hoff]
      refine ⟨fun _ => ?_, fun hs => ?_⟩
      · rw [hgrant₁]
        exact h.empty (.inl (hoff₁ ▸ hoff.1))
      · have hz := hsw hs
        omega
    · rw [if_neg hoff]
      obtain ⟨n, hn⟩ := fcMapAdjust_keeps cfg fcInfo isQuery b₁
      obtain ⟨-, hg, -, -, hko, hkr⟩ := fcMapGrant_keeps cfg ackReq ancillary fcInfo isQuery
        (fcMapAdjust cfg fcInfo isQuery b₁).2 (fcMapAdjust cfg fcInfo isQuery b₁).1
      have hle := fcMapAdjust_le cfg fcInfo isQuery b₁
      rw [hn] at hko hkr
      refine ⟨fun hb => ?_, fun hs => ?_⟩
      · rw [hg]
        have hz : fcInfo.numBytes = 0 := by
          rcases hb with ho | hr
          · rw [hn, hko] at ho
            by_contra hne
            exact hoff ⟨ho, Nat.pos_of_ne_zero hne⟩
          · rw [hn, hkr] at hr
            exact hsw hr
        omega
      · rw [hn, hkr] at hs
        exact fcMapGrant_quit cfg ackReq ancillary isQuery _ _ (hsw hs)

theorem BlockedInv.txLink (h : BlockedInv b) (cfg : DfcConfig) (txStatus : Bool) :
    BlockedInv (txLinkBearer cfg txStatus b) := by
  unfold txLinkBearer
  split
  · exact h
  · split
    · obtain ⟨-, hg, -, -, -, -⟩ := watchdogRemove_keeps
        { b with grantSize := 0, tcpBidir := false, bytesInFlight := 0 }
      exact ⟨fun _ => hg, fun _ => watchdogRemove_quit _⟩
    · rename_i hdown
      split
      · rename_i hup
        exact blockedInv_of_unblocked (by simp [hup.2.1]) (by simpa using hup.2.2)
      · refine ⟨fun hb => ?_, h.quit⟩
        cases txStatus with
        | false =>
          by_contra hne
          exact hdown ⟨hne, rfl⟩
        | true =>
          rcases hb with ho | hr
          · cases ho
          · exact h.empty (.inr hr)

theorem BlockedInv.burst (h : BlockedInv b) (len : ℕ) : BlockedInv (burstBearer len b) := by
  refine ⟨fun hb => ?_, h.quit⟩
  have hz : b.grantSize = 0 := h.empty hb
  simp [burstBearer, hz]

theorem BlockedInv.enable (h : BlockedInv b) (cfg : DfcConfig) : BlockedInv (enableBearer cfg b) := by
  unfold enableBearer
  obtain ⟨-, hg, -, -, ho, hr⟩ := watchdogRemove_keeps
    { b with seq := 0, ackReq := 0, bytesInFlight := 0, tcpBidir := false, ratSwitch := false }
  simp only at hg ho hr ⊢
  split
  · rename_i hoff
    refine ⟨fun _ => ?_, fun _ => watchdogRemove_quit _⟩
    rw [hg]
    exact h.empty (.inl (ho ▸ hoff))
  · rename_i hoff
    exact blockedInv_of_unblocked (by simpa using hoff) hr

theorem BlockedInv.endMarker (h : BlockedInv b) (seqNum txId : ℕ) :
    BlockedInv (endMarkerBearer seqNum txId b) := by
  unfold endMarkerBearer
  split
  · exact h.congr rfl rfl rfl rfl
  · exact h

/-- The callback of a bearer in the watchdog finds no RAT switch, so it has to look at the TX link only. -/
theorem BlockedInv.watchdogFn (h : BlockedInv b) (cfg : DfcConfig)
    (hok : b.watchdogQuit = true ∨ b.txOff = false) : BlockedInv (watchdogFnBearer cfg b) := by
  unfold watchdogFnBearer
  split
  · exact h.congr rfl rfl rfl rfl
  · rename_i hquit
    refine blockedInv_of_unblocked (hok.resolve_left hquit) ?_
    by_contra hr
    exact hquit (h.quit (by simpa using hr))

end

/-! ### All bearers of a device -/

/-- The invariant of a device. -/
def BlockedInvAll (qos : QosInfo) : Prop := ∀ a, BlockedInv (qos.heap a)

section

variable {cfg : DfcConfig} {qos qos' : QosInfo}

theorem BlockedInvAll.table (h : BlockedInvAll qos) (hw : TableWrite cfg qos qos') : BlockedInvAll qos' := by
  intro a
  rcases hw.heap a with hs | ⟨id, hs⟩
  · exact (h a).sameDfc hs
  · exact (blockedInv_of_unblocked rfl rfl : BlockedInv (newBearer cfg id)).sameDfc hs

theorem BlockedInvAll.wrote (h : BlockedInvAll qos) {a : Addr} {b : RmnetBearerMap} {l : List ℕ}
    (hw : Wrote cfg qos qos' a b l) (hb : BlockedInv b) : BlockedInvAll qos' := by
  intro c
  by_cases hc : c = a
  · subst hc
    rwa [hw.heap_self]
  · rw [hw.heap_ne hc]
    exact h c

theorem BlockedInvAll.updateFcMap (h : BlockedInvAll qos) (kzalloc : Bool) (ackReq ancillary : ℕ)
    (fcInfo : FlowStatusInfo) (isQuery : Bool) :
    BlockedInvAll (dfcUpdateFcMap cfg kzalloc qos ackReq ancillary fcInfo isQuery) := by
  have hget := h.table (getBearerNoref_write cfg kzalloc qos fcInfo.bearerId)
  have hfc : ∀ (q : QosInfo) (a : Addr), BlockedInvAll q →
      BlockedInvAll (updateFcMapBearer cfg q a ackReq ancillary fcInfo isQuery) := fun q a hq =>
    hq.wrote (updateFcMapBearer_wrote cfg q a ackReq ancillary fcInfo isQuery)
      ((hq a).fcMap cfg ackReq ancillary fcInfo isQuery)
  unfold dfcUpdateFcMap
  split
  · exact hfc qos _ h
  · split
    · rename_i heq
      rwa [heq] at hget
    · rename_i heq
      rw [heq] at hget
      exact hfc _ _ hget

/-- The induction is on the bearer list. -/
theorem BlockedInvAll.enableAll (l : List Addr) :
    ∀ qos, BlockedInvAll qos → BlockedInvAll (l.foldl (enableFlowsOf cfg) qos) := by
  induction l with
  | nil => exact fun _ h => h
  | cons a l ih =>
    intro qos h
    exact ih _ (h.wrote (enableFlowsOf_wrote cfg qos a) ((h a).enable cfg))

/-- **One event.** -/
theorem blockedInvAll_event (h : BlockedInvAll qos) {e : DfcEvent} (hper : e.PerBearer)
    (hok : ∀ a, e = .watchdogFn a → (qos.heap a).watchdogQuit = true ∨ (qos.heap a).txOff = false) :
    BlockedInvAll (dfcEventQos cfg qos e) := by
  cases e with
  | addFlow kzFlow kzBearer tcm => exact h.table (addFlow_write cfg kzFlow kzBearer qos tcm)
  | delFlow tcm => exact h.table (delFlow_write cfg qos tcm)
  | flowStatus kzalloc ignoreGrant ackReq ancillary fcInfo isQuery =>
    simp only [dfcEventQos, dfcBurstFlowStatus]
    split
    · exact h
    · rw [if_neg hper]
      exact h.updateFcMap kzalloc ackReq ancillary fcInfo isQuery
  | txLinkStatus txStatus bearerId =>
    cases hg : qmiRmnetGetBearerMap qos bearerId with
    | none =>
      simp only [dfcEventQos, dfcUpdateTxLinkStatus, hg]
      exact h
    | some a => exact h.wrote (updateTxLinkStatus_wrote cfg txStatus hg) ((h a).txLink cfg txStatus)
  | endMarker bearerId seqNum txId =>
    cases hg : qmiRmnetGetBearerMap qos bearerId with
    | none => exact h.wrote (setEndMarker_none cfg seqNum txId hg 0) (h 0)
    | some a => exact h.wrote (setEndMarker_wrote cfg seqNum txId hg) ((h a).endMarker seqNum txId)
  | burstCheck ipType mark len =>
    cases hg : (qmiRmnetGetFlowMap qos mark ipType).bind RmnetFlowMap.bearer with
    | none =>
      simp only [dfcEventQos, dfcQmiBurstCheck, hg]
      exact h
    | some a => exact h.wrote (burstCheck_wrote cfg len hg) ((h a).burst len)
  | watchdogExpires a =>
    exact h.wrote (Wrote.modify cfg qos a watchdogExpires rfl) ((h a).congr rfl rfl rfl rfl)
  | watchdogFn a => exact h.wrote (watchdogFn_wrote cfg qos a) ((h a).watchdogFn cfg (hok a rfl))
  | enableAllFlows => exact BlockedInvAll.enableAll qos.bearerHead qos h

theorem blockedInvAll_step (d : DfcDevice) (e : DfcEvent) (d' : DfcDevice) (h : BlockedInvAll d.qos)
    (hs : BlockedStep cfg d e d') (hok : JumpstartsUnblocked d e) : BlockedInvAll d'.qos := by
  obtain ⟨hper, -, rfl⟩ := hs
  refine blockedInvAll_event h hper fun a ha => ?_
  subst ha
  exact hok

theorem blockedInvAll_init (d : DfcDevice) (h : DeviceInit d) : BlockedInvAll d.qos := by
  obtain ⟨⟨muxId, numTxQueues, stopped, hq⟩, -⟩ := h
  intro a
  rw [hq]
  exact blockedInv_of_unblocked rfl rfl

/-- A callback that finds the watchdog on and the TX link off leaves a grant behind. -/
theorem jumpstart_blocked (d : DfcDevice) (e : DfcEvent) (d' : DfcDevice) (h : BlockedInvAll d.qos)
    (hs : BlockedStep cfg d e d') (hno : ¬ JumpstartsUnblocked d e) : ¬ BlockedEmpty d' := by
  obtain ⟨-, hen, rfl⟩ := hs
  cases e with
  | watchdogFn a =>
    obtain ⟨hquit, hoff⟩ := not_or.mp hno
    have hoff : (d.qos.heap a).txOff = true := by simpa using hoff
    have hz : (d.qos.heap a).grantSize = 0 := (h a).empty (.inl hoff)
    have hw := watchdogFn_wrote cfg d.qos a
    unfold watchdogFnBearer at hw
    rw [if_neg hquit, if_pos hz] at hw
    intro hempty
    have hg : ((qmiRmnetWatchdogFn cfg d.qos a).heap a).grantSize = 0 := by
      refine hempty a ?_ ?_
      · exact hw.bearerHead ▸ hen.1
      · simp only [dfcNext, dfcEventQos, hw.heap_self]
        exact .inl hoff
    rw [hw.heap_self] at hg
    cases hg
  | _ => exact absurd trivial hno

end

/-- **When a blocked bearer never holds a grant.**  In all states of a run, if and only if each watchdog
callback of the run finds `watchdog_quit` set or the TX link on. -/
theorem blocked_iff (cfg : DfcConfig) (h : List (DfcDevice × DfcEvent)) (d : DfcDevice)
    (hex : Exec DeviceInit (BlockedStep cfg) h d) :
    (∀ x ∈ h.map Prod.fst ++ [d], BlockedEmpty x) ↔ ∀ x ∈ h, JumpstartsUnblocked x.1 x.2 :=
  (Exec.forall_iff blockedInvAll_init (fun _ hI a _ hb => (hI a).empty hb) blockedInvAll_step
    jumpstart_blocked hex).1

/-! ### A jumpstart with the link off -/

theorem oneFlow_blockedExec :
    Exec DeviceInit (BlockedStep qmapCfg) [(newDevice, .addFlow true true flowOfFive)] oneFlow :=
  (Exec.start newDevice_init).next ⟨trivial, trivial, rfl⟩

/-- A grant of 100 bytes, none of which the modem has received yet. -/
def smallGrant : FlowStatusInfo := ⟨1, 5, 100, 1, true, 0⟩

/-- **The watchdog grants on a link that is off.**  30000 bytes are charged, the response to the query
leaves the bearer at grant zero in the watchdog, the TX link goes off, and the callback grants 20480. -/
theorem blocked_jumpstart : ∃ h d, Exec DeviceInit (BlockedStep qmapCfg) h d ∧
    ¬ ∀ x ∈ h.map Prod.fst ++ [d], BlockedEmpty x := by
  have h₁ := oneFlow_blockedExec.next (l := DfcEvent.burstCheck 4 1 30000) ⟨trivial, trivial, rfl⟩
  have h₂ := h₁.next (l := DfcEvent.flowStatus true false 0 0 smallGrant true)
    ⟨(by decide : (5 : ℕ) ≠ 0xFF), trivial, rfl⟩
  have h₃ := h₂.next (l := DfcEvent.txLinkStatus false 5) ⟨trivial, trivial, rfl⟩
  have h₄ := h₃.next (l := DfcEvent.watchdogExpires 0) ⟨trivial, ⟨List.mem_singleton.mpr rfl, rfl⟩, rfl⟩
  have h₅ := h₄.next (l := DfcEvent.watchdogFn 0)
    ⟨trivial, ⟨List.mem_singleton.mpr rfl, Nat.one_pos⟩, rfl⟩
  refine ⟨_, _, h₅, fun hall => ?_⟩
  have hempty := hall _ (List.mem_append_right _ (List.mem_singleton.mpr rfl)) 0
    (List.mem_singleton.mpr rfl) (.inl rfl)
  cases hempty

/-- A link that goes off with a grant left keeps an indication of 100 bytes out. -/
theorem blocked_link_down : ∃ h d, Exec DeviceInit (BlockedStep qmapCfg) h d ∧
    (d.qos.heap 0).Blocked ∧ ∀ x ∈ h.map Prod.fst ++ [d], BlockedEmpty x := by
  have h₁ := oneFlow_blockedExec.next (l := DfcEvent.txLinkStatus false 5) ⟨trivial, trivial, rfl⟩
  have h₂ := h₁.next (l := DfcEvent.flowStatus true false 0 0 smallGrant false)
    ⟨(by decide : (5 : ℕ) ≠ 0xFF), trivial, rfl⟩
  refine ⟨_, _, h₂, .inl rfl, (blocked_iff qmapCfg _ _ h₂).mpr fun x hx => ?_⟩
  simp only [List.cons_append, List.nil_append, List.mem_cons, List.not_mem_nil, or_false] at hx
  rcases hx with rfl | rfl | rfl <;> exact trivial

end Rmnet
