import Rmnet.Qos.QueueState

/-!
# The events of one device, in any order

`DfcDevice` is a device's flow-control state together with the watchdog callbacks that wait for
`qos_lock`: the expiry of a timer and the run of `qmi_rmnet_watchdog_fn` are two events, and anything may
happen in between.  Allocations may fail.

Two things are said about every event here.  `Sends` is about messages: an event appends to the log, and
what it appends carries the mux id of the `qos_info`.  `Wrote` is about bearers: a flow-control event writes
one bearer (or one after the other), by a function of that bearer alone, and in QMAP mode the ids that it
confirms are a function of it too.  The table operations write no flow-control field of a bearer
(`TableWrite`).
-/

namespace Rmnet

open Word Transition

/-! ### Events -/

/-- A device, and for each bearer the callbacks of its watchdog that have not run yet. -/
structure DfcDevice where
  qos : QosInfo
  inFlight : Addr → ℕ

/-- What can happen to a device; the Boolean arguments are the results of `kzalloc`. -/
inductive DfcEvent
  | addFlow (kzFlow kzBearer : Bool) (tcm : FlowReq)
  | delFlow (tcm : FlowReq)
  | flowStatus (kzalloc ignoreGrant : Bool) (ackReq ancillary : ℕ) (fcInfo : FlowStatusInfo)
      (isQuery : Bool)
  | txLinkStatus (txStatus : Bool) (bearerId : ℕ)
  | endMarker (bearerId seqNum txId : ℕ)
  | burstCheck (ipType : ℤ) (mark len : ℕ)
  | watchdogExpires (a : Addr)
  | watchdogFn (a : Addr)
  | enableAllFlows

/-- A timer expires when it is pending, a callback runs when it is on its way; a bearer that has left the
list has neither, because `qmi_rmnet_bearer_clean` waits for them. -/
def DfcEvent.Enabled (d : DfcDevice) : DfcEvent → Prop
  | .watchdogExpires a => a ∈ d.qos.bearerHead ∧ (d.qos.heap a).watchdogArmed = true
  | .watchdogFn a => a ∈ d.qos.bearerHead ∧ 0 < d.inFlight a
  | _ => True

/-- The event's effect on the `qos_info`. -/
def dfcEventQos (cfg : DfcConfig) (qos : QosInfo) : DfcEvent → QosInfo
  | .addFlow kzFlow kzBearer tcm => ((qmiRmnetAddFlow cfg kzFlow kzBearer qos tcm).map Prod.fst).getD qos
  | .delFlow tcm => qmiRmnetDelFlow cfg qos tcm
  | .flowStatus kzalloc ignoreGrant ackReq ancillary fcInfo isQuery =>
      dfcBurstFlowStatus cfg kzalloc ignoreGrant qos ackReq ancillary fcInfo isQuery
  | .txLinkStatus txStatus bearerId => dfcUpdateTxLinkStatus cfg qos txStatus bearerId
  | .endMarker bearerId seqNum txId => dfcQmapSetEndMarker qos bearerId seqNum txId
  | .burstCheck ipType mark len => dfcQmiBurstCheck cfg qos ipType mark len
  | .watchdogExpires a => qos.modifyBearer a watchdogExpires
  | .watchdogFn a => qmiRmnetWatchdogFn cfg qos a
  | .enableAllFlows => qmiRmnetEnableAllFlows cfg qos

/-- The event's effect on the callbacks. -/
def dfcEventInFlight (inFlight : Addr → ℕ) : DfcEvent → Addr → ℕ
  | .watchdogExpires a => Function.update inFlight a (inFlight a + 1)
  | .watchdogFn a => Function.update inFlight a (inFlight a - 1)
  | _ => inFlight

/-- One event. -/
def dfcNext (cfg : DfcConfig) (d : DfcDevice) (e : DfcEvent) : DfcDevice :=
  { qos := dfcEventQos cfg d.qos e, inFlight := dfcEventInFlight d.inFlight e }

/-- One event as a step. -/
def DfcStep (cfg : DfcConfig) (d : DfcDevice) (e : DfcEvent) (d' : DfcDevice) : Prop :=
  e.Enabled d ∧ d' = dfcNext cfg d e

/-- A device as `qmi_rmnet_qos_init` leaves it, without callbacks. -/
def DeviceInit (d : DfcDevice) : Prop :=
  (∃ muxId numTxQueues stopped, d.qos = qmiRmnetQosInit muxId numTxQueues stopped) ∧ d.inFlight = fun _ => 0

/-- The device without flows. -/
def newDevice : DfcDevice := { qos := emptyQos, inFlight := fun _ => 0 }

theorem newDevice_init : DeviceInit newDevice := ⟨⟨1, 31, _, rfl⟩, rfl⟩

/-- The device after its first flow is added. -/
def oneFlow : DfcDevice := dfcNext qmapCfg newDevice (.addFlow true true flowOfFive)

/-! ### Messages -/

/-- The mux id that a message carries. -/
def DfcMsg.muxId : DfcMsg → ℕ
  | .ack _ _ muxId _ _ => muxId
  | .endMarkerCnf muxId _ _ _ => muxId
  | .query muxId _ => muxId

/-- The transaction ids that a sequence of messages confirms. -/
def confirmed (ms : List DfcMsg) : List ℕ :=
  ms.filterMap fun
    | .endMarkerCnf _ _ _ txId => some txId
    | _ => none

theorem confirmed_append (ms ms' : List DfcMsg) : confirmed (ms ++ ms') = confirmed ms ++ confirmed ms' :=
  List.filterMap_append

/-- From `qos` to `qos'` only messages with the mux id of `qos` were sent. -/
def Sends (qos qos' : QosInfo) : Prop :=
  qos'.muxId = qos.muxId ∧ ∃ ms, qos'.sent = qos.sent ++ ms ∧ ∀ m ∈ ms, m.muxId = qos.muxId

theorem Sends.of_eq {qos qos' : QosInfo} (hmux : qos'.muxId = qos.muxId) (hsent : qos'.sent = qos.sent) :
    Sends qos qos' :=
  ⟨hmux, [], by rw [hsent, List.append_nil], by simp⟩

theorem Sends.refl (qos : QosInfo) : Sends qos qos := .of_eq rfl rfl

theorem Sends.trans {qos qos₁ qos₂ : QosInfo} (h : Sends qos qos₁) (h' : Sends qos₁ qos₂) :
    Sends qos qos₂ := by
  obtain ⟨hmux, ms, hms, hall⟩ := h
  obtain ⟨hmux', ms', hms', hall'⟩ := h'
  refine ⟨hmux'.trans hmux, ms ++ ms', by rw [hms', hms, List.append_assoc], ?_⟩
  intro m hm
  rcases List.mem_append.mp hm with hm | hm
  · exact hall m hm
  · rw [hall' m hm, hmux]

theorem Sends.foldl (step : QosInfo → Addr → QosInfo) (hstep : ∀ qos a, Sends qos (step qos a))
    (l : List Addr) : ∀ qos, Sends qos (l.foldl step qos) := by
  induction l with
  | nil => exact fun qos => Sends.refl qos
  | cons a l ih => exact fun qos => (hstep qos a).trans (ih _)

/-! ### One bearer at a time -/

/-- A lookup by the id of the bearer at `a` finds it. -/
def Listed (qos : QosInfo) (a : Addr) : Prop :=
  qmiRmnetGetBearerMap qos (qos.heap a).bearerId = some a

/-- **What a flow-control event does to the device.**  It writes `b` to the bearer at `a`, keeping its id,
sets queue states, and sends messages with the mux id of the `qos_info`; in QMAP mode they confirm `txIds`. -/
def Wrote (cfg : DfcConfig) (qos qos' : QosInfo) (a : Addr) (b : RmnetBearerMap) (txIds : List ℕ) : Prop :=
  b.bearerId = (qos.heap a).bearerId ∧
    ∃ st t ms, qos' = { qos with heap := Function.update qos.heap a b, stopped := st,
                                 sent := qos.sent ++ ms, tranNum := t } ∧
      (∀ m ∈ ms, m.muxId = qos.muxId) ∧ (cfg.dfcQmap = true → Listed qos a → confirmed ms = txIds)

section

variable {cfg : DfcConfig} {qos qos₁ qos₂ : QosInfo} {a : Addr} {b b' : RmnetBearerMap} {l l' : List ℕ}

theorem Wrote.heap_self (h : Wrote cfg qos qos₁ a b l) : qos₁.heap a = b := by
  obtain ⟨-, st, t, ms, rfl, -⟩ := h
  exact Function.update_self a b qos.heap

theorem Wrote.heap_ne (h : Wrote cfg qos qos₁ a b l) {c : Addr} (hc : c ≠ a) :
    qos₁.heap c = qos.heap c := by
  obtain ⟨-, st, t, ms, rfl, -⟩ := h
  exact Function.update_of_ne hc b qos.heap

theorem Wrote.bearerHead (h : Wrote cfg qos qos₁ a b l) : qos₁.bearerHead = qos.bearerHead := by
  obtain ⟨-, st, t, ms, rfl, -⟩ := h
  rfl

/-- Ids are kept, so lookups find what they found. -/
theorem Wrote.listed (h : Wrote cfg qos qos₁ a b l) {c : Addr} (hc : Listed qos c) : Listed qos₁ c := by
  have hid : ∀ x, (qos₁.heap x).bearerId = (qos.heap x).bearerId := by
    intro x
    by_cases hx : x = a
    · subst hx
      rw [h.heap_self, h.1]
    · rw [h.heap_ne hx]
  unfold Listed qmiRmnetGetBearerMap at hc ⊢
  simp only [h.bearerHead, hid]
  exact hc

theorem Wrote.sends (h : Wrote cfg qos qos₁ a b l) : Sends qos qos₁ := by
  obtain ⟨-, st, t, ms, rfl, hmux, -⟩ := h
  exact ⟨rfl, ms, rfl, hmux⟩

theorem Wrote.sent (h : Wrote cfg qos qos₁ a b l) (hq : cfg.dfcQmap = true) (hl : Listed qos a) :
    ∃ ms, qos₁.sent = qos.sent ++ ms ∧ confirmed ms = l := by
  obtain ⟨-, st, t, ms, rfl, -, hcnf⟩ := h
  exact ⟨ms, rfl, hcnf hq hl⟩

theorem Wrote.refl (cfg : DfcConfig) (qos : QosInfo) (a : Addr) :
    Wrote cfg qos qos a (qos.heap a) [] :=
  ⟨rfl, qos.stopped, qos.tranNum, [], by simp, by simp, fun _ _ => rfl⟩

theorem Wrote.trans (h : Wrote cfg qos qos₁ a b l) (h' : Wrote cfg qos₁ qos₂ a b' l') :
    Wrote cfg qos qos₂ a b' (l ++ l') := by
  have hself := h.heap_self
  have hlisted : Listed qos a → Listed qos₁ a := h.listed
  obtain ⟨hid, st, t, ms, rfl, hmux, hcnf⟩ := h
  obtain ⟨hid', st', t', ms', rfl, hmux', hcnf'⟩ := h'
  refine ⟨by rw [hid', hself, hid], st', t', ms ++ ms', by simp, ?_, ?_⟩
  · intro m hm
    rcases List.mem_append.mp hm with hm | hm
    · exact hmux m hm
    · exact hmux' m hm
  · intro hq hl
    rw [confirmed_append, hcnf hq hl, hcnf' hq (hlisted hl)]

theorem Wrote.modify (cfg : DfcConfig) (qos : QosInfo) (a : Addr) (f : RmnetBearerMap → RmnetBearerMap)
    (hid : (f (qos.heap a)).bearerId = (qos.heap a).bearerId) :
    Wrote cfg qos (qos.modifyBearer a f) a (f (qos.heap a)) [] :=
  ⟨hid, qos.stopped, qos.tranNum, [], by simp [QosInfo.modifyBearer], by simp, fun _ _ => rfl⟩

/-- A further write to the same bearer. -/
theorem Wrote.then_modify (h : Wrote cfg qos qos₁ a b l) (f : RmnetBearerMap → RmnetBearerMap)
    (hid : (f b).bearerId = b.bearerId) : Wrote cfg qos (qos₁.modifyBearer a f) a (f b) l := by
  have hf := Wrote.modify cfg qos₁ a f (by rw [h.heap_self, hid])
  rw [h.heap_self] at hf
  simpa using h.trans hf

/-- A message on its own. -/
theorem Wrote.send (qos : QosInfo) (a : Addr) {m : DfcMsg} (t : ℕ) (hmux : m.muxId = qos.muxId)
    (hcnf : cfg.dfcQmap = true → Listed qos a → confirmed [m] = l) :
    Wrote cfg qos { qos with sent := qos.sent ++ [m], tranNum := t } a (qos.heap a) l :=
  ⟨rfl, qos.stopped, t, [m], by simp, by simpa using hmux, hcnf⟩

theorem Wrote.stopped (cfg : DfcConfig) (qos : QosInfo) (a : Addr) (st : ℕ → Bool) :
    Wrote cfg qos { qos with stopped := st } a (qos.heap a) [] :=
  ⟨rfl, st, qos.tranNum, [], by simp, by simp, fun _ _ => rfl⟩

end

theorem qmapSendAck_wrote (cfg : DfcConfig) (qos : QosInfo) (a : Addr) (seq type : ℕ) :
    Wrote cfg qos (dfcQmapSendAck qos (qos.heap a).bearerId seq type) a (qos.heap a)
      (if type = dfcAckTypeDisable then [(qos.heap a).ackTxid] else []) := by
  unfold dfcQmapSendAck
  by_cases htype : type = dfcAckTypeDisable
  · simp only [if_pos htype]
    cases hg : qmiRmnetGetBearerMap qos (qos.heap a).bearerId with
    | none =>
      refine ⟨rfl, qos.stopped, qos.tranNum, [], by simp, by simp, fun _ hl => ?_⟩
      rw [Listed, hg] at hl
      cases hl
    | some c =>
      refine Wrote.send qos a qos.tranNum rfl fun _ hl => ?_
      rw [Listed, hg, Option.some.injEq] at hl
      rw [hl]
      rfl
  · simp only [if_neg htype]
    split
    · exact Wrote.send qos a qos.tranNum rfl fun _ _ => rfl
    · exact Wrote.refl cfg qos a

theorem sendAck_wrote (cfg : DfcConfig) (qos : QosInfo) (a : Addr) (seq type : ℕ) :
    Wrote cfg qos (dfcSendAck cfg qos (qos.heap a).bearerId seq qos.muxId type) a (qos.heap a)
      (if type = dfcAckTypeDisable then [(qos.heap a).ackTxid] else []) := by
  unfold dfcSendAck
  split
  · exact qmapSendAck_wrote cfg qos a seq type
  · rename_i hq
    exact Wrote.send qos a _ rfl fun h _ => absurd h hq

/-- `dfc_bearer_flow_ctl` writes queue states, and acknowledges when the grant is gone. -/
theorem bearerFlowCtl_send (cfg : DfcConfig) (qos : QosInfo) (a : Addr) :
    ∃ st, dfcBearerFlowCtl cfg qos a =
      if (qos.heap a).grantSize = 0 ∧ (qos.heap a).ackReq ≠ 0 then
        dfcSendAck cfg { qos with stopped := st } (qos.heap a).bearerId (qos.heap a).seq qos.muxId
          dfcAckTypeDisable
      else { qos with stopped := st } := by
  unfold dfcBearerFlowCtl
  simp only
  obtain ⟨st₁, h₁, -⟩ :=
    flowControl_eq qos (qos.heap a).mqIdx (decide ((qos.heap a).grantSize ≠ 0))
  rw [h₁]
  obtain ⟨st₂, h₂, -⟩ := flowControl_eq { qos with stopped := st₁ } (qos.heap a).ackMqIdx
    (decide ((qos.heap a).grantSize ≠ 0))
  rw [h₂]
  have hif : ∀ (p : Prop) [Decidable p], ∃ st, (if p then { qos with stopped := st₂ }
      else { qos with stopped := st₁ } : QosInfo) = { qos with stopped := st } := by
    intro p _
    split
    · exact ⟨st₂, rfl⟩
    · exact ⟨st₁, rfl⟩
  obtain ⟨st, hst⟩ := hif ((qos.heap a).ackMqIdx ≠ invalidMq ∧
    (decide ((qos.heap a).grantSize ≠ 0) || !(qos.heap a).tcpBidir) = true)
  rw [hst]
  refine ⟨st, if_congr ?_ rfl rfl⟩
  simp

theorem bearerFlowCtl_wrote (cfg : DfcConfig) (qos : QosInfo) (a : Addr) :
    Wrote cfg qos (dfcBearerFlowCtl cfg qos a) a (qos.heap a)
      (if (qos.heap a).grantSize = 0 ∧ (qos.heap a).ackReq ≠ 0 then [(qos.heap a).ackTxid] else []) := by
  obtain ⟨st, h⟩ := bearerFlowCtl_send cfg qos a
  rw [h]
  split
  · exact (Wrote.stopped cfg qos a st).trans
      (sendAck_wrote cfg { qos with stopped := st } a _ dfcAckTypeDisable)
  · exact Wrote.stopped cfg qos a st

theorem Wrote.flowCtl {cfg : DfcConfig} {qos qos₁ : QosInfo} {a : Addr} {b : RmnetBearerMap}
    {l : List ℕ} (h : Wrote cfg qos qos₁ a b l) : Wrote cfg qos (dfcBearerFlowCtl cfg qos₁ a) a b
      (l ++ if b.grantSize = 0 ∧ b.ackReq ≠ 0 then [b.ackTxid] else []) := by
  have hctl := bearerFlowCtl_wrote cfg qos₁ a
  rw [h.heap_self] at hctl
  exact h.trans hctl

/-- A further write to the same bearer, with queue control. -/
theorem Wrote.then_flowCtl {cfg : DfcConfig} {qos qos₁ : QosInfo} {a : Addr} {b : RmnetBearerMap}
    {l : List ℕ} (h : Wrote cfg qos qos₁ a b l) (f : RmnetBearerMap → RmnetBearerMap)
    (hid : (f b).bearerId = b.bearerId) :
    Wrote cfg qos (dfcBearerFlowCtl cfg (qos₁.modifyBearer a f) a) a (f b)
      (l ++ if (f b).grantSize = 0 ∧ (f b).ackReq ≠ 0 then [(f b).ackTxid] else []) :=
  (h.then_modify f hid).flowCtl

/-- What `qmi_rmnet_watchdog_fn` does to the bearer. -/
def watchdogFnBearer (cfg : DfcConfig) (b : RmnetBearerMap) : RmnetBearerMap :=
  if b.watchdogQuit then { b with watchdogStarted := false }
  else
    { b with
      watchdogExpireCnt := u32 (b.watchdogExpireCnt + 1)
      bytesInFlight := 0
      grantSize := if b.grantSize = 0 then defaultCallGrant else b.grantSize
      grantThresh := qmiRmnetGrantPer cfg (if b.grantSize = 0 then defaultCallGrant else b.grantSize)
      watchdogStarted := false }

theorem watchdogFn_wrote (cfg : DfcConfig) (qos : QosInfo) (a : Addr) :
    Wrote cfg qos (qmiRmnetWatchdogFn cfg qos a) a (watchdogFnBearer cfg (qos.heap a)) [] := by
  unfold qmiRmnetWatchdogFn watchdogFnBearer
  simp only
  by_cases hquit : (qos.heap a).watchdogQuit = true
  · rw [if_pos hquit, if_pos hquit]
    exact Wrote.modify cfg qos a _ rfl
  · rw [if_neg hquit, if_neg hquit]
    have h₁ := Wrote.modify cfg qos a (fun b =>
      { b with watchdogExpireCnt := u32 (b.watchdogExpireCnt + 1), bytesInFlight := 0 }) rfl
    rw [h₁.heap_self]
    by_cases hz : (qos.heap a).grantSize = 0
    · rw [if_pos hz, if_pos hz]
      have h₂ := h₁.then_flowCtl (fun b =>
        { b with grantSize := defaultCallGrant, grantThresh := qmiRmnetGrantPer cfg defaultCallGrant }) rfl
      exact h₂.then_modify (fun b => { b with watchdogStarted := false }) rfl
    · rw [if_neg hz, if_neg hz]
      have h₂ := h₁.then_modify (fun b => { b with grantThresh := qmiRmnetGrantPer cfg b.grantSize }) rfl
      exact h₂.then_modify (fun b => { b with watchdogStarted := false }) rfl

/-- The bearer with its bytes in flight updated, and the grant, as `dfc_update_fc_map` adjusts them. -/
def fcMapAdjust (cfg : DfcConfig) (fcInfo : FlowStatusInfo) (isQuery : Bool) (b : RmnetBearerMap) :
    RmnetBearerMap × ℕ :=
  if cfg.dfcQmap ∧ isQuery then dfcAdjustGrant b fcInfo
  else ({ b with bytesInFlight := 0 }, fcInfo.numBytes)

/-- The ids that `applyFcMap` confirms: a parked request when the indication does not ask for an
acknowledgement itself, and then the acknowledgement that it does ask for, when it takes the grant away. -/
def fcMapConfirms (cfg : DfcConfig) (ackReq : ℕ) (fcInfo : FlowStatusInfo) (isQuery : Bool)
    (b : RmnetBearerMap) : List ℕ :=
  if b.ackReq ≠ 0 ∧ ackReq = 0 ∧ b.grantSize ≠ 0 then [b.ackTxid]
  else if 0 < b.grantSize ∧ (fcMapAdjust cfg fcInfo isQuery b).2 = 0 ∧ ackReq ≠ 0 then [b.ackTxid]
  else []

theorem fcMapAdjust_keeps (cfg : DfcConfig) (fcInfo : FlowStatusInfo) (isQuery : Bool)
    (b : RmnetBearerMap) : ∃ n, (fcMapAdjust cfg fcInfo isQuery b).1 = { b with bytesInFlight := n } := by
  unfold fcMapAdjust dfcAdjustGrant
  split
  · split
    · exact ⟨b.bytesInFlight, rfl⟩
    · exact ⟨_, rfl⟩
  · exact ⟨0, rfl⟩

/-- What `fcMapGrant` leaves alone. -/
theorem fcMapGrant_keeps (cfg : DfcConfig) (ackReq ancillary : ℕ) (fcInfo : FlowStatusInfo)
    (isQuery : Bool) (g : ℕ) (b : RmnetBearerMap) :
    let b' := fcMapGrant cfg ackReq ancillary fcInfo isQuery g b
    b'.bearerId = b.bearerId ∧ b'.grantSize = g ∧ b'.ackReq = ackReq ∧ b'.ackTxid = b.ackTxid ∧
      b'.txOff = b.txOff ∧ b'.ratSwitch = b.ratSwitch := by
  unfold fcMapGrant qmiRmnetWatchdogAdd qmiRmnetWatchdogRemove
  simp only
  repeat' split
  all_goals simp

theorem applyFcMap_wrote (cfg : DfcConfig) (qos : QosInfo) (a : Addr) (ackReq ancillary : ℕ)
    (fcInfo : FlowStatusInfo) (isQuery : Bool) :
    let p := fcMapAdjust cfg fcInfo isQuery (qos.heap a)
    Wrote cfg qos (applyFcMap cfg qos a ackReq ancillary fcInfo isQuery) a
      (fcMapGrant cfg ackReq ancillary fcInfo isQuery p.2 p.1)
      (fcMapConfirms cfg ackReq fcInfo isQuery (qos.heap a)) := by
  intro p
  obtain ⟨n, hn⟩ := fcMapAdjust_keeps cfg fcInfo isQuery (qos.heap a)
  have hfold : applyFcMap cfg qos a ackReq ancillary fcInfo isQuery =
      let q₁ := qos.modifyBearer a fun _ => p.1
      let q₂ := if cfg.dfcQmap = true ∧ p.1.ackReq ≠ 0 ∧ ackReq = 0 ∧ p.1.grantSize ≠ 0 then
          dfcQmapSendAck q₁ p.1.bearerId p.1.seq dfcAckTypeDisable else q₁
      let q₃ := q₂.modifyBearer a (fcMapGrant cfg ackReq ancillary fcInfo isQuery p.2)
      if (p.1.grantSize = 0 ∧ 0 < p.2) ∨ (0 < p.1.grantSize ∧ p.2 = 0) then dfcBearerFlowCtl cfg q₃ a
      else q₃ := rfl
  rw [hfold]
  simp only
  have hp : p.1 = { qos.heap a with bytesInFlight := n } := hn
  set q₁ := qos.modifyBearer a fun _ => p.1 with hq₁
  have h₁ : Wrote cfg qos q₁ a p.1 [] := Wrote.modify cfg qos a _ (by rw [hp])
  -- the parked request
  set q₂ := if cfg.dfcQmap = true ∧ p.1.ackReq ≠ 0 ∧ ackReq = 0 ∧ p.1.grantSize ≠ 0 then
      dfcQmapSendAck q₁ p.1.bearerId p.1.seq dfcAckTypeDisable else q₁ with hq₂
  have h₂ : Wrote cfg q₁ q₂ a p.1
      (if p.1.ackReq ≠ 0 ∧ ackReq = 0 ∧ p.1.grantSize ≠ 0 then [p.1.ackTxid] else []) := by
    rw [hq₂]
    by_cases hpark : p.1.ackReq ≠ 0 ∧ ackReq = 0 ∧ p.1.grantSize ≠ 0
    · rw [if_pos hpark]
      by_cases hqmap : cfg.dfcQmap = true
      · rw [if_pos ⟨hqmap, hpark⟩]
        have h := qmapSendAck_wrote cfg q₁ a p.1.seq dfcAckTypeDisable
        rwa [h₁.heap_self, if_pos rfl] at h
      · rw [if_neg fun h => hqmap h.1]
        obtain ⟨hid, st, t, ms, heq, hmux, -⟩ := Wrote.refl cfg q₁ a
        rw [h₁.heap_self] at hid heq
        exact ⟨by rw [h₁.heap_self], st, t, ms, heq, hmux, fun h => absurd h hqmap⟩
    · rw [if_neg hpark, if_neg fun h => hpark h.2]
      have h := Wrote.refl cfg q₁ a
      rwa [h₁.heap_self] at h
  have h₁₂ := h₁.trans h₂
  obtain ⟨hkid, hkg, hkack, hktx, -, -⟩ := fcMapGrant_keeps cfg ackReq ancillary fcInfo isQuery p.2 p.1
  have hconf : fcMapConfirms cfg ackReq fcInfo isQuery (qos.heap a)
      = if p.1.ackReq ≠ 0 ∧ ackReq = 0 ∧ p.1.grantSize ≠ 0 then [p.1.ackTxid]
        else if 0 < p.1.grantSize ∧ p.2 = 0 ∧ ackReq ≠ 0 then [p.1.ackTxid] else [] := by
    rw [hp]
    rfl
  rw [hconf]
  by_cases hact : (p.1.grantSize = 0 ∧ 0 < p.2) ∨ (0 < p.1.grantSize ∧ p.2 = 0)
  · rw [if_pos hact]
    have h₃ := h₁₂.then_flowCtl (fcMapGrant cfg ackReq ancillary fcInfo isQuery p.2) hkid
    rw [hkg, hkack, hktx, List.nil_append] at h₃
    convert h₃ using 1
    by_cases hreq : ackReq = 0
    · simp [hreq]
    · rcases hact with ⟨h₀, hpos⟩ | ⟨hpos, h₀⟩
      · simp [hreq, h₀, Nat.ne_of_gt hpos]
      · simp [hreq, h₀, hpos]
  · rw [if_neg hact]
    have h₃ := h₁₂.then_modify (fcMapGrant cfg ackReq ancillary fcInfo isQuery p.2) hkid
    rw [List.nil_append] at h₃
    have hneg : ¬ (0 < p.1.grantSize ∧ p.2 = 0 ∧ ackReq ≠ 0) := fun h => hact (.inr ⟨h.1, h.2.1⟩)
    rwa [if_neg hneg]

/-- What `dfc_update_fc_map` does to the bearer that it finds or creates. -/
def fcMapBearer (cfg : DfcConfig) (ackReq ancillary : ℕ) (fcInfo : FlowStatusInfo) (isQuery : Bool)
    (b : RmnetBearerMap) : RmnetBearerMap :=
  let b := if dfcIsRatSwitch ancillary then { b with ratSwitch := fcInfo.numBytes = 0 } else b
  if !dfcIsRatSwitch ancillary ∧ b.ratSwitch then b
  else if b.txOff ∧ 0 < fcInfo.numBytes then b
  else
    fcMapGrant cfg ackReq ancillary fcInfo isQuery (fcMapAdjust cfg fcInfo isQuery b).2
      (fcMapAdjust cfg fcInfo isQuery b).1

/-- The ids that it confirms: none unless it is applied. -/
def fcMapBearerConfirms (cfg : DfcConfig) (ackReq ancillary : ℕ) (fcInfo : FlowStatusInfo) (isQuery : Bool)
    (b : RmnetBearerMap) : List ℕ :=
  let b := if dfcIsRatSwitch ancillary then { b with ratSwitch := fcInfo.numBytes = 0 } else b
  if (!dfcIsRatSwitch ancillary ∧ b.ratSwitch) ∨ (b.txOff ∧ 0 < fcInfo.numBytes) then []
  else fcMapConfirms cfg ackReq fcInfo isQuery b

theorem updateFcMapBearer_wrote (cfg : DfcConfig) (qos : QosInfo) (a : Addr) (ackReq ancillary : ℕ)
    (fcInfo : FlowStatusInfo) (isQuery : Bool) :
    Wrote cfg qos (updateFcMapBearer cfg qos a ackReq ancillary fcInfo isQuery) a
      (fcMapBearer cfg ackReq ancillary fcInfo isQuery (qos.heap a))
      (fcMapBearerConfirms cfg ackReq ancillary fcInfo isQuery (qos.heap a)) := by
  unfold updateFcMapBearer fcMapBearer fcMapBearerConfirms
  simp only
  by_cases hrat : dfcIsRatSwitch ancillary = true
  · simp only [hrat, if_true, Bool.not_true, Bool.false_eq_true, false_and, if_false, false_or]
    have h₁ := Wrote.modify cfg qos a (fun b => { b with ratSwitch := fcInfo.numBytes = 0 }) rfl
    rw [h₁.heap_self]
    by_cases hoff : (qos.heap a).txOff = true ∧ 0 < fcInfo.numBytes
    · rw [if_pos hoff, if_pos hoff, if_pos hoff]
      exact h₁
    · rw [if_neg hoff, if_neg hoff, if_neg hoff]
      have h₂ := applyFcMap_wrote cfg (qos.modifyBearer a fun b => { b with ratSwitch := fcInfo.numBytes = 0 })
        a ackReq ancillary fcInfo isQuery
      rw [h₁.heap_self] at h₂
      exact h₁.trans h₂
  · simp only [hrat, Bool.false_eq_true, if_false, Bool.not_false, true_and]
    by_cases hsw : (qos.heap a).ratSwitch = true
    · rw [if_pos hsw, if_pos hsw, if_pos (.inl hsw)]
      exact Wrote.refl cfg qos a
    · rw [if_neg hsw, if_neg hsw]
      by_cases hoff : (qos.heap a).txOff = true ∧ 0 < fcInfo.numBytes
      · rw [if_pos hoff, if_pos hoff, if_pos (.inr hoff)]
        exact Wrote.refl cfg qos a
      · rw [if_neg hoff, if_neg hoff, if_neg (not_or.mpr ⟨hsw, hoff⟩)]
        exact applyFcMap_wrote cfg qos a ackReq ancillary fcInfo isQuery

/-- What `dfc_update_tx_link_status` does to the bearer that it finds. -/
def txLinkBearer (cfg : DfcConfig) (txStatus : Bool) (b : RmnetBearerMap) : RmnetBearerMap :=
  if b.txOff = !txStatus then b
  else if b.grantSize ≠ 0 ∧ !txStatus then
    { qmiRmnetWatchdogRemove { b with grantSize := 0, tcpBidir := false, bytesInFlight := 0 } with
      txOff := !txStatus }
  else if b.grantSize = 0 ∧ txStatus ∧ !b.ratSwitch then
    { b with grantSize := defaultGrant, grantThresh := qmiRmnetGrantPer cfg defaultGrant, seq := 0,
             ackReq := 0, txOff := !txStatus }
  else { b with txOff := !txStatus }

/-- The id that it confirms: the one that is parked when the link goes down with a grant left. -/
def txLinkConfirms (txStatus : Bool) (b : RmnetBearerMap) : List ℕ :=
  if b.txOff = false ∧ txStatus = false ∧ b.grantSize ≠ 0 ∧ b.ackReq ≠ 0 then [b.ackTxid] else []

/-- What `qmi_rmnet_watchdog_remove` leaves alone. -/
theorem watchdogRemove_keeps (b : RmnetBearerMap) :
    let b' := qmiRmnetWatchdogRemove b
    b'.bearerId = b.bearerId ∧ b'.grantSize = b.grantSize ∧ b'.ackReq = b.ackReq ∧
      b'.ackTxid = b.ackTxid ∧ b'.txOff = b.txOff ∧ b'.ratSwitch = b.ratSwitch := by
  unfold qmiRmnetWatchdogRemove
  simp only
  split <;> simp

theorem watchdogRemove_quit (b : RmnetBearerMap) : (qmiRmnetWatchdogRemove b).watchdogQuit = true := by
  unfold qmiRmnetWatchdogRemove
  simp only
  split <;> rfl

theorem updateTxLinkStatus_wrote (cfg : DfcConfig) {qos : QosInfo} {a : Addr} {bearerId : ℕ}
    (txStatus : Bool) (ha : qmiRmnetGetBearerMap qos bearerId = some a) :
    Wrote cfg qos (dfcUpdateTxLinkStatus cfg qos txStatus bearerId) a
      (txLinkBearer cfg txStatus (qos.heap a)) (txLinkConfirms txStatus (qos.heap a)) := by
  unfold dfcUpdateTxLinkStatus txLinkBearer txLinkConfirms
  rw [ha]
  simp only
  have hset : ∀ q b l, Wrote cfg qos q a b l → Wrote cfg qos
      (q.modifyBearer a fun b => { b with txOff := !txStatus }) a { b with txOff := !txStatus } l :=
    fun q b l h => h.then_modify (fun b => { b with txOff := !txStatus }) rfl
  by_cases hsame : (qos.heap a).txOff = !txStatus
  · rw [if_pos hsame, if_pos hsame, if_neg]
    · exact Wrote.refl cfg qos a
    · rintro ⟨h₁, h₂, -⟩
      rw [h₁, h₂] at hsame
      cases hsame
  · rw [if_neg hsame, if_neg hsame]
    by_cases hdown : (qos.heap a).grantSize ≠ 0 ∧ (!txStatus) = true
    · rw [if_pos hdown, if_pos hdown]
      obtain ⟨hid, hg, hreq, hack, -, -⟩ := watchdogRemove_keeps
        { qos.heap a with grantSize := 0, tcpBidir := false, bytesInFlight := 0 }
      have h := (Wrote.refl cfg qos a).then_flowCtl (fun b => qmiRmnetWatchdogRemove
        { b with grantSize := 0, tcpBidir := false, bytesInFlight := 0 }) hid
      rw [hg, hreq, hack] at h
      have htx : txStatus = false := by simpa using hdown.2
      have hoff : (qos.heap a).txOff = false := by simpa [htx] using hsame
      simp only [List.nil_append, true_and] at h
      simpa only [hoff, htx, hdown.1, true_and, ne_eq, not_false_eq_true] using hset _ _ _ h
    · rw [if_neg hdown, if_neg hdown]
      have hnil : ¬ ((qos.heap a).txOff = false ∧ txStatus = false ∧ (qos.heap a).grantSize ≠ 0 ∧
          (qos.heap a).ackReq ≠ 0) := fun h => hdown ⟨h.2.2.1, by simp [h.2.1]⟩
      rw [if_neg hnil]
      by_cases hup : (qos.heap a).grantSize = 0 ∧ txStatus = true ∧ (!(qos.heap a).ratSwitch) = true
      · rw [if_pos hup, if_pos hup]
        exact hset _ _ _ ((Wrote.refl cfg qos a).then_flowCtl (fun b =>
          { b with grantSize := defaultGrant, grantThresh := qmiRmnetGrantPer cfg defaultGrant,
                   seq := 0, ackReq := 0 }) rfl)
      · rw [if_neg hup, if_neg hup]
        exact hset _ _ _ (Wrote.refl cfg qos a)

/-- What `dfc_qmi_burst_check` does to the bearer that a packet of `len` bytes is charged to. -/
def burstBearer (len : ℕ) (b : RmnetBearerMap) : RmnetBearerMap :=
  { b with
    bytesInFlight := u32 (b.bytesInFlight + len)
    grantSize := if b.grantSize ≤ len then 0 else b.grantSize - len }

/-- The id that it confirms: the one that is parked when the packet takes the last of the grant. -/
def burstConfirms (len : ℕ) (b : RmnetBearerMap) : List ℕ :=
  if b.grantSize ≠ 0 ∧ b.grantSize ≤ len ∧ b.ackReq ≠ 0 then [b.ackTxid] else []

theorem burstCheck_wrote (cfg : DfcConfig) {qos : QosInfo} {a : Addr} {ipType : ℤ} {mark : ℕ} (len : ℕ)
    (ha : (qmiRmnetGetFlowMap qos mark ipType).bind RmnetFlowMap.bearer = some a) :
    Wrote cfg qos (dfcQmiBurstCheck cfg qos ipType mark len) a (burstBearer len (qos.heap a))
      (burstConfirms len (qos.heap a)) := by
  unfold dfcQmiBurstCheck burstBearer burstConfirms
  rw [ha]
  simp only
  have h₁ := Wrote.modify cfg qos a (fun b => { b with bytesInFlight := u32 (b.bytesInFlight + len) }) rfl
  rw [h₁.heap_self]
  by_cases hz : (qos.heap a).grantSize = 0
  · rw [if_pos hz]
    simpa [hz] using h₁
  · rw [if_neg hz]
    have h₂ := h₁.then_modify (fun b =>
      { b with grantSize := if b.grantSize ≤ len then 0 else b.grantSize - len }) rfl
    rw [h₂.heap_self]
    set q := (qos.modifyBearer a fun b => { b with bytesInFlight := u32 (b.bytesInFlight + len) }).modifyBearer a
      fun b => { b with grantSize := if b.grantSize ≤ len then 0 else b.grantSize - len } with hq
    -- the message at the threshold confirms nothing
    have hthresh : ∀ p : Prop, ∀ [Decidable p], Wrote cfg q (if p then
        dfcSendAck cfg q (q.heap a).bearerId (q.heap a).seq q.muxId dfcAckTypeThreshold else q) a
          (q.heap a) [] := by
      intro p _
      split
      · exact sendAck_wrote cfg q a _ dfcAckTypeThreshold
      · exact Wrote.refl cfg q a
    have h₃ := fun p (hp : Decidable p) => h₂.trans (hthresh p)
    simp only [h₂.heap_self] at h₃ ⊢
    by_cases hle : (qos.heap a).grantSize ≤ len
    · simp only [if_pos hle, if_true] at h₃ ⊢
      simpa [hz, hle] using (h₃ _ _).flowCtl
    · have hne : ¬ (qos.heap a).grantSize - len = 0 := by omega
      simp only [if_neg hle, if_neg hne] at h₃ ⊢
      simpa [hle] using h₃ _ _

/-- What `qmi_rmnet_enable_all_flows` does to each bearer. -/
def enableBearer (cfg : DfcConfig) (b : RmnetBearerMap) : RmnetBearerMap :=
  let b := qmiRmnetWatchdogRemove
    { b with seq := 0, ackReq := 0, bytesInFlight := 0, tcpBidir := false, ratSwitch := false }
  if b.txOff then b
  else { b with grantSize := defaultGrant, grantThresh := qmiRmnetGrantPer cfg defaultGrant }

theorem enableFlowsOf_wrote (cfg : DfcConfig) (qos : QosInfo) (a : Addr) :
    Wrote cfg qos (enableFlowsOf cfg qos a) a (enableBearer cfg (qos.heap a)) [] := by
  unfold enableFlowsOf enableBearer
  simp only
  set f : RmnetBearerMap → RmnetBearerMap := fun b => qmiRmnetWatchdogRemove
    { b with seq := 0, ackReq := 0, bytesInFlight := 0, tcpBidir := false, ratSwitch := false } with hf
  have h₁ := Wrote.modify cfg qos a f (watchdogRemove_keeps _).1
  rw [h₁.heap_self]
  change Wrote cfg qos _ a (if (f (qos.heap a)).txOff = true then f (qos.heap a) else
    { f (qos.heap a) with grantSize := defaultGrant, grantThresh := qmiRmnetGrantPer cfg defaultGrant }) []
  split
  · exact h₁
  · split
    · exact h₁.then_flowCtl (fun b =>
        { b with grantSize := defaultGrant, grantThresh := qmiRmnetGrantPer cfg defaultGrant }) rfl
    · exact h₁.then_modify (fun b =>
        { b with grantSize := defaultGrant, grantThresh := qmiRmnetGrantPer cfg defaultGrant }) rfl

theorem allBearerGrant_wrote (cfg : DfcConfig) (qos : QosInfo) (a : Addr) (ackReq ancillary : ℕ)
    (fcInfo : FlowStatusInfo) :
    Wrote cfg qos (dfcBearerFlowCtl cfg
        (qos.modifyBearer a (allBearerGrant cfg ackReq ancillary fcInfo)) a) a
      (allBearerGrant cfg ackReq ancillary fcInfo (qos.heap a))
      (if fcInfo.numBytes = 0 ∧ ackReq ≠ 0 then [(qos.heap a).ackTxid] else []) :=
  (Wrote.refl cfg qos a).then_flowCtl (allBearerGrant cfg ackReq ancillary fcInfo) rfl

/-- What `dfc_qmap_set_end_marker` does to the bearer that it finds. -/
def endMarkerBearer (seqNum txId : ℕ) (b : RmnetBearerMap) : RmnetBearerMap :=
  if b.lastSeq = seqNum ∧ b.grantSize ≠ 0 then { b with ackReq := 1, ackTxid := txId } else b

theorem setEndMarker_wrote (cfg : DfcConfig) {qos : QosInfo} {a : Addr} {bearerId : ℕ} (seqNum txId : ℕ)
    (ha : qmiRmnetGetBearerMap qos bearerId = some a) :
    Wrote cfg qos (dfcQmapSetEndMarker qos bearerId seqNum txId) a
      (endMarkerBearer seqNum txId (qos.heap a))
      (if (qos.heap a).lastSeq = seqNum ∧ (qos.heap a).grantSize ≠ 0 then [] else [txId]) := by
  unfold dfcQmapSetEndMarker endMarkerBearer
  rw [ha]
  simp only
  split
  · exact Wrote.modify cfg qos a _ rfl
  · exact Wrote.send qos a qos.tranNum rfl fun _ _ => rfl

theorem setEndMarker_none (cfg : DfcConfig) {qos : QosInfo} {bearerId : ℕ} (seqNum txId : ℕ)
    (hnone : qmiRmnetGetBearerMap qos bearerId = none) (a : Addr) :
    Wrote cfg qos (dfcQmapSetEndMarker qos bearerId seqNum txId) a (qos.heap a) [txId] := by
  unfold dfcQmapSetEndMarker
  rw [hnone]
  exact Wrote.send qos a qos.tranNum rfl fun _ _ => rfl

/-! ### Table operations -/

/-- The two bearers differ in what the table operations write. -/
def SameDfc (b b' : RmnetBearerMap) : Prop :=
  b' = { b with flowRef := b'.flowRef, mqIdx := b'.mqIdx, ackMqIdx := b'.ackMqIdx }

/-- **What a flow activation or deactivation does to flow control.**  It sends nothing, and each bearer is as
before, or newly allocated. -/
structure TableWrite (cfg : DfcConfig) (qos qos' : QosInfo) : Prop where
  muxId : qos'.muxId = qos.muxId
  sent : qos'.sent = qos.sent
  heap : ∀ a, SameDfc (qos.heap a) (qos'.heap a) ∨ ∃ id, SameDfc (newBearer cfg id) (qos'.heap a)

theorem SameDfc.refl (b : RmnetBearerMap) : SameDfc b b := rfl

theorem SameDfc.trans {b b₁ b₂ : RmnetBearerMap} (h : SameDfc b b₁) (h' : SameDfc b₁ b₂) :
    SameDfc b b₂ := by
  unfold SameDfc at h h' ⊢
  rw [h', h]

theorem TableWrite.of_heap (cfg : DfcConfig) {qos qos' : QosInfo} (hmux : qos'.muxId = qos.muxId)
    (hsent : qos'.sent = qos.sent) (hheap : qos'.heap = qos.heap) : TableWrite cfg qos qos' :=
  ⟨hmux, hsent, fun a => .inl (by rw [hheap]; exact SameDfc.refl _)⟩

theorem TableWrite.refl (cfg : DfcConfig) (qos : QosInfo) : TableWrite cfg qos qos :=
  .of_heap cfg rfl rfl rfl

theorem TableWrite.trans {cfg : DfcConfig} {qos qos₁ qos₂ : QosInfo} (h : TableWrite cfg qos qos₁)
    (h' : TableWrite cfg qos₁ qos₂) : TableWrite cfg qos qos₂ := by
  refine ⟨h'.muxId.trans h.muxId, h'.sent.trans h.sent, fun a => ?_⟩
  rcases h'.heap a with hs' | hnew
  · rcases h.heap a with hs | ⟨id, hs⟩
    · exact .inl (hs.trans hs')
    · exact .inr ⟨id, hs.trans hs'⟩
  · exact .inr hnew

theorem TableWrite.sends {cfg : DfcConfig} {qos qos' : QosInfo} (h : TableWrite cfg qos qos') :
    Sends qos qos' := .of_eq h.muxId h.sent

theorem TableWrite.modify (cfg : DfcConfig) (qos : QosInfo) (a : Addr)
    {f : RmnetBearerMap → RmnetBearerMap} (hf : ∀ b, SameDfc b (f b)) :
    TableWrite cfg qos (qos.modifyBearer a f) := by
  refine ⟨rfl, rfl, fun b => .inl ?_⟩
  by_cases hba : b = a
  · subst hba
    rw [modifyBearer_heap_self]
    exact hf _
  · rw [modifyBearer_heap_ne qos hba]
    exact SameDfc.refl _

/-- A change of the reference count alone. -/
theorem TableWrite.flowRef (cfg : DfcConfig) (qos : QosInfo) (a : Addr) (g : ℤ → ℤ) :
    TableWrite cfg qos (qos.modifyBearer a fun b => { b with flowRef := g b.flowRef }) :=
  .modify cfg qos a fun _ => rfl

theorem flowControl_write (cfg : DfcConfig) (qos : QosInfo) (i : ℕ) (e : Bool) :
    TableWrite cfg qos (qmiRmnetFlowControl qos i e) := by
  obtain ⟨st, h, -⟩ := flowControl_eq qos i e
  rw [h]
  exact .of_heap cfg rfl rfl rfl

theorem bearerClean_write (cfg : DfcConfig) (qos : QosInfo) : TableWrite cfg qos (qmiRmnetBearerClean qos) := by
  unfold qmiRmnetBearerClean
  split
  · exact .refl cfg qos
  · exact .of_heap cfg rfl rfl rfl

theorem bearerGet_write (cfg : DfcConfig) (kzalloc : Bool) (qos : QosInfo) (id : ℕ) :
    TableWrite cfg qos (qmiRmnetBearerGet cfg kzalloc qos id).1 := by
  unfold qmiRmnetBearerGet
  split
  · exact .flowRef cfg qos _ (· + 1)
  · split
    · refine ⟨rfl, rfl, fun a => ?_⟩
      by_cases ha : a = qos.nextAddr
      · subst ha
        rw [linkBearer_heap_new]
        exact .inr ⟨id, SameDfc.refl _⟩
      · rw [linkBearer_heap_old qos _ ha]
        exact .inl (SameDfc.refl _)
    · exact .refl cfg qos

theorem bearerPut_write (cfg : DfcConfig) (qos : QosInfo) (bearer : Option Addr) (reset : Bool) :
    TableWrite cfg qos (qmiRmnetBearerPut cfg qos bearer reset) := by
  unfold qmiRmnetBearerPut
  split
  · exact .refl cfg qos
  · rename_i a
    simp only
    refine (TableWrite.flowRef cfg qos a (· - 1)).trans ?_
    split
    · obtain ⟨st, h, -⟩ := unlinkBearer_eq cfg a reset
        (qos.modifyBearer a fun b => { b with flowRef := b.flowRef - 1 })
      rw [h]
      exact .of_heap cfg rfl rfl rfl
    · exact .refl cfg _

theorem updateMq_write (cfg : DfcConfig) (qos : QosInfo) (a : Addr) (mqIdx : ℕ) :
    TableWrite cfg qos (qmiRmnetUpdateMq cfg qos a mqIdx) := by
  unfold qmiRmnetUpdateMq
  split
  · exact .refl cfg qos
  · split
    · simp only
      have hmq : TableWrite cfg qos { qos with mq := Function.update qos.mq mqIdx (some a) } :=
        .of_heap cfg rfl rfl rfl
      set q : QosInfo := ({ qos with mq := Function.update qos.mq mqIdx (some a) } : QosInfo).modifyBearer a
        fun b => if cfg.dfcMode = dfcModeSa then { b with mqIdx := mqIdx, ackMqIdx := mqIdx + ackMqOffset }
          else { b with mqIdx := mqIdx } with hq
      have hidx : TableWrite cfg { qos with mq := Function.update qos.mq mqIdx (some a) } q := by
        refine .modify cfg _ a fun b => ?_
        split <;> rfl
      have hctl := flowControl_write cfg q mqIdx (decide (0 < (q.heap a).grantSize))
      refine ((hmq.trans hidx).trans hctl).trans ?_
      split
      · exact flowControl_write cfg _ _ _
      · exact .refl cfg _
    · exact .refl cfg qos

theorem getBearerNoref_write (cfg : DfcConfig) (kzalloc : Bool) (qos : QosInfo) (id : ℕ) :
    TableWrite cfg qos (qmiRmnetGetBearerNoref cfg kzalloc qos id).1 := by
  have hget := bearerGet_write cfg kzalloc qos id
  unfold qmiRmnetGetBearerNoref
  split
  · rename_i heq
    rwa [heq] at hget
  · rename_i heq
    rw [heq] at hget
    exact hget.trans (.flowRef cfg _ _ (· - 1))

theorem delFlow_write (cfg : DfcConfig) (qos : QosInfo) (tcm : FlowReq) :
    TableWrite cfg qos (qmiRmnetDelFlow cfg qos tcm) := by
  have hwake : ∀ q : QosInfo, TableWrite cfg q
      (qmiRmnetBearerClean (if q.flowHead = [] then netifTxWakeAllQueues q else q)) := by
    intro q
    refine TableWrite.trans ?_ (bearerClean_write cfg _)
    split
    · exact .of_heap cfg rfl rfl rfl
    · exact .refl cfg q
  unfold qmiRmnetDelFlow
  simp only
  split
  · exact hwake qos
  · rename_i itm _
    refine TableWrite.trans ?_ (hwake _)
    exact (bearerPut_write cfg qos itm.bearer true).trans (.of_heap cfg rfl rfl rfl)

theorem createFlow_write (cfg : DfcConfig) (kzFlow kzBearer : Bool) (qos : QosInfo) (tcm : FlowReq) :
    TableWrite cfg qos (createFlow cfg kzFlow kzBearer qos tcm).1 := by
  unfold createFlow
  split
  · set itm : RmnetFlowMap := { bearerId := tcm.bearerId, flowId := tcm.flowId, ipType := tcm.ipType,
                                mqIdx := tcm.mqIdx, bearer := none }
    have hget := bearerGet_write cfg kzBearer { qos with flowHead := itm :: qos.flowHead } tcm.bearerId
    have hlink : TableWrite cfg qos { qos with flowHead := itm :: qos.flowHead } := .of_heap cfg rfl rfl rfl
    simp only
    split
    · rename_i heq
      rw [heq] at hget
      exact (hlink.trans hget).trans (bearerClean_write cfg _)
    · rename_i q a heq
      rw [heq] at hget
      have hset : TableWrite cfg q { q with
          flowHead := updateFlowMap itm.key { itm with bearer := some a } q.flowHead } :=
        .of_heap cfg rfl rfl rfl
      have hmq := updateMq_write cfg { q with
        flowHead := updateFlowMap itm.key { itm with bearer := some a } q.flowHead } a tcm.mqIdx
      exact (((hlink.trans hget).trans hset).trans hmq).trans (bearerClean_write cfg _)
  · exact .refl cfg qos

theorem rebindFlow_write (cfg : DfcConfig) (kzalloc : Bool) (qos : QosInfo) (itm : RmnetFlowMap)
    (new : FlowReq) : TableWrite cfg qos (qmiRmnetRebindFlow cfg kzalloc qos itm new).1 := by
  have hput := bearerPut_write cfg qos itm.bearer false
  have hget := bearerGet_write cfg kzalloc (qmiRmnetBearerPut cfg qos itm.bearer false) new.bearerId
  unfold qmiRmnetRebindFlow
  simp only
  split
  · rename_i heq
    rw [heq] at hget
    exact hput.trans hget
  · rename_i q a heq
    rw [heq] at hget
    have hset : TableWrite cfg q { q with
        flowHead := updateFlowMap itm.key
          { bearerId := new.bearerId, flowId := new.flowId, ipType := new.ipType, mqIdx := new.mqIdx,
            bearer := some a } q.flowHead } := .of_heap cfg rfl rfl rfl
    exact ((hput.trans hget).trans hset).trans (updateMq_write cfg _ a new.mqIdx)

/-- The induction is on the fuel: every jump to `again` follows a deactivation. -/
theorem addFlowAgain_write (cfg : DfcConfig) (kzFlow kzBearer : Bool) (tcm : FlowReq) (fuel : ℕ) :
    ∀ (k : ℕ) (qos : QosInfo) (r : QosInfo × ℤ × ℕ),
      addFlowAgain cfg kzFlow kzBearer tcm fuel k qos = some r → TableWrite cfg qos r.1 := by
  induction fuel with
  | zero =>
    intro k qos r h
    cases h
  | succ fuel ih =>
    intro k qos r h
    rw [addFlowAgain] at h
    cases hg : qmiRmnetGetFlowMap qos tcm.flowId tcm.ipType with
    | none =>
      rw [hg] at h
      cases h
      exact createFlow_write cfg kzFlow kzBearer qos tcm
    | some itm =>
      rw [hg] at h
      simp only at h
      split at h
      · cases h
        exact (rebindFlow_write cfg kzBearer qos itm tcm).trans (bearerClean_write cfg _)
      · split at h
        · exact (delFlow_write cfg qos _).trans (ih (k + 1) _ r h)
        · cases h
          exact bearerClean_write cfg qos

theorem addFlow_write (cfg : DfcConfig) (kzFlow kzBearer : Bool) (qos : QosInfo) (tcm : FlowReq) :
    TableWrite cfg qos (((qmiRmnetAddFlow cfg kzFlow kzBearer qos tcm).map Prod.fst).getD qos) := by
  unfold qmiRmnetAddFlow
  split
  · exact .refl cfg qos
  · cases h : addFlowAgain cfg kzFlow kzBearer tcm (qos.flowHead.length + 1) 0 qos with
    | none => exact .refl cfg qos
    | some r => exact addFlowAgain_write cfg kzFlow kzBearer tcm _ 0 qos r h

theorem updateFcMap_sends (cfg : DfcConfig) (kzalloc : Bool) (qos : QosInfo) (ackReq ancillary : ℕ)
    (fcInfo : FlowStatusInfo) (isQuery : Bool) :
    Sends qos (dfcUpdateFcMap cfg kzalloc qos ackReq ancillary fcInfo isQuery) := by
  have hget := (getBearerNoref_write cfg kzalloc qos fcInfo.bearerId).sends
  unfold dfcUpdateFcMap
  split
  · exact (updateFcMapBearer_wrote cfg qos _ ackReq ancillary fcInfo isQuery).sends
  · split
    · rename_i heq
      rwa [heq] at hget
    · rename_i heq
      rw [heq] at hget
      exact hget.trans (updateFcMapBearer_wrote cfg _ _ ackReq ancillary fcInfo isQuery).sends

/-- **Every event sends with the mux id of the `qos_info`.** -/
theorem dfcEvent_sends (cfg : DfcConfig) (qos : QosInfo) (e : DfcEvent) :
    Sends qos (dfcEventQos cfg qos e) := by
  cases e with
  | addFlow kzFlow kzBearer tcm => exact (addFlow_write cfg kzFlow kzBearer qos tcm).sends
  | delFlow tcm => exact (delFlow_write cfg qos tcm).sends
  | flowStatus kzalloc ignoreGrant ackReq ancillary fcInfo isQuery =>
    simp only [dfcEventQos, dfcBurstFlowStatus]
    split
    · exact Sends.refl qos
    · split
      · exact Sends.foldl _ (fun q a => (allBearerGrant_wrote cfg q a ackReq ancillary fcInfo).sends) _ qos
      · exact updateFcMap_sends cfg kzalloc qos ackReq ancillary fcInfo isQuery
  | txLinkStatus txStatus bearerId =>
    cases hg : qmiRmnetGetBearerMap qos bearerId with
    | none =>
      simp only [dfcEventQos, dfcUpdateTxLinkStatus, hg]
      exact Sends.refl qos
    | some a => exact (updateTxLinkStatus_wrote cfg txStatus hg).sends
  | endMarker bearerId seqNum txId =>
    cases hg : qmiRmnetGetBearerMap qos bearerId with
    | none => exact (setEndMarker_none cfg seqNum txId hg 0).sends
    | some a => exact (setEndMarker_wrote cfg seqNum txId hg).sends
  | burstCheck ipType mark len =>
    cases hg : (qmiRmnetGetFlowMap qos mark ipType).bind RmnetFlowMap.bearer with
    | none =>
      simp only [dfcEventQos, dfcQmiBurstCheck, hg]
      exact Sends.refl qos
    | some a => exact (burstCheck_wrote cfg len hg).sends
  | watchdogExpires a => exact (Wrote.modify cfg qos a watchdogExpires rfl).sends
  | watchdogFn a => exact (watchdogFn_wrote cfg qos a).sends
  | enableAllFlows => exact Sends.foldl _ (fun q a => (enableFlowsOf_wrote cfg q a).sends) _ qos

/-! ### The tables -/

/-- A listed bearer is found under its id, because ids are unique. -/
theorem TableInv.listed {qos : QosInfo} (h : TableInv qos) {a : Addr} (ha : a ∈ qos.bearerHead) :
    Listed qos a := by
  unfold Listed
  cases hg : qmiRmnetGetBearerMap qos (qos.heap a).bearerId with
  | none => exact absurd rfl (getBearerMap_none hg a ha)
  | some c =>
    obtain ⟨hc, hid⟩ := getBearerMap_some hg
    rw [h.inv.id_inj hc ha hid]

/-- The bearer that a lookup by id finds is found under its own id. -/
theorem listed_of_found {qos : QosInfo} {bearerId : ℕ} {a : Addr}
    (ha : qmiRmnetGetBearerMap qos bearerId = some a) : Listed qos a := by
  rw [Listed, (getBearerMap_some ha).2, ha]

/-- The bearer of a flow is listed. -/
theorem TableInv.flow_listed {qos : QosInfo} (h : TableInv qos) {mark : ℕ} {ipType : ℤ} {a : Addr}
    (ha : (qmiRmnetGetFlowMap qos mark ipType).bind RmnetFlowMap.bearer = some a) : Listed qos a := by
  obtain ⟨itm, hitm, hitma⟩ := Option.bind_eq_some_iff.mp ha
  have hmem : a ∈ qos.refs := List.mem_filterMap.mpr ⟨itm, (getFlowMap_some hitm).1, hitma⟩
  exact h.listed (h.inv.refs_mem a hmem)

/-- The bearer that an indication creates is listed. -/
theorem getBearerNoref_listed (cfg : DfcConfig) {qos qos' : QosInfo} (h : TableInv qos) {id : ℕ} {a : Addr}
    (hget : qmiRmnetGetBearerNoref cfg true qos id = (qos', some a)) :
    TableInv qos' ∧ Listed qos' a := by
  have htable := getBearerNoref_inv cfg h id
  rw [hget] at htable
  refine ⟨htable, htable.listed ?_⟩
  obtain ⟨qos₁, b, hb, hgot, hinv⟩ := bearerGet_inv cfg h.inv id
  simp only [qmiRmnetGetBearerNoref, hb, Prod.mk.injEq, Option.some.injEq] at hget
  obtain ⟨rfl, rfl⟩ := hget
  exact hinv.refs_mem b List.mem_cons_self

theorem setEndMarker_touched (qos : QosInfo) (bearerId seqNum txId : ℕ) :
    ∃ a, Touched qos (dfcQmapSetEndMarker qos bearerId seqNum txId) a := by
  unfold dfcQmapSetEndMarker
  split
  · exact ⟨0, Touched.send 0 _ _⟩
  · rename_i a _
    refine ⟨a, ?_⟩
    split
    · exact Touched.modify ⟨rfl, rfl, rfl, rfl⟩ Iff.rfl
    · exact Touched.send a _ _

/-- Activations find memory. -/
def DfcEvent.Allocated : DfcEvent → Prop
  | .addFlow kzFlow kzBearer _ => kzFlow = true ∧ kzBearer = true
  | _ => True

/-- **Every event keeps the tables.** -/
theorem dfcEvent_table (cfg : DfcConfig) {qos : QosInfo} (h : TableInv qos) {e : DfcEvent}
    (halloc : e.Allocated) : TableInv (dfcEventQos cfg qos e) := by
  have hfold : ∀ step : QosInfo → Addr → QosInfo, (∀ q a, Touched q (step q a) a) →
      ∀ (l : List Addr) (q : QosInfo), TableInv q → TableInv (l.foldl step q) := by
    intro step hstep l
    induction l with
    | nil => exact fun _ hq => hq
    | cons a l ih => exact fun q hq => ih _ ((hstep q a).table hq)
  cases e with
  | addFlow kzFlow kzBearer tcm =>
    obtain ⟨rfl, rfl⟩ := halloc
    obtain ⟨qos', hstep, hinv⟩ := tableStep_inv cfg h (.addFlow tcm)
    simp only [tableStep] at hstep
    simp only [dfcEventQos, hstep, Option.getD_some]
    exact hinv
  | delFlow tcm => exact delFlow_inv cfg h tcm
  | flowStatus kzalloc ignoreGrant ackReq ancillary fcInfo isQuery =>
    simp only [dfcEventQos, dfcBurstFlowStatus]
    split
    · exact h
    · split
      · exact hfold _ (fun q a => Touched.flowCtl cfg ⟨rfl, rfl, rfl, rfl⟩) _ qos h
      · unfold dfcUpdateFcMap
        cases hg : qmiRmnetGetBearerMap qos fcInfo.bearerId with
        | some a => exact (updateFcMapBearer_touched cfg qos a ackReq ancillary fcInfo isQuery).table h
        | none =>
          cases kzalloc with
          | false =>
            simp only [qmiRmnetGetBearerNoref, qmiRmnetBearerGet, hg, Bool.false_eq_true, if_false]
            exact h
          | true =>
            simp only
            split
            · rename_i heq
              have htable := getBearerNoref_inv cfg h fcInfo.bearerId
              rwa [heq] at htable
            · rename_i heq
              exact (updateFcMapBearer_touched cfg _ _ ackReq ancillary fcInfo isQuery).table
                (getBearerNoref_listed cfg h heq).1
  | txLinkStatus txStatus bearerId =>
    cases hg : qmiRmnetGetBearerMap qos bearerId with
    | none =>
      simp only [dfcEventQos, dfcUpdateTxLinkStatus, hg]
      exact h
    | some a => exact (updateTxLinkStatus_touched cfg qos txStatus hg).table h
  | endMarker bearerId seqNum txId =>
    obtain ⟨a, ht⟩ := setEndMarker_touched qos bearerId seqNum txId
    exact ht.table h
  | burstCheck ipType mark len =>
    cases hg : (qmiRmnetGetFlowMap qos mark ipType).bind RmnetFlowMap.bearer with
    | none =>
      simp only [dfcEventQos, dfcQmiBurstCheck, hg]
      exact h
    | some a => exact (burstCheck_touched cfg qos ipType mark len hg).table h
  | watchdogExpires a =>
    exact (Touched.modify ⟨rfl, rfl, rfl, rfl⟩ Iff.rfl : Touched qos (qos.modifyBearer a watchdogExpires) a).table h
  | watchdogFn a => exact (watchdogFn_touched cfg qos a).table h
  | enableAllFlows => exact hfold _ (enableFlowsOf_touched cfg) _ qos h

end Rmnet
