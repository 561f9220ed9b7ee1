import Rmnet.Lib.Ledger
import Rmnet.Qos.Qmap

/-!
# Is an end-marker request confirmed at most once?

A bearer that still has some of the grant that a request names keeps the transaction id in `ack_txid`, and sets
`ack_req`.  The id is confirmed when the grant reaches zero, or when the next indication finds it there.

To confirm does not clear `ack_req`: what keeps the id from being confirmed again is that the grant is zero.
So a bearer holds a request while `ack_req` is set and the grant is not zero (`parked`), and the events of a port
are the steps of a ledger whose slots are the bearers of its devices (`portStep_ledger`) — but for one: a
watchdog callback that grants again without clearing `ack_req`.  Then the same id is confirmed twice
(`end_marker_twice`).
-/

namespace Rmnet

open Word Transition

/-! ### Bearers as slots -/

/-- The transaction id that a bearer has still to confirm. -/
def RmnetBearerMap.parked (b : RmnetBearerMap) : Option ℕ :=
  if b.ackReq ≠ 0 ∧ b.grantSize ≠ 0 then some b.ackTxid else none

/-- A write that confirms `txIds`: what was parked stays, or goes, and it goes when it is confirmed. -/
def LetsGo (b b' : RmnetBearerMap) (txIds : List ℕ) : Prop :=
  (txIds = [] ∧ (b'.parked = b.parked ∨ b'.parked = none)) ∨
    ∃ t, b.parked = some t ∧ txIds = [t] ∧ b'.parked = none

section

variable {b b' : RmnetBearerMap}

theorem parked_eq (hreq : b.ackReq ≠ 0) (hgrant : b.grantSize ≠ 0) : b.parked = some b.ackTxid :=
  if_pos ⟨hreq, hgrant⟩

theorem parked_none_of_ackReq (hreq : b.ackReq = 0) : b.parked = none := if_neg fun h => h.1 hreq

theorem parked_none_of_grant (hgrant : b.grantSize = 0) : b.parked = none := if_neg fun h => h.2 hgrant

/-- Three fields are read. -/
theorem parked_congr (hreq : b'.ackReq = b.ackReq) (hgrant : b'.grantSize = b.grantSize)
    (htx : b'.ackTxid = b.ackTxid) : b'.parked = b.parked := by
  unfold RmnetBearerMap.parked
  rw [hreq, hgrant, htx]

theorem LetsGo.keep (h : b'.parked = b.parked) : LetsGo b b' [] := .inl ⟨rfl, .inl h⟩

theorem LetsGo.quiet (h : b'.parked = none) : LetsGo b b' [] := .inl ⟨rfl, .inr h⟩

/-- A confirmation, under the condition that there is something to confirm. -/
theorem LetsGo.confirm (h : b'.parked = none) :
    LetsGo b b' (if b.ackReq ≠ 0 ∧ b.grantSize ≠ 0 then [b.ackTxid] else []) := by
  by_cases hp : b.ackReq ≠ 0 ∧ b.grantSize ≠ 0
  · rw [if_pos hp]
    exact .inr ⟨b.ackTxid, parked_eq hp.1 hp.2, rfl, h⟩
  · rw [if_neg hp]
    exact .quiet h

/-- Nothing parked, nothing confirmed. -/
theorem LetsGo.of_none {l : List ℕ} (h : LetsGo b b' l) (hnone : b.parked = none) : l = [] := by
  rcases h with ⟨rfl, -⟩ | ⟨t, ht, -, -⟩
  · rfl
  · rw [hnone] at ht
    cases ht

end

/-- A QMAP indication confirms what is parked, if it is not ignored, and asks for nothing itself. -/
theorem fcMapBearer_letsGo (cfg : DfcConfig) (ancillary : ℕ) (fcInfo : FlowStatusInfo) (isQuery : Bool)
    (b : RmnetBearerMap) :
    LetsGo b (fcMapBearer cfg 0 ancillary fcInfo isQuery b)
      (fcMapBearerConfirms cfg 0 ancillary fcInfo isQuery b) := by
  unfold fcMapBearer fcMapBearerConfirms
  simp only
  set b₁ := if dfcIsRatSwitch ancillary = true then { b with ratSwitch := fcInfo.numBytes = 0 } else b
    with hb₁
  have hfields : b₁.ackReq = b.ackReq ∧ b₁.grantSize = b.grantSize ∧ b₁.ackTxid = b.ackTxid := by
    rw [hb₁]
    split <;> exact ⟨rfl, rfl, rfl⟩
  have hsame : b₁.parked = b.parked := parked_congr hfields.1 hfields.2.1 hfields.2.2
  by_cases hig : (!dfcIsRatSwitch ancillary) = true ∧ b₁.ratSwitch = true
  · rw [if_pos hig, if_pos (.inl hig)]
    exact .keep hsame
  · rw [if_neg hig]
    by_cases hoff : b₁.txOff = true ∧ 0 < fcInfo.numBytes
    · rw [if_pos hoff, if_pos (.inr hoff)]
      exact .keep hsame
    · rw [if_neg hoff, if_neg (not_or.mpr ⟨hig, hoff⟩)]
      obtain ⟨-, -, hreq, -⟩ := fcMapGrant_keeps cfg 0 ancillary fcInfo isQuery
        (fcMapAdjust cfg fcInfo isQuery b₁).2 (fcMapAdjust cfg fcInfo isQuery b₁).1
      have hlets := LetsGo.confirm (b := b) (parked_none_of_ackReq hreq)
      simpa [fcMapConfirms, hfields] using hlets

theorem txLinkBearer_letsGo (cfg : DfcConfig) (txStatus : Bool) (b : RmnetBearerMap) :
    LetsGo b (txLinkBearer cfg txStatus b) (txLinkConfirms txStatus b) := by
  unfold txLinkBearer txLinkConfirms
  by_cases hsame : b.txOff = !txStatus
  · rw [if_pos hsame, if_neg]
    · exact .keep rfl
    · rintro ⟨h₁, h₂, -⟩
      rw [h₁, h₂] at hsame
      cases hsame
  · rw [if_neg hsame]
    by_cases hdown : b.grantSize ≠ 0 ∧ (!txStatus) = true
    · rw [if_pos hdown]
      have htx : txStatus = false := by simpa using hdown.2
      have hoff : b.txOff = false := by simpa [htx] using hsame
      obtain ⟨-, hg, -⟩ := watchdogRemove_keeps
        { b with grantSize := 0, tcpBidir := false, bytesInFlight := 0 }
      have hnone : RmnetBearerMap.parked
          { qmiRmnetWatchdogRemove { b with grantSize := 0, tcpBidir := false, bytesInFlight := 0 } with
            txOff := !txStatus } = none := parked_none_of_grant hg
      have hlets := LetsGo.confirm (b := b) hnone
      simpa [hoff, htx, hdown.1] using hlets
    · have hnil : ¬ (b.txOff = false ∧ txStatus = false ∧ b.grantSize ≠ 0 ∧ b.ackReq ≠ 0) :=
        fun h => hdown ⟨h.2.2.1, by simp [h.2.1]⟩
      rw [if_neg hdown, if_neg hnil]
      split
      · exact .quiet (parked_none_of_ackReq rfl)
      · exact .keep (parked_congr rfl rfl rfl)

theorem burstBearer_letsGo (len : ℕ) (b : RmnetBearerMap) :
    LetsGo b (burstBearer len b) (burstConfirms len b) := by
  unfold burstConfirms
  by_cases hle : b.grantSize ≤ len
  · have hnone : (burstBearer len b).parked = none := parked_none_of_grant (if_pos hle)
    have hlets := LetsGo.confirm (b := b) hnone
    simpa [hle, and_comm] using hlets
  · rw [if_neg fun h => hle h.2.1]
    have hgrant : (burstBearer len b).grantSize = b.grantSize - len := if_neg hle
    refine .keep ?_
    by_cases hreq : b.ackReq = 0
    · rw [parked_none_of_ackReq hreq, parked_none_of_ackReq (b := burstBearer len b) hreq]
    · have hne : b.grantSize ≠ 0 := by omega
      rw [parked_eq hreq hne, parked_eq (b := burstBearer len b) hreq (by omega)]
      rfl

theorem enableBearer_letsGo (cfg : DfcConfig) (b : RmnetBearerMap) :
    LetsGo b (enableBearer cfg b) [] := by
  obtain ⟨-, -, hreq, -⟩ := watchdogRemove_keeps
    { b with seq := 0, ackReq := 0, bytesInFlight := 0, tcpBidir := false, ratSwitch := false }
  unfold enableBearer
  simp only
  split
  · exact .quiet (parked_none_of_ackReq hreq)
  · exact .quiet (parked_none_of_ackReq hreq)

/-- A callback that quits, or finds a grant, or no request, parks nothing again. -/
theorem watchdogFnBearer_letsGo (cfg : DfcConfig) {b : RmnetBearerMap}
    (hok : b.watchdogQuit = true ∨ b.grantSize ≠ 0 ∨ b.ackReq = 0) :
    LetsGo b (watchdogFnBearer cfg b) [] := by
  unfold watchdogFnBearer
  split
  · exact .keep (parked_congr rfl rfl rfl)
  · rename_i hquit
    rcases hok.resolve_left hquit with hgrant | hreq
    · exact .keep (parked_congr rfl (if_neg hgrant) rfl)
    · exact .quiet (parked_none_of_ackReq hreq)

/-! ### Events of a device -/

/-- The bearers of a device, as slots. -/
def QosInfo.held (qos : QosInfo) (a : Addr) : Option ℕ := (qos.heap a).parked

/-- An event of a device moves the slots, and confirms with what it sends. -/
def DeviceMove (qos qos' : QosInfo) (txIds : List ℕ) : Prop :=
  ∃ ms, qos'.sent = qos.sent ++ ms ∧ Ledger.Move qos.held qos'.held txIds (confirmed ms)

/-- Nothing is confirmed, and what was parked stays or goes. -/
def Quiet (qos qos' : QosInfo) : Prop :=
  (∃ ms, qos'.sent = qos.sent ++ ms ∧ confirmed ms = []) ∧
    ∀ a, qos'.held a = qos.held a ∨ qos'.held a = none

theorem Quiet.refl (qos : QosInfo) : Quiet qos qos := ⟨⟨[], by simp, rfl⟩, fun _ => .inl rfl⟩

theorem Quiet.trans {qos qos₁ qos₂ : QosInfo} (h : Quiet qos qos₁) (h' : Quiet qos₁ qos₂) :
    Quiet qos qos₂ := by
  obtain ⟨⟨ms, hms, hcnf⟩, hheld⟩ := h
  obtain ⟨⟨ms', hms', hcnf'⟩, hheld'⟩ := h'
  refine ⟨⟨ms ++ ms', by rw [hms', hms, List.append_assoc], by rw [confirmed_append, hcnf, hcnf']; rfl⟩, ?_⟩
  intro a
  rcases hheld' a with ha' | ha'
  · rw [ha']
    exact hheld a
  · exact .inr ha'

theorem Quiet.move {qos qos' : QosInfo} (h : Quiet qos qos') : DeviceMove qos qos' [] := by
  obtain ⟨⟨ms, hms, hcnf⟩, hheld⟩ := h
  refine ⟨ms, hms, ?_⟩
  rw [hcnf]
  exact .release _ hheld

/-- The table operations send nothing, and a new bearer has no request. -/
theorem TableWrite.quiet {cfg : DfcConfig} {qos qos' : QosInfo} (h : TableWrite cfg qos qos') :
    Quiet qos qos' := by
  have hsame : ∀ b b', SameDfc b b' → b'.parked = b.parked := by
    intro b b' hs
    unfold SameDfc at hs
    rw [hs]
    exact parked_congr rfl rfl rfl
  refine ⟨⟨[], by rw [h.sent, List.append_nil], rfl⟩, fun a => ?_⟩
  rcases h.heap a with hs | ⟨id, hs⟩
  · exact .inl (hsame _ _ hs)
  · exact .inr ((hsame _ _ hs).trans (parked_none_of_ackReq rfl))

section

variable {cfg : DfcConfig} {qos qos' : QosInfo} {a : Addr} {b : RmnetBearerMap} {l : List ℕ}

theorem Wrote.held (h : Wrote cfg qos qos' a b l) : qos'.held = Function.update qos.held a b.parked := by
  funext c
  unfold QosInfo.held
  by_cases hc : c = a
  · subst hc
    rw [h.heap_self, Function.update_self]
  · rw [h.heap_ne hc, Function.update_of_ne hc]

theorem Wrote.quiet (h : Wrote cfg qos qos' a b []) (hq : cfg.dfcQmap = true) (hl : Listed qos a)
    (hlets : LetsGo (qos.heap a) b []) : Quiet qos qos' := by
  refine ⟨h.sent hq hl, fun c => ?_⟩
  rw [h.held]
  by_cases hc : c = a
  · subst hc
    rw [Function.update_self]
    rcases hlets with ⟨-, hpar⟩ | ⟨t, -, ht, -⟩
    · exact hpar
    · cases ht
  · exact .inl (Function.update_of_ne hc _ _)

theorem Wrote.move (h : Wrote cfg qos qos' a b l) (hq : cfg.dfcQmap = true) (hl : Listed qos a)
    (hlets : LetsGo (qos.heap a) b l) : DeviceMove qos qos' [] := by
  rcases hlets with ⟨rfl, hpar⟩ | ⟨t, ht, rfl, hpar⟩
  · exact (h.quiet hq hl (.inl ⟨rfl, hpar⟩)).move
  · obtain ⟨ms, hms, hcnf⟩ := h.sent hq hl
    refine ⟨ms, hms, ?_⟩
    rw [hcnf, h.held, hpar]
    exact .confirm a t ht

/-- The induction is on the list of bearers: none of them confirms. -/
theorem foldl_quiet (hq : cfg.dfcQmap = true) (step : QosInfo → Addr → QosInfo)
    (f : RmnetBearerMap → RmnetBearerMap) (hstep : ∀ q a, Wrote cfg q (step q a) a (f (q.heap a)) [])
    (hlets : ∀ b, LetsGo b (f b) []) (l : List Addr) :
    ∀ q, (∀ a ∈ l, Listed q a) → Quiet q (l.foldl step q) := by
  induction l with
  | nil => exact fun q _ => Quiet.refl q
  | cons a l ih =>
    intro q hl
    have ha := (hstep q a).quiet hq (hl a List.mem_cons_self) (hlets _)
    exact ha.trans (ih _ fun c hc => (hstep q a).listed (hl c (List.mem_cons_of_mem _ hc)))

end

/-- A QMAP event: it does not ask for an acknowledgement. -/
def DfcEvent.IsQmap : DfcEvent → Prop
  | .flowStatus _ _ ackReq _ _ _ => ackReq = 0
  | _ => True

/-- The side condition on an event: a watchdog callback that grants again finds no request that has been
confirmed. -/
def DfcEvent.NoRevival (qos : QosInfo) : DfcEvent → Prop
  | .watchdogFn a =>
      (qos.heap a).watchdogQuit = true ∨ (qos.heap a).grantSize ≠ 0 ∨ (qos.heap a).ackReq = 0
  | _ => True

section

variable {cfg : DfcConfig} {qos : QosInfo}

theorem updateFcMap_move (hq : cfg.dfcQmap = true) (h : TableInv qos) (kzalloc : Bool) (ancillary : ℕ)
    (fcInfo : FlowStatusInfo) (isQuery : Bool) :
    DeviceMove qos (dfcUpdateFcMap cfg kzalloc qos 0 ancillary fcInfo isQuery) [] := by
  have hwrote := fun q a => updateFcMapBearer_wrote cfg q a 0 ancillary fcInfo isQuery
  have hlets := fun b => fcMapBearer_letsGo cfg ancillary fcInfo isQuery b
  unfold dfcUpdateFcMap
  cases hg : qmiRmnetGetBearerMap qos fcInfo.bearerId with
  | some a => exact (hwrote qos a).move hq (listed_of_found hg) (hlets _)
  | none =>
    cases kzalloc with
    | false =>
      simp only [qmiRmnetGetBearerNoref, qmiRmnetBearerGet, hg, Bool.false_eq_true, if_false]
      exact (Quiet.refl qos).move
    | true =>
      -- the new bearer has no request, so nothing is confirmed
      have hget : qmiRmnetGetBearerNoref cfg true qos fcInfo.bearerId
          = ((qos.linkBearer (newBearer cfg fcInfo.bearerId)).modifyBearer qos.nextAddr
            (fun b => { b with flowRef := b.flowRef - 1 }), some qos.nextAddr) := by
        simp only [qmiRmnetGetBearerNoref, qmiRmnetBearerGet, hg, if_true]
      have hnew := (getBearerNoref_write cfg true qos fcInfo.bearerId).quiet
      rw [hget] at hnew
      simp only [hget]
      set q := (qos.linkBearer (newBearer cfg fcInfo.bearerId)).modifyBearer qos.nextAddr
        (fun b => { b with flowRef := b.flowRef - 1 }) with hqdef
      have hnone : (q.heap qos.nextAddr).parked = none := by
        refine parked_none_of_ackReq ?_
        rw [hqdef, modifyBearer_heap_self, linkBearer_heap_new]
        rfl
      have hw := hwrote q qos.nextAddr
      have hl := hlets (q.heap qos.nextAddr)
      rw [hl.of_none hnone] at hw hl
      exact (hnew.trans (hw.quiet hq (getBearerNoref_listed cfg h hget).2 hl)).move

/-- **One event of a device is a move of the ledger.** -/
theorem dfcEvent_move (hq : cfg.dfcQmap = true) (h : TableInv qos) {inFlight : Addr → ℕ} {e : DfcEvent}
    (hen : e.Enabled ⟨qos, inFlight⟩) (hqmap : e.IsQmap) (hok : e.NoRevival qos) :
    DeviceMove qos (dfcEventQos cfg qos e) e.txIds := by
  have hlisted : ∀ a ∈ qos.bearerHead, Listed qos a := fun a ha => h.listed ha
  cases e with
  | addFlow kzFlow kzBearer tcm => exact (addFlow_write cfg kzFlow kzBearer qos tcm).quiet.move
  | delFlow tcm => exact (delFlow_write cfg qos tcm).quiet.move
  | flowStatus kzalloc ignoreGrant ackReq ancillary fcInfo isQuery =>
    have hack : ackReq = 0 := hqmap
    subst hack
    simp only [dfcEventQos, dfcBurstFlowStatus]
    split
    · exact (Quiet.refl qos).move
    · split
      · refine (foldl_quiet hq _ (allBearerGrant cfg 0 ancillary fcInfo) (fun q a => ?_) (fun b => ?_)
          qos.bearerHead qos hlisted).move
        · simpa using allBearerGrant_wrote cfg q a 0 ancillary fcInfo
        · exact .quiet (parked_none_of_ackReq rfl)
      · exact updateFcMap_move hq h kzalloc ancillary fcInfo isQuery
  | txLinkStatus txStatus bearerId =>
    cases hg : qmiRmnetGetBearerMap qos bearerId with
    | none =>
      simp only [dfcEventQos, dfcUpdateTxLinkStatus, hg]
      exact (Quiet.refl qos).move
    | some a =>
      exact (updateTxLinkStatus_wrote cfg txStatus hg).move hq (listed_of_found hg)
        (txLinkBearer_letsGo cfg txStatus _)
  | endMarker bearerId seqNum txId =>
    cases hg : qmiRmnetGetBearerMap qos bearerId with
    | none =>
      refine ⟨[.endMarkerCnf qos.muxId bearerId seqNum txId], ?_, ?_⟩
      · simp only [dfcEventQos, dfcQmapSetEndMarker, hg]
        rfl
      · have hsame : (dfcEventQos cfg qos (.endMarker bearerId seqNum txId)).held = qos.held := by
          simp only [dfcEventQos, dfcQmapSetEndMarker, hg]
          rfl
        rw [hsame]
        exact .refuse txId
    | some a =>
      have hw := setEndMarker_wrote cfg seqNum txId hg
      obtain ⟨ms, hms, hcnf⟩ := hw.sent hq (listed_of_found hg)
      refine ⟨ms, hms, ?_⟩
      have hheld : (dfcEventQos cfg qos (.endMarker bearerId seqNum txId)).held = _ := hw.held
      rw [hheld, hcnf]
      unfold endMarkerBearer
      by_cases hpark : (qos.heap a).lastSeq = seqNum ∧ (qos.heap a).grantSize ≠ 0
      · rw [if_pos hpark, if_pos hpark]
        have hnew : RmnetBearerMap.parked { qos.heap a with ackReq := 1, ackTxid := txId } = some txId :=
          parked_eq Nat.one_ne_zero hpark.2
        rw [hnew]
        exact .hold a txId
      · rw [if_neg hpark, if_neg hpark]
        have hsame : Function.update qos.held a (qos.heap a).parked = qos.held :=
          Function.update_eq_self a qos.held
        rw [hsame]
        exact .refuse txId
  | burstCheck ipType mark len =>
    cases hg : (qmiRmnetGetFlowMap qos mark ipType).bind RmnetFlowMap.bearer with
    | none =>
      simp only [dfcEventQos, dfcQmiBurstCheck, hg]
      exact (Quiet.refl qos).move
    | some a => exact (burstCheck_wrote cfg len hg).move hq (h.flow_listed hg) (burstBearer_letsGo len _)
  | watchdogExpires a =>
    exact (Wrote.modify cfg qos a watchdogExpires rfl).move hq (hlisted a hen.1)
      (.keep (parked_congr rfl rfl rfl))
  | watchdogFn a =>
    exact (watchdogFn_wrote cfg qos a).move hq (hlisted a hen.1) (watchdogFnBearer_letsGo cfg hok)
  | enableAllFlows =>
    exact (foldl_quiet hq _ (enableBearer cfg) (enableFlowsOf_wrote cfg) (enableBearer_letsGo cfg)
      qos.bearerHead qos hlisted).move

end

/-! ### The port -/

/-- The port as a ledger: its slots are the bearers of its devices. -/
def DfcPort.book (p : DfcPort) : Ledger.Book (ℕ × Addr) ℕ where
  requested := p.requests
  confirmed := p.confirmations
  held := fun s => (p.dev s.1).bind fun d => d.qos.held s.2

/-- Every confirmation carries the id of a request, and no id twice. -/
def ConfirmedOnce (p : DfcPort) : Prop :=
  (∀ t ∈ p.confirmations, t ∈ p.requests) ∧ p.confirmations.Nodup

/-- The side condition, at the device of the event. -/
def PortEvent.NoRevival (p : DfcPort) : PortEvent → Prop
  | .cmd _ _ _ => True
  | .device muxId e => ∀ d, p.dev muxId = some d → e.NoRevival d.qos

/-- The invariant of a port: the tables of its devices, and the ledger. -/
structure PortInv (p : DfcPort) : Prop where
  table : ∀ muxId d, p.dev muxId = some d → TableInv d.qos
  sound : Ledger.Sound p.book

/-- What is known of an event at its device. -/
structure AtDevice (d : DfcDevice) (e : DfcEvent) : Prop where
  allocated : e.Allocated
  enabled : e.Enabled d
  qmap : e.IsQmap
  noRevival : e.NoRevival d.qos

theorem portEvent_atDevice {p : DfcPort} {ev : PortEvent} (hen : ev.Enabled p) (hok : ev.NoRevival p)
    {d : DfcDevice} {e : DfcEvent} (hd : p.dev ev.muxId = some d) (he : ev.dfcEvent = some e) :
    AtDevice d e := by
  cases ev with
  | cmd kzalloc ignoreGrant c =>
    cases c with
    | ind cmd =>
      simp only [PortEvent.dfcEvent, dfcQmapCmdHandler, dfcQmapHandleInd, Option.some.injEq] at he
      subst he
      split
      · exact ⟨trivial, trivial, trivial, trivial⟩
      · exact ⟨trivial, trivial, rfl, trivial⟩
    | query cmd =>
      simp only [PortEvent.dfcEvent, dfcQmapCmdHandler, dfcQmapHandleQueryResp] at he
      split at he
      · cases he
      · cases he
        exact ⟨trivial, trivial, rfl, trivial⟩
    | endMarker cmd =>
      cases he
      exact ⟨trivial, trivial, trivial, trivial⟩
  | device muxId e =>
    cases he
    obtain ⟨hlocal, hdev⟩ := hen
    have halloc : e.Allocated ∧ e.IsQmap := by
      cases e with
      | flowStatus => exact hlocal.elim
      | endMarker => exact hlocal.elim
      | _ => exact ⟨hlocal, trivial⟩
    exact ⟨halloc.1, hdev d hd, halloc.2, hok d hd⟩

theorem txIds_cases (e : DfcEvent) : e.txIds = [] ∨ ∃ t, e.txIds = [t] := by
  cases e with
  | endMarker bearerId seqNum txId => exact .inr ⟨txId, rfl⟩
  | _ => exact .inl rfl

/-- A request for a device that is not there is dropped. -/
theorem portNext_none (cfg : DfcConfig) {p : DfcPort} {ev : PortEvent}
    (h : p.dev ev.muxId = none ∨ ev.dfcEvent = none) :
    portNext cfg p ev = { p with requests := p.requests ++ ev.txIds } := by
  unfold portNext
  rcases h with h | h
  · rw [h]
  · rw [h]
    cases p.dev ev.muxId <;> rfl

theorem portNext_some (cfg : DfcConfig) {p : DfcPort} {ev : PortEvent} {d : DfcDevice} {e : DfcEvent}
    (hd : p.dev ev.muxId = some d) (he : ev.dfcEvent = some e) :
    portNext cfg p ev =
      { dev := Function.update p.dev ev.muxId (some (dfcNext cfg d e))
        requests := p.requests ++ e.txIds
        confirmations := p.confirmations ++
          confirmed ((dfcNext cfg d e).qos.sent.drop d.qos.sent.length) } := by
  unfold portNext PortEvent.txIds
  rw [hd, he]
  rfl

/-- **Refinement.**  Every event of a port that revives no confirmed request is a step of the ledger. -/
theorem portStep_ledger (cfg : DfcConfig) (hq : cfg.dfcQmap = true) {p p' : DfcPort} {ev : PortEvent}
    (htable : ∀ muxId d, p.dev muxId = some d → TableInv d.qos) (hs : PortStep cfg p ev p')
    (hok : ev.NoRevival p) : Ledger.Step p.book p'.book := by
  obtain ⟨hen, hnew, rfl⟩ := hs
  have hnone : p.dev ev.muxId = none ∨ ev.dfcEvent = none →
      Ledger.Step p.book (portNext cfg p ev).book := by
    intro h
    rw [portNext_none cfg h]
    refine ⟨ev.txIds, [], ?_, hnew, rfl, (List.append_nil _).symm⟩
    have hids : ev.txIds = [] ∨ ∃ t, ev.txIds = [t] := by
      unfold PortEvent.txIds
      cases ev.dfcEvent with
      | none => exact .inl rfl
      | some e => exact txIds_cases e
    rcases hids with hids | ⟨t, hids⟩
    · rw [hids]
      exact .release _ fun _ => .inl rfl
    · rw [hids]
      exact .drop t
  cases hd : p.dev ev.muxId with
  | none => exact hnone (.inl hd)
  | some d =>
    cases he : ev.dfcEvent with
    | none => exact hnone (.inr he)
    | some e =>
      have hat := portEvent_atDevice hen hok hd he
      obtain ⟨ms, hms, hmove⟩ := dfcEvent_move hq (htable _ d hd) hat.enabled hat.qmap hat.noRevival
      have hids : ev.txIds = e.txIds := by
        unfold PortEvent.txIds
        rw [he]
        rfl
      rw [portNext_some cfg hd he]
      refine ⟨e.txIds, confirmed ms, ?_, hids ▸ hnew, rfl, ?_⟩
      · refine Ledger.Move.lift (f := Prod.mk ev.muxId) (Prod.mk_right_injective _) ?_ fun s hs => ?_
        · have hbelow : p.book.held ∘ Prod.mk ev.muxId = d.qos.held := by
            funext a
            simp only [DfcPort.book, Function.comp_apply, hd, Option.bind_some]
          have habove : (DfcPort.book
              { dev := Function.update p.dev ev.muxId (some (dfcNext cfg d e))
                requests := p.requests ++ e.txIds
                confirmations := p.confirmations ++
                  confirmed ((dfcNext cfg d e).qos.sent.drop d.qos.sent.length) }).held ∘
                Prod.mk ev.muxId = (dfcNext cfg d e).qos.held := by
            funext a
            simp only [DfcPort.book, Function.comp_apply, Function.update_self, Option.bind_some]
          rw [hbelow, habove]
          exact hmove
        · have hne : s.1 ≠ ev.muxId := fun h => hs s.2 (by rw [← h])
          simp only [DfcPort.book, Function.update_of_ne hne]
      · simp only [DfcPort.book, dfcNext, hms, List.drop_left]

theorem portInv_init (p : DfcPort) (h : PortInit p) : PortInv p := by
  refine ⟨fun muxId d hd => ?_, Ledger.sound_empty h.confirmations fun s => ?_⟩
  · obtain ⟨⟨id, n, st, hqos⟩, -⟩ := h.dev muxId d hd
    rw [hqos]
    exact tableInv_init id n st
  · cases hd : p.dev s.1 with
    | none => simp only [DfcPort.book, hd, Option.bind_none]
    | some d =>
      obtain ⟨⟨id, n, st, hqos⟩, -⟩ := h.dev s.1 d hd
      simp only [DfcPort.book, hd, Option.bind_some, hqos]
      rfl

/-- **One event.** -/
theorem portInv_step (cfg : DfcConfig) (hq : cfg.dfcQmap = true) (p : DfcPort) (ev : PortEvent)
    (p' : DfcPort) (h : PortInv p) (hs : PortStep cfg p ev p') (hok : ev.NoRevival p) : PortInv p' := by
  refine ⟨?_, h.sound.step (portStep_ledger cfg hq h.table hs hok)⟩
  obtain ⟨hen, -, rfl⟩ := hs
  intro muxId d' hd'
  cases hd : p.dev ev.muxId with
  | none =>
    rw [portNext_none cfg (.inl hd)] at hd'
    exact h.table muxId d' hd'
  | some d =>
    cases he : ev.dfcEvent with
    | none =>
      rw [portNext_none cfg (.inr he)] at hd'
      exact h.table muxId d' hd'
    | some e =>
      rw [portNext_some cfg hd he] at hd'
      by_cases hmux : muxId = ev.muxId
      · subst hmux
        simp only [Function.update_self, Option.some.injEq] at hd'
        subst hd'
        exact dfcEvent_table cfg (h.table _ d hd) (portEvent_atDevice hen hok hd he).allocated
      · simp only [Function.update_of_ne hmux] at hd'
        exact h.table muxId d' hd'

/-- **When a request is confirmed at most once.**  In QMAP mode, in every run in which no watchdog callback
grants again to a bearer with `ack_req` set, every confirmation carries the transaction id of a request, and no
id is confirmed twice. -/
theorem end_marker_once (cfg : DfcConfig) (hq : cfg.dfcQmap = true) (h : List (DfcPort × PortEvent))
    (p : DfcPort) (hex : Exec PortInit (PortStep cfg) h p) (hok : ∀ x ∈ h, x.2.NoRevival x.1) :
    ∀ x ∈ h.map Prod.fst ++ [p], ConfirmedOnce x := by
  intro x hx
  have hinv := hex.invariant portInv_init (portInv_step cfg hq) hok x hx
  exact ⟨hinv.sound.requested, hinv.sound.nodup⟩

/-! ### A request that is confirmed twice -/

/-- A port with one device, of mux id 1. -/
def onePort : DfcPort :=
  { dev := fun muxId => if muxId = 1 then some newDevice else none, requests := [], confirmations := [] }

theorem onePort_init : PortInit onePort := by
  refine ⟨fun muxId d hd => ?_, rfl, rfl⟩
  simp only [onePort, Option.ite_none_right_eq_some, Option.some.injEq] at hd
  rw [← hd.2]
  exact newDevice_init

/-- An event of a device that is there, without a request. -/
theorem portStep_device (cfg : DfcConfig) {p : DfcPort} (muxId : ℕ) (e : DfcEvent) {d : DfcDevice}
    (hd : p.dev muxId = some d) (hlocal : e.Local) (hen : e.Enabled d) (hids : e.txIds = []) :
    PortStep cfg p (.device muxId e) (portNext cfg p (.device muxId e)) := by
  refine ⟨⟨hlocal, fun d' hd' => ?_⟩, fun t ht => ?_, rfl⟩
  · rw [hd, Option.some.injEq] at hd'
    rwa [← hd']
  · have ht' : t ∈ e.txIds := ht
    rw [hids] at ht'
    cases ht'

/-- A query response of 100 bytes, none of which has been received. -/
def queryResp : QmapDfcQueryResp :=
  { muxId := 1, bearerId := 5, tcpBidir := false, rxBytesValid := true, invalid := false, grant := 100,
    rxBytes := 0 }

/-- A request with transaction id 7 for the grant of that response. -/
def endMarkerReq : QmapDfcEndMarkerReq := { muxId := 1, txId := 7, bearerId := 5, seqNum := 0xFFFF }

/-- The port when the request has been parked and confirmed. -/
def confirmedPort : DfcPort :=
  [.device 1 (.addFlow true true flowOfFive), .device 1 (.burstCheck 4 1 90),
    .cmd true false (.query queryResp), .cmd true false (.endMarker endMarkerReq),
    .device 1 (.burstCheck 4 1 50)].foldl (portNext qmapCfg) onePort

/-- With 90 bytes in flight the response leaves a grant of 10 bytes; the request is parked on it, and
confirmed by a packet of 50 bytes. -/
theorem confirmedPort_exec : ∃ h, Exec PortInit (PortStep qmapCfg) h confirmedPort ∧
    ∀ x ∈ h, x.2.NoRevival x.1 := by
  have h₁ := (Exec.start onePort_init).next
    (portStep_device qmapCfg 1 (.addFlow true true flowOfFive) rfl ⟨rfl, rfl⟩ trivial rfl)
  have h₂ := h₁.next (portStep_device qmapCfg 1 (.burstCheck 4 1 90) rfl trivial trivial rfl)
  have h₃ := h₂.next (l := PortEvent.cmd true false (.query queryResp))
    ⟨trivial, fun t ht => absurd ht List.not_mem_nil, rfl⟩
  have h₄ := h₃.next (l := PortEvent.cmd true false (.endMarker endMarkerReq))
    ⟨trivial, fun t _ ht => absurd ht List.not_mem_nil, rfl⟩
  have h₅ := h₄.next (portStep_device qmapCfg 1 (.burstCheck 4 1 50) rfl trivial trivial rfl)
  refine ⟨_, h₅, fun x hx => ?_⟩
  simp only [List.cons_append, List.nil_append, List.mem_cons, List.not_mem_nil, or_false] at hx
  rcases hx with rfl | rfl | rfl | rfl | rfl
  · exact fun _ _ => trivial
  · exact fun _ _ => trivial
  · trivial
  · trivial
  · exact fun _ _ => trivial

/-- The request is confirmed, once. -/
theorem end_marker_confirmed : confirmedPort.confirmations = [7] ∧ ConfirmedOnce confirmedPort := by
  obtain ⟨h, hex, hok⟩ := confirmedPort_exec
  exact ⟨rfl, end_marker_once qmapCfg rfl h _ hex hok _
    (List.mem_append_right _ (List.mem_singleton.mpr rfl))⟩

/-- **The same request is confirmed twice.**  The bearer is still in the watchdog; its callback grants 20480
bytes with `ack_req` set, and the packet that uses them up confirms the id again. -/
theorem end_marker_twice : ∃ h p, Exec PortInit (PortStep qmapCfg) h p ∧
    ¬ ∀ x ∈ h.map Prod.fst ++ [p], ConfirmedOnce x := by
  obtain ⟨h, hex, -⟩ := confirmedPort_exec
  have h₁ := hex.next (portStep_device qmapCfg 1 (.watchdogExpires 0) rfl trivial
    ⟨List.mem_singleton.mpr rfl, rfl⟩ rfl)
  have h₂ := h₁.next (portStep_device qmapCfg 1 (.watchdogFn 0) rfl trivial
    ⟨List.mem_singleton.mpr rfl, Nat.one_pos⟩ rfl)
  have h₃ := h₂.next (portStep_device qmapCfg 1 (.burstCheck 4 1 30000) rfl trivial trivial rfl)
  refine ⟨_, _, h₃, fun hall => ?_⟩
  have hnodup := (hall _ (List.mem_append_right _ (List.mem_singleton.mpr rfl))).2
  have htwice : ¬ ([7, 7] : List ℕ).Nodup := by decide
  exact htwice hnodup

end Rmnet
