import Rmnet.Qos.Exit
import Rmnet.Qos.Watchdog

/-!
# What the end of a device frees

A message that can start a watchdog has found its device in the mux table, so none is left once the endpoints are gone
and their readers have been waited for; then the walk over the bearers finds every timer for good.

* `DeviceOk.message`, `DeviceOk.packet`, `DeviceOk.flow` — what is done to a device, and its timers.
* `ExitPlaces` — where each `qos_info` is: with its device, in the hands of the walk, or on the list to be freed.
* `qos_exit_safe` — no step uses or frees free memory, no timer is freed while it is pending or runs, nothing is lost,
  and the holder of the lock waits for nobody who cannot go on.
-/

namespace Rmnet

open Transition Grace

/-! ### The timers of a device -/

/-- The watchdog of the bearer is not pending, and has no callback. -/
def Still (d : DfcDevice) (a : Addr) : Prop := (d.qos.heap a).watchdogArmed = false ∧ d.inFlight a = 0

/-- The tables of a device are sound, and only bearers on the list have timers. -/
structure DeviceOk (d : DfcDevice) : Prop where
  table : TableInv d.qos
  listed : ∀ a, a ∉ d.qos.bearerHead → Still d a

/-- A timer that is pending and not on the list was so before. -/
def KeepsTimers (qos qos' : QosInfo) : Prop :=
  ∀ a, a ∉ qos'.bearerHead → a ∉ qos.bearerHead ∧
    ((qos'.heap a).watchdogArmed = true → (qos.heap a).watchdogArmed = true)

section

variable {cfg : DfcConfig} {qos qos' qos₁ : QosInfo} {d : DfcDevice} {a : Addr} {e : DfcEvent}

theorem KeepsTimers.refl (qos : QosInfo) : KeepsTimers qos qos := fun _ ha => ⟨ha, id⟩

theorem KeepsTimers.trans (h : KeepsTimers qos qos₁) (h' : KeepsTimers qos₁ qos') : KeepsTimers qos qos' := by
  intro a ha
  obtain ⟨ha₁, harmed⟩ := h' a ha
  exact ⟨(h a ha₁).1, fun h'' => (h a ha₁).2 (harmed h'')⟩

/-- A write to a bearer on the list. -/
theorem Touched.timers (h : Touched qos qos' a) (ha : a ∈ qos.bearerHead) : KeepsTimers qos qos' := by
  intro b hb
  rw [h.bearerHead] at hb
  have hne : b ≠ a := by
    rintro rfl
    exact hb ha
  rw [h.other b hne]
  exact ⟨hb, id⟩

theorem foldl_timers (step : QosInfo → Addr → QosInfo) (hstep : ∀ qos a, Touched qos (step qos a) a) (l : List Addr) :
    ∀ qos, (∀ a ∈ l, a ∈ qos.bearerHead) → KeepsTimers qos (l.foldl step qos) := by
  induction l with
  | nil => exact fun qos _ => KeepsTimers.refl qos
  | cons a l ih =>
    intro qos hl
    have ht := hstep qos a
    refine (ht.timers (hl a List.mem_cons_self)).trans (ih _ fun b hb => ?_)
    rw [ht.bearerHead]
    exact hl b (List.mem_cons_of_mem a hb)

/-- A new bearer has a timer that is not pending. -/
theorem getBearerNoref_timers (cfg : DfcConfig) (kzalloc : Bool) (qos : QosInfo) (id : ℕ) :
    KeepsTimers qos (qmiRmnetGetBearerNoref cfg kzalloc qos id).1 := by
  have hwrite := getBearerNoref_write cfg kzalloc qos id
  have hhead : ∀ a ∈ qos.bearerHead, a ∈ (qmiRmnetGetBearerNoref cfg kzalloc qos id).1.bearerHead := by
    intro a ha
    unfold qmiRmnetGetBearerNoref qmiRmnetBearerGet
    cases hg : qmiRmnetGetBearerMap qos id with
    | some b => exact ha
    | none =>
      cases kzalloc with
      | false => exact ha
      | true => exact List.mem_cons_of_mem _ ha
  intro a ha
  refine ⟨fun hmem => ha (hhead a hmem), fun harmed => ?_⟩
  rcases hwrite.heap a with hsame | ⟨id', hnew⟩
  · rw [hsame] at harmed
    exact harmed
  · rw [hnew] at harmed
    cases harmed

/-- **A message** starts no timer but that of a bearer on the list. -/
theorem message_timers (cfg : DfcConfig) (qos : QosInfo) (h : TableInv qos) (he : e.ofMessage = true) :
    KeepsTimers qos (dfcEventQos cfg qos e) := by
  cases e with
  | flowStatus kzalloc ignoreGrant ackReq ancillary fcInfo isQuery =>
    simp only [dfcEventQos, dfcBurstFlowStatus]
    split
    · exact KeepsTimers.refl qos
    · split
      · exact foldl_timers _ (fun q a => Touched.flowCtl cfg ⟨rfl, rfl, rfl, rfl⟩) _ qos fun _ ha => ha
      · unfold dfcUpdateFcMap
        cases hg : qmiRmnetGetBearerMap qos fcInfo.bearerId with
        | some a =>
          exact (updateFcMapBearer_touched cfg qos a ackReq ancillary fcInfo isQuery).timers (getBearerMap_some hg).1
        | none =>
          have hnew := getBearerNoref_timers cfg kzalloc qos fcInfo.bearerId
          simp only
          split
          · rename_i heq
            rwa [heq] at hnew
          · rename_i qos₁ a heq
            rw [heq] at hnew
            refine hnew.trans ((updateFcMapBearer_touched cfg qos₁ a ackReq ancillary fcInfo isQuery).timers ?_)
            cases kzalloc with
            | true => exact (getBearerMap_some (getBearerNoref_listed cfg h heq).2).1
            | false => simp [qmiRmnetGetBearerNoref, qmiRmnetBearerGet, hg] at heq
  | txLinkStatus txStatus bearerId =>
    cases hg : qmiRmnetGetBearerMap qos bearerId with
    | none =>
      simp only [dfcEventQos, dfcUpdateTxLinkStatus, hg]
      exact KeepsTimers.refl qos
    | some a => exact (updateTxLinkStatus_touched cfg qos txStatus hg).timers (getBearerMap_some hg).1
  | endMarker bearerId seqNum txId =>
    simp only [dfcEventQos, dfcQmapSetEndMarker]
    split
    · exact fun _ ha => ⟨ha, id⟩
    · rename_i a hg
      split
      · exact (Touched.modify ⟨rfl, rfl, rfl, rfl⟩ Iff.rfl : Touched qos (qos.modifyBearer a fun b =>
          { b with ackReq := 1, ackTxid := txId }) a).timers (getBearerMap_some hg).1
      · exact fun _ ha => ⟨ha, id⟩
  | enableAllFlows => exact foldl_timers _ (enableFlowsOf_touched cfg) _ qos fun _ ha => ha
  | addFlow => cases he
  | delFlow => cases he
  | burstCheck => cases he
  | watchdogExpires => cases he
  | watchdogFn => cases he

theorem DeviceOk.message (h : DeviceOk d) (cfg : DfcConfig) (he : e.ofMessage = true) :
    DeviceOk (dfcNext cfg d e) := by
  have halloc : e.Allocated := by
    cases e with
    | addFlow => cases he
    | _ => exact trivial
  have hflight : (dfcNext cfg d e).inFlight = d.inFlight := by
    cases e with
    | watchdogExpires => cases he
    | watchdogFn => cases he
    | _ => rfl
  refine ⟨dfcEvent_table cfg h.table halloc, fun a ha => ?_⟩
  obtain ⟨ha', harmed⟩ := message_timers cfg d.qos h.table he a ha
  obtain ⟨hoff, hnone⟩ := h.listed a ha'
  refine ⟨?_, by rw [hflight]; exact hnone⟩
  cases hon : ((dfcEventQos cfg d.qos e).heap a).watchdogArmed with
  | false => exact hon
  | true =>
    rw [harmed hon] at hoff
    cases hoff

/-- **A packet** leaves the list and the timers alone. -/
theorem DeviceOk.packet (h : DeviceOk d) (cfg : DfcConfig) (he : e.ofPacket = true) :
    DeviceOk (dfcNext cfg d e) ∧ (dfcNext cfg d e).qos.bearerHead = d.qos.bearerHead ∧
      ∀ a, Still d a → Still (dfcNext cfg d e) a := by
  cases e with
  | burstCheck ipType mark len =>
    have hsame : (dfcQmiBurstCheck cfg d.qos ipType mark len).bearerHead = d.qos.bearerHead ∧
        ∀ a, ((dfcQmiBurstCheck cfg d.qos ipType mark len).heap a).watchdogArmed =
          (d.qos.heap a).watchdogArmed := by
      cases hg : (qmiRmnetGetFlowMap d.qos mark ipType).bind RmnetFlowMap.bearer with
      | none =>
        simp only [dfcQmiBurstCheck, hg]
        exact ⟨trivial, fun _ => trivial⟩
      | some b =>
        have hw := burstCheck_wrote cfg len hg
        refine ⟨hw.bearerHead, fun a => ?_⟩
        by_cases hab : a = b
        · rw [hab, hw.heap_self]
          rfl
        · rw [hw.heap_ne hab]
    have hstill : ∀ a, Still d a → Still (dfcNext cfg d (.burstCheck ipType mark len)) a := fun a ha =>
      ⟨(hsame.2 a).trans ha.1, ha.2⟩
    have htable : TableInv (dfcEventQos cfg d.qos (.burstCheck ipType mark len)) :=
      dfcEvent_table cfg h.table (show DfcEvent.Allocated (.burstCheck ipType mark len) from trivial)
    refine ⟨⟨htable, fun a ha => hstill a (h.listed a ?_)⟩, hsame.1, hstill⟩
    rw [← hsame.1]
    exact ha
  | addFlow => cases he
  | delFlow => cases he
  | flowStatus => cases he
  | txLinkStatus => cases he
  | endMarker => cases he
  | enableAllFlows => cases he
  | watchdogExpires => cases he
  | watchdogFn => cases he

/-- The watchdog of a bearer expires, which is on the list. -/
theorem DeviceOk.expires (h : DeviceOk d) (cfg : DfcConfig) (ha : (d.qos.heap a).watchdogArmed = true) :
    a ∈ d.qos.bearerHead ∧ DeviceOk (dfcNext cfg d (.watchdogExpires a)) ∧
      (dfcNext cfg d (.watchdogExpires a)).qos.bearerHead = d.qos.bearerHead ∧
      ∀ b, Still d b → Still (dfcNext cfg d (.watchdogExpires a)) b := by
  have hmem : a ∈ d.qos.bearerHead := by
    by_contra hno
    rw [(h.listed a hno).1] at ha
    cases ha
  have hstill : ∀ b, Still d b → Still (dfcNext cfg d (.watchdogExpires a)) b := by
    intro b hb
    have hne : b ≠ a := by
      rintro rfl
      rw [hb.1] at ha
      cases ha
    refine ⟨?_, (Function.update_of_ne hne _ _).trans hb.2⟩
    show ((d.qos.modifyBearer a watchdogExpires).heap b).watchdogArmed = false
    rw [modifyBearer_heap_ne d.qos hne]
    exact hb.1
  have htable : TableInv (dfcEventQos cfg d.qos (.watchdogExpires a)) :=
    dfcEvent_table cfg h.table (show DfcEvent.Allocated (.watchdogExpires a) from trivial)
  exact ⟨hmem, ⟨htable, fun b hb => hstill b (h.listed b hb)⟩, rfl, hstill⟩

/-- A callback runs. -/
theorem DeviceOk.watchdogFn (h : DeviceOk d) (cfg : DfcConfig) (ha : 0 < d.inFlight a) :
    a ∈ d.qos.bearerHead ∧ DeviceOk (dfcNext cfg d (.watchdogFn a)) ∧
      (dfcNext cfg d (.watchdogFn a)).qos.bearerHead = d.qos.bearerHead ∧
      ∀ b, Still d b → Still (dfcNext cfg d (.watchdogFn a)) b := by
  have hmem : a ∈ d.qos.bearerHead := by
    by_contra hno
    rw [(h.listed a hno).2] at ha
    exact absurd ha (Nat.lt_irrefl 0)
  have hw := watchdogFn_wrote cfg d.qos a
  have hstill : ∀ b, Still d b → Still (dfcNext cfg d (.watchdogFn a)) b := by
    intro b hb
    have hne : b ≠ a := by
      rintro rfl
      rw [hb.2] at ha
      exact Nat.lt_irrefl 0 ha
    refine ⟨?_, (Function.update_of_ne hne _ _).trans hb.2⟩
    show ((qmiRmnetWatchdogFn cfg d.qos a).heap b).watchdogArmed = false
    rw [hw.heap_ne hne]
    exact hb.1
  have htable : TableInv (dfcEventQos cfg d.qos (.watchdogFn a)) :=
    dfcEvent_table cfg h.table (show DfcEvent.Allocated (.watchdogFn a) from trivial)
  refine ⟨hmem, ⟨htable, fun b hb => hstill b (h.listed b ?_)⟩, hw.bearerHead, hstill⟩
  rw [← hw.bearerHead]
  exact hb

/-- A write to a bearer that leaves its identity alone and starts no timer. -/
theorem DeviceOk.modify (h : DeviceOk d) (a : Addr) {f : RmnetBearerMap → RmnetBearerMap}
    (hid : ∀ b, (f b).bearerId = b.bearerId ∧ (f b).flowRef = b.flowRef)
    (hf : ∀ b, b.watchdogArmed = false → (f b).watchdogArmed = false) :
    DeviceOk { d with qos := d.qos.modifyBearer a f } ∧
      ∀ b, Still d b → Still { d with qos := d.qos.modifyBearer a f } b := by
  have hids : ∀ b, ((d.qos.modifyBearer a f).heap b).bearerId = (d.qos.heap b).bearerId ∧
      ((d.qos.modifyBearer a f).heap b).flowRef = (d.qos.heap b).flowRef := fun b =>
    ⟨modifyBearer_field d.qos a b f RmnetBearerMap.bearerId (hid _).1,
      modifyBearer_field d.qos a b f RmnetBearerMap.flowRef (hid _).2⟩
  have hstill : ∀ b, Still d b → Still { d with qos := d.qos.modifyBearer a f } b := by
    intro b hb
    refine ⟨?_, hb.2⟩
    show ((d.qos.modifyBearer a f).heap b).watchdogArmed = false
    by_cases hba : b = a
    · subst hba
      rw [modifyBearer_heap_self]
      exact hf _ hb.1
    · rw [modifyBearer_heap_ne d.qos hba]
      exact hb.1
  refine ⟨⟨⟨h.table.flows, fun g hg => ?_, h.table.inv.congr rfl rfl rfl rfl rfl fun b _ => hids b, h.table.removed⟩,
    fun b hb => hstill b (h.listed b hb)⟩, hstill⟩
  obtain ⟨b, hb, hbid⟩ := h.table.bearer g hg
  exact ⟨b, hb, (hids b).1.trans hbid⟩

theorem stopTimers_table {bearers : List Addr} (h : TableInv qos) : TableInv (qos.stopTimers bearers) := by
  have hids : ∀ b, ((qos.stopTimers bearers).heap b).bearerId = (qos.heap b).bearerId ∧
      ((qos.stopTimers bearers).heap b).flowRef = (qos.heap b).flowRef := by
    intro b
    unfold QosInfo.stopTimers
    simp only
    split
    · exact ⟨rfl, rfl⟩
    · exact ⟨rfl, rfl⟩
  refine ⟨h.flows, fun f hf => ?_, h.inv.congr rfl rfl rfl rfl rfl fun b _ => hids b, h.removed⟩
  obtain ⟨b, hb, hbid⟩ := h.bearer f hf
  exact ⟨b, hb, (hids b).1.trans hbid⟩

/-- **A flow request** stops the timers of the bearers that it removes. -/
theorem DeviceOk.flow (h : DeviceOk d) {qos : QosInfo} (htable : TableInv qos) (hw : TableWrite cfg d.qos qos)
    (hgone : ∀ a ∈ goneBearers d.qos qos, d.inFlight a = 0) :
    DeviceOk { d with qos := qos.stopTimers (goneBearers d.qos qos) } := by
  refine ⟨stopTimers_table htable, fun a ha => ?_⟩
  have hout : a ∉ qos.bearerHead := ha
  by_cases hmem : a ∈ d.qos.bearerHead
  · have hleft : a ∈ goneBearers d.qos qos := List.mem_filter.mpr ⟨hmem, by simpa using hout⟩
    refine ⟨?_, hgone a hleft⟩
    simp only [QosInfo.stopTimers, if_pos hleft]
    rfl
  · obtain ⟨hoff, hnone⟩ := h.listed a hmem
    have hleft : a ∉ goneBearers d.qos qos := fun hin => hmem (List.mem_filter.mp hin).1
    refine ⟨?_, hnone⟩
    simp only [QosInfo.stopTimers, if_neg hleft]
    rcases hw.heap a with hsame | ⟨id, hnew⟩
    · rw [hsame]
      exact hoff
    · rw [hnew]
      rfl

/-- A new `qos_info` has no bearers. -/
theorem deviceOk_init (muxId numTxQueues : ℕ) (stopped : ℕ → Bool) :
    DeviceOk { qos := qmiRmnetQosInit muxId numTxQueues stopped, inFlight := fun _ => 0 } :=
  ⟨tableInv_init muxId numTxQueues stopped, fun _ _ => ⟨rfl, rfl⟩⟩

end

/-! ### Where each `qos_info` is -/

/-- The devices whose endpoints have just been hidden. -/
@[simp, grind] def RtnlCall.hiddenDevs : RtnlCall → List ℕ
  | .unlinked devs => devs
  | _ => []

/-- The devices whose endpoints are waited for. -/
@[simp, grind] def RtnlCall.awaitedDevs : RtnlCall → List ℕ
  | .syncEndpoints devs => devs
  | _ => []

/-- The devices that are still to be taken apart. -/
@[simp, grind] def RtnlCall.leaving : RtnlCall → List ℕ
  | .uninit devs => devs
  | .watching _ _ devs => devs
  | .deleting _ _ devs => devs
  | _ => []

/-- The new device that has no endpoint yet. -/
@[simp, grind] def RtnlCall.entering : RtnlCall → Option ℕ
  | .linking dev => some dev
  | _ => none

/-- The `qos_info` that the walk is in, and how far it has come. -/
@[simp, grind] def RtnlCall.cursor : RtnlCall → Option (ℕ × Option Addr)
  | .watching q bearer _ => some (q, bearer)
  | .deleting q a _ => some (q, some a)
  | _ => none

/-- What is on `qos_cleanup_list` is waited for. -/
@[simp, grind] def RtnlCall.synced : RtnlCall → Bool
  | .syncQos => true
  | _ => false

/-- `qos_cleanup_list` may have entries. -/
@[simp, grind] def RtnlCall.late : RtnlCall → Bool
  | .uninit _ => true
  | .watching .. => true
  | .deleting .. => true
  | .syncQos => true
  | _ => false

/-- The walk is in this `qos_info`, or it is on `qos_cleanup_list`. -/
@[grind] def Leaves (cleanup : List ℕ) (rtnl : RtnlCall) (q : ℕ) : Prop :=
  rtnl.cursor.map Prod.fst = some q ∨ q ∈ cleanup

/-- Where everything is, and what the readers know of it. -/
structure ExitPlaces (mem : ℕ → Option ℕ) (qosInfo : ℕ → Option ℕ) (cleanup : List ℕ) (rcu : Domain ℕ QosObj)
    (rtnl : RtnlCall) : Prop where
  sound : Sound rcu
  epHidden : ∀ d, .endpoint d ∈ rcu.hidden ↔ d ∈ rtnl.hiddenDevs
  epWaits : ∀ d, rcu.Waits (.endpoint d) ↔ d ∈ rtnl.awaitedDevs
  epLeaving : ∀ d ∈ rtnl.leaving, .endpoint d ∉ rcu.published
  epEntering : ∀ d, rtnl.entering = some d → .endpoint d ∉ rcu.published
  nodup : rtnl.hiddenDevs.Nodup ∧ rtnl.awaitedDevs.Nodup
  pointed : ∀ d q, qosInfo d = some q → mem q = some d
  registered : ∀ d q, qosInfo d = some q → .endpoint d ∈ rcu.published ∨ d ∈ rtnl.hiddenDevs ∨ d ∈ rtnl.awaitedDevs ∨
    d ∈ rtnl.leaving ∨ rtnl.entering = some d
  qosPublished : ∀ q, .qos q ∈ rcu.published ↔ ∃ d, qosInfo d = some q
  qosHidden : ∀ q, .qos q ∈ rcu.hidden ↔ rtnl.cursor.map Prod.fst = some q ∨ (rtnl.synced = false ∧ q ∈ cleanup)
  qosWaits : ∀ q, rcu.Waits (.qos q) ↔ rtnl.synced = true ∧ q ∈ cleanup
  once : cleanup.Nodup
  apart : ∀ q, rtnl.cursor.map Prod.fst = some q → q ∉ cleanup
  present : ∀ q, Leaves cleanup rtnl q → mem q ≠ none
  accounted : ∀ q d, mem q = some d → qosInfo d = some q ∨ Leaves cleanup rtnl q
  orphan : ∀ q d, Leaves cleanup rtnl q → mem q = some d → ¬ rcu.Live (.endpoint d)
  early : rtnl.late = false → cleanup = []

section

variable {mem : ℕ → Option ℕ} {qosInfo : ℕ → Option ℕ} {cleanup : List ℕ} {rcu : Domain ℕ QosObj} {rtnl : RtnlCall}
  {dev q : ℕ} {devs : List ℕ}

@[simp] theorem mem_map_endpoint : QosObj.endpoint dev ∈ devs.map QosObj.endpoint ↔ dev ∈ devs := by simp

@[simp] theorem qos_not_mem_map_endpoint : QosObj.qos q ∉ devs.map QosObj.endpoint := by simp

@[simp] theorem mem_map_qos : QosObj.qos q ∈ devs.map QosObj.qos ↔ q ∈ devs := by simp

@[simp] theorem endpoint_not_mem_map_qos : QosObj.endpoint dev ∉ devs.map QosObj.qos := by simp

theorem nodup_map_endpoint (h : devs.Nodup) : (devs.map QosObj.endpoint).Nodup :=
  h.map fun _ _ heq => QosObj.endpoint.inj heq

theorem nodup_map_qos (h : devs.Nodup) : (devs.map QosObj.qos).Nodup := h.map fun _ _ heq => QosObj.qos.inj heq

/-- Readers come and go, and find what they find. -/
theorem ExitPlaces.readers (h : ExitPlaces mem qosInfo cleanup rcu rtnl) {rcu' : Domain ℕ QosObj} (hs : Sound rcu')
    (hp : rcu'.published = rcu.published) (hh : rcu'.hidden = rcu.hidden) (hw : ∀ o, rcu'.Waits o ↔ rcu.Waits o) :
    ExitPlaces mem qosInfo cleanup rcu' rtnl := by
  obtain ⟨-, hepH, hepW, hepL, hepE, hnd, hpt, hreg, hqP, hqH, hqW, honce, hap, hpres, hacc, horph, hearly⟩ := h
  refine ⟨hs, ?_, ?_, ?_, ?_, hnd, hpt, ?_, ?_, ?_, ?_, honce, hap, hpres, hacc, ?_, hearly⟩
  all_goals grind [Domain.Live]

/-- A device without a `qos_info` is about to come. -/
theorem ExitPlaces.enter (h : ExitPlaces mem qosInfo cleanup rcu .idle) (hep : .endpoint dev ∉ rcu.published) :
    ExitPlaces mem qosInfo cleanup rcu (.linking dev) := by
  obtain ⟨hs, hepH, hepW, hepL, hepE, hnd, hpt, hreg, hqP, hqH, hqW, honce, hap, hpres, hacc, horph, hearly⟩ := h
  refine ⟨hs, ?_, ?_, ?_, ?_, hnd, hpt, ?_, ?_, ?_, ?_, honce, ?_, ?_, ?_, ?_, ?_⟩
  all_goals grind

/-- So is one with a `qos_info`. -/
theorem ExitPlaces.create (h : ExitPlaces mem qosInfo cleanup rcu .idle) (hep : .endpoint dev ∉ rcu.published)
    (hinfo : qosInfo dev = none) (hq : mem q = none) :
    ExitPlaces (Function.update mem q (some dev)) (Function.update qosInfo dev (some q)) cleanup (rcu.publish (.qos q))
      (.linking dev) := by
  have hdead : ¬ rcu.Live (.qos q) := by
    have hno : ∀ d, qosInfo d ≠ some q := fun d hd => by simpa [hq] using h.pointed d q hd
    have hleaves : ¬ Leaves cleanup .idle q := fun hl => h.present q hl hq
    rintro (hp | hh | hw)
    · obtain ⟨d, hd⟩ := (h.qosPublished q).mp hp
      exact hno d hd
    · exact hleaves (((h.qosHidden q).mp hh).imp_right And.right)
    · exact hleaves (.inr ((h.qosWaits q).mp hw).2)
  have hsound := h.sound.publish hdead
  have hpointed : ∀ q', (∃ d, Function.update qosInfo dev (some q) d = some q') ↔
      q' = q ∨ ∃ d, qosInfo d = some q' := by
    intro q'
    constructor
    · rintro ⟨d, hd⟩
      by_cases hdd : d = dev
      · rw [hdd, Function.update_self] at hd
        exact .inl (Option.some.inj hd).symm
      · rw [Function.update_of_ne hdd] at hd
        exact .inr ⟨d, hd⟩
    · rintro (rfl | ⟨d, hd⟩)
      · exact ⟨dev, Function.update_self ..⟩
      · have hdd : d ≠ dev := by
          rintro rfl
          rw [hinfo] at hd
          cases hd
        exact ⟨d, by rw [Function.update_of_ne hdd, hd]⟩
  obtain ⟨hs, hepH, hepW, hepL, hepE, hnd, hpt, hreg, hqP, hqH, hqW, honce, hap, hpres, hacc, horph, hearly⟩ := h
  have hpublished : ∀ q', QosObj.qos q' ∈ (rcu.publish (.qos q)).published ↔
      ∃ d, Function.update qosInfo dev (some q) d = some q' := by
    intro q'
    rw [publish_mem, hpointed, QosObj.qos.injEq, hqP]
  refine ⟨hsound, ?_, ?_, ?_, ?_, hnd, ?_, ?_, hpublished, ?_, ?_, honce, ?_, ?_, ?_, ?_, ?_⟩
  all_goals grind [Domain.Live]

/-- The endpoint of the new device is published. -/
theorem ExitPlaces.link (h : ExitPlaces mem qosInfo cleanup rcu (.linking dev)) :
    ExitPlaces mem qosInfo cleanup (rcu.publish (.endpoint dev)) .idle := by
  have hdead : ¬ rcu.Live (.endpoint dev) := by
    rintro (hp | hh | hw)
    · exact h.epEntering dev rfl hp
    · exact absurd ((h.epHidden dev).mp hh) List.not_mem_nil
    · exact absurd ((h.epWaits dev).mp hw) List.not_mem_nil
  have hsound := h.sound.publish hdead
  obtain ⟨hs, hepH, hepW, hepL, hepE, hnd, hpt, hreg, hqP, hqH, hqW, honce, hap, hpres, hacc, horph, hearly⟩ := h
  refine ⟨hsound, ?_, ?_, ?_, ?_, hnd, hpt, ?_, ?_, ?_, ?_, honce, ?_, ?_, ?_, ?_, ?_⟩
  all_goals grind [Domain.Live]

/-- Endpoints leave the table. -/
theorem ExitPlaces.unregister (h : ExitPlaces mem qosInfo cleanup rcu .idle) (hdevs : devs.Nodup)
    (hep : ∀ d ∈ devs, .endpoint d ∈ rcu.published) :
    ExitPlaces mem qosInfo cleanup (rcu.hideAll (devs.map .endpoint)) (.unlinked devs) := by
  obtain ⟨hsound, hpub, hhid, hwait⟩ := h.sound.hideAll (devs.map .endpoint) (nodup_map_endpoint hdevs) (by
    intro o ho
    obtain ⟨d, hd, rfl⟩ := List.mem_map.mp ho
    exact hep d hd)
  have hmem : ∀ d, QosObj.endpoint d ∈ devs.map QosObj.endpoint ↔ d ∈ devs := fun d => mem_map_endpoint
  have hqos : ∀ q, QosObj.qos q ∉ devs.map QosObj.endpoint := fun q => qos_not_mem_map_endpoint
  obtain ⟨hs, hepH, hepW, hepL, hepE, hnd, hpt, hreg, hqP, hqH, hqW, honce, hap, hpres, hacc, horph, hearly⟩ := h
  refine ⟨hsound, ?_, ?_, ?_, ?_, ⟨hdevs, List.nodup_nil⟩, hpt, ?_, ?_, ?_, ?_, honce, ?_, ?_, ?_, ?_, ?_⟩
  all_goals grind [Domain.Live]

/-- The wait for the readers of the endpoints begins. -/
theorem ExitPlaces.syncEndpoints (h : ExitPlaces mem qosInfo cleanup rcu (.unlinked devs)) :
    ExitPlaces mem qosInfo cleanup (rcu.synchronizeAll (devs.map .endpoint)) (.syncEndpoints devs) := by
  obtain ⟨hsound, hpub, hhid, hwait⟩ := h.sound.synchronizeAll (devs.map .endpoint) (nodup_map_endpoint h.nodup.1) (by
    intro o ho
    obtain ⟨d, hd, rfl⟩ := List.mem_map.mp ho
    exact (h.epHidden d).mpr hd)
  have hmem : ∀ d, QosObj.endpoint d ∈ devs.map QosObj.endpoint ↔ d ∈ devs := fun d => mem_map_endpoint
  have hqos : ∀ q, QosObj.qos q ∉ devs.map QosObj.endpoint := fun q => qos_not_mem_map_endpoint
  obtain ⟨hs, hepH, hepW, hepL, hepE, hnd, hpt, hreg, hqP, hqH, hqW, honce, hap, hpres, hacc, horph, hearly⟩ := h
  refine ⟨hsound, ?_, ?_, ?_, ?_, ⟨List.nodup_nil, hnd.1⟩, hpt, ?_, ?_, ?_, ?_, honce, ?_, ?_, ?_, ?_, ?_⟩
  all_goals grind [Domain.Live]

/-- The readers of the endpoints have gone. -/
theorem ExitPlaces.reclaimEndpoints (h : ExitPlaces mem qosInfo cleanup rcu (.syncEndpoints devs))
    (hw : ∀ d ∈ devs, (QosObj.endpoint d, []) ∈ rcu.waiting) :
    ExitPlaces mem qosInfo cleanup (rcu.reclaimAll (devs.map .endpoint)) (.uninit devs) := by
  obtain ⟨hsound, hpub, hhid, hwait⟩ := h.sound.reclaimAll (devs.map .endpoint) (nodup_map_endpoint h.nodup.2) (by
    intro o ho
    obtain ⟨d, hd, rfl⟩ := List.mem_map.mp ho
    exact hw d hd)
  have hmem : ∀ d, QosObj.endpoint d ∈ devs.map QosObj.endpoint ↔ d ∈ devs := fun d => mem_map_endpoint
  have hqos : ∀ q, QosObj.qos q ∉ devs.map QosObj.endpoint := fun q => qos_not_mem_map_endpoint
  have hout : ∀ d ∈ devs, QosObj.endpoint d ∉ rcu.published := fun d hd hp => (h.sound.unhidden _ hp).2 _ (hw d hd)
  obtain ⟨hs, hepH, hepW, hepL, hepE, hnd, hpt, hreg, hqP, hqH, hqW, honce, hap, hpres, hacc, horph, hearly⟩ := h
  refine ⟨hsound, ?_, ?_, ?_, ?_, ⟨List.nodup_nil, List.nodup_nil⟩, hpt, ?_, ?_, ?_, ?_, honce, ?_, ?_, ?_, ?_, ?_⟩
  all_goals grind [Domain.Live]

/-- A device without a `qos_info` is taken apart. -/
theorem ExitPlaces.skip (h : ExitPlaces mem qosInfo cleanup rcu (.uninit (dev :: devs))) (hinfo : qosInfo dev = none) :
    ExitPlaces mem qosInfo cleanup rcu (.uninit devs) := by
  obtain ⟨hs, hepH, hepW, hepL, hepE, hnd, hpt, hreg, hqP, hqH, hqW, honce, hap, hpres, hacc, horph, hearly⟩ := h
  refine ⟨hs, ?_, ?_, ?_, ?_, hnd, hpt, ?_, ?_, ?_, ?_, honce, ?_, ?_, ?_, ?_, ?_⟩
  all_goals grind

/-- The `qos_info` of a device is hidden, and the walk over its bearers begins. -/
theorem ExitPlaces.uninit (h : ExitPlaces mem qosInfo cleanup rcu (.uninit (dev :: devs)))
    (hinfo : qosInfo dev = some q) (bearer : Option Addr) :
    ExitPlaces mem (Function.update qosInfo dev none) cleanup (rcu.hide (.qos q)) (.watching q bearer devs) := by
  have hpub : QosObj.qos q ∈ rcu.published := (h.qosPublished q).mpr ⟨dev, hinfo⟩
  have hsound := h.sound.hide hpub
  have hhide : ∀ o, o ∈ (rcu.hide (.qos q)).published ↔ o ≠ .qos q ∧ o ∈ rcu.published :=
    fun o => h.sound.published.mem_erase_iff
  have hfresh := h.sound.unhidden _ hpub
  have hpointed : ∀ q', (∃ d, Function.update qosInfo dev none d = some q') ↔ q' ≠ q ∧ ∃ d, qosInfo d = some q' := by
    intro q'
    constructor
    · rintro ⟨d, hd⟩
      by_cases hdd : d = dev
      · rw [hdd, Function.update_self] at hd
        cases hd
      · rw [Function.update_of_ne hdd] at hd
        refine ⟨?_, d, hd⟩
        -- a `qos_info` belongs to one device
        rintro rfl
        have heq := (h.pointed d q' hd).symm.trans (h.pointed dev q' hinfo)
        exact hdd (Option.some.inj heq)
    · rintro ⟨hne, d, hd⟩
      have hdd : d ≠ dev := by
        rintro rfl
        rw [hinfo] at hd
        exact hne (Option.some.inj hd).symm
      exact ⟨d, by rw [Function.update_of_ne hdd, hd]⟩
  have hlive : ∀ d, (rcu.hide (.qos q)).Live (.endpoint d) ↔ rcu.Live (.endpoint d) := by
    intro d
    have hp := hhide (.endpoint d)
    grind [Domain.Live]
  have hdead : ¬ rcu.Live (.endpoint dev) := by
    rintro (hp | hh | hw)
    · exact h.epLeaving dev List.mem_cons_self hp
    · exact absurd ((h.epHidden dev).mp hh) List.not_mem_nil
    · exact absurd ((h.epWaits dev).mp hw) List.not_mem_nil
  have hnot : q ∉ cleanup := by
    intro hq
    exact hfresh.1 ((h.qosHidden q).mpr (.inr ⟨rfl, hq⟩))
  obtain ⟨hs, hepH, hepW, hepL, hepE, hnd, hpt, hreg, hqP, hqH, hqW, honce, hap, hpres, hacc, horph, hearly⟩ := h
  have hpublished : ∀ q', QosObj.qos q' ∈ (rcu.hide (.qos q)).published ↔
      ∃ d, Function.update qosInfo dev none d = some q' := by
    intro q'
    rw [hhide, hpointed, ne_eq, QosObj.qos.injEq, hqP]
  refine ⟨hsound, ?_, ?_, ?_, ?_, hnd, ?_, ?_, hpublished, ?_, ?_, honce, ?_, ?_, ?_, ?_, ?_⟩
  all_goals grind

/-- The walk goes on in the same `qos_info`. -/
theorem ExitPlaces.walk {rtnl' : RtnlCall} (h : ExitPlaces mem qosInfo cleanup rcu rtnl)
    (hc : rtnl.cursor.map Prod.fst = some q) (hc' : rtnl'.cursor.map Prod.fst = some q)
    (hl : rtnl'.leaving = rtnl.leaving) : ExitPlaces mem qosInfo cleanup rcu rtnl' := by
  obtain ⟨hs, hepH, hepW, hepL, hepE, hnd, hpt, hreg, hqP, hqH, hqW, honce, hap, hpres, hacc, horph, hearly⟩ := h
  have hkind : ∀ x : RtnlCall, x.cursor.map Prod.fst = some q → x.hiddenDevs = [] ∧ x.awaitedDevs = [] ∧
      x.entering = none ∧ x.synced = false ∧ x.late = true := by
    intro x hx
    cases x <;> simp at hx ⊢
  obtain ⟨h₁, h₂, h₃, h₄, h₅⟩ := hkind rtnl hc
  obtain ⟨h₁', h₂', h₃', h₄', h₅'⟩ := hkind rtnl' hc'
  refine ⟨hs, ?_, ?_, ?_, ?_, ?_, hpt, ?_, ?_, ?_, ?_, honce, ?_, ?_, ?_, ?_, ?_⟩
  all_goals grind

/-- The walk is at its end. -/
theorem ExitPlaces.clean (h : ExitPlaces mem qosInfo cleanup rcu (.watching q none devs)) :
    ExitPlaces mem qosInfo (q :: cleanup) rcu (.uninit devs) := by
  have honce := List.nodup_cons.mpr ⟨h.apart q rfl, h.once⟩
  obtain ⟨hs, hepH, hepW, hepL, hepE, hnd, hpt, hreg, hqP, hqH, hqW, -, hap, hpres, hacc, horph, hearly⟩ := h
  refine ⟨hs, ?_, ?_, ?_, ?_, hnd, hpt, ?_, ?_, ?_, ?_, honce, ?_, ?_, ?_, ?_, ?_⟩
  all_goals grind

/-- The wait for the readers of what is to be freed begins. -/
theorem ExitPlaces.syncQos (h : ExitPlaces mem qosInfo cleanup rcu (.uninit [])) :
    ExitPlaces mem qosInfo cleanup (rcu.synchronizeAll (cleanup.map .qos)) .syncQos := by
  obtain ⟨hsound, hpub, hhid, hwait⟩ := h.sound.synchronizeAll (cleanup.map .qos) (nodup_map_qos h.once) (by
    intro o ho
    obtain ⟨q, hq, rfl⟩ := List.mem_map.mp ho
    exact (h.qosHidden q).mpr (.inr ⟨rfl, hq⟩))
  have hmem : ∀ q, QosObj.qos q ∈ cleanup.map QosObj.qos ↔ q ∈ cleanup := fun q => mem_map_qos
  have hep : ∀ d, QosObj.endpoint d ∉ cleanup.map QosObj.qos := fun d => endpoint_not_mem_map_qos
  obtain ⟨hs, hepH, hepW, hepL, hepE, hnd, hpt, hreg, hqP, hqH, hqW, honce, hap, hpres, hacc, horph, hearly⟩ := h
  refine ⟨hsound, ?_, ?_, ?_, ?_, hnd, hpt, ?_, ?_, ?_, ?_, honce, ?_, ?_, ?_, ?_, ?_⟩
  all_goals grind [Domain.Live]

/-- What is on the list is freed. -/
theorem ExitPlaces.free (h : ExitPlaces mem qosInfo cleanup rcu .syncQos)
    (hw : ∀ q ∈ cleanup, (QosObj.qos q, []) ∈ rcu.waiting) :
    ExitPlaces (fun q => if q ∈ cleanup then none else mem q) qosInfo [] (rcu.reclaimAll (cleanup.map .qos)) .idle := by
  obtain ⟨hsound, hpub, hhid, hwait⟩ := h.sound.reclaimAll (cleanup.map .qos) (nodup_map_qos h.once) (by
    intro o ho
    obtain ⟨q, hq, rfl⟩ := List.mem_map.mp ho
    exact hw q hq)
  have hmem : ∀ q, QosObj.qos q ∈ cleanup.map QosObj.qos ↔ q ∈ cleanup := fun q => mem_map_qos
  have hep : ∀ d, QosObj.endpoint d ∉ cleanup.map QosObj.qos := fun d => endpoint_not_mem_map_qos
  have hout : ∀ q ∈ cleanup, ∀ d, qosInfo d ≠ some q := fun q hq d hd =>
    (h.sound.unhidden _ ((h.qosPublished q).mpr ⟨d, hd⟩)).2 _ (hw q hq)
  obtain ⟨hs, hepH, hepW, hepL, hepE, hnd, hpt, hreg, hqP, hqH, hqW, honce, hap, hpres, hacc, horph, hearly⟩ := h
  refine ⟨hsound, ?_, ?_, ?_, ?_, hnd, ?_, ?_, ?_, ?_, ?_, List.nodup_nil, ?_, ?_, ?_, ?_, ?_⟩
  all_goals grind [Domain.Live]

end

/-! ### How far the walk has come -/

/-- What the walk has passed is still. -/
def WalkedTo (d : DfcDevice) : Option Addr → Prop
  | none => ∀ a, Still d a
  | some a => ∃ pre post, d.qos.bearerHead = pre ++ a :: post ∧ ∀ b ∈ pre, Still d b

/-- What is known of each `qos_info`. -/
structure ExitContents (mem : ℕ → Option QosMem) (cleanup : List ℕ) (rtnl : RtnlCall) : Prop where
  ok : ∀ q m, mem q = some m → DeviceOk m.dfc
  still : ∀ q m, mem q = some m → q ∈ cleanup → ∀ a, Still m.dfc a
  walked : ∀ q m bearer, mem q = some m → rtnl.cursor = some (q, bearer) → WalkedTo m.dfc bearer

section

variable {d d' : DfcDevice} {a : Addr} {pre post : List Addr}

theorem WalkedTo.mono {bearer : Option Addr} (h : WalkedTo d bearer) (hhead : d'.qos.bearerHead = d.qos.bearerHead)
    (hstill : ∀ a, Still d a → Still d' a) : WalkedTo d' bearer := by
  cases bearer with
  | none => exact fun a => hstill a (h a)
  | some a =>
    obtain ⟨pre, post, hlist, hpre⟩ := h
    exact ⟨pre, post, hhead.trans hlist, fun b hb => hstill b (hpre b hb)⟩

/-- The walk begins at the first bearer. -/
theorem DeviceOk.walk_start (h : DeviceOk d) : WalkedTo d d.qos.bearerHead.head? := by
  cases hhead : d.qos.bearerHead with
  | nil =>
    intro a
    refine h.listed a ?_
    rw [hhead]
    exact List.not_mem_nil
  | cons a post => exact ⟨[], post, hhead, fun b hb => absurd hb List.not_mem_nil⟩

theorem nextBearer_eq (h : a ∉ pre) : nextBearer (pre ++ a :: post) a = post.head? := by
  have hdrop : (pre ++ a :: post).dropWhile (fun b => decide (b ≠ a)) = a :: post := by
    induction pre with
    | nil => simp
    | cons b pre ih =>
      obtain ⟨hne, hpre⟩ := not_or.mp fun hmem => h (List.mem_cons.mpr hmem)
      have hba : decide (b ≠ a) = true := by simpa using fun heq => hne heq.symm
      rw [List.cons_append, List.dropWhile_cons, if_pos hba]
      exact ih hpre
  unfold nextBearer
  rw [hdrop]
  rfl

/-- The walk passes a bearer whose timer has been deleted. -/
theorem DeviceOk.walk_next (h : DeviceOk d) (hw : WalkedTo d (some a)) (ha : Still d a) :
    WalkedTo d (nextBearer d.qos.bearerHead a) := by
  obtain ⟨pre, post, hlist, hpre⟩ := hw
  have hnodup := h.table.inv.nodup
  rw [hlist] at hnodup
  have hout : a ∉ pre := fun hin => (List.nodup_append.mp hnodup).2.2 a hin a List.mem_cons_self rfl
  have hpassed : ∀ b ∈ pre ++ [a], Still d b := by
    intro b hb
    rcases List.mem_append.mp hb with hb | hb
    · exact hpre b hb
    · rw [List.mem_singleton.mp hb]
      exact ha
  rw [hlist, nextBearer_eq hout]
  cases post with
  | nil =>
    intro b
    by_cases hb : b ∈ pre ++ [a]
    · exact hpassed b hb
    · exact h.listed b (by rw [hlist]; exact hb)
  | cons c post => exact ⟨pre ++ [a], post, by rw [hlist, List.append_assoc]; rfl, hpassed⟩

end

section

variable {mem : ℕ → Option QosMem} {cleanup : List ℕ} {rtnl : RtnlCall} {q : ℕ} {m m' : QosMem}

/-- A write to a `qos_info`.  One that leaves keeps its list, and what is still stays so. -/
theorem ExitContents.write (h : ExitContents mem cleanup rtnl) (hm : mem q = some m) (hok : DeviceOk m'.dfc)
    (hl : Leaves cleanup rtnl q → m'.dfc.qos.bearerHead = m.dfc.qos.bearerHead ∧ ∀ a, Still m.dfc a → Still m'.dfc a) :
    ExitContents (Function.update mem q (some m')) cleanup rtnl := by
  refine ⟨fun q₁ m₁ h₁ => ?_, fun q₁ m₁ h₁ hc => ?_, fun q₁ m₁ bearer h₁ hc => ?_⟩
  · by_cases hq : q₁ = q
    · rw [hq, Function.update_self] at h₁
      obtain rfl := Option.some.inj h₁
      exact hok
    · rw [Function.update_of_ne hq] at h₁
      exact h.ok q₁ m₁ h₁
  · by_cases hq : q₁ = q
    · subst hq
      rw [Function.update_self] at h₁
      obtain rfl := Option.some.inj h₁
      exact fun a => (hl (.inr hc)).2 a (h.still q₁ m hm hc a)
    · rw [Function.update_of_ne hq] at h₁
      exact h.still q₁ m₁ h₁ hc
  · by_cases hq : q₁ = q
    · subst hq
      rw [Function.update_self] at h₁
      obtain rfl := Option.some.inj h₁
      obtain ⟨hhead, hstill⟩ := hl (.inl (by rw [hc]; rfl))
      exact (h.walked q₁ m bearer hm hc).mono hhead hstill
    · rw [Function.update_of_ne hq] at h₁
      exact h.walked q₁ m₁ bearer h₁ hc

/-- A new `qos_info`. -/
theorem ExitContents.add (h : ExitContents mem cleanup rtnl) (hempty : cleanup = []) {rtnl' : RtnlCall}
    (hc : rtnl'.cursor = none) (hok : DeviceOk m.dfc) :
    ExitContents (Function.update mem q (some m)) cleanup rtnl' := by
  subst hempty
  refine ⟨fun q₁ m₁ h₁ => ?_, fun _ _ _ hin => absurd hin List.not_mem_nil, fun q₁ m₁ bearer _ hcur => ?_⟩
  · by_cases hq : q₁ = q
    · rw [hq, Function.update_self] at h₁
      obtain rfl := Option.some.inj h₁
      exact hok
    · rw [Function.update_of_ne hq] at h₁
      exact h.ok q₁ m₁ h₁
  · rw [hc] at hcur
    cases hcur

/-- The holder of the lock goes on outside of a walk. -/
theorem ExitContents.goto (h : ExitContents mem cleanup rtnl) {rtnl' : RtnlCall} (hc : rtnl'.cursor = none) :
    ExitContents mem cleanup rtnl' := by
  refine ⟨h.ok, h.still, fun q m bearer _ hcur => ?_⟩
  rw [hc] at hcur
  cases hcur

end

/-- Each entry of the list is freed once, and without a timer. -/
theorem kfree_foldl (l : List ℕ) : ∀ s : QosSys, l.Nodup → (∀ q ∈ l, ∃ m, s.mem q = some m ∧ ∀ a, Still m.dfc a) →
    l.foldl QosSys.kfree s = { s with mem := fun q => if q ∈ l then none else s.mem q } := by
  induction l with
  | nil =>
    intro s _ _
    simp
  | cons q l ih =>
    intro s hnodup hl
    obtain ⟨hq, hnodup⟩ := List.nodup_cons.mp hnodup
    obtain ⟨m, hm, hstill⟩ := hl q List.mem_cons_self
    have hquiet : (m.dfc.qos.bearerHead.any fun a =>
        (m.dfc.qos.heap a).watchdogArmed || decide (m.dfc.inFlight a ≠ 0)) = false := by
      rw [List.any_eq_false]
      intro a _
      obtain ⟨hoff, hnone⟩ := hstill a
      simp [hoff, hnone]
    have hfree : s.kfree q = { s with mem := Function.update s.mem q none } := by
      unfold QosSys.kfree QosSys.access
      simp only [hm, hquiet, Bool.or_false]
    have hrest : ∀ q' ∈ l, ∃ m, (Function.update s.mem q none) q' = some m ∧ ∀ a, Still m.dfc a := by
      intro q' hq'
      have hne : q' ≠ q := by
        rintro rfl
        exact hq hq'
      rw [Function.update_of_ne hne]
      exact hl q' (List.mem_cons_of_mem q hq')
    rw [List.foldl_cons, hfree, ih _ hnodup hrest]
    congr 1
    funext q'
    by_cases hqq : q' = q
    · subst hqq
      simp [hq]
    · simp [hqq]

/-! ### Steps -/

/-- The device of each `qos_info`. -/
def QosSys.devOf (s : QosSys) (q : ℕ) : Option ℕ := (s.mem q).map QosMem.vndDev

/-- The invariant. -/
structure QosExitInv (s : QosSys) : Prop where
  noFault : s.fault = false
  places : ExitPlaces s.devOf s.qosInfo s.cleanup s.rcu s.rtnl
  contents : ExitContents s.mem s.cleanup s.rtnl

theorem qosExitInv_init {s : QosSys} (h : QosSysInit s) : QosExitInv s := by
  subst h
  refine ⟨rfl, ⟨sound_empty, ?_, ?_, ?_, ?_, ⟨List.nodup_nil, List.nodup_nil⟩, ?_, ?_, ?_, ?_, ?_, List.nodup_nil, ?_,
    ?_, ?_, ?_, ?_⟩, ⟨?_, ?_, ?_⟩⟩
  all_goals simp [Domain.empty, Domain.Waits, QosSys.devOf, Leaves]

section

variable {s s' : QosSys} {r dev q : ℕ} {devs : List ℕ} {m m' : QosMem} {a : Addr} {cfg : DfcConfig} {e : DfcEvent}

theorem devOf_new : (s.write q m).devOf = Function.update s.devOf q (some m.vndDev) := by
  funext q'
  show ((Function.update s.mem q (some m)) q').map QosMem.vndDev = _
  by_cases hq : q' = q
  · rw [hq, Function.update_self, Function.update_self, Option.map_some]
  · rw [Function.update_of_ne hq, Function.update_of_ne hq]
    rfl

theorem devOf_eq (hm : s.mem q = some m) : s.devOf q = some m.vndDev := by rw [QosSys.devOf, hm, Option.map_some]

/-- A write to a `qos_info` leaves its device alone. -/
theorem mem_of_devOf (h : s.devOf q ≠ none) : ∃ m, s.mem q = some m := by
  cases hm : s.mem q with
  | none =>
    rw [QosSys.devOf, hm] at h
    exact absurd rfl h
  | some m => exact ⟨m, rfl⟩

theorem devOf_write (hm : s.mem q = some m) (hdev : m'.vndDev = m.vndDev) : (s.write q m').devOf = s.devOf := by
  rw [devOf_new, hdev, ← devOf_eq hm, Function.update_eq_self]

/-- What is not free is in memory. -/
theorem QosExitInv.mem_of_live (h : QosExitInv s) (hl : s.rcu.Live (.qos q)) : ∃ m, s.mem q = some m := by
  apply mem_of_devOf
  rcases hl with hp | hh | hw
  · obtain ⟨d, hd⟩ := (h.places.qosPublished q).mp hp
    rw [h.places.pointed d q hd]
    exact Option.some_ne_none d
  · exact h.places.present q (((h.places.qosHidden q).mp hh).imp_right And.right)
  · exact h.places.present q (.inr ((h.places.qosWaits q).mp hw).2)

/-- A write by a reader or a timer. -/
theorem QosExitInv.write (h : QosExitInv s) (hm : s.mem q = some m) (hdev : m'.vndDev = m.vndDev)
    (hok : DeviceOk m'.dfc)
    (hl : Leaves s.cleanup s.rtnl q →
      m'.dfc.qos.bearerHead = m.dfc.qos.bearerHead ∧ ∀ a, Still m.dfc a → Still m'.dfc a) :
    QosExitInv (s.write q m') := by
  refine ⟨h.noFault, ?_, h.contents.write hm hok hl⟩
  rw [devOf_write hm hdev]
  exact h.places

/-- Readers come, go, and look. -/
theorem QosExitInv.readers (h : QosExitInv s) {rcu : Domain ℕ QosObj} (hs : Sound rcu)
    (hp : rcu.published = s.rcu.published) (hh : rcu.hidden = s.rcu.hidden) (hw : ∀ o, rcu.Waits o ↔ s.rcu.Waits o) :
    QosExitInv { s with rcu := rcu } :=
  ⟨h.noFault, h.places.readers hs hp hh hw, h.contents⟩

theorem QosExitInv.getRmnetDev (h : QosExitInv s) (hs : s.getRmnetDev r dev = some s') : QosExitInv s' := by
  unfold QosSys.getRmnetDev at hs
  split at hs
  · rename_i hact
    obtain rfl := Option.some.inj hs
    exact h.readers (h.places.sound.find hact.1 hact.2) rfl rfl fun _ => find_waits
  · cases hs

theorem QosExitInv.getQosPt (h : QosExitInv s) (hs : s.getQosPt r dev = some s') : QosExitInv s' := by
  unfold QosSys.getQosPt at hs
  split at hs
  · rename_i hact
    split at hs
    · obtain rfl := Option.some.inj hs
      exact h
    · rename_i q hq
      obtain rfl := Option.some.inj hs
      have hpub := (h.places.qosPublished q).mpr ⟨dev, hq⟩
      exact h.readers (h.places.sound.find hact hpub) rfl rfl fun _ => find_waits
  · cases hs

/-- **A reader under `qos_lock`.**  A message has found the device in the table, so the `qos_info` is not one that
leaves. -/
theorem QosExitInv.underLock (h : QosExitInv s) (hs : s.underLock r q cfg e = some s') : QosExitInv s' := by
  unfold QosSys.underLock at hs
  split at hs
  · rename_i hheld
    obtain ⟨m, hm⟩ := h.mem_of_live (h.places.sound.live hheld)
    rw [hm] at hs
    simp only at hs
    split at hs
    · rename_i hwho
      obtain rfl := Option.some.inj hs
      have hok := h.contents.ok q m hm
      rcases hwho with hpacket | ⟨hmessage, hep⟩
      · obtain ⟨hok', hkeep⟩ := hok.packet cfg hpacket
        exact h.write hm rfl hok' fun _ => hkeep
      · refine h.write hm rfl (hok.message cfg hmessage) fun hleaves => ?_
        exact absurd (h.places.sound.live hep) (h.places.orphan q m.vndDev hleaves (devOf_eq hm))
    · cases hs
  · cases hs

theorem QosExitInv.expires (h : QosExitInv s) (hs : s.expires q a cfg = some s') : QosExitInv s' := by
  unfold QosSys.expires at hs
  split at hs
  · cases hs
  · rename_i m hm
    split at hs
    · rename_i harmed
      obtain rfl := Option.some.inj hs
      obtain ⟨hmem, hok, hkeep⟩ := (h.contents.ok q m hm).expires cfg harmed
      unfold QosSys.timer
      rw [if_pos hmem]
      exact h.write hm rfl hok fun _ => hkeep
    · cases hs

theorem QosExitInv.watchdogFn (h : QosExitInv s) (hs : s.watchdogFn q a cfg = some s') : QosExitInv s' := by
  unfold QosSys.watchdogFn at hs
  split at hs
  · cases hs
  · rename_i m hm
    split at hs
    · rename_i hflight
      obtain rfl := Option.some.inj hs
      obtain ⟨hmem, hok, hkeep⟩ := (h.contents.ok q m hm).watchdogFn cfg hflight
      unfold QosSys.timer
      rw [if_pos hmem]
      exact h.write hm rfl hok fun _ => hkeep
    · cases hs

theorem QosExitInv.newlink (h : QosExitInv s) {muxId numTxQueues : ℕ} {stopped : ℕ → Bool} {kzalloc : Option ℕ}
    (hs : s.newlink dev muxId numTxQueues stopped kzalloc = some s') : QosExitInv s' := by
  unfold QosSys.newlink at hs
  split at hs
  · rename_i hpre
    obtain ⟨hidle, hinfo, hep⟩ := hpre
    obtain ⟨hfault, hplaces, hcont⟩ := h
    rw [hidle] at hplaces
    split at hs
    · obtain rfl := Option.some.inj hs
      exact ⟨hfault, hplaces.enter hep, hcont.goto rfl⟩
    · rename_i q
      split at hs
      · rename_i hq
        obtain rfl := Option.some.inj hs
        have hdev : s.devOf q = none := by rw [QosSys.devOf, hq, Option.map_none]
        refine ⟨hfault, ?_, hcont.add (hplaces.early rfl) rfl (deviceOk_init muxId numTxQueues stopped)⟩
        show ExitPlaces (s.write q _).devOf _ _ _ _
        rw [devOf_new]
        exact hplaces.create hep hinfo hdev
      · cases hs
  · cases hs

/-- **A flow request**, for which memory is found. -/
theorem QosExitInv.flow (h : QosExitInv s) (halloc : e.Allocated) (hs : s.flow dev cfg e = some s') :
    QosExitInv s' := by
  unfold QosSys.flow at hs
  split at hs
  · rename_i hidle
    split at hs
    · obtain rfl := Option.some.inj hs
      exact h
    · rename_i q hq
      have hpub := (h.places.qosPublished q).mpr ⟨dev, hq⟩
      obtain ⟨m, hm⟩ := h.mem_of_live (.inl hpub)
      rw [hm] at hs
      simp only at hs
      have hok := h.contents.ok q m hm
      have hstays : ¬ Leaves s.cleanup s.rtnl q := by
        rw [hidle]
        rintro (hc | hc)
        · cases hc
        · rw [h.places.early (by rw [hidle]; rfl)] at hc
          exact List.not_mem_nil hc
      have hdone : ∀ qos, TableInv qos → TableWrite cfg m.dfc.qos qos →
          (∀ a ∈ goneBearers m.dfc.qos qos, m.dfc.inFlight a = 0) →
          QosExitInv (s.write q { m with dfc := { m.dfc with
            qos := qos.stopTimers (goneBearers m.dfc.qos qos) } }) := fun qos ht hw hgone =>
        h.write hm rfl (hok.flow ht hw hgone) fun hl => absurd hl hstays
      cases e with
      | addFlow kzFlow kzBearer tcm =>
        simp only at hs
        split at hs
        · rename_i hgone
          obtain rfl := Option.some.inj hs
          exact hdone _ (dfcEvent_table cfg hok.table halloc) (addFlow_write cfg kzFlow kzBearer m.dfc.qos tcm) hgone
        · cases hs
      | delFlow tcm =>
        simp only at hs
        split at hs
        · rename_i hgone
          obtain rfl := Option.some.inj hs
          exact hdone _ (dfcEvent_table cfg hok.table halloc) (delFlow_write cfg m.dfc.qos tcm) hgone
        · cases hs
      | _ => cases hs
  · cases hs

theorem QosExitInv.unregister (h : QosExitInv s) (hs : s.unregister devs = some s') : QosExitInv s' := by
  unfold QosSys.unregister at hs
  split at hs
  · rename_i hpre
    obtain ⟨hidle, hnodup, hep⟩ := hpre
    obtain rfl := Option.some.inj hs
    obtain ⟨hfault, hplaces, hcont⟩ := h
    rw [hidle] at hplaces
    exact ⟨hfault, hplaces.unregister hnodup hep, hcont.goto rfl⟩
  · cases hs

/-- The walk writes to a bearer and goes on. -/
theorem QosExitInv.walk (h : QosExitInv s) (hm : s.mem q = some m) (hc : s.rtnl.cursor.map Prod.fst = some q)
    {rtnl' : RtnlCall} {bearer : Option Addr} (hc' : rtnl'.cursor = some (q, bearer))
    (hl : rtnl'.leaving = s.rtnl.leaving) {f : RmnetBearerMap → RmnetBearerMap}
    (hid : ∀ b, (f b).bearerId = b.bearerId ∧ (f b).flowRef = b.flowRef)
    (hf : ∀ b, b.watchdogArmed = false → (f b).watchdogArmed = false)
    (hw : (∀ b, Still m.dfc b → Still (m.modify a f).dfc b) → DeviceOk (m.modify a f).dfc →
      WalkedTo (m.modify a f).dfc bearer) :
    QosExitInv { s.write q (m.modify a f) with rtnl := rtnl' } := by
  obtain ⟨hok, hstill⟩ := (h.contents.ok q m hm).modify a hid hf
  have hwrite : QosExitInv (s.write q (m.modify a f)) := h.write hm rfl hok fun _ => ⟨rfl, hstill⟩
  refine ⟨h.noFault, hwrite.places.walk hc (by rw [hc']; rfl) hl, hwrite.contents.ok, hwrite.contents.still, ?_⟩
  intro q₁ m₁ bearer₁ h₁ hc₁
  obtain ⟨rfl, rfl⟩ := Prod.mk.inj (Option.some.inj (hc'.symm.trans hc₁))
  have hself : (Function.update s.mem q (some (m.modify a f))) q = some m₁ := h₁
  rw [Function.update_self] at hself
  obtain rfl := Option.some.inj hself
  exact hw hstill hok

/-- What has been cleaned up is freed, when its readers are gone. -/
theorem QosExitInv.kfree (h : QosExitInv s) (hrtnl : s.rtnl = .syncQos)
    (hw : ∀ q ∈ s.cleanup, (QosObj.qos q, []) ∈ s.rcu.waiting) :
    QosExitInv { s.cleanup.foldl QosSys.kfree { s with rcu := s.rcu.reclaimAll (s.cleanup.map .qos) } with
      cleanup := [], rtnl := .idle } := by
  obtain ⟨hfault, hplaces, hcont⟩ := h
  rw [hrtnl] at hplaces
  have hpresent : ∀ q ∈ s.cleanup, ∃ m, s.mem q = some m ∧ ∀ a, Still m.dfc a := by
    intro q hq
    obtain ⟨m, hm⟩ := mem_of_devOf (hplaces.present q (.inr hq))
    exact ⟨m, hm, hcont.still q m hm hq⟩
  have hmem : ∀ q m, (if q ∈ s.cleanup then none else s.mem q) = some m → s.mem q = some m := by
    intro q m hq
    split at hq
    · cases hq
    · exact hq
  have hdev : QosSys.devOf { s with mem := fun q => if q ∈ s.cleanup then none else s.mem q } =
      fun q => if q ∈ s.cleanup then none else s.devOf q := by
    funext q
    show (if q ∈ s.cleanup then none else s.mem q).map QosMem.vndDev = _
    split
    · rfl
    · rfl
  rw [kfree_foldl s.cleanup { s with rcu := s.rcu.reclaimAll (s.cleanup.map .qos) } hplaces.once hpresent]
  refine ⟨hfault, ?_, fun q m hq => hcont.ok q m (hmem q m hq), fun _ _ _ hin => absurd hin List.not_mem_nil,
    fun _ _ _ _ hc => by cases hc⟩
  show ExitPlaces (QosSys.devOf { s with mem := fun q => if q ∈ s.cleanup then none else s.mem q }) _ _ _ _
  rw [hdev]
  exact hplaces.free hw

/-- **The holder of the RTNL lock** takes its next step. -/
theorem QosExitInv.go (h : QosExitInv s) (hs : s.go = some s') : QosExitInv s' := by
  unfold QosSys.go at hs
  obtain ⟨hfault, hplaces, hcont⟩ := h
  split at hs
  · cases hs
  · rename_i dev hrtnl
    rw [hrtnl] at hplaces
    obtain rfl := Option.some.inj hs
    exact ⟨hfault, hplaces.link, hcont.goto rfl⟩
  · rename_i devs hrtnl
    rw [hrtnl] at hplaces
    obtain rfl := Option.some.inj hs
    exact ⟨hfault, hplaces.syncEndpoints, hcont.goto rfl⟩
  · rename_i devs hrtnl
    rw [hrtnl] at hplaces
    split at hs
    · rename_i hw
      obtain rfl := Option.some.inj hs
      exact ⟨hfault, hplaces.reclaimEndpoints hw, hcont.goto rfl⟩
    · cases hs
  · rename_i hrtnl
    rw [hrtnl] at hplaces
    obtain rfl := Option.some.inj hs
    exact ⟨hfault, hplaces.syncQos, hcont.goto rfl⟩
  · rename_i dev devs hrtnl
    rw [hrtnl] at hplaces
    obtain rfl := Option.some.inj hs
    unfold QosSys.vndUninit
    split
    · rename_i hinfo
      exact ⟨hfault, hplaces.skip hinfo, hcont.goto rfl⟩
    · rename_i q hinfo
      have hdev := hplaces.pointed dev q hinfo
      obtain ⟨m, hm⟩ := mem_of_devOf (by rw [hdev]; exact Option.some_ne_none dev)
      unfold QosSys.access
      rw [hm]
      refine ⟨hfault, hplaces.uninit hinfo _, hcont.ok, hcont.still, fun q₁ m₁ bearer h₁ hc => ?_⟩
      obtain ⟨rfl, rfl⟩ := Prod.mk.inj (Option.some.inj hc)
      obtain rfl := Option.some.inj (hm.symm.trans h₁)
      exact (hcont.ok q m hm).walk_start
  · rename_i q devs hrtnl
    rw [hrtnl] at hplaces hcont
    obtain rfl := Option.some.inj hs
    refine ⟨hfault, hplaces.clean, hcont.ok, fun q₁ m₁ h₁ hc => ?_, fun _ _ _ _ hc => by cases hc⟩
    rcases List.mem_cons.mp hc with rfl | hc
    · exact hcont.walked q₁ m₁ none h₁ rfl
    · exact hcont.still q₁ m₁ h₁ hc
  · rename_i q a devs hrtnl
    obtain rfl := Option.some.inj hs
    obtain ⟨m, hm⟩ := mem_of_devOf (hplaces.present q (.inl (by rw [hrtnl]; rfl)))
    unfold QosSys.access
    rw [hm]
    have hwalked := hcont.walked q m (some a) hm (by rw [hrtnl]; rfl)
    exact QosExitInv.walk ⟨hfault, hplaces, hcont⟩ hm (by rw [hrtnl]; rfl) rfl (by rw [hrtnl]; rfl)
      (fun _ => ⟨rfl, rfl⟩) (fun _ h => h) fun hstill _ => hwalked.mono rfl hstill
  · rename_i q a devs hrtnl
    obtain ⟨m, hm⟩ := mem_of_devOf (hplaces.present q (.inl (by rw [hrtnl]; rfl)))
    rw [hm] at hs
    simp only at hs
    split at hs
    · rename_i hnone
      obtain rfl := Option.some.inj hs
      have hwalked := hcont.walked q m (some a) hm (by rw [hrtnl]; rfl)
      refine QosExitInv.walk ⟨hfault, hplaces, hcont⟩ hm (by rw [hrtnl]; rfl) rfl (by rw [hrtnl]; rfl)
        (fun _ => ⟨rfl, rfl⟩) (fun _ _ => rfl) fun hstill hok => hok.walk_next (hwalked.mono rfl hstill) ⟨?_, hnone⟩
      show ((m.dfc.qos.modifyBearer a delTimerSync).heap a).watchdogArmed = false
      rw [modifyBearer_heap_self]
      rfl
    · cases hs
  · rename_i hrtnl
    split at hs
    · rename_i hw
      obtain rfl := Option.some.inj hs
      exact QosExitInv.kfree ⟨hfault, hplaces, hcont⟩ hrtnl hw
    · cases hs

end

/-- Flow activations find memory. -/
def QosAction.Allocated : QosAction → Prop
  | .flow _ _ e => e.Allocated
  | _ => True

/-- **One step.** -/
theorem QosExitInv.step (s : QosSys) (x : QosAction) (s' : QosSys) (h : QosExitInv s) (hs : QosStep s x s')
    (halloc : x.Allocated) : QosExitInv s' := by
  unfold QosStep qosStep at hs
  cases x with
  | readLock r =>
    simp only at hs
    split at hs
    · cases hs
    · rename_i hact
      obtain rfl := Option.some.inj hs
      exact h.readers (h.places.sound.enter hact) rfl rfl fun _ => enter_waits
  | readUnlock r =>
    obtain rfl := Option.some.inj hs
    exact h.readers h.places.sound.leave rfl rfl fun _ => leave_waits
  | getRmnetDev r dev => exact h.getRmnetDev hs
  | getQosPt r dev => exact h.getQosPt hs
  | underLock r q cfg e => exact h.underLock hs
  | expires q a cfg => exact h.expires hs
  | watchdogFn q a cfg => exact h.watchdogFn hs
  | newlink dev muxId numTxQueues stopped kzalloc => exact h.newlink hs
  | flow dev cfg e => exact h.flow halloc hs
  | unregister devs => exact h.unregister hs
  | go => exact h.go hs

/-! ### Every run -/

/-- What the end of a device promises. -/
structure QosExitSafe (s : QosSys) : Prop where
  /-- No free memory has been used or freed, and no timer freed that was pending or ran. -/
  noFault : s.fault = false
  /-- What a reader holds is in memory, and so are the bearers of its flows. -/
  held : ∀ r q, .qos q ∈ s.rcu.holds r → ∃ m, s.mem q = some m
  flows : ∀ q m, s.mem q = some m → ∀ f ∈ m.dfc.qos.flowHead, ∀ a, f.bearer = some a → a ∈ m.dfc.qos.bearerHead
  /-- A timer that is pending or runs belongs to a bearer of a device that is not to be freed yet. -/
  timers : ∀ q m a, s.mem q = some m → (m.dfc.qos.heap a).watchdogArmed = true ∨ m.dfc.inFlight a ≠ 0 →
    a ∈ m.dfc.qos.bearerHead ∧ q ∉ s.cleanup
  /-- Nothing is lost. -/
  accounted : ∀ q m, s.mem q = some m →
    s.qosInfo m.vndDev = some q ∨ s.rtnl.cursor.map Prod.fst = some q ∨ q ∈ s.cleanup
  idle : s.rtnl = .idle → ∀ q m, s.mem q = some m →
    s.qosInfo m.vndDev = some q ∧ .endpoint m.vndDev ∈ s.rcu.published
  /-- The holder of the lock can go on, or waits for a reader that is there, or for a callback that can run. -/
  progress : s.rtnl ≠ .idle → s.go.isSome = true ∨ (∃ w ∈ s.rcu.waiting, ∃ r ∈ w.2, r ∈ s.rcu.active) ∨
    ∃ q a, ∀ cfg, (s.watchdogFn q a cfg).isSome = true

/-- A wait that is not over is for a reader that is there. -/
theorem QosExitInv.waits {s : QosSys} (h : QosExitInv s) {l : List QosObj} (hl : ∀ o ∈ l, s.rcu.Waits o)
    (hno : ¬ ∀ o ∈ l, (o, []) ∈ s.rcu.waiting) : ∃ w ∈ s.rcu.waiting, ∃ r ∈ w.2, r ∈ s.rcu.active := by
  simp only [not_forall] at hno
  obtain ⟨o, ho, hnot⟩ := hno
  obtain ⟨rs, hw⟩ := hl o ho
  cases rs with
  | nil => exact absurd hw hnot
  | cons r rs => exact ⟨_, hw, r, List.mem_cons_self, (h.places.sound.awaited _ hw).2 r List.mem_cons_self⟩

theorem QosExitInv.progress {s : QosSys} (h : QosExitInv s) (hrtnl : s.rtnl ≠ .idle) :
    s.go.isSome = true ∨ (∃ w ∈ s.rcu.waiting, ∃ r ∈ w.2, r ∈ s.rcu.active) ∨
      ∃ q a, ∀ cfg, (s.watchdogFn q a cfg).isSome = true := by
  unfold QosSys.go
  split
  · rename_i hidle
    exact absurd hidle hrtnl
  · exact .inl rfl
  · exact .inl rfl
  · rename_i devs heq
    split
    · exact .inl rfl
    · rename_i hno
      refine .inr (.inl (h.waits (l := devs.map .endpoint) (fun o ho => ?_) fun hall => hno fun d hd => ?_))
      · obtain ⟨d, hd, rfl⟩ := List.mem_map.mp ho
        exact (h.places.epWaits d).mpr (by rw [heq]; exact hd)
      · exact hall _ (List.mem_map.mpr ⟨d, hd, rfl⟩)
  · exact .inl rfl
  · exact .inl rfl
  · exact .inl rfl
  · exact .inl rfl
  · rename_i q a devs heq
    cases hm : s.mem q with
    | none => exact .inl rfl
    | some m =>
      by_cases hnone : m.dfc.inFlight a = 0
      · simp only [if_pos hnone]
        exact .inl rfl
      · refine .inr (.inr ⟨q, a, fun cfg => ?_⟩)
        unfold QosSys.watchdogFn
        simp only [hm, if_pos (Nat.pos_of_ne_zero hnone)]
        rfl
  · rename_i heq
    split
    · exact .inl rfl
    · rename_i hno
      refine .inr (.inl (h.waits (l := s.cleanup.map .qos) (fun o ho => ?_) fun hall => hno fun q hq => ?_))
      · obtain ⟨q, hq, rfl⟩ := List.mem_map.mp ho
        exact (h.places.qosWaits q).mpr ⟨by rw [heq]; rfl, hq⟩
      · exact hall _ (List.mem_map.mpr ⟨q, hq, rfl⟩)

theorem QosExitInv.safe {s : QosSys} (h : QosExitInv s) : QosExitSafe s := by
  have hacc : ∀ q m, s.mem q = some m →
      s.qosInfo m.vndDev = some q ∨ s.rtnl.cursor.map Prod.fst = some q ∨ q ∈ s.cleanup := fun q m hm =>
    h.places.accounted q m.vndDev (devOf_eq hm)
  refine ⟨h.noFault, fun r q hq => h.mem_of_live (h.places.sound.live hq), ?_, ?_, hacc, ?_, h.progress⟩
  · intro q m hm f hf a ha
    exact (h.contents.ok q m hm).table.inv.refs_mem a (List.mem_filterMap.mpr ⟨f, hf, ha⟩)
  · intro q m a hm hon
    have hnot : ¬ Still m.dfc a := by
      rintro ⟨hoff, hnone⟩
      rcases hon with harmed | hflight
      · rw [hoff] at harmed
        cases harmed
      · exact hflight hnone
    refine ⟨?_, fun hc => hnot (h.contents.still q m hm hc a)⟩
    by_contra hout
    exact hnot ((h.contents.ok q m hm).listed a hout)
  · intro hidle q m hm
    have hempty : s.cleanup = [] := h.places.early (by rw [hidle]; rfl)
    have hinfo : s.qosInfo m.vndDev = some q := by
      rcases hacc q m hm with hinfo | hc | hc
      · exact hinfo
      · rw [hidle] at hc
        cases hc
      · rw [hempty] at hc
        exact absurd hc List.not_mem_nil
    refine ⟨hinfo, ?_⟩
    have hreg := h.places.registered _ _ hinfo
    rw [hidle] at hreg
    simpa using hreg

/-- **The end of the QoS data of a device.**  In every state of every run in which flow activations find memory, nothing
that is free is used, no timer is freed alive, nothing is lost, and the holder of the RTNL lock is never stuck. -/
theorem qos_exit_safe (h : List (QosSys × QosAction)) (s : QosSys) (hex : Exec QosSysInit QosStep h s)
    (halloc : ∀ x ∈ h, x.2.Allocated) : QosExitSafe s :=
  (hex.invariant (fun _ hi => qosExitInv_init hi) QosExitInv.step halloc s (by simp)).safe

/-! ### A device that goes with a watchdog on its way -/

/-- No device has a `qos_info`. -/
def noQosInfo : QosSys :=
  { mem := fun _ => none, qosInfo := fun _ => none, cleanup := [], rcu := Domain.empty, rtnl := .idle, fault := false }

/-- A grant of 100 bytes, none of which the modem has received yet. -/
def unreceivedGrant : FlowStatusInfo := ⟨31, 1, 100, 1, true, 0⟩

/-- A reader finds the device and starts a watchdog, which expires after the reader has gone. -/
def watchdogActions : List QosAction :=
  [.newlink 0 31 8 (fun _ => false) (some 0), .go, .flow 0 qmapCfg (.addFlow true true ⟨1, 1, 4, 1⟩), .readLock 1,
    .getRmnetDev 1 0, .getQosPt 1 0, .underLock 1 0 qmapCfg (.burstCheck 4 1 90),
    .underLock 1 0 qmapCfg (.flowStatus true false 0 0 unreceivedGrant true), .unregister [0], .go, .readUnlock 1,
    .expires 0 0 qmapCfg]

/-- The walk waits for the callback. -/
def exitActions : List QosAction := [.go, .go, .go, .watchdogFn 0 0 qmapCfg, .go, .go, .go, .go]

/-- **A callback is waited for**, and then everything is freed. -/
theorem qos_exit_safe_callback : ∃ h s₁ s, Exec QosSysInit QosStep h s ∧ QosExitSafe s ∧
    runList qosStep noQosInfo watchdogActions = some s₁ ∧
    (∃ m, s₁.mem 0 = some m ∧ m.dfc.inFlight 0 = 1) ∧ s.mem 0 = none ∧ s.rtnl = .idle := by
  have hrun : ∃ s, runList qosStep noQosInfo watchdogActions = some s ∧
      (∃ m, s.mem 0 = some m ∧ m.dfc.inFlight 0 = 1) ∧
      ∃ s', runList qosStep s exitActions = some s' ∧ s'.mem 0 = none ∧ s'.rtnl = .idle :=
    ⟨_, rfl, ⟨_, rfl, rfl⟩, _, rfl, rfl, rfl⟩
  obtain ⟨s₁, hrun₁, hflight, s, hrun, hfreed, hidle⟩ := hrun
  have hstart : Exec QosSysInit QosStep [] noQosInfo := Exec.start rfl
  have halloc₁ : ∀ x ∈ watchdogActions, x.Allocated := by
    simp [watchdogActions, QosAction.Allocated, DfcEvent.Allocated]
  have halloc : ∀ x ∈ exitActions, x.Allocated := by
    simp [exitActions, QosAction.Allocated]
  obtain ⟨h₁, hex₁, hok₁⟩ := Exec.extend (k := fun _ x => x.Allocated) watchdogActions (fun x hx _ => halloc₁ x hx)
    hstart (by simp) hrun₁
  obtain ⟨h, hex, hok⟩ := Exec.extend (k := fun _ x => x.Allocated) exitActions (fun x hx _ => halloc x hx)
    hex₁ hok₁ hrun
  exact ⟨h, s₁, s, hex, qos_exit_safe h s hex hok, hrun₁, hflight, hfreed, hidle⟩

end Rmnet
