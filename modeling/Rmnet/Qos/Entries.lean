import Rmnet.Qos.Event

/-!
# Indications with several entries

A flow-status indication and a TX-link-status indication carry a list of entries, each for the device of its mux
id.  The two loops over them skip an entry whose device has no qos data with `continue`, and leave at an entry
whose mux id has no device with `goto clean_out`.

`entryLoop` is the loop both have; it returns the entries that reached a device beside the devices.

* `entryLoop_eq` — the devices are those that the entries which were reached lead to.
* `entries_independent_iff` — when the entries of an indication do not depend on one another.
-/

namespace Rmnet

/-! ### Indications and devices -/

/-- `struct dfc_ancillary_info_type_v01`, less `subs_id`. -/
structure AncillaryInfo where
  muxId : ℕ
  bearerId : ℕ
  reserved : ℕ
  deriving DecidableEq, Repr

/-- An entry of `flow_status`, with the outcome of the allocation that it may need. -/
structure FlowStatusEntry extends FlowStatusInfo where
  kzalloc : Bool
  deriving DecidableEq, Repr

/-- `struct dfc_flow_status_ind_msg_v01`, less `flow_status_valid`, which its receivers have checked. -/
structure FlowStatusInd where
  flowStatus : List FlowStatusEntry
  eodAckReqdValid : Bool
  eodAckReqd : ℕ
  ancillaryInfoValid : Bool
  ancillaryInfo : List AncillaryInfo
  deriving DecidableEq, Repr

/-- `struct dfc_bearer_info_type_v01`, less the fields that no handler reads. -/
structure BearerInfo where
  muxId : ℕ
  bearerId : ℕ
  deriving DecidableEq, Repr

/-- `struct dfc_tx_link_status_ind_msg_v01`, less `bearer_info_valid`, which its receivers have checked. -/
structure TxLinkStatusInd where
  txStatus : Bool
  bearerInfo : List BearerInfo
  deriving DecidableEq, Repr

/-- The devices of a port: `rmnet_get_rmnet_dev` by mux id, `rmnet_get_qos_pt` by device. -/
structure DfcHost where
  dev : ℕ → Option ℕ
  qos : ℕ → Option QosInfo

/-- Write through the qos pointer of a device. -/
def DfcHost.setQos (host : DfcHost) (d : ℕ) (qos : QosInfo) : DfcHost :=
  { host with qos := Function.update host.qos d (some qos) }

/-- The mux id has a device, and that device has qos data. -/
def DfcHost.known (host : DfcHost) (muxId : ℕ) : Bool := ((host.dev muxId).bind host.qos).isSome

/-! ### The loops -/

/-- The loop over the entries of an indication: the devices afterwards, and the entries that reached one. -/
def entryLoop {ε : Type} (muxId : ε → ℕ) (update : QosInfo → ε → QosInfo) :
    List ε → DfcHost → DfcHost × List ε
  | [], host => (host, [])
  | e :: es, host =>
      match host.dev (muxId e) with
      | none => (host, [])
      | some d =>
          match host.qos d with
          | none => entryLoop muxId update es host
          | some qos =>
              let (host, done) := entryLoop muxId update es (host.setQos d (update qos e))
              (host, e :: done)

/-- The inner search of `dfc_do_burst_flow_control`. -/
def FlowStatusInd.ancillary (ind : FlowStatusInd) (e : FlowStatusEntry) : ℕ :=
  if ind.ancillaryInfoValid then
    ((ind.ancillaryInfo.find? fun ai => ai.muxId = e.muxId ∧ ai.bearerId = e.bearerId).map
      AncillaryInfo.reserved).getD 0
  else 0

/-- `dfc_do_burst_flow_control`; `ignoreGrant` is what `qmi_rmnet_ignore_grant` returns. -/
def dfcDoBurstFlowControl (cfg : DfcConfig) (ignoreGrant isQuery : Bool) (ind : FlowStatusInd) (host : DfcHost) :
    DfcHost × List FlowStatusEntry :=
  let ackReq := if ind.eodAckReqdValid then ind.eodAckReqd else 0
  entryLoop (fun e => e.muxId)
    (fun qos e => dfcBurstFlowStatus cfg e.kzalloc ignoreGrant qos ackReq (ind.ancillary e)
      e.toFlowStatusInfo isQuery) ind.flowStatus host

/-- `dfc_handle_tx_link_status_ind`. -/
def dfcHandleTxLinkStatusInd (cfg : DfcConfig) (ind : TxLinkStatusInd) (host : DfcHost) :
    DfcHost × List BearerInfo :=
  entryLoop BearerInfo.muxId (fun qos e => dfcUpdateTxLinkStatus cfg qos ind.txStatus e.bearerId)
    ind.bearerInfo host

/-! ### What is reached -/

section

variable {ε : Type} (muxId : ε → ℕ) (update : QosInfo → ε → QosInfo)

/-- The entries for devices with qos data, up to the first one without a device. -/
def reached (host : DfcHost) : List ε → List ε
  | [] => []
  | e :: es =>
      if host.dev (muxId e) = none then []
      else if host.known (muxId e) then e :: reached host es
      else reached host es

/-- One entry, on its device. -/
def applyEntry (host : DfcHost) (e : ε) : DfcHost :=
  match host.dev (muxId e) with
  | none => host
  | some d =>
      match host.qos d with
      | none => host
      | some qos => host.setQos d (update qos e)

theorem setQos_known (host : DfcHost) {d : ℕ} (qos : QosInfo) (hd : (host.qos d).isSome) (m : ℕ) :
    (host.setQos d qos).known m = host.known m := by
  rw [DfcHost.known, DfcHost.known]
  cases hm : host.dev m with
  | none => simp only [DfcHost.setQos, hm, Option.bind_none]
  | some c =>
    simp only [DfcHost.setQos, hm, Option.bind_some]
    by_cases hc : c = d
    · subst hc
      rw [Function.update_self, hd]
      rfl
    · rw [Function.update_of_ne hc]

/-- What is reached depends on which mux ids have a device, and qos data. -/
theorem reached_congr (host host' : DfcHost) (hdev : host'.dev = host.dev)
    (hknown : ∀ m, host'.known m = host.known m) (es : List ε) :
    reached muxId host' es = reached muxId host es := by
  induction es with
  | nil => rfl
  | cons e es ih => rw [reached, reached, hdev, hknown, ih]

/-- **The loop.**  It applies the entries that it reaches, in their order, and nothing else. -/
theorem entryLoop_eq (es : List ε) : ∀ host : DfcHost,
    entryLoop muxId update es host =
      ((reached muxId host es).foldl (applyEntry muxId update) host, reached muxId host es) := by
  induction es with
  | nil =>
    intro host
    rfl
  | cons e es ih =>
    intro host
    rw [entryLoop, reached]
    cases hdev : host.dev (muxId e) with
    | none =>
      rw [if_pos rfl]
      rfl
    | some d =>
      rw [if_neg (Option.some_ne_none d)]
      cases hqos : host.qos d with
      | none =>
        have hknown : host.known (muxId e) = false := by simp [DfcHost.known, hdev, hqos]
        simp only [hqos, hknown, Bool.false_eq_true, if_false]
        exact ih host
      | some qos =>
        have hknown : host.known (muxId e) = true := by simp [DfcHost.known, hdev, hqos]
        have happly : applyEntry muxId update host e = host.setQos d (update qos e) := by
          simp only [applyEntry, hdev, hqos]
        have hrest := reached_congr muxId host (host.setQos d (update qos e)) rfl
          (setQos_known host _ (by rw [hqos]; rfl)) es
        simp only [hqos, hknown, if_true, ih, hrest, List.foldl_cons, happly]

/-- Every entry is reached that should be, exactly when none of them stands behind one without a device. -/
theorem reached_eq_filter_iff (host : DfcHost) (es : List ε) :
    reached muxId host es = es.filter (fun e => host.known (muxId e)) ↔
      es.Pairwise fun e e' => host.dev (muxId e) = none → host.known (muxId e') = false := by
  induction es with
  | nil => exact ⟨fun _ => List.Pairwise.nil, fun _ => rfl⟩
  | cons e es ih =>
    rw [reached, List.pairwise_cons]
    by_cases hdev : host.dev (muxId e) = none
    · have hknown : host.known (muxId e) = false := by simp [DfcHost.known, hdev]
      rw [if_pos hdev, List.filter_cons_of_neg (by simp [hknown]), eq_comm, List.filter_eq_nil_iff]
      constructor
      · intro hnone
        have hfalse : ∀ e' ∈ es, host.known (muxId e') = false := fun e' he' => by simpa using hnone e' he'
        refine ⟨fun e' he' _ => hfalse e' he', ?_⟩
        exact List.pairwise_of_forall_mem_list fun _ _ e' he' _ => hfalse e' he'
      · intro h e' he'
        simp [h.1 e' he' hdev]
    · rw [if_neg hdev]
      have hhead : ∀ e' ∈ es, host.dev (muxId e) = none → host.known (muxId e') = false :=
        fun _ _ h => absurd h hdev
      cases hknown : host.known (muxId e) with
      | false =>
        rw [if_neg Bool.false_ne_true, List.filter_cons_of_neg (by simp [hknown]), ih]
        exact ⟨fun h => ⟨hhead, h⟩, And.right⟩
      | true =>
        rw [if_pos rfl, List.filter_cons_of_pos (by simp [hknown]), List.cons_inj_right, ih]
        exact ⟨fun h => ⟨hhead, h⟩, And.right⟩

/-- Without the entries that have no device, or one without qos data, every entry is reached. -/
theorem reached_filter (host : DfcHost) (es : List ε) :
    reached muxId host (es.filter fun e => host.known (muxId e)) =
      es.filter fun e => host.known (muxId e) := by
  have hpair : (es.filter fun e => host.known (muxId e)).Pairwise
      fun e e' => host.dev (muxId e) = none → host.known (muxId e') = false := by
    apply List.pairwise_of_forall_mem_list
    intro e he e' _ hdev
    have hknown := (List.mem_filter.mp he).2
    simp [DfcHost.known, hdev] at hknown
  have h := (reached_eq_filter_iff muxId host _).mpr hpair
  rw [List.filter_filter] at h
  simpa using h

/-- The loop and the loop over the entries with a device and qos data. -/
theorem entryLoop_filter_iff (host : DfcHost) (es : List ε) :
    entryLoop muxId update es host =
        entryLoop muxId update (es.filter fun e => host.known (muxId e)) host ↔
      es.Pairwise fun e e' => host.dev (muxId e) = none → host.known (muxId e') = false := by
  rw [entryLoop_eq, entryLoop_eq, reached_filter, ← reached_eq_filter_iff]
  constructor
  · exact fun h => congrArg Prod.snd h
  · intro h
    rw [h]

end

/-! ### Independence -/

/-- The indication without the entries that name a mux id without a device, or a device without qos data. -/
def FlowStatusInd.restrict (ind : FlowStatusInd) (host : DfcHost) : FlowStatusInd :=
  { ind with flowStatus := ind.flowStatus.filter fun e => host.known e.muxId }

/-- The same for a TX-link-status indication. -/
def TxLinkStatusInd.restrict (ind : TxLinkStatusInd) (host : DfcHost) : TxLinkStatusInd :=
  { ind with bearerInfo := ind.bearerInfo.filter fun e => host.known e.muxId }

/-- No entry for a device with qos data stands behind one whose mux id has no device. -/
def NoneBehindUnknown (host : DfcHost) (muxIds : List ℕ) : Prop :=
  muxIds.Pairwise fun m m' => host.dev m = none → host.known m' = false

/-- **Exactly when the entries of an indication are independent.**  The devices afterwards, and the entries that
were processed, are those of the indication without the entries for unknown devices, if and only if no other
entry stands behind one whose mux id has no device. -/
theorem entries_independent_iff (cfg : DfcConfig) (host : DfcHost) :
    (∀ (ignoreGrant isQuery : Bool) (ind : FlowStatusInd),
      dfcDoBurstFlowControl cfg ignoreGrant isQuery ind host =
          dfcDoBurstFlowControl cfg ignoreGrant isQuery (ind.restrict host) host ↔
        NoneBehindUnknown host (ind.flowStatus.map fun e => e.muxId)) ∧
    ∀ ind : TxLinkStatusInd,
      dfcHandleTxLinkStatusInd cfg ind host = dfcHandleTxLinkStatusInd cfg (ind.restrict host) host ↔
        NoneBehindUnknown host (ind.bearerInfo.map BearerInfo.muxId) := by
  constructor
  · intro ignoreGrant isQuery ind
    rw [NoneBehindUnknown, List.pairwise_map]
    exact entryLoop_filter_iff _ _ host ind.flowStatus
  · intro ind
    rw [NoneBehindUnknown, List.pairwise_map]
    exact entryLoop_filter_iff _ _ host ind.bearerInfo

/-! ### A lost grant -/

/-- A port whose mux id 1 has a device with one bearer, and whose other mux ids have none. -/
def oneDevice : DfcHost :=
  { dev := fun m => if m = 1 then some 0 else none, qos := fun _ => some (oneBearer bearerFive) }

/-- An entry of 1000 bytes for bearer 5 of a mux id. -/
def grantEntry (muxId : ℕ) : FlowStatusEntry :=
  { muxId := muxId, bearerId := 5, numBytes := 1000, seqNum := 9, rxBytesValid := false, rxBytes := 0,
    kzalloc := true }

/-- An entry for mux id 9, then one for mux id 1. -/
def mixedInd : FlowStatusInd :=
  { flowStatus := [grantEntry 9, grantEntry 1], eodAckReqdValid := false, eodAckReqd := 0,
    ancillaryInfoValid := false, ancillaryInfo := [] }

/-- **A grant that is lost.**  Behind the entry for mux id 9, which has no device, the grant for the bearer of mux
id 1 is not applied. -/
theorem entries_grant_lost :
    dfcDoBurstFlowControl qmapCfg false false mixedInd oneDevice ≠
        dfcDoBurstFlowControl qmapCfg false false (mixedInd.restrict oneDevice) oneDevice ∧
      ((dfcDoBurstFlowControl qmapCfg false false mixedInd oneDevice).1.qos 0).map (fun q => (q.heap 0).grantSize) =
        some 100 ∧
      ((dfcDoBurstFlowControl qmapCfg false false (mixedInd.restrict oneDevice) oneDevice).1.qos 0).map
        (fun q => (q.heap 0).grantSize) = some 1000 := by
  have hlost : ((dfcDoBurstFlowControl qmapCfg false false mixedInd oneDevice).1.qos 0).map
      (fun q => (q.heap 0).grantSize) = some 100 := by decide
  have hgot : ((dfcDoBurstFlowControl qmapCfg false false (mixedInd.restrict oneDevice) oneDevice).1.qos 0).map
      (fun q => (q.heap 0).grantSize) = some 1000 := by decide
  refine ⟨fun h => ?_, hlost, hgot⟩
  rw [h, hgot] at hlost
  exact absurd hlost (by decide)

end Rmnet
