import Rmnet.Lib.Mailbox
import Rmnet.Qos.Entries

/-!
# Indications on their way to the devices

The callbacks of the QMI handle put an indication at the end of `qmi_ind_q` and queue `qmi_ind_work`, which takes
the indications from the front and gives them to their handlers.  `dfc_qmi_client_exit` sets `restart_state`, releases
the handle, waits for the work item and frees the client, in steps between which everything else can happen.

`qmi_handle_release` returns when no callback is running, and none runs after it; `drain_workqueue` returns when the
work item is neither queued nor running.

The handling of one indication is a single step here, with one answer of `qmi_rmnet_ignore_grant`; the source asks
again at each entry, and holds the lock of one device at a time.

* `indications_in_order` — every indication is handled once, in the order of its arrival, or freed after
  `restart_state` was set; none is left behind, and none is left when the client is freed.
-/

namespace Rmnet

open Transition Mailbox

/-! ### Indications -/

/-- `DFC_MAX_BEARERS_V01`. -/
def dfcMaxBearersV01 : ℕ := 16

/-- `struct dfc_svc_ind`, less its list head. -/
inductive SvcInd
  | flowStatus (ind : FlowStatusInd)
  | txLinkStatus (ind : TxLinkStatusInd)
  deriving DecidableEq, Repr

/-- How many entries the handler of an indication looks at. -/
def SvcInd.size : SvcInd → ℕ
  | .flowStatus ind => ind.flowStatus.length
  | .txLinkStatus ind => ind.bearerInfo.length

/-- A decoded flow-status indication: `flow_status` is the whole array. -/
structure FlowStatusMsg extends FlowStatusInd where
  flowStatusValid : Bool
  flowStatusLen : ℕ
  deriving DecidableEq, Repr

/-- A decoded TX-link-status indication: `bearer_info` is the whole array. -/
structure TxLinkStatusMsg extends TxLinkStatusInd where
  bearerInfoValid : Bool
  bearerInfoLen : ℕ
  deriving DecidableEq, Repr

/-- `dfc_clnt_ind_cb`, up to what it puts in the queue; `kzalloc` is the outcome of the allocation. -/
def dfcClntIndCb (msg : FlowStatusMsg) (kzalloc : Bool) : Option SvcInd :=
  if msg.flowStatusValid then
    if dfcMaxBearersV01 < msg.flowStatusLen then none
    else if kzalloc then
      some (.flowStatus { msg.toFlowStatusInd with flowStatus := msg.flowStatus.take msg.flowStatusLen })
    else none
  else none

/-- `dfc_tx_link_status_ind_cb`, likewise. -/
def dfcTxLinkStatusIndCb (msg : TxLinkStatusMsg) (kzalloc : Bool) : Option SvcInd :=
  if msg.bearerInfoValid then
    if dfcMaxBearersV01 < msg.bearerInfoLen then none
    else if kzalloc then
      some (.txLinkStatus { msg.toTxLinkStatusInd with bearerInfo := msg.bearerInfo.take msg.bearerInfoLen })
    else none
  else none

/-- No indication in the queue has more entries than its array. -/
theorem dfcClntIndCb_size {msg : FlowStatusMsg} {kzalloc : Bool} {ind : SvcInd}
    (h : dfcClntIndCb msg kzalloc = some ind) : ind.size ≤ dfcMaxBearersV01 := by
  unfold dfcClntIndCb at h
  split at h
  · split at h
    · cases h
    · rename_i hlen
      split at h
      · obtain rfl := Option.some.inj h
        exact (List.length_take_le _ _).trans (Nat.le_of_not_lt hlen)
      · cases h
  · cases h

theorem dfcTxLinkStatusIndCb_size {msg : TxLinkStatusMsg} {kzalloc : Bool} {ind : SvcInd}
    (h : dfcTxLinkStatusIndCb msg kzalloc = some ind) : ind.size ≤ dfcMaxBearersV01 := by
  unfold dfcTxLinkStatusIndCb at h
  split at h
  · split at h
    · cases h
    · rename_i hlen
      split at h
      · obtain rfl := Option.some.inj h
        exact (List.length_take_le _ _).trans (Nat.le_of_not_lt hlen)
      · cases h
  · cases h

/-! ### The client -/

/-- A write to the devices: by an indication, with what `qmi_rmnet_ignore_grant` returned, or by anything else. -/
inductive DeviceWrite
  | indication (ind : SvcInd) (ignoreGrant : Bool)
  | elsewhere (host : DfcHost)

/-- The handler that `dfc_qmi_ind_work` calls, by `msg_id`. -/
def svcIndHandle (cfg : DfcConfig) (ignoreGrant : Bool) (host : DfcHost) : SvcInd → DfcHost
  | .flowStatus ind => (dfcDoBurstFlowControl cfg ignoreGrant false ind host).1
  | .txLinkStatus ind => (dfcHandleTxLinkStatusInd cfg ind host).1

/-- A write, as it changes the devices. -/
def DeviceWrite.apply (cfg : DfcConfig) (host : DfcHost) : DeviceWrite → DfcHost
  | .indication ind ignoreGrant => svcIndHandle cfg ignoreGrant host ind
  | .elsewhere host' => host'

/-- The indication that a write handles. -/
def DeviceWrite.ind? : DeviceWrite → Option SvcInd
  | .indication ind _ => some ind
  | .elsewhere _ => none

/-- How far `dfc_qmi_client_exit` has come. -/
inductive ExitPoint
  | notCalled
  | restart
  | released
  | freed
  deriving DecidableEq, Repr

/-- The part of `struct dfc_qmi_data` that indications go through, the devices, and the writes to these so far. -/
structure IndClient where
  box : Box SvcInd
  exit : ExitPoint
  host : DfcHost
  writes : List DeviceWrite

/-- A step of a callback, of the work item, of the exit, or of something else that writes to the devices. -/
inductive IndEvent
  | flowStatusInd (msg : FlowStatusMsg) (kzalloc : Bool)
  | txLinkStatusInd (msg : TxLinkStatusMsg) (kzalloc : Bool)
  | queueWork
  | startWork
  | work (ignoreGrant : Bool)
  | exit
  | elsewhere (host : DfcHost)

/-- A callback with what it puts in the queue. -/
def IndClient.receive (c : IndClient) : Option SvcInd → Option IndClient
  | some ind => (c.box.step (.send ind)).map fun box => { c with box := box }
  | none => if c.box.isOpen then some c else none

/-- The next step of `dfc_qmi_ind_work`: the client's lock is held while an indication is taken from the queue, not
while it is handled. -/
def IndClient.indWork (cfg : DfcConfig) (ignoreGrant : Bool) (c : IndClient) : Option IndClient :=
  (c.box.step .next).map fun box =>
    match c.box.worker with
    | .holding ind =>
        if c.box.stopped then { c with box := box }
        else
          { c with
            box := box
            host := svcIndHandle cfg ignoreGrant c.host ind
            writes := c.writes ++ [.indication ind ignoreGrant] }
    | _ => { c with box := box }

/-- The next step of `dfc_qmi_client_exit`. -/
def IndClient.clientExit (c : IndClient) : Option IndClient :=
  match c.exit with
  | .notCalled => (c.box.step .stop).map fun box => { c with box := box, exit := .restart }
  | .restart => (c.box.step .close).map fun box => { c with box := box, exit := .released }
  | .released => if c.box.queued = false ∧ c.box.worker = .idle then some { c with exit := .freed } else none
  | .freed => none

/-- One step. -/
def indStep (cfg : DfcConfig) (c : IndClient) : IndEvent → Option IndClient
  | .flowStatusInd msg kzalloc => c.receive (dfcClntIndCb msg kzalloc)
  | .txLinkStatusInd msg kzalloc => c.receive (dfcTxLinkStatusIndCb msg kzalloc)
  | .queueWork => (c.box.step .notify).map fun box => { c with box := box }
  | .startWork => (c.box.step .start).map fun box => { c with box := box }
  | .work ignoreGrant => c.indWork cfg ignoreGrant
  | .exit => c.clientExit
  | .elsewhere host => some { c with host := host, writes := c.writes ++ [.elsewhere host] }

/-- The step relation. -/
def IndStep (cfg : DfcConfig) (c : IndClient) (e : IndEvent) (c' : IndClient) : Prop := indStep cfg c e = some c'

/-- `dfc_qmi_client_init` has returned. -/
def IndInit (host : DfcHost) (c : IndClient) : Prop :=
  c = { box := Box.empty, exit := .notCalled, host := host, writes := [] }

/-! ### The invariant -/

/-- What holds in every state. -/
structure IndInv (cfg : DfcConfig) (host₀ : DfcHost) (c : IndClient) : Prop where
  box : Inv c.box
  size : ∀ ind ∈ c.box.accepted, ind.size ≤ dfcMaxBearersV01
  host : c.host = c.writes.foldl (DeviceWrite.apply cfg) host₀
  writes : c.writes.filterMap DeviceWrite.ind? = c.box.handled
  restart : c.box.stopped = true → c.exit ≠ .notCalled
  closed : c.box.isOpen = false ↔ c.exit = .released ∨ c.exit = .freed
  freed : c.exit = .freed → c.box.queued = false ∧ c.box.worker = .idle

section

variable {cfg : DfcConfig} {host₀ : DfcHost} {c c' : IndClient}

theorem indInit_inv (h : IndInit host₀ c) : IndInv cfg host₀ c := by
  subst h
  refine ⟨inv_empty, ?_, rfl, rfl, fun hstop => absurd hstop Bool.false_ne_true, ?_, fun hf => by cases hf⟩
  · simp [Box.empty]
  · simp [Box.empty]

/-- A client whose handle is registered has not been freed. -/
theorem IndInv.not_freed (h : IndInv cfg host₀ c) (hopen : c.box.isOpen = true) : c.exit ≠ .freed := by
  intro hf
  have hc := h.closed.mpr (.inr hf)
  rw [hopen] at hc
  cases hc

/-- A callback. -/
theorem IndInv.receive (h : IndInv cfg host₀ c) {ind : Option SvcInd}
    (hsize : ∀ i ∈ ind, i.size ≤ dfcMaxBearersV01) (hs : c.receive ind = some c') : IndInv cfg host₀ c' := by
  cases ind with
  | none =>
    rw [IndClient.receive] at hs
    split at hs
    · obtain rfl := Option.some.inj hs
      exact h
    · cases hs
  | some ind =>
    obtain ⟨box, hbox, rfl⟩ := Option.map_eq_some_iff.mp hs
    have hinv := h.box.step hbox
    rw [Box.step] at hbox
    split at hbox
    · rename_i hopen
      obtain rfl := Option.some.inj hbox
      refine ⟨hinv, fun i hi => ?_, h.host, h.writes, h.restart, h.closed, fun hf => ?_⟩
      · rcases List.mem_append.mp hi with hi | hi
        · exact h.size i hi
        · rw [List.mem_singleton.mp hi]
          exact hsize ind rfl
      · exact absurd hf (h.not_freed hopen)
    · cases hbox

/-- The work item, with an indication that it has taken from the queue, or without. -/
theorem IndInv.indWork (h : IndInv cfg host₀ c) {ignoreGrant : Bool} (hs : c.indWork cfg ignoreGrant = some c') :
    IndInv cfg host₀ c' := by
  obtain ⟨box, hbox, rfl⟩ := Option.map_eq_some_iff.mp hs
  have hinv := h.box.step hbox
  rw [Box.step, Box.next] at hbox
  split at hbox
  · cases hbox
  · rename_i hw
    have hnf : c.exit ≠ .freed := by
      intro hf
      have hidle := (h.freed hf).2
      rw [hw] at hidle
      cases hidle
    rw [hw]
    split at hbox
    · obtain rfl := Option.some.inj hbox
      exact ⟨hinv, h.size, h.host, h.writes, h.restart, h.closed, fun hf => absurd hf hnf⟩
    · obtain rfl := Option.some.inj hbox
      exact ⟨hinv, h.size, h.host, h.writes, h.restart, h.closed, fun hf => absurd hf hnf⟩
  · rename_i ind hw
    have hnf : c.exit ≠ .freed := by
      intro hf
      have hidle := (h.freed hf).2
      rw [hw] at hidle
      cases hidle
    rw [hw]
    by_cases hstop : c.box.stopped = true
    · rw [if_pos hstop] at hbox
      obtain rfl := Option.some.inj hbox
      dsimp only
      rw [if_pos hstop]
      exact ⟨hinv, h.size, h.host, h.writes, fun _ => h.restart hstop, h.closed, fun hf => absurd hf hnf⟩
    · rw [if_neg hstop] at hbox
      obtain rfl := Option.some.inj hbox
      dsimp only
      rw [if_neg hstop]
      refine ⟨hinv, h.size, ?_, ?_, fun hr => absurd hr hstop, h.closed, fun hf => absurd hf hnf⟩
      · show svcIndHandle cfg ignoreGrant c.host ind = _
        rw [List.foldl_append, ← h.host]
        rfl
      · show (c.writes ++ [DeviceWrite.indication ind ignoreGrant]).filterMap DeviceWrite.ind? = c.box.handled ++ [ind]
        rw [List.filterMap_append, h.writes]
        rfl

/-- The exit, one step further. -/
theorem IndInv.clientExit (h : IndInv cfg host₀ c) (hs : c.clientExit = some c') : IndInv cfg host₀ c' := by
  unfold IndClient.clientExit at hs
  split at hs
  · rename_i hexit
    obtain ⟨box, hbox, rfl⟩ := Option.map_eq_some_iff.mp hs
    have hinv := h.box.step hbox
    obtain rfl := Option.some.inj hbox
    refine ⟨hinv, h.size, h.host, h.writes, fun _ => by simp, ?_, fun hf => by cases hf⟩
    have hclosed := h.closed
    rw [hexit] at hclosed
    simpa using hclosed
  · rename_i hexit
    obtain ⟨box, hbox, rfl⟩ := Option.map_eq_some_iff.mp hs
    have hinv := h.box.step hbox
    rw [Box.step] at hbox
    split at hbox
    · obtain rfl := Option.some.inj hbox
      exact ⟨hinv, h.size, h.host, h.writes, fun _ => by simp, by simp, fun hf => by cases hf⟩
    · cases hbox
  · rename_i hexit
    split at hs
    · rename_i hidle
      obtain rfl := Option.some.inj hs
      refine ⟨h.box, h.size, h.host, h.writes, fun _ => by simp, ?_, fun _ => hidle⟩
      simpa using h.closed.mpr (.inl hexit)
    · cases hs
  · cases hs

/-- **The step lemma.** -/
theorem IndInv.step (h : IndInv cfg host₀ c) {e : IndEvent} (hs : IndStep cfg c e c') : IndInv cfg host₀ c' := by
  cases e with
  | flowStatusInd msg kzalloc => exact h.receive (fun i hi => dfcClntIndCb_size hi) hs
  | txLinkStatusInd msg kzalloc => exact h.receive (fun i hi => dfcTxLinkStatusIndCb_size hi) hs
  | queueWork =>
    obtain ⟨box, hbox, rfl⟩ := Option.map_eq_some_iff.mp hs
    have hinv := h.box.step hbox
    rw [Box.step] at hbox
    split at hbox
    · rename_i hsenders
      obtain rfl := Option.some.inj hbox
      refine ⟨hinv, h.size, h.host, h.writes, h.restart, h.closed, fun hf => ?_⟩
      -- a callback is running, so that the handle has not been released
      have hnone := h.box.closed (h.closed.mpr (.inr hf))
      omega
    · cases hbox
  | startWork =>
    obtain ⟨box, hbox, rfl⟩ := Option.map_eq_some_iff.mp hs
    have hinv := h.box.step hbox
    rw [Box.step] at hbox
    split at hbox
    · split at hbox
      · rename_i hq
        obtain rfl := Option.some.inj hbox
        refine ⟨hinv, h.size, h.host, h.writes, h.restart, h.closed, fun hf => ?_⟩
        rw [(h.freed hf).1] at hq
        cases hq
      · cases hbox
    · cases hbox
  | work ignoreGrant => exact h.indWork hs
  | exit => exact h.clientExit hs
  | elsewhere host =>
    obtain rfl := Option.some.inj hs
    refine ⟨h.box, h.size, ?_, ?_, h.restart, h.closed, h.freed⟩
    · show host = _
      rw [List.foldl_append]
      rfl
    · show (c.writes ++ [DeviceWrite.elsewhere host]).filterMap DeviceWrite.ind? = c.box.handled
      rw [List.filterMap_append, h.writes]
      exact List.append_nil _

/-- **The run lemma.** -/
theorem indRun_inv {h : List (IndClient × IndEvent)} (hex : Exec (IndInit host₀) (IndStep cfg) h c) :
    ∀ x ∈ h.map Prod.fst ++ [c], IndInv cfg host₀ x :=
  hex.invariant (fun _ hi => indInit_inv hi) (fun _ _ _ hI hs (_ : True) => hI.step hs) fun _ _ => trivial

/-- A freed client is not used any more. -/
theorem IndInv.unused (h : IndInv cfg host₀ c) (hf : c.exit = .freed) {e : IndEvent}
    (he : ∀ host, e ≠ .elsewhere host) : indStep cfg c e = none := by
  obtain ⟨hqueued, hidle⟩ := h.freed hf
  have hopen := h.closed.mpr (.inr hf)
  have hreceive : ∀ ind, c.receive ind = none := by
    intro ind
    cases ind with
    | none => rw [IndClient.receive, hopen]; rfl
    | some ind => rw [IndClient.receive, Box.step, hopen]; rfl
  cases e with
  | flowStatusInd msg kzalloc => exact hreceive _
  | txLinkStatusInd msg kzalloc => exact hreceive _
  | queueWork => rw [indStep, Box.step, h.box.closed hopen]; rfl
  | startWork => rw [indStep, Box.step, hidle, hqueued]; rfl
  | work ignoreGrant => rw [indStep, IndClient.indWork, Box.step, Box.next, hidle]; rfl
  | exit => rw [indStep, IndClient.clientExit, hf]
  | elsewhere host => exact absurd rfl (he host)

/-- **Every indication is handled once, in the order of its arrival.**  In every state of every run the indications
that came in are those handled, then those freed unhandled after `restart_state` was set, then the one that the work
item has taken, then those in the queue; the devices are what the indications handled and the other writes make of
them; and while an indication is in the queue, a callback is about to queue the work item, or that is queued or running.
When the client has been freed none is left, and nothing uses the client. -/
theorem indications_in_order {h : List (IndClient × IndEvent)} (hex : Exec (IndInit host₀) (IndStep cfg) h c) :
    ∀ x ∈ h.map Prod.fst ++ [c],
      x.box.accepted = x.box.handled ++ x.box.dropped ++ x.box.worker.held ++ x.box.queue ∧
      (∀ ind ∈ x.box.accepted, ind.size ≤ dfcMaxBearersV01) ∧
      (x.box.dropped ≠ [] → x.exit ≠ .notCalled) ∧
      x.writes.filterMap DeviceWrite.ind? = x.box.handled ∧
      x.host = x.writes.foldl (DeviceWrite.apply cfg) host₀ ∧
      (x.box.queue ≠ [] → 0 < x.box.senders ∨ x.box.queued = true ∨ x.box.worker ≠ .idle) ∧
      (x.exit = .freed → x.box.accepted = x.box.handled ++ x.box.dropped ∧
        ∀ e, (∀ host, e ≠ .elsewhere host) → indStep cfg x e = none) := by
  intro x hx
  have hinv := indRun_inv hex x hx
  refine ⟨hinv.box.order, hinv.size, fun hd => hinv.restart (hinv.box.stopped hd), hinv.writes, hinv.host, ?_, ?_⟩
  · intro hq
    by_contra hno
    push Not at hno
    exact hq (hinv.box.wake ⟨by omega, Bool.eq_false_iff.mpr hno.2.1, hno.2.2⟩)
  · intro hf
    obtain ⟨hqueued, hidle⟩ := hinv.freed hf
    exact ⟨(hinv.box.drained (hinv.closed.mpr (.inr hf)) hqueued hidle).2, fun e he => hinv.unused hf he⟩

end

/-! ### An exit between two indications -/

/-- A client that has had no indication. -/
def quietClient : IndClient := { box := Box.empty, exit := .notCalled, host := oneDevice, writes := [] }

/-- An indication that gives bearer 5 of mux id 1 a grant of 1000 bytes. -/
def grantMsg : FlowStatusMsg :=
  { mixedInd with flowStatus := [grantEntry 1, grantEntry 9], flowStatusValid := true, flowStatusLen := 1 }

/-- An indication that its TX link is off. -/
def linkOffMsg : TxLinkStatusMsg :=
  { txStatus := false, bearerInfo := [⟨1, 5⟩], bearerInfoValid := true, bearerInfoLen := 1 }

/-- The second of the two comes when the exit has begun. -/
def exitEvents : List IndEvent :=
  [.flowStatusInd grantMsg true, .queueWork, .startWork, .work false, .work false, .exit,
    .txLinkStatusInd linkOffMsg true, .queueWork, .exit, .work false, .work false, .work false, .startWork,
    .work false, .exit]

/-- The grant is given, the second indication is freed, and so is the client. -/
theorem indications_in_order_exit :
    ∃ h c, Exec (IndInit oneDevice) (IndStep qmiCfg) h c ∧ c.exit = .freed ∧
      (c.host.qos 0).map (fun qos => ((qos.heap 0).grantSize, (qos.heap 0).txOff)) = some (1000, false) ∧
      c.box.handled.map SvcInd.size = [1] ∧ c.box.dropped.map SvcInd.size = [1] ∧
      c.host = c.writes.foldl (DeviceWrite.apply qmiCfg) oneDevice ∧
      c.box.accepted = c.box.handled ++ c.box.dropped := by
  have hrun : ∃ c, runList (indStep qmiCfg) quietClient exitEvents = some c ∧ c.exit = .freed ∧
      (c.host.qos 0).map (fun qos => ((qos.heap 0).grantSize, (qos.heap 0).txOff)) = some (1000, false) ∧
      c.box.handled.map SvcInd.size = [1] ∧ c.box.dropped.map SvcInd.size = [1] := ⟨_, rfl, rfl, rfl, rfl, rfl⟩
  obtain ⟨c, hrun, hfreed, hgrant, hhandled, hdropped⟩ := hrun
  have hstart : Exec (IndInit oneDevice) (IndStep qmiCfg) [] quietClient := Exec.start rfl
  obtain ⟨h, hex, -⟩ := Exec.extend (k := fun _ _ => True) exitEvents (fun _ _ _ => trivial) hstart
    (fun _ _ => trivial) hrun
  obtain ⟨-, -, -, -, hhost, -, hfinal⟩ := indications_in_order hex c (by simp)
  exact ⟨h, c, hex, hfreed, hgrant, hhandled, hdropped, hhost, (hfinal hfreed).1⟩

end Rmnet
