import Mathlib.Data.Fintype.Sigma
import Mathlib.Data.Fintype.Sum
import Mathlib.Tactic.DeriveFintype
import Mathlib.Logic.Function.Basic
import Rmnet.Errno
import Rmnet.Lib.Sections
import Rmnet.Lib.Transition
import Rmnet.Lib.Worker
import Rmnet.Link.Config

/-!
# The QMI clients of a port

The WDA client and the two DFC clients of a port, from `NLMSG_CLIENT_SETUP` to `NLMSG_CLIENT_DELETE` or
`qmi_rmnet_qmi_exit`.  A client is pending until the modem's service has arrived: then its work item calls the service
and, under the rtnl lock, moves the client from the pending slot to the client slot.  A DFC client over QMAP has
neither a handle nor a work item; it is found by readers under RCU instead.

A message is handled under the rtnl lock.  A set-up waits for nothing and is one step; a deletion waits for work items,
for the power-save work and its alarm, and for readers, and goes on instruction by instruction, with everything else in
between: the work items of the clients, arrivals, indications, readers, and the power-save work with its calls to the
clients.  `synchronize_rcu` waits for all readers that there are when it begins.  The callbacks of a QMI handle are
single steps, so that `qmi_handle_release` finds none of them running.
-/

namespace Rmnet

open Transition Worker Reading

/-! ### Data -/

/-- The places for clients: that of WDA, and those of DFC by index. -/
inductive Slot
  | wda
  | dfc (i : Fin 2)
  deriving DecidableEq, Repr, Fintype

/-- `struct qmi_info` with its address.  `client` is `wda_client` and `dfc_clients`, `pending` is `wda_pending` and
`dfc_pending`. -/
structure QmiInfo where
  addr : ℕ
  client : Slot → Option ℕ
  pending : Slot → Option ℕ
  dfcClientExiting : Fin 2 → Bool
  psEnabled : Bool

/-- The client in a slot, pending or not. -/
def QmiInfo.held (q : QmiInfo) (s : Slot) : Option ℕ := (q.client s).or (q.pending s)

/-- `qmi_rmnet_has_dfc_client`. -/
def qmiRmnetHasDfcClient (q : QmiInfo) : Option ℕ := (q.client (.dfc 0)).or (q.client (.dfc 1))

/-- `qmi_rmnet_has_client`. -/
def qmiRmnetHasClient (q : QmiInfo) : Bool := (q.client .wda).isSome || (qmiRmnetHasDfcClient q).isSome

/-- `qmi_rmnet_has_pending`. -/
def qmiRmnetHasPending (q : QmiInfo) : Bool :=
  (q.pending .wda).isSome || (q.pending (.dfc 0)).isSome || (q.pending (.dfc 1)).isSome

/-- `struct wda_qmi_data` or `struct dfc_qmi_data`, and whether it is allocated.  `handle` says whether its QMI handle
is registered.  `task` is its work item `svc_arrive`, with `restart_state` for `cancelled`, and `inds` is `qmi_ind_q`
with `qmi_ind_work`. -/
structure QmiClient where
  live : Bool
  slot : Slot
  qmap : Bool
  handle : Bool
  task : Task
  inds : Backlog

/-- Neither work item is queued or running. -/
def QmiClient.Idle (x : QmiClient) : Prop := x.task.Idle ∧ x.inds.Idle

instance (x : QmiClient) : Decidable x.Idle := inferInstanceAs (Decidable (_ ∧ _))

/-- What `qmi_rmnet_check_stats` has still to do: look at `qmi_info`, set the mode of the WDA client, query the flows of
the DFC clients, and see to it that it runs again, by its alarm or by its timer.  In `setMode` and `queryFlow` it waits
for the answer to a request of the client `c`; in `locked` and `rearm` it is under `rcu_read_lock`, in `rearm` after it
has found `rmnet_work_quit` clear. -/
inductive PsPhase
  | start
  | powersave (enable : Bool)
  | setMode (enable : Bool) (c : ℕ)
  | query (i : Fin 2)
  | queryFlow (c : ℕ)
  | finish (alarm : Bool)
  | locked (alarm : Bool)
  | rearm (alarm : Bool)
  deriving DecidableEq, Repr

/-- Whether a delayed work is pending: its timer runs, or it is in the queue. -/
inductive Pending
  | off
  | timer
  | queued
  deriving DecidableEq, Repr

/-- The power-save work: `rmnet_work_quit`, whether it is pending, what it has still to do in the run at hand, and the
`qmi_info` that this run has read.  `flushing` and `flushNext` say whether `flush_workqueue` waits for this run and for
the one in the queue, and `syncing` whether `synchronize_rcu` waits for this run. -/
structure PsWork where
  quit : Bool
  pending : Pending
  run : List PsPhase
  qmi : Option ℕ
  flushing : Bool
  flushNext : Bool
  syncing : Bool

/-- What somebody does under `rcu_read_lock`: look for `qmap_dfc_data`, or restart the power-save work, be it on its own
or as the callback of the alarm, or something that has nothing to do with the clients. -/
inductive ReadKind
  | dfc
  | restart
  | alarm
  | other
  deriving DecidableEq, Repr

/-- How far a reader has come: it has found a client in `qmap_dfc_data`, or `rmnet_work_quit` clear, or has done what it
came for. -/
inductive ReadPhase
  | locked
  | found (c : ℕ)
  | queue
  | done
  deriving DecidableEq, Repr

/-- Somebody under `rcu_read_lock`. -/
structure Reader where
  kind : ReadKind
  phase : ReadPhase
  deriving DecidableEq, Repr

/-- What the holder of the rtnl lock has still to do.  `drain`, `deregged`, `synced`, `flushed`, `quitSynced`,
`alarmCancelled` and `cancelled` wait. -/
inductive Instr
  | release (s : Slot)
  | stop (s : Slot)
  | drain (s : Slot)
  | free (s : Slot)
  | clear (s : Slot)
  | dereg (i : Fin 2)
  | deregged (i : Fin 2)
  | unlink (i : Fin 2)
  | sync (i : Fin 2)
  | synced (i : Fin 2)
  | exiting (i : Fin 2)
  | flush
  | flushed
  | quit
  | quitSync
  | quitSynced
  | alarmCancel
  | alarmCancelled
  | cancel
  | cancelled
  | freeQmi
  deriving DecidableEq, Repr

/-- A port with its clients by address, and the variables of the module.  `readers` are those under `rcu_read_lock`, and
`alarm` says whether the alarm of the power-save work is set. -/
structure QmiPort where
  qmiInfo : Option QmiInfo
  nextQmi : ℕ
  dfcMode : ℕ
  dfcQmap : Bool
  qmapDfcData : Option ℕ
  readers : Sections Reader
  client : ℕ → QmiClient
  next : ℕ
  psWork : Option PsWork
  alarm : Bool
  rtnl : List Instr

/-- The fields of a message that the set-up reads. -/
structure ClientTcm where
  handle : ℕ
  ifindex : ℕ

/-- What the kernel answers to the initialisation of a client. -/
structure InitAnswers where
  alloc : Bool
  wq : Bool
  handleInit : ℤ
  addLookup : ℤ

/-- What the kernel answers to a set-up. -/
structure SetupAnswers where
  qmiAlloc : Bool
  dfc : InitAnswers
  wda : InitAnswers
  wq : Bool
  work : Bool

/-! ### Set-up -/

/-- `tcm->tcm_handle == 0 ? 0 : 1`. -/
def clientIdx (handle : ℕ) : Fin 2 := if handle = 0 then 0 else 1

/-- A change to the `qmi_info` of the port. -/
def QmiPort.mapQmi (p : QmiPort) (f : QmiInfo → QmiInfo) : QmiPort := { p with qmiInfo := p.qmiInfo.map f }

/-- A change to one client. -/
def QmiPort.mapClient (p : QmiPort) (c : ℕ) (f : QmiClient → QmiClient) : QmiPort :=
  { p with client := Function.update p.client c (f (p.client c)) }

/-- A new client, not yet in its slot. -/
def QmiPort.newClient (p : QmiPort) (s : Slot) (qmap : Bool) : QmiPort :=
  { p with
    client := Function.update p.client p.next
      { live := true, slot := s, qmap := qmap, handle := !qmap, task := Task.fresh, inds := Backlog.empty }
    next := p.next + 1 }

/-- `dfc_qmi_client_init` or `wda_qmi_client_init`: what has been done is undone on an error. -/
def qmiClientInit (a : InitAnswers) (s : Slot) (p : QmiPort) : QmiPort × ℤ :=
  if !a.alloc then (p, -enomem)
  else if !a.wq then (p, -enomem)
  else if a.handleInit < 0 then (p, a.handleInit)
  else if a.addLookup < 0 then (p, a.addLookup)
  else ((p.newClient s false).mapQmi fun q => { q with pending := Function.update q.pending s (some p.next) }, 0)

/-- `dfc_qmi_client_init`. -/
def dfcQmiClientInit (a : InitAnswers) (i : Fin 2) (p : QmiPort) : QmiPort × ℤ := qmiClientInit a (.dfc i) p

/-- `wda_qmi_client_init`. -/
def wdaQmiClientInit (a : InitAnswers) (p : QmiPort) : QmiPort × ℤ := qmiClientInit a .wda p

/-- `dfc_qmap_client_init`. -/
def dfcQmapClientInit (a : InitAnswers) (i : Fin 2) (p : QmiPort) : QmiPort × ℤ :=
  if p.qmapDfcData.isSome then (p, -einval)
  else if !a.alloc then (p, -enomem)
  else
    ({ (p.newClient (.dfc i) true).mapQmi fun q =>
        { q with client := Function.update q.client (.dfc i) (some p.next) } with qmapDfcData := some p.next }, 0)

/-- The `qmi_info` of a port that has none: `kzalloc` and `rmnet_init_qmi_pt`. -/
def QmiPort.initQmi (p : QmiPort) : QmiPort :=
  { p with
    qmiInfo := some
      { addr := p.nextQmi, client := fun _ => none, pending := fun _ => none, dfcClientExiting := fun _ => false,
        psEnabled := false }
    nextQmi := p.nextQmi + 1 }

/-- Whether nothing is in the slot. -/
def QmiPort.vacant (p : QmiPort) (s : Slot) : Bool := (p.qmiInfo.bind fun q => q.held s).isNone

/-- The DFC client of a set-up, if there is none yet. -/
def setupDfc (a : SetupAnswers) (i : Fin 2) (p : QmiPort) : QmiPort × ℤ :=
  if p.dfcMode = dfcModeSa ∧ p.vacant (.dfc i) then
    let (p, err) := if p.dfcQmap then dfcQmapClientInit a.dfc i p else dfcQmiClientInit a.dfc i p
    (p.mapQmi fun q => { q with dfcClientExiting := Function.update q.dfcClientExiting i false }, err)
  else (p, 0)

/-- `qmi_rmnet_setup_client`. -/
def qmiRmnetSetupClient (a : SetupAnswers) (tcm : ClientTcm) (p : QmiPort) : QmiPort × ℤ :=
  if p.qmiInfo.isNone ∧ !a.qmiAlloc then (p, -enomem)
  else
    let p := if p.qmiInfo.isNone then p.initQmi else p
    let (p, err) := setupDfc a (clientIdx tcm.handle) p
    if flagPowersave tcm.ifindex ∧ clientIdx tcm.handle = 0 ∧ p.vacant .wda then wdaQmiClientInit a.wda p
    else (p, err)

/-- `rmnet_reset_qmi_pt` and `kfree`, when there is neither a client nor a pending one. -/
def QmiPort.freeQmi (p : QmiPort) : QmiPort :=
  match p.qmiInfo with
  | none => p
  | some q => if !qmiRmnetHasClient q && !qmiRmnetHasPending q then { p with qmiInfo := none } else p

/-- `qmi_rmnet_work_init`, with the outcomes of its two allocations. -/
def QmiPort.workInit (wqOk workOk : Bool) (p : QmiPort) : QmiPort :=
  if p.psWork.isSome then p
  else if !wqOk || !workOk then p
  else
    { p with
      psWork := some
        { quit := false, pending := .timer, run := [], qmi := none, flushing := false, flushNext := false,
          syncing := false } }

/-- The branch `NLMSG_CLIENT_SETUP` of `qmi_rmnet_change_link`. -/
def changeLinkSetup (a : SetupAnswers) (tcm : ClientTcm) (p : QmiPort) : QmiPort :=
  let p := { p with dfcMode := tcm.ifindex % 16, dfcQmap := flagQmap tcm.ifindex }
  if p.dfcMode ≠ dfcModeSa ∧ !flagPowersave tcm.ifindex then p
  else
    let (p, err) := qmiRmnetSetupClient a tcm p
    if err < 0 then p.freeQmi
    else if flagPowersave tcm.ifindex then p.workInit a.wq a.work
    else p

/-! ### Deletion, as instructions -/

/-- `wda_qmi_client_exit`, and the reset of the two pointers after it. -/
def wdaQmiClientExit : List Instr := [.stop .wda, .drain .wda, .free .wda, .clear .wda]

/-- `dfc_qmi_client_exit`, and the reset of the two pointers after it. -/
def dfcQmiClientExit (i : Fin 2) : List Instr :=
  [.stop (.dfc i), .release (.dfc i), .drain (.dfc i), .free (.dfc i), .clear (.dfc i)]

/-- `dfc_qmap_client_exit`, and the reset of the two pointers after it.  `ctl` says that `rmnet_ctl` is loaded and that
its `dereg` finds the client, for then this waits as well. -/
def dfcQmapClientExit (ctl : Bool) (i : Fin 2) : List Instr :=
  (if ctl then [.dereg i, .deregged i] else []) ++
    [.stop (.dfc i), .unlink i, .sync i, .synced i, .free (.dfc i), .clear (.dfc i)]

/-- `qmi_rmnet_work_exit`. -/
def qmiRmnetWorkExit : List Instr :=
  [.quit, .quitSync, .quitSynced, .alarmCancel, .alarmCancelled, .cancel, .cancelled]

/-- `__qmi_rmnet_delete_client`; `dfc` says whether there is a client. -/
def deleteDfcClient (dfc qmap ctl : Bool) (i : Fin 2) : List Instr :=
  (if dfc then (if qmap then dfcQmapClientExit ctl i else dfcQmiClientExit i) else []) ++ [.freeQmi]

/-- The branch `NLMSG_CLIENT_DELETE` of `qmi_rmnet_change_link` with `qmi_rmnet_delete_client`; `wda` and `dfc` say
whether there are clients. -/
def qmiRmnetDeleteClient (wda dfc qmap ctl : Bool) (i : Fin 2) : List Instr :=
  (if i = 0 then .release .wda :: qmiRmnetWorkExit else []) ++
    (if i = 0 ∧ wda then wdaQmiClientExit else [.exiting i, .flush, .flushed]) ++ deleteDfcClient dfc qmap ctl i

/-- `qmi_rmnet_qmi_exit`; `rmnet_ctl` is `NULL` after the first client over QMAP. -/
def qmiRmnetQmiExit (wda dfc₀ dfc₁ qmap ctl : Bool) : List Instr :=
  .release .wda :: qmiRmnetWorkExit ++ (if wda then wdaQmiClientExit else []) ++ deleteDfcClient dfc₀ qmap ctl 0 ++
    deleteDfcClient dfc₁ qmap (ctl && !dfc₀) 1

/-- The client in a slot of the port. -/
def QmiPort.held (p : QmiPort) (s : Slot) : Option ℕ := p.qmiInfo.bind fun q => q.held s

/-- A change to the client in a slot, if there is one. -/
def QmiPort.mapHeld (p : QmiPort) (s : Slot) (f : QmiClient → QmiClient) : QmiPort :=
  match p.held s with
  | none => p
  | some c => p.mapClient c f

/-- A change to the power-save work, if there is one. -/
def QmiPort.mapPs (p : QmiPort) (f : PsWork → PsWork) : QmiPort := { p with psWork := p.psWork.map f }

/-- The phase is between `rcu_read_lock` and `rcu_read_unlock`. -/
def PsPhase.reading : PsPhase → Bool
  | .locked _ => true
  | .rearm _ => true
  | _ => false

/-- The power-save work is in such a phase, which ends its run. -/
def PsWork.reading (w : PsWork) : Bool := w.run.any PsPhase.reading

/-- `synchronize_rcu` begins. -/
def QmiPort.synchronize (p : QmiPort) : QmiPort :=
  { p.mapPs fun w => { w with syncing := w.reading } with readers := p.readers.synchronize }

/-- Whether `synchronize_rcu` can return. -/
def QmiPort.synchronized (p : QmiPort) : Bool := p.readers.old.isEmpty && p.psWork.all fun w => !w.syncing

/-- Whether what an instruction waits for is over. -/
def QmiPort.over (p : QmiPort) : Instr → Bool
  | .drain s => (p.held s).all fun c => decide (p.client c).Idle
  | .deregged _ => p.synchronized
  | .synced _ => p.synchronized
  | .flushed => p.psWork.all fun w => !w.flushing && !w.flushNext
  | .quitSynced => p.synchronized
  | .alarmCancelled => (p.readers.recent ++ p.readers.old).all fun r => decide (r.kind ≠ .alarm)
  | .cancelled => p.psWork.all fun w => w.run.isEmpty
  | _ => true

/-- What an instruction does.  `freeQmi` ends the function that it is in when it frees `qmi_info`, and `quitSync` is not
reached without the power-save work. -/
def QmiPort.exec (p : QmiPort) : Instr → QmiPort
  | .release s => p.mapHeld s fun x => { x with handle := false }
  | .stop s => p.mapHeld s fun x => { x with task := x.task.cancel }
  | .drain _ => p
  | .free s => p.mapHeld s fun x => { x with live := false }
  | .clear s => p.mapQmi fun q =>
      { q with client := Function.update q.client s none, pending := Function.update q.pending s none }
  | .dereg _ => p.synchronize
  | .deregged _ => p
  | .unlink _ => { p with qmapDfcData := none }
  | .sync _ => p.synchronize
  | .synced _ => p
  | .exiting i => p.mapQmi fun q => { q with dfcClientExiting := Function.update q.dfcClientExiting i true }
  | .flush => p.mapPs fun w => { w with flushing := !w.run.isEmpty, flushNext := decide (w.pending = .queued) }
  | .flushed => p
  | .quit => p.mapPs fun w => { w with quit := true }
  | .quitSync => if p.psWork.isSome then p.synchronize else p
  | .quitSynced => p
  | .alarmCancel => { p with alarm := false }
  | .alarmCancelled => p
  | .cancel => p.mapPs fun w => { w with pending := .off, flushNext := false }
  | .cancelled => { p with psWork := none }
  | .freeQmi => let p := p.freeQmi; if p.qmiInfo.isNone then { p with rtnl := [] } else p

/-- The next instruction of the holder of the rtnl lock. -/
def rtnlStep (p : QmiPort) : Option QmiPort :=
  match p.rtnl with
  | [] => none
  | i :: rest => if p.over i then some ({ p with rtnl := rest }.exec i) else none

/-! ### Work items -/

/-- The work item of a client: `wda_svc_config` or `dfc_svc_init`. -/
def svcProgram : Slot → List Phase
  | .wda => [.tryLock false, .check, .call, .check, .tryLock true]
  | .dfc _ => [.check, .call, .check, .tryLock true]

/-- The end of `wda_svc_config` or `dfc_svc_init`: the client is pending no more. -/
def QmiPort.svcUp (p : QmiPort) (c : ℕ) : QmiPort :=
  p.mapQmi fun q =>
    { q with
      pending := Function.update q.pending (p.client c).slot none
      client := Function.update q.client (p.client c).slot (some c) }

/-- A step of the work item of a client, with the outcomes of its attempt on the rtnl lock and of its call. -/
def svcStep (p : QmiPort) (c : ℕ) (lockFree callOk : Bool) : Option QmiPort :=
  ((p.client c).task.step (svcProgram (p.client c).slot) lockFree callOk).map fun (t, act) =>
    let p := p.mapClient c fun x => { x with task := t }
    if act then p.svcUp c else p

/-- A callback of the QMI handle of a DFC client puts an indication in the queue. -/
def QmiPort.indicate (p : QmiPort) (c : ℕ) : Option QmiPort :=
  match (p.client c).slot with
  | .wda => none
  | .dfc _ => if (p.client c).handle then some (p.mapClient c fun x => { x with inds := x.inds.add }) else none

/-- A step of `dfc_qmi_ind_work`.  The work queue of a client has one thread. -/
def QmiPort.indWork (p : QmiPort) (c : ℕ) : Option QmiPort :=
  if (p.client c).inds.running ∨ (p.client c).task.work = [] then
    (p.client c).inds.step.map fun b => p.mapClient c fun x => { x with inds := b }
  else none

/-- `queue_delayed_work`, which does nothing when the work is pending. -/
def PsWork.queue (w : PsWork) (how : Pending) : PsWork := if w.pending = .off then { w with pending := how } else w

/-- The power-save work goes on with `run`.  When that is empty it returns, which is right after `rcu_read_unlock`. -/
def PsWork.goOn (w : PsWork) (run : List PsPhase) : PsWork :=
  if run = [] then { w with run := [], qmi := none, flushing := false, syncing := false } else { w with run := run }

/-- A step of `qmi_rmnet_check_stats`, with the answers whether there was no traffic, and whether a request succeeded,
or at the start whether power save is not prevented by a flow that is disabled. -/
def checkStats (p : QmiPort) (w : PsWork) (idle ok : Bool) : QmiPort :=
  match w.run with
  | [] => p
  | .start :: _ =>
      match p.qmiInfo with
      | none => { p with psWork := some (w.goOn []) }
      | some q =>
          let w := { w with qmi := some q.addr }
          if q.psEnabled then { p with psWork := some (w.goOn [.powersave false, .query 0, .query 1, .finish true]) }
          else if !idle then { p with psWork := some (w.goOn [.finish true]) }
          else if !ok then { p with psWork := some (w.goOn [.finish false]) }
          else { p with psWork := some (w.goOn [.powersave true]) }
  | .powersave enable :: rest =>
      match p.qmiInfo.bind fun q => q.client .wda with
      | none => { p with psWork := some (w.goOn [.finish true]) }
      | some c => { p with psWork := some (w.goOn (.setMode enable c :: rest)) }
  | .setMode enable _ :: rest =>
      if ok then
        { p.mapQmi fun q => { q with psEnabled := enable } with psWork := some (w.goOn rest) }
      else { p with psWork := some (w.goOn [.finish true]) }
  | .query i :: rest =>
      match p.qmiInfo with
      | none => { p with psWork := some (w.goOn rest) }
      | some q =>
          match q.client (.dfc i) with
          | none => { p with psWork := some (w.goOn rest) }
          | some c =>
              if !p.dfcQmap && !q.dfcClientExiting i then { p with psWork := some (w.goOn (.queryFlow c :: rest)) }
              else { p with psWork := some (w.goOn rest) }
  | .queryFlow _ :: rest => { p with psWork := some (w.goOn rest) }
  | .finish alarm :: rest => { p with psWork := some (w.goOn (.locked alarm :: rest)) }
  | .locked alarm :: rest =>
      if w.quit then { p with psWork := some (w.goOn rest) }
      else { p with psWork := some (w.goOn (.rearm alarm :: rest)) }
  | .rearm alarm :: rest =>
      if alarm then { p with alarm := true, psWork := some (w.goOn rest) }
      else { p with psWork := some ((w.queue .timer).goOn rest) }

/-! ### Readers -/

/-- What becomes of a reader, unless it leaves. -/
def QmiPort.readNext (p : QmiPort) (r : Reader) : Option Reader :=
  match r.phase with
  | .locked =>
      match r.kind with
      | .dfc => some { r with phase := match p.qmapDfcData with | none => .done | some c => .found c }
      | .other => some { r with phase := .done }
      -- `qmi_rmnet_work_restart`
      | _ => some { r with phase := if p.psWork.any fun w => !w.quit then .queue else .done }
  | .found _ => none
  | .queue => some { r with phase := .done }
  | .done => none

/-- A step of a reader. -/
def QmiPort.read (p : QmiPort) (old : Bool) (r : Reader) : QmiPort :=
  { p with
    readers := p.readers.step old r (p.readNext r)
    psWork := if r.phase = .queue then p.psWork.map fun w => w.queue .queued else p.psWork }

/-! ### Steps -/

/-- What can happen: the messages and `qmi_rmnet_qmi_exit`, the next instruction under the rtnl lock, the arrival of a
service or an indication, and the steps of work items, the alarm and readers.  `ctl` says what a deletion finds in
`rmnet_ctl`. -/
inductive ClientEvent
  | setup (a : SetupAnswers) (tcm : ClientTcm)
  | delete (handle : ℕ) (ctl : Bool)
  | exit (ctl : Bool)
  | rtnl
  | arrive (c : ℕ)
  | work (c : ℕ) (lockFree callOk : Bool)
  | indicate (c : ℕ)
  | indWork (c : ℕ)
  | psTimer
  | psStart
  | psWork (idle ok : Bool)
  | alarm
  | readLock (kind : ReadKind)
  | read (old : Bool) (r : Reader)

/-- One step.  The rtnl lock is free when its holder has nothing left to do, and a work item may fail to get it even
then, because of others. -/
def clientStep (p : QmiPort) : ClientEvent → Option QmiPort
  | .setup a tcm => if p.rtnl = [] then some (changeLinkSetup a tcm p) else none
  | .delete handle ctl =>
      if p.rtnl = [] ∧ p.qmiInfo.isSome then
        let i := clientIdx handle
        some { p with rtnl := qmiRmnetDeleteClient (p.held .wda).isSome (p.held (.dfc i)).isSome p.dfcQmap ctl i }
      else none
  | .exit ctl =>
      if p.rtnl = [] ∧ p.qmiInfo.isSome then
        some { p with
          rtnl :=
            qmiRmnetQmiExit (p.held .wda).isSome (p.held (.dfc 0)).isSome (p.held (.dfc 1)).isSome p.dfcQmap ctl }
      else none
  | .rtnl => rtnlStep p
  | .arrive c =>
      if (p.client c).handle then some (p.mapClient c fun x => { x with task := x.task.queue }) else none
  | .work c lockFree callOk =>
      if (lockFree ∧ p.rtnl ≠ []) ∨ (p.client c).inds.running then none else svcStep p c lockFree callOk
  | .indicate c => p.indicate c
  | .indWork c => p.indWork c
  | .psTimer =>
      p.psWork.bind fun w =>
        if w.pending = .timer then some { p with psWork := some { w with pending := .queued } } else none
  | .psStart =>
      p.psWork.bind fun w =>
        if w.pending = .queued ∧ w.run = [] then
          some { p with
            psWork := some { w with pending := .off, run := [.start], flushing := w.flushNext, flushNext := false } }
        else none
  | .psWork idle ok => p.psWork.bind fun w => if w.run = [] then none else some (checkStats p w idle ok)
  | .alarm =>
      if p.alarm then some { p with alarm := false, readers := p.readers.enter { kind := .alarm, phase := .locked } }
      else none
  | .readLock kind =>
      if kind = .alarm then none else some { p with readers := p.readers.enter { kind := kind, phase := .locked } }
  | .read old r => if r ∈ p.readers.side old then some (p.read old r) else none

/-- One step as a relation. -/
def ClientStep (p : QmiPort) (e : ClientEvent) (p' : QmiPort) : Prop := clientStep p e = some p'

/-- A port without clients, whose module has just been loaded. -/
def ClientInit (p : QmiPort) : Prop :=
  p.qmiInfo = none ∧ p.qmapDfcData = none ∧ p.readers = Sections.empty ∧ p.psWork = none ∧ p.alarm = false ∧
    p.rtnl = [] ∧ ∀ c, (p.client c).live = false ∧ (p.client c).handle = false ∧ (p.client c).Idle

/-- What the messages keep to: QMAP is not turned on or off while there is a DFC client, and whenever power save is
asked for while there is no power-save work, it is with instance 0. -/
def ClientOk (p : QmiPort) : ClientEvent → Prop
  | .setup _ tcm =>
      ((∃ i, (p.held (.dfc i)).isSome) → flagQmap tcm.ifindex = p.dfcQmap) ∧
        (flagPowersave tcm.ifindex = true → tcm.handle = 0 ∨ p.psWork.isSome)
  | _ => True

end Rmnet
