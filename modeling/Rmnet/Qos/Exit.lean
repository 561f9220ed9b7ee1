import Rmnet.Lib.Grace
import Rmnet.Qos.Event

/-!
# The end of the QoS data of a device

Packets and messages of the modem reach the `qos_info` of a device under `rcu_read_lock`: packets from the device
itself, messages through the mux table.  The watchdogs of its bearers run on their own.  `rmnet_dellink` and
`rmnet_force_unassociate_device` hold the RTNL lock: they take the endpoints out of the table, wait for the readers,
clear `qos_info` and stop the watchdogs of each device in turn (`qmi_rmnet_qos_exit_pre`), wait for the readers again,
and free what has been cleaned up (`qmi_rmnet_qos_exit_post`).

Everything that is done under `qos_lock` is one step; the walk of `qmi_rmnet_qos_exit_pre` over the bearers does not
hold it, so it is cut at each bearer.  A removed bearer waits for its callbacks as a part of the request that removes
it.  What is sent for a device whose `qos_info` has been cleared is logged here, and dropped by the source.

`qosStep` is the step of the readers, the timers and the holder of the RTNL lock.
-/

namespace Rmnet

open Transition Grace

/-! ### Data -/

/-- What is found under `rcu_read_lock`: the endpoint of an rmnet device in the mux table, or a `qos_info`. -/
inductive QosObj
  | endpoint (dev : ℕ)
  | qos (q : ℕ)
  deriving DecidableEq, Repr

/-- A `qos_info` with the callbacks of its watchdogs, and its `vnd_dev`. -/
structure QosMem where
  dfc : DfcDevice
  vndDev : ℕ

/-- Where the holder of the RTNL lock stands.  `watching q bearer` is the test of the loop over the bearers of `q`,
`deleting q a` the call of `del_timer_sync` in it; `devs` are the devices to come. -/
inductive RtnlCall
  | idle
  | linking (dev : ℕ)
  | unlinked (devs : List ℕ)
  | syncEndpoints (devs : List ℕ)
  | uninit (devs : List ℕ)
  | watching (q : ℕ) (bearer : Option Addr) (devs : List ℕ)
  | deleting (q : ℕ) (bearer : Addr) (devs : List ℕ)
  | syncQos
  deriving DecidableEq, Repr

/-- The memory, `priv->qos_info` of each rmnet device, `qos_cleanup_list`, the readers and the holder of the RTNL lock.
`fault` says that free memory has been used or freed, or that memory with a timer that is pending or runs has been
freed. -/
structure QosSys where
  mem : ℕ → Option QosMem
  qosInfo : ℕ → Option ℕ
  cleanup : List ℕ
  rcu : Domain ℕ QosObj
  rtnl : RtnlCall
  fault : Bool

/-- An access to a `qos_info`. -/
def QosSys.access (s : QosSys) (q : ℕ) (f : QosMem → QosSys) : QosSys :=
  match s.mem q with
  | none => { s with fault := true }
  | some m => f m

/-- A write to a `qos_info`. -/
def QosSys.write (s : QosSys) (q : ℕ) (m : QosMem) : QosSys := { s with mem := Function.update s.mem q (some m) }

/-- The write of `watchdog_quit`. -/
def quitWatchdog (b : RmnetBearerMap) : RmnetBearerMap := { b with watchdogQuit := true }

/-- `del_timer_sync` of a watchdog that has no callback. -/
def delTimerSync (b : RmnetBearerMap) : RmnetBearerMap := { b with watchdogArmed := false }

/-- A write to a bearer. -/
def QosMem.modify (m : QosMem) (a : Addr) (f : RmnetBearerMap → RmnetBearerMap) : QosMem :=
  { m with dfc := { m.dfc with qos := m.dfc.qos.modifyBearer a f } }

/-! ### Readers -/

/-- What a message does that has come through the mux table. -/
def DfcEvent.ofMessage : DfcEvent → Bool
  | .flowStatus .. => true
  | .txLinkStatus .. => true
  | .endMarker .. => true
  | .enableAllFlows => true
  | _ => false

/-- What a packet does. -/
def DfcEvent.ofPacket : DfcEvent → Bool
  | .burstCheck .. => true
  | _ => false

/-- `rmnet_get_rmnet_dev`. -/
def QosSys.getRmnetDev (s : QosSys) (r dev : ℕ) : Option QosSys :=
  if r ∈ s.rcu.active ∧ .endpoint dev ∈ s.rcu.published then some { s with rcu := s.rcu.find r (.endpoint dev) }
  else none

/-- `rmnet_get_qos_pt`. -/
def QosSys.getQosPt (s : QosSys) (r dev : ℕ) : Option QosSys :=
  if r ∈ s.rcu.active then
    match s.qosInfo dev with
    | none => some s
    | some q => some { s with rcu := s.rcu.find r (.qos q) }
  else none

/-- What a reader does under `qos_lock` with a `qos_info` that it has found; a message needs the device of it, too. -/
def QosSys.underLock (s : QosSys) (r q : ℕ) (cfg : DfcConfig) (e : DfcEvent) : Option QosSys :=
  if .qos q ∈ s.rcu.holds r then
    match s.mem q with
    | none => some { s with fault := true }
    | some m =>
        if e.ofPacket ∨ (e.ofMessage ∧ .endpoint m.vndDev ∈ s.rcu.holds r) then
          some (s.write q { m with dfc := dfcNext cfg m.dfc e })
        else none
  else none

/-! ### Timers -/

/-- A timer or a callback of a bearer, which has to be there. -/
def QosSys.timer (s : QosSys) (q : ℕ) (m : QosMem) (a : Addr) (cfg : DfcConfig) (e : DfcEvent) : QosSys :=
  if a ∈ m.dfc.qos.bearerHead then s.write q { m with dfc := dfcNext cfg m.dfc e } else { s with fault := true }

/-- The watchdog of a bearer expires. -/
def QosSys.expires (s : QosSys) (q : ℕ) (a : Addr) (cfg : DfcConfig) : Option QosSys :=
  match s.mem q with
  | none => none
  | some m =>
      if (m.dfc.qos.heap a).watchdogArmed then some (s.timer q m a cfg (.watchdogExpires a)) else none

/-- `qmi_rmnet_watchdog_fn`. -/
def QosSys.watchdogFn (s : QosSys) (q : ℕ) (a : Addr) (cfg : DfcConfig) : Option QosSys :=
  match s.mem q with
  | none => none
  | some m => if 0 < m.dfc.inFlight a then some (s.timer q m a cfg (.watchdogFn a)) else none

/-! ### Under the RTNL lock -/

/-- `rmnet_newlink`, as far as the `qos_info` of the new device; `kzalloc` is the memory that the allocator gives. -/
def QosSys.newlink (s : QosSys) (dev muxId numTxQueues : ℕ) (stopped : ℕ → Bool) (kzalloc : Option ℕ) :
    Option QosSys :=
  if s.rtnl = .idle ∧ s.qosInfo dev = none ∧ .endpoint dev ∉ s.rcu.published then
    match kzalloc with
    | none => some { s with rtnl := .linking dev }
    | some q =>
        if s.mem q = none then
          some { s.write q { dfc := { qos := qmiRmnetQosInit muxId numTxQueues stopped, inFlight := fun _ => 0 }
                             vndDev := dev } with
            qosInfo := Function.update s.qosInfo dev (some q)
            rcu := s.rcu.publish (.qos q)
            rtnl := .linking dev }
        else none
  else none

/-- The timers of bearers are stopped. -/
def QosInfo.stopTimers (qos : QosInfo) (bearers : List Addr) : QosInfo :=
  { qos with heap := fun a => if a ∈ bearers then delTimerSync (quitWatchdog (qos.heap a)) else qos.heap a }

/-- The bearers that have left the list. -/
def goneBearers (qos qos' : QosInfo) : List Addr := qos.bearerHead.filter fun a => a ∉ qos'.bearerHead

/-- `qmi_rmnet_add_flow` and `qmi_rmnet_del_flow`, which wait for the callbacks of the bearers that they remove. -/
def QosSys.flow (s : QosSys) (dev : ℕ) (cfg : DfcConfig) (e : DfcEvent) : Option QosSys :=
  if s.rtnl = .idle then
    match s.qosInfo dev with
    | none => some s
    | some q =>
        match s.mem q with
        | none => some { s with fault := true }
        | some m =>
            match e with
            | .addFlow .. | .delFlow .. =>
                let qos := dfcEventQos cfg m.dfc.qos e
                let gone := goneBearers m.dfc.qos qos
                if ∀ a ∈ gone, m.dfc.inFlight a = 0 then
                  some (s.write q { m with dfc := { m.dfc with qos := qos.stopTimers gone } })
                else none
            | _ => none
  else none

/-- `rmnet_dellink` of one device, or `rmnet_force_unassociate_device` of several, as far as `synchronize_rcu`. -/
def QosSys.unregister (s : QosSys) (devs : List ℕ) : Option QosSys :=
  if s.rtnl = .idle ∧ devs.Nodup ∧ ∀ dev ∈ devs, .endpoint dev ∈ s.rcu.published then
    some { s with rcu := s.rcu.hideAll (devs.map .endpoint), rtnl := .unlinked devs }
  else none

/-- `rmnet_vnd_uninit`, as far as the loop of `qmi_rmnet_qos_exit_pre`. -/
def QosSys.vndUninit (s : QosSys) (dev : ℕ) (devs : List ℕ) : QosSys :=
  match s.qosInfo dev with
  | none => { s with rtnl := .uninit devs }
  | some q =>
      s.access q fun m =>
        { s with
          qosInfo := Function.update s.qosInfo dev none
          rcu := s.rcu.hide (.qos q)
          rtnl := .watching q m.dfc.qos.bearerHead.head? devs }

/-- The element of a list that follows the given one. -/
def nextBearer (l : List Addr) (a : Addr) : Option Addr := (l.dropWhile fun b => b ≠ a).tail.head?

/-- `kfree` of a `qos_info` and, in `qmi_rmnet_clean_flow_list`, of its bearers and flows. -/
def QosSys.kfree (s : QosSys) (q : ℕ) : QosSys :=
  s.access q fun m =>
    { s with
      mem := Function.update s.mem q none
      fault := s.fault ||
        m.dfc.qos.bearerHead.any fun a => (m.dfc.qos.heap a).watchdogArmed || m.dfc.inFlight a ≠ 0 }

/-- The next step of the holder of the RTNL lock. -/
def QosSys.go (s : QosSys) : Option QosSys :=
  match s.rtnl with
  | .idle => none
  | .linking dev => some { s with rcu := s.rcu.publish (.endpoint dev), rtnl := .idle }
  | .unlinked devs =>
      some { s with rcu := s.rcu.synchronizeAll (devs.map .endpoint), rtnl := .syncEndpoints devs }
  | .syncEndpoints devs =>
      if ∀ dev ∈ devs, (.endpoint dev, []) ∈ s.rcu.waiting then
        some { s with rcu := s.rcu.reclaimAll (devs.map .endpoint), rtnl := .uninit devs }
      else none
  | .uninit [] => some { s with rcu := s.rcu.synchronizeAll (s.cleanup.map .qos), rtnl := .syncQos }
  | .uninit (dev :: devs) => some (s.vndUninit dev devs)
  | .watching q none devs => some { s with cleanup := q :: s.cleanup, rtnl := .uninit devs }
  | .watching q (some a) devs =>
      some (s.access q fun m => { s.write q (m.modify a quitWatchdog) with rtnl := .deleting q a devs })
  | .deleting q a devs =>
      match s.mem q with
      | none => some { s with fault := true }
      | some m =>
          if m.dfc.inFlight a = 0 then
            some { s.write q (m.modify a delTimerSync) with
              rtnl := .watching q (nextBearer m.dfc.qos.bearerHead a) devs }
          else none
  | .syncQos =>
      if ∀ q ∈ s.cleanup, (.qos q, []) ∈ s.rcu.waiting then
        some { s.cleanup.foldl QosSys.kfree { s with rcu := s.rcu.reclaimAll (s.cleanup.map .qos) } with
          cleanup := [], rtnl := .idle }
      else none

/-! ### Runs -/

/-- What is done. -/
inductive QosAction
  | readLock (r : ℕ)
  | readUnlock (r : ℕ)
  | getRmnetDev (r dev : ℕ)
  | getQosPt (r dev : ℕ)
  | underLock (r q : ℕ) (cfg : DfcConfig) (e : DfcEvent)
  | expires (q : ℕ) (a : Addr) (cfg : DfcConfig)
  | watchdogFn (q : ℕ) (a : Addr) (cfg : DfcConfig)
  | newlink (dev muxId numTxQueues : ℕ) (stopped : ℕ → Bool) (kzalloc : Option ℕ)
  | flow (dev : ℕ) (cfg : DfcConfig) (e : DfcEvent)
  | unregister (devs : List ℕ)
  | go

/-- A step. -/
def qosStep (s : QosSys) : QosAction → Option QosSys
  | .readLock r => if r ∈ s.rcu.active then none else some { s with rcu := s.rcu.enter r }
  | .readUnlock r => some { s with rcu := s.rcu.leave r }
  | .getRmnetDev r dev => s.getRmnetDev r dev
  | .getQosPt r dev => s.getQosPt r dev
  | .underLock r q cfg e => s.underLock r q cfg e
  | .expires q a cfg => s.expires q a cfg
  | .watchdogFn q a cfg => s.watchdogFn q a cfg
  | .newlink dev muxId numTxQueues stopped kzalloc => s.newlink dev muxId numTxQueues stopped kzalloc
  | .flow dev cfg e => s.flow dev cfg e
  | .unregister devs => s.unregister devs
  | .go => s.go

/-- The step relation. -/
def QosStep (s : QosSys) (x : QosAction) (s' : QosSys) : Prop := qosStep s x = some s'

/-- The module has been loaded. -/
def QosSysInit (s : QosSys) : Prop :=
  s = { mem := fun _ => none, qosInfo := fun _ => none, cleanup := [], rcu := Domain.empty, rtnl := .idle,
        fault := false }

end Rmnet
