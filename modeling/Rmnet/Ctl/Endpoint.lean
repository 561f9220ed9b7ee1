import Rmnet.Ctl.Debugfs
import Rmnet.Errno
import Rmnet.Lib.Grace
import Rmnet.Lib.Transition

/-!
# The rmnet_ctl endpoint

Any number of threads post messages from the modem, send messages to it, register and unregister a client, and add and
remove the device.  A post finds the client, and a send the device, under `rcu_read_lock`; unregistering and removing
clear the pointer, wait with `synchronize_rcu` and free.  Every call is cut where another thread can come in between;
what is done under `client_lock` is one step, since no other step reads what it writes but through the pointer that it
sets last.  Memory that has been freed is allocated again.

The calls also write to the log, and register and unregister create and remove it.  A thread that is in
`rmnet_ctl_log` or `rmnet_ctl_set_dbgfs` goes on with that first; its call has returned when that is over too.

The devices are those of the MHI driver, of which `rmnet_ctl_remove` waits; that of the IPA driver is never freed.

`ctlStep` is the step of a thread.
-/

namespace Rmnet

open Transition Grace

/-! ### Data -/

/-- `struct rmnet_ctl_client_hooks`; a function is known by a number. -/
structure RmnetCtlClientHooks where
  ctlDlClientHook : Option ℕ
  deriving DecidableEq, Repr

/-- The two pointers of `struct rmnet_ctl_endpoint`. -/
inductive CtlKind
  | client
  | dev
  deriving DecidableEq, Repr

/-- A `struct rmnet_ctl_client`, or a `struct rmnet_ctl_dev`, less its statistics. -/
inductive CtlObj
  | client (hooks : RmnetCtlClientHooks)
  | dev (xmit : Option ℕ)
  deriving DecidableEq, Repr

/-- What an object is. -/
def CtlObj.kind : CtlObj → CtlKind
  | .client _ => .client
  | .dev _ => .dev

/-- The function of an object that is called. -/
def CtlObj.fn : CtlObj → Option ℕ
  | .client hooks => hooks.ctlDlClientHook
  | .dev xmit => xmit

/-- What a call takes under `rcu_read_lock`: the bytes of a message, which come as a buffer or as an skb, or an skb. -/
inductive CtlUse
  | post (data : List ℕ) (isSkb : Bool)
  | send (skb : List ℕ)
  deriving DecidableEq, Repr

/-- The pointer that a call reads. -/
def CtlUse.kind : CtlUse → CtlKind
  | .post _ _ => .client
  | .send _ => .dev

/-- What a call returned. -/
inductive CtlRet
  | void
  | handle (client : Option ℕ)
  | rc (n : ℤ)
  deriving DecidableEq, Repr

/-- How far an owner of an object has come: not published yet, hidden, or in `synchronize_rcu`. -/
inductive CtlStage
  | allocated
  | hidden
  | waiting
  deriving DecidableEq, Repr

/-- Where a thread stands.  A pointer that has been read comes with what it pointed to then. -/
inductive CtlCall
  | returned (ret : CtlRet)
  | entering (use : CtlUse)
  | locked (use : CtlUse)
  | found (use : CtlUse) (ptr : Option (ℕ × Option CtlObj))
  | calling (use : CtlUse) (a : ℕ) (fn : ℕ)
  | owner (stage : CtlStage) (kind : CtlKind) (a : ℕ)
  deriving DecidableEq, Repr

/-- The memory, the pointers of `ctl_ep`, the readers, the threads, the devices that have been probed and not removed,
and the log with what each thread does there.  `fault` says that free memory, or memory of another kind, has been used,
or that free memory has been freed; that of the log is its own. -/
structure CtlEp where
  heap : ℕ → Option CtlObj
  ptr : CtlKind → Option ℕ
  rcu : Domain ℕ ℕ
  call : ℕ → CtlCall
  bound : List ℕ
  dbg : CtlDbg
  aux : ℕ → DbgCall
  fault : Bool

/-! ### The calls -/

/-- The thread goes on. -/
def CtlEp.goto (ep : CtlEp) (t : ℕ) (c : CtlCall) : CtlEp := { ep with call := Function.update ep.call t c }

/-- The thread begins with a function of the log. -/
def CtlEp.begin (ep : CtlEp) (t : ℕ) (c : DbgCall) : CtlEp := { ep with aux := Function.update ep.aux t c }

/-- `rcu_read_lock`. -/
def CtlEp.readLock (ep : CtlEp) (t : ℕ) (use : CtlUse) : CtlEp :=
  { ep with rcu := ep.rcu.enter t }.goto t (.locked use)

/-- `rcu_read_unlock`. -/
def CtlEp.readUnlock (ep : CtlEp) (t : ℕ) (ret : CtlRet) : CtlEp :=
  { ep with rcu := ep.rcu.leave t }.goto t (.returned ret)

/-- The end of `rmnet_ctl_send_client`; a message that was not sent is logged. -/
def CtlEp.sent (ep : CtlEp) (t : ℕ) (rc : ℤ) : CtlEp :=
  if rc = 0 then ep.readUnlock t (.rc rc) else (ep.readUnlock t (.rc rc)).begin t (.log rmnetCtlLogErr)

/-- `kzalloc`, with what is written to the new object. -/
def CtlEp.kzalloc (ep : CtlEp) (t : ℕ) (a : ℕ) (obj : CtlObj) : Option CtlEp :=
  if ep.heap a = none then
    some ({ ep with heap := Function.update ep.heap a (some obj) }.goto t (.owner .allocated obj.kind a))
  else none

/-- `kfree`. -/
def CtlEp.kfree (ep : CtlEp) (a : ℕ) : CtlEp :=
  if ep.heap a = none then { ep with fault := true } else { ep with heap := Function.update ep.heap a none }

/-- `rcu_assign_pointer` of a new object. -/
def CtlEp.assign (ep : CtlEp) (kind : CtlKind) (a : ℕ) : CtlEp :=
  { ep with ptr := Function.update ep.ptr kind (some a), rcu := ep.rcu.publish a }

/-- `RCU_INIT_POINTER(…, NULL)`. -/
def CtlEp.clear (ep : CtlEp) (kind : CtlKind) : CtlEp :=
  match ep.ptr kind with
  | none => ep
  | some a => { ep with ptr := Function.update ep.ptr kind none, rcu := ep.rcu.hide a }

/-- `rmnet_ctl_endpoint_post`, as far as the log; the length `0xFFFFFFFF` says that the data is an skb. -/
def rmnetCtlEndpointPost (ep : CtlEp) (t : ℕ) (data : Option (List ℕ)) (len : ℕ) : CtlEp :=
  match data with
  | none => ep.goto t (.returned .void)
  | some bytes =>
      if len = 0 then ep.goto t (.returned .void)
      else if len = 0xFFFFFFFF then (ep.goto t (.entering (.post bytes true))).begin t (.log rmnetCtlLogInfo)
      else (ep.goto t (.entering (.post (bytes.take len) false))).begin t (.log rmnetCtlLogInfo)

/-- `rmnet_ctl_send_client`, with its check of the handle, as far as the log. -/
def rmnetCtlSendClient (ep : CtlEp) (t : ℕ) (handle : Option ℕ) (skb : List ℕ) : CtlEp :=
  if handle ≠ ep.ptr .client then ep.goto t (.returned (.rc (-einval)))
  else (ep.goto t (.entering (.send skb))).begin t (.log rmnetCtlLogInfo)

/-- `rmnet_ctl_register_client`, as far as `client_lock`; `kzalloc` is the memory that the allocator gives, if any. -/
def rmnetCtlRegisterClient (ep : CtlEp) (t : ℕ) (hook : Option RmnetCtlClientHooks) (kzalloc : Option ℕ) :
    Option CtlEp :=
  match hook, kzalloc with
  | none, _ => some (ep.goto t (.returned (.handle none)))
  | some _, none => some (ep.goto t (.returned (.handle none)))
  | some hooks, some a => ep.kzalloc t a (.client hooks)

/-- `rmnet_ctl_unregister_client`, with what it does under `client_lock`.  For `NULL` without a client there is nothing
to free, but the log is removed. -/
def rmnetCtlUnregisterClient (ep : CtlEp) (t : ℕ) (handle : Option ℕ) : CtlEp :=
  if ep.ptr .client ≠ handle then ep.goto t (.returned (.rc (-einval)))
  else
    match handle with
    | none => (ep.goto t (.returned (.rc 0))).begin t (rmnetCtlSetDbgfs false)
    | some a => (ep.clear .client).goto t (.owner .hidden .client a)

/-- `rmnet_ctl_probe` of the MHI driver, as far as `rmnet_ctl_endpoint_setdev`; `prepared` says that
`mhi_prepare_for_transfer` succeeds.  Where it fails, the driver core frees the device, of which nobody knows. -/
def rmnetCtlProbe (ep : CtlEp) (t : ℕ) (xmit : ℕ) (devmKzalloc : Option ℕ) (prepared : Bool) : Option CtlEp :=
  match devmKzalloc with
  | none => some (ep.goto t (.returned (.rc (-enomem))))
  | some a =>
      if prepared then ep.kzalloc t a (.dev (some xmit)) else some (ep.goto t (.returned (.rc (-einval))))

/-- `rmnet_ctl_endpoint_setdev`. -/
def rmnetCtlEndpointSetdev (ep : CtlEp) (dev : Option ℕ) : CtlEp :=
  match dev with
  | none => ep.clear .dev
  | some a => (ep.clear .dev).assign .dev a

/-- `rmnet_ctl_remove` of the MHI driver, which the driver core calls once for each device, as far as
`rmnet_ctl_endpoint_setdev`. -/
def rmnetCtlRemove (ep : CtlEp) (t : ℕ) (a : ℕ) : Option CtlEp :=
  if a ∈ ep.bound then
    some ((rmnetCtlEndpointSetdev { ep with bound := ep.bound.erase a } none).goto t (.owner .hidden .dev a))
  else none

/-- `rcu_dereference`. -/
def CtlEp.dereference (ep : CtlEp) (t : ℕ) (use : CtlUse) : CtlEp :=
  match ep.ptr use.kind with
  | none => ep.goto t (.found use none)
  | some a => { ep with rcu := ep.rcu.find t a }.goto t (.found use (some (a, ep.heap a)))

/-- The call through the pointer that has been read; `alloc` is the outcome of `alloc_skb`. -/
def CtlEp.use (ep : CtlEp) (t : ℕ) (alloc : Bool) (use : CtlUse) (ptr : Option (ℕ × Option CtlObj)) : CtlEp :=
  match use, ptr with
  | .post _ _, none => ep.readUnlock t .void
  | .send _, none => ep.sent t (-einval)
  | .post _ isSkb, some (a, _) =>
      match ep.heap a with
      | some (.client hooks) =>
          match hooks.ctlDlClientHook with
          | none => ep.readUnlock t .void
          | some fn => if isSkb || alloc then ep.goto t (.calling use a fn) else ep.readUnlock t .void
      | _ => { ep with fault := true }
  | .send _, some (a, _) =>
      match ep.heap a with
      | some (.dev xmit) =>
          match xmit with
          | none => ep.sent t (-einval)
          | some fn => ep.goto t (.calling use a fn)
      | _ => { ep with fault := true }

/-- The object of its owner, one step further: it is published, or `synchronize_rcu` begins, or that returns and the
object is freed.  A client that is one too many is freed at once.  Behind a client the log is created or removed. -/
def CtlEp.own (ep : CtlEp) (t : ℕ) : CtlStage → CtlKind → ℕ → Option CtlEp
  | .allocated, .client, a =>
      if (ep.ptr .client).isSome then some ((ep.kfree a).goto t (.returned (.handle none)))
      else some (((ep.assign .client a).goto t (.returned (.handle (some a)))).begin t (rmnetCtlSetDbgfs true))
  | .allocated, .dev, a =>
      some ({ rmnetCtlEndpointSetdev ep (some a) with bound := a :: ep.bound }.goto t (.returned (.rc 0)))
  | .hidden, kind, a => some ({ ep with rcu := ep.rcu.synchronize a }.goto t (.owner .waiting kind a))
  | .waiting, kind, a =>
      if (a, []) ∈ ep.rcu.waiting then
        let ep := { ep with rcu := ep.rcu.reclaim a }.kfree a
        match kind with
        | .client => some ((ep.goto t (.returned (.rc 0))).begin t (rmnetCtlSetDbgfs false))
        | .dev => some (ep.goto t (.returned .void))
      else none

/-- What a thread does: a new call, or the next step of the one it is in.  `log` is a message of the client or of the
MHI callbacks, `dbgfs` the call of the MHI driver when it is loaded or unloaded, and `level` a write to `ipc_log_lvl`
through debugfs. -/
inductive CtlAction
  | post (data : Option (List ℕ)) (len : ℕ)
  | send (handle : Option ℕ) (skb : List ℕ)
  | register (hook : Option RmnetCtlClientHooks) (kzalloc : Option ℕ)
  | unregister (handle : Option ℕ)
  | probe (xmit : ℕ) (devmKzalloc : Option ℕ) (prepared : Bool)
  | remove (a : ℕ)
  | log (lvl : ℕ)
  | dbgfs (enable : Bool)
  | level (n : ℕ)
  | go (alloc : Bool) (rc : ℤ) (made : DbgPtr)
  deriving DecidableEq, Repr

/-- The next step of a call; `rc` is what `xmit` returns. -/
def CtlEp.go (ep : CtlEp) (t : ℕ) (alloc : Bool) (rc : ℤ) : Option CtlEp :=
  match ep.call t with
  | .returned _ => none
  | .entering use => some (ep.readLock t use)
  | .locked use => some (ep.dereference t use)
  | .found use ptr => some (ep.use t alloc use ptr)
  | .calling (.post _ _) _ _ => some (ep.readUnlock t .void)
  | .calling (.send _) _ _ => some (ep.sent t rc)
  | .owner stage kind a => ep.own t stage kind a

/-- A step of a thread.  A hook that runs can log as well. -/
def ctlStep (ep : CtlEp) (e : ℕ × CtlAction) : Option CtlEp :=
  match e.2, ep.call e.1, ep.aux e.1 with
  | .go alloc rc _, _, .idle => ep.go e.1 alloc rc
  | .go _ _ made, _, c => (dbgStep ep.dbg made c).map fun x => { ep with dbg := x.1 }.begin e.1 x.2
  | .level n, _, _ => some { ep with dbg := { ep.dbg with ipcLogLvl := n } }
  | .log lvl, .returned _, .idle => some (ep.begin e.1 (.log lvl))
  | .log lvl, .calling _ _ _, .idle => some (ep.begin e.1 (.log lvl))
  | .dbgfs enable, .returned _, .idle => some (ep.begin e.1 (rmnetCtlSetDbgfs enable))
  | .post data len, .returned _, .idle => some (rmnetCtlEndpointPost ep e.1 data len)
  | .send handle skb, .returned _, .idle => some (rmnetCtlSendClient ep e.1 handle skb)
  | .register hook kzalloc, .returned _, .idle => rmnetCtlRegisterClient ep e.1 hook kzalloc
  | .unregister handle, .returned _, .idle => some (rmnetCtlUnregisterClient ep e.1 handle)
  | .probe xmit devmKzalloc prepared, .returned _, .idle => rmnetCtlProbe ep e.1 xmit devmKzalloc prepared
  | .remove a, .returned _, .idle => rmnetCtlRemove ep e.1 a
  | _, _, _ => none

/-- The step relation. -/
def CtlStep (ep : CtlEp) (e : ℕ × CtlAction) (ep' : CtlEp) : Prop := ctlStep ep e = some ep'

/-- No directory and no log yet. -/
def CtlDbg.unset (ipcLogLvl : ℕ) : CtlDbg :=
  { dbgfsDir := .null, dbgfsLoglvl := .null, ipcLog := .null, ipcLogLvl, live := fun _ => none, fault := false }

/-- No client, no device and no log. -/
def CtlEp.unset (ipcLogLvl : ℕ) : CtlEp :=
  { heap := fun _ => none, ptr := fun _ => none, rcu := Domain.empty, call := fun _ => .returned .void, bound := [],
    dbg := CtlDbg.unset ipcLogLvl, aux := fun _ => .idle, fault := false }

/-- The code has been loaded; what `ipc_log_lvl` is depends on the configuration. -/
def CtlInit (ep : CtlEp) : Prop := ∃ ipcLogLvl, ep = CtlEp.unset ipcLogLvl

end Rmnet
