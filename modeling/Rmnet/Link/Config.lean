import Rmnet.Map
import Rmnet.Qos.Table
import Rmnet.Uplink.Aggregate

/-!
# Link configuration

The netlink side of the driver: `rmnet_newlink`, `rmnet_changelink`, `rmnet_dellink`,
`rmnet_force_unassociate_device`, `rmnet_add_bridge` and `rmnet_del_bridge` with what they call in
`rmnet_config.c` and `rmnet_vnd.c`.  A real device
is registered when it has a port; an rmnet device is known by its private data.  An endpoint is a value
in a bucket of `muxed_ep`, and `hlist_del` of the endpoint that a lookup has found removes the first
match of its bucket.

A request that dereferences `NULL` has no result.  What the kernel decides (allocations,
`netdev_rx_handler_register`, `register_netdevice`) is the environment of a call.  The QMI clients of a port come and
go with services outside the driver, so whether a port has one is part of the environment too.
-/

namespace Rmnet

open Word

/-! ### Data -/

/-- `RMNET_EPMODE_VND`. -/
def rmnetEpmodeVnd : ℕ := 1

/-- `RMNET_EPMODE_BRIDGE`. -/
def rmnetEpmodeBridge : ℕ := 2

/-- `struct rmnet_endpoint`. -/
structure RmnetEndpoint where
  muxId : ℕ := 0
  egressDev : Option ℕ := none
  deriving DecidableEq, Repr

/-- The part of `struct rmnet_port` that the link requests read and write. -/
structure LinkPort where
  ul : UlPort
  nrRmnetDevs : ℕ
  rmnetMode : ℕ
  muxedEp : ℕ → List RmnetEndpoint
  bridgeEp : Option ℕ

/-- The part of `struct rmnet_priv` that the link requests read and write. -/
structure RmnetPriv where
  realDev : ℕ
  muxId : ℕ
  qosInfo : Option QosInfo

/-- The ports by real device, the private data by rmnet device, and the flow-control globals. -/
structure LinkState where
  ports : ℕ → Option LinkPort
  devs : ℕ → Option RmnetPriv
  cfg : DfcConfig

/-- `struct tcmsg` of a link change, by its `tcm_family`; `other` stands for the families without an effect
on what is modelled here. -/
inductive Tcmsg
  | flowActivate (tcm : FlowReq)
  | flowDeactivate (tcm : FlowReq)
  | clientSetup (ifindex : ℕ)
  | clientDelete (handle : ℕ)
  | scaleFactor (ifindex : ℕ)
  | other

/-- The attributes of a link request; `link` is the device that `__dev_get_by_index` finds for
`IFLA_LINK`. -/
structure LinkAttrs where
  link : Option ℕ
  muxId : Option ℕ := none
  flags : Option (ℕ × ℕ) := none
  dfcQos : Option Tcmsg := none
  ulAggParams : Option RmnetEgressAggParams := none

/-- What the kernel answers during one link request. -/
structure LinkEnv where
  epAlloc : Bool := true
  portAlloc : Bool := true
  rxHandlerRegister : Bool := true
  /-- `rmnet_descriptor_init`, zero or an error. -/
  descriptorInit : ℤ := 0
  /-- `register_netdevice`, zero or an error. -/
  registerNetdevice : ℤ := 0
  qosAlloc : Bool := true
  numTxQueues : ℕ := 31
  /-- The port has a `qmi_info`, with a DFC client. -/
  qmi : Bool := true
  dfcClient : Bool := true
  setupClient : Bool := true
  kzFlow : Bool := true
  kzBearer : Bool := true
  /-- The pages handed out to `rmnet_alloc_agg_pages`. -/
  pages : List ℕ := []

/-! ### Access -/

/-- `rmnet_is_real_dev_registered`. -/
def rmnetIsRealDevRegistered (st : LinkState) (realDev : ℕ) : Bool := (st.ports realDev).isSome

/-- `rmnet_get_endpoint`. -/
def rmnetGetEndpoint (port : LinkPort) (muxId : ℕ) : Option RmnetEndpoint :=
  (port.muxedEp muxId).find? fun ep => ep.muxId = muxId

/-- Write the port of a real device. -/
def LinkState.setPort (st : LinkState) (realDev : ℕ) (port : Option LinkPort) : LinkState :=
  { st with ports := Function.update st.ports realDev port }

/-- Write the private data of an rmnet device; `none` once it is unregistered. -/
def LinkState.setDev (st : LinkState) (dev : ℕ) (priv : Option RmnetPriv) : LinkState :=
  { st with devs := Function.update st.devs dev priv }

/-- `hlist_add_head_rcu` to the bucket of `muxId`. -/
def LinkPort.addHead (port : LinkPort) (muxId : ℕ) (ep : RmnetEndpoint) : LinkPort :=
  { port with muxedEp := Function.update port.muxedEp muxId (ep :: port.muxedEp muxId) }

/-- `hlist_del_init_rcu` of the endpoint that `rmnet_get_endpoint` finds for `muxId`. -/
def LinkPort.delFound (port : LinkPort) (muxId : ℕ) : LinkPort :=
  { port with
    muxedEp := Function.update port.muxedEp muxId
      ((port.muxedEp muxId).eraseP fun ep => ep.muxId = muxId) }

/-! ### Real devices -/

/-- The zeroed port, with its aggregation state initialised. -/
def newPort : LinkPort :=
  { ul := rmnetMapTxAggregateInit 0, nrRmnetDevs := 0, rmnetMode := 0, muxedEp := fun _ => [],
    bridgeEp := none }

/-- `rmnet_register_real_device`. -/
def rmnetRegisterRealDevice (env : LinkEnv) (st : LinkState) (realDev : ℕ) : LinkState × ℤ :=
  if rmnetIsRealDevRegistered st realDev then (st, 0)
  else if !env.portAlloc then (st, -enomem)
  else if !env.rxHandlerRegister then (st, -ebusy)
  -- when the descriptor pool cannot be set up, the receive handler and the port stay
  else (st.setPort realDev (some newPort), env.descriptorInit)

/-- `rmnet_unregister_real_device` for a real device and its port. -/
def rmnetUnregisterRealDevice (st : LinkState) (realDev : ℕ) (port : LinkPort) : LinkState × ℤ :=
  if port.nrRmnetDevs ≠ 0 then (st, -einval) else (st.setPort realDev none, 0)

/-- `rmnet_unregister_bridge` for the given port.  The port of the bridge device is dereferenced. -/
def rmnetUnregisterBridge (st : LinkState) (port : LinkPort) : Option LinkState :=
  if port.rmnetMode ≠ rmnetEpmodeBridge then some st
  else
    match port.bridgeEp with
    | none => none
    | some bridgeDev =>
        match st.ports bridgeDev with
        | none => none
        | some bridgePort =>
            if port.nrRmnetDevs = 0 then
              some (st.setPort bridgeDev
                (some { bridgePort with bridgeEp := none, rmnetMode := rmnetEpmodeVnd }))
            else some (rmnetUnregisterRealDevice st bridgeDev bridgePort).1

/-! ### rmnet devices -/

/-- `rmnet_vnd_newlink`, with the private data of the device when it gets registered. -/
def rmnetVndNewlink (env : LinkEnv) (id : ℕ) (dev realDev : ℕ) (port : LinkPort) (ep : RmnetEndpoint) :
    (LinkPort × RmnetEndpoint × Option RmnetPriv) × ℤ :=
  if ep.egressDev.isSome then ((port, ep, none), -einval)
  else if (rmnetGetEndpoint port id).isSome then ((port, ep, none), -ebusy)
  else if env.registerNetdevice ≠ 0 then ((port, ep, none), env.registerNetdevice)
  else
    (({ port with nrRmnetDevs := u8 (port.nrRmnetDevs + 1) }, { muxId := id, egressDev := some dev },
      some { realDev := realDev, muxId := id,
             qosInfo := if env.qosAlloc then some (qmiRmnetQosInit id env.numTxQueues fun _ => false)
               else none }), 0)

/-- `rmnet_vnd_dellink`. -/
def rmnetVndDellink (id : ℕ) (port : LinkPort) (ep : RmnetEndpoint) : LinkPort :=
  if maxLogicalEp ≤ id ∨ ep.egressDev.isNone then port
  else { port with nrRmnetDevs := sub8 port.nrRmnetDevs 1 }

/-! ### Requests -/

/-- `rmnet_rtnl_validate` for a request that carries data. -/
def rmnetRtnlValidate (data : LinkAttrs) : ℤ :=
  if data.muxId.any fun muxId => maxLogicalEp - 1 < muxId then -erange
  else if data.ulAggParams.any fun p => p.aggTime < 1000000 then -einval
  else 0

/-- The assignment of `IFLA_RMNET_FLAGS` to `data_format`. -/
def LinkPort.setFlags (port : LinkPort) : Option (ℕ × ℕ) → LinkPort
  | none => port
  | some (flags, mask) => { port with ul := { port.ul with dataFormat := flags &&& mask } }

/-- The parameters that `rmnet_newlink` copies to the port as they are. -/
def LinkPort.setAggParams (port : LinkPort) : Option RmnetEgressAggParams → LinkPort
  | none => port
  | some p => { port with ul := { port.ul with egressAggParams := p } }

/-- `rmnet_newlink` for the unregistered device `dev`. -/
def rmnetNewlink (env : LinkEnv) (st : LinkState) (dev : ℕ) (data : LinkAttrs) : LinkState × ℤ :=
  match data.link, data.muxId with
  | none, _ => (st, -enodev)
  | some _, none => (st, -einval)
  | some realDev, some muxId =>
      if !env.epAlloc then (st, -enomem)
      else
        let (st, err) := rmnetRegisterRealDevice env st realDev
        if err ≠ 0 then (st, err)
        else
          match st.ports realDev with
          -- the real device has a port: it has just been registered, or was before
          | none => (st, 0)
          | some port =>
              match rmnetVndNewlink env (u8 muxId) dev realDev port {} with
              | ((port, ep, priv), 0) =>
                  let port := { port with rmnetMode := rmnetEpmodeVnd }
                  let port := ((port.addHead muxId ep).setFlags data.flags).setAggParams data.ulAggParams
                  ((st.setPort realDev (some port)).setDev dev priv, 0)
              | ((_, _, _), err) => ((rmnetUnregisterRealDevice st realDev port).1, err)

/-- `RMNET_INGRESS_FORMAT_PS`. -/
def ingressFormatPs : ℕ := 1 <<< 27

/-- `rmnet_set_powersave_format`. -/
def rmnetSetPowersaveFormat (port : LinkPort) : LinkPort :=
  { port with ul := { port.ul with dataFormat := port.ul.dataFormat ||| ingressFormatPs } }

/-- `rmnet_clear_powersave_format`. -/
def rmnetClearPowersaveFormat (port : LinkPort) : LinkPort :=
  { port with ul := { port.ul with dataFormat := Nat.ldiff port.ul.dataFormat ingressFormatPs } }

/-- `FLAG_POWERSAVE_MASK`. -/
def flagPowersave (ifindex : ℕ) : Bool := ifindex.testBit 4

/-- `FLAG_QMAP_MASK`. -/
def flagQmap (ifindex : ℕ) : Bool := ifindex.testBit 5

/-- `qmi_rmnet_change_link`: the globals, the port and the `qos_info` of the device after the message. -/
def qmiRmnetChangeLink (env : LinkEnv) (cfg : DfcConfig) (port : LinkPort) (qos : Option QosInfo) :
    Tcmsg → DfcConfig × LinkPort × Option QosInfo
  | .flowActivate tcm =>
      if !env.qmi ∨ cfg.dfcMode ≠ dfcModeSa ∨ !env.dfcClient then (cfg, port, qos)
      else (cfg, port, qos.map fun q =>
        ((qmiRmnetAddFlow cfg env.kzFlow env.kzBearer q tcm).map Prod.fst).getD q)
  | .flowDeactivate tcm =>
      if !env.qmi ∨ cfg.dfcMode ≠ dfcModeSa then (cfg, port, qos)
      else (cfg, port, qos.map fun q => qmiRmnetDelFlow cfg q tcm)
  | .clientSetup ifindex =>
      let cfg := { cfg with dfcMode := ifindex % 16, dfcQmap := flagQmap ifindex }
      if cfg.dfcMode ≠ dfcModeSa ∧ !flagPowersave ifindex then (cfg, port, qos)
      else if env.setupClient ∧ flagPowersave ifindex then (cfg, rmnetSetPowersaveFormat port, qos)
      else (cfg, port, qos)
  | .clientDelete handle =>
      if env.qmi ∧ handle = 0 then (cfg, rmnetClearPowersaveFormat port, qos) else (cfg, port, qos)
  | .scaleFactor ifindex =>
      if ifindex = 0 then (cfg, port, qos) else ({ cfg with scaleFactor := ifindex }, port, qos)
  | .other => (cfg, port, qos)

/-- The mux id part of `rmnet_changelink`: the port and the private data, or `none` when the endpoint of the
device is not found. -/
def changeMuxId (port : LinkPort) (priv : RmnetPriv) : Option ℕ → Option (LinkPort × RmnetPriv)
  | none => some (port, priv)
  | some muxId =>
      match rmnetGetEndpoint port priv.muxId with
      | none => none
      | some ep =>
          some ((port.delFound priv.muxId).addHead muxId { ep with muxId := u8 muxId },
            { priv with muxId := u8 muxId })

/-- The parameters that `rmnet_changelink` passes to `rmnet_map_update_ul_agg_config`. -/
def LinkPort.updateAggConfig (port : LinkPort) (pages : List ℕ) : Option RmnetEgressAggParams → LinkPort
  | none => port
  | some p =>
      { port with
        ul := rmnetMapUpdateUlAggConfig p.aggSize p.aggCount p.aggFeatures p.aggTime pages port.ul }

/-- `rmnet_changelink` for the registered device `dev`. -/
def rmnetChangelink (env : LinkEnv) (st : LinkState) (dev : ℕ) (data : LinkAttrs) : LinkState × ℤ :=
  match data.link, st.devs dev with
  | some realDev, some priv =>
      match st.ports realDev with
      | none => (st, -enodev)
      | some port =>
          match changeMuxId port priv data.muxId with
          | none => (st, -enodev)
          | some (port, priv) =>
              let port := port.setFlags data.flags
              let (cfg, port, qos) :=
                match data.dfcQos with
                | none => (st.cfg, port, priv.qosInfo)
                | some tcm => qmiRmnetChangeLink env st.cfg port priv.qosInfo tcm
              let port := port.updateAggConfig env.pages data.ulAggParams
              ((({ st with cfg := cfg } : LinkState).setPort realDev (some port)).setDev dev
                (some { priv with qosInfo := qos }), 0)
  | _, _ => (st, -enodev)

/-- The endpoint part of `rmnet_dellink`, with the port that it leaves. -/
def dellinkEndpoint (st : LinkState) (priv : RmnetPriv) (port : LinkPort) : Option (LinkState × LinkPort) :=
  match rmnetGetEndpoint port priv.muxId with
  | none => some (st, port)
  | some ep =>
      let port := port.delFound priv.muxId
      (rmnetUnregisterBridge (st.setPort priv.realDev (some port)) port).map fun st =>
        let port := rmnetVndDellink priv.muxId port ep
        (st.setPort priv.realDev (some port), port)

/-- `rmnet_dellink`. -/
def rmnetDellink (st : LinkState) (dev : ℕ) : Option LinkState :=
  match st.devs dev with
  | none => some st
  | some priv =>
      match st.ports priv.realDev with
      | none => some st
      | some port =>
          (dellinkEndpoint st priv port).map fun (st, port) =>
            (rmnetUnregisterRealDevice (st.setDev dev none) priv.realDev port).1

/-- The endpoints of a port in the order of `hash_for_each_safe`. -/
def LinkPort.endpoints (port : LinkPort) : List RmnetEndpoint :=
  (List.range maxLogicalEp).flatMap port.muxedEp

/-- `rmnet_force_unassociate_device`: every endpoint leaves the table, and its device is unregistered. -/
def rmnetForceUnassociateDevice (st : LinkState) (realDev : ℕ) : Option LinkState :=
  match st.ports realDev with
  | none => some st
  | some port =>
      (rmnetUnregisterBridge st port).map fun st =>
        let gone := port.endpoints.filterMap RmnetEndpoint.egressDev
        let port := port.endpoints.foldl (fun port ep => rmnetVndDellink ep.muxId port ep) port
        let port := { port with
          muxedEp := fun b => if b < maxLogicalEp then [] else port.muxedEp b }
        let st := st.setPort realDev (some port)
        let st := { st with devs := fun dev => if dev ∈ gone then none else st.devs dev }
        (rmnetUnregisterRealDevice st realDev port).1

/-! ### Bridges -/

/-- Write the bridge fields of a registered device. -/
def LinkState.setBridge (st : LinkState) (realDev : ℕ) (mode : ℕ) (bridgeEp : Option ℕ) : LinkState :=
  match st.ports realDev with
  | none => st
  | some port => st.setPort realDev (some { port with rmnetMode := mode, bridgeEp := bridgeEp })

/-- `rmnet_add_bridge` for the rmnet device `rmnetDev`; nothing is called for a device that is not registered.  The
port of its real device is dereferenced. -/
def rmnetAddBridge (env : LinkEnv) (st : LinkState) (rmnetDev slaveDev : ℕ) : Option (LinkState × ℤ) :=
  match st.devs rmnetDev with
  | none => some (st, 0)
  | some priv =>
      match st.ports priv.realDev with
      | none => none
      | some port =>
          -- more than one rmnet device: the real device is used for muxing
          if 1 < port.nrRmnetDevs then some (st, -einval)
          else if rmnetIsRealDevRegistered st slaveDev then some (st, -ebusy)
          else
            let (st, err) := rmnetRegisterRealDevice env st slaveDev
            if err ≠ 0 then some (st, -ebusy)
            else
              let st := st.setBridge slaveDev rmnetEpmodeBridge (some priv.realDev)
              some (st.setBridge priv.realDev rmnetEpmodeBridge (some slaveDev), 0)

/-- `rmnet_del_bridge`, likewise.  The port of the slave is dereferenced too, when that of the real device has been
written. -/
def rmnetDelBridge (st : LinkState) (rmnetDev slaveDev : ℕ) : Option LinkState :=
  match st.devs rmnetDev with
  | none => some st
  | some priv =>
      match st.ports priv.realDev with
      | none => none
      | some port =>
          let st := st.setPort priv.realDev (some { port with rmnetMode := rmnetEpmodeVnd, bridgeEp := none })
          (st.ports slaveDev).map fun slavePort => (rmnetUnregisterRealDevice st slaveDev slavePort).1

/-! ### Deletions that have a result -/

section

variable {st st' : LinkState}

/-- `rmnet_unregister_bridge` changes nothing, or frees the bridge device, or removes it. -/
theorem unregisterBridge_cases {port : LinkPort} (h : rmnetUnregisterBridge st port = some st') :
    st' = st ∨ ∃ d bridgePort, st.ports d = some bridgePort ∧
      (st' = st.setPort d (some { bridgePort with bridgeEp := none, rmnetMode := rmnetEpmodeVnd }) ∨
        st' = (rmnetUnregisterRealDevice st d bridgePort).1) := by
  unfold rmnetUnregisterBridge at h
  split at h
  · exact .inl (Option.some.inj h).symm
  · split at h
    · cases h
    · split at h
      · cases h
      · rename_i d _ _ bridgePort hd
        split at h
        · exact .inr ⟨d, bridgePort, hd, .inl (Option.some.inj h).symm⟩
        · exact .inr ⟨d, bridgePort, hd, .inr (Option.some.inj h).symm⟩

/-- `rmnet_dellink` on a registered device: its endpoint goes if it is found, and the rmnet device goes. -/
theorem dellink_cases {dev : ℕ} (h : rmnetDellink st dev = some st') :
    st' = st ∨ ∃ priv port, st.devs dev = some priv ∧ st.ports priv.realDev = some port ∧
      ((rmnetGetEndpoint port priv.muxId = none ∧
          st' = (rmnetUnregisterRealDevice (st.setDev dev none) priv.realDev port).1) ∨
        ∃ ep st₁, rmnetGetEndpoint port priv.muxId = some ep ∧
          rmnetUnregisterBridge (st.setPort priv.realDev (some (port.delFound priv.muxId)))
            (port.delFound priv.muxId) = some st₁ ∧
          st' = (rmnetUnregisterRealDevice ((st₁.setPort priv.realDev
              (some (rmnetVndDellink priv.muxId (port.delFound priv.muxId) ep))).setDev dev none)
            priv.realDev (rmnetVndDellink priv.muxId (port.delFound priv.muxId) ep)).1) := by
  unfold rmnetDellink at h
  split at h
  · exact .inl (Option.some.inj h).symm
  · rename_i priv hd
    split at h
    · exact .inl (Option.some.inj h).symm
    · rename_i port hport
      obtain ⟨⟨st₂, port₂⟩, hep, rfl⟩ := Option.map_eq_some_iff.mp h
      refine .inr ⟨priv, port, hd, hport, ?_⟩
      unfold dellinkEndpoint at hep
      split at hep
      · rename_i hnone
        cases hep
        exact .inl ⟨hnone, rfl⟩
      · rename_i ep hsome
        obtain ⟨st₁, hbridge, heq⟩ := Option.map_eq_some_iff.mp hep
        cases heq
        exact .inr ⟨ep, st₁, hsome, hbridge, rfl⟩

/-- The port of a real device without its endpoints, and what they counted for. -/
def LinkPort.cleared (port : LinkPort) : LinkPort :=
  let gone := port.endpoints.foldl (fun port ep => rmnetVndDellink ep.muxId port ep) port
  { gone with muxedEp := fun b => if b < maxLogicalEp then [] else gone.muxedEp b }

/-- The uplink state of a port is no part of what deletions write. -/
@[simp] theorem vndDellink_ul (id : ℕ) (port : LinkPort) (ep : RmnetEndpoint) :
    (rmnetVndDellink id port ep).ul = port.ul := by
  unfold rmnetVndDellink
  split <;> rfl

@[simp] theorem cleared_ul (port : LinkPort) : port.cleared.ul = port.ul := by
  have hfold : ∀ (eps : List RmnetEndpoint) (port : LinkPort),
      (eps.foldl (fun port ep => rmnetVndDellink ep.muxId port ep) port).ul = port.ul := by
    intro eps
    induction eps with
    | nil => exact fun _ => rfl
    | cons ep eps ih =>
      intro port
      rw [List.foldl_cons, ih, vndDellink_ul]
  exact hfold port.endpoints port

/-- `rmnet_force_unassociate_device` on a registered device. -/
theorem forceUnassociate_cases {r : ℕ} (h : rmnetForceUnassociateDevice st r = some st') :
    (st.ports r = none ∧ st' = st) ∨ ∃ port st₁, st.ports r = some port ∧ rmnetUnregisterBridge st port = some st₁ ∧
      st' = (rmnetUnregisterRealDevice
        { st₁.setPort r (some port.cleared) with
          devs := fun dev => if dev ∈ port.endpoints.filterMap RmnetEndpoint.egressDev then none
            else st₁.devs dev } r port.cleared).1 := by
  unfold rmnetForceUnassociateDevice at h
  split at h
  · rename_i hport
    exact .inl ⟨hport, (Option.some.inj h).symm⟩
  · rename_i port hport
    obtain ⟨st₁, hbridge, rfl⟩ := Option.map_eq_some_iff.mp h
    exact .inr ⟨port, st₁, hport, hbridge, rfl⟩

end

end Rmnet
