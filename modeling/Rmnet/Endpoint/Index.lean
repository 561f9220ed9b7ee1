import Rmnet.Endpoint.FlowControl
import Rmnet.Link.Bridge

/-!
# Is every index of the endpoint table in the table?

The link requests look up `priv->mux_id`, or a mux id that `rmnet_rtnl_validate` has let pass; in a run of such
requests the mux ids of all devices are in the table.  With the received frames and the flow-control messages that
makes everything that indexes `muxed_ep` from outside.

* `MuxIdsInTable.step`, `tableReq_within` — the requests;
* `endpoint_index_iff` — frames and requests stay in the table, and when a flow-control message does.
-/

namespace Rmnet

open Word Probe Transition

/-! ### The lookups of link requests -/

/-- `rmnet_get_endpoint`. -/
def rmnetGetEndpointProbed (port : LinkPort) (muxId : ℕ) : Probed ℕ (Option RmnetEndpoint) := do
  let bucket ← probe port.muxedEp muxId
  pure (bucket.find? fun ep => ep.muxId = muxId)

/-- `hlist_add_head_rcu` to the bucket of `muxId`. -/
def LinkPort.addHeadProbed (port : LinkPort) (muxId : ℕ) (ep : RmnetEndpoint) : Probed ℕ LinkPort := do
  let bucket ← probe port.muxedEp muxId
  pure { port with muxedEp := Function.update port.muxedEp muxId (ep :: bucket) }

/-- `rmnet_register_real_device`, with the loop over `INIT_HLIST_HEAD`. -/
def rmnetRegisterRealDeviceProbed (env : LinkEnv) (st : LinkState) (realDev : ℕ) : Probed ℕ (LinkState × ℤ) :=
  if rmnetIsRealDevRegistered st realDev then pure (st, 0)
  else if !env.portAlloc then pure (st, -enomem)
  else if !env.rxHandlerRegister then pure (st, -ebusy)
  else do
    probeAll (List.range maxLogicalEp)
    pure (st.setPort realDev (some newPort), env.descriptorInit)

/-- `rmnet_vnd_newlink`. -/
def rmnetVndNewlinkProbed (env : LinkEnv) (id : ℕ) (dev realDev : ℕ) (port : LinkPort) (ep : RmnetEndpoint) :
    Probed ℕ ((LinkPort × RmnetEndpoint × Option RmnetPriv) × ℤ) :=
  if ep.egressDev.isSome then pure ((port, ep, none), -einval)
  else do
    let found ← rmnetGetEndpointProbed port id
    pure (
      if found.isSome then ((port, ep, none), -ebusy)
      else if env.registerNetdevice ≠ 0 then ((port, ep, none), env.registerNetdevice)
      else
        (({ port with nrRmnetDevs := u8 (port.nrRmnetDevs + 1) }, { muxId := id, egressDev := some dev },
          some { realDev := realDev, muxId := id,
                 qosInfo := if env.qosAlloc then some (qmiRmnetQosInit id env.numTxQueues fun _ => false)
                   else none }), 0))

/-- `rmnet_newlink`. -/
def rmnetNewlinkProbed (env : LinkEnv) (st : LinkState) (dev : ℕ) (data : LinkAttrs) : Probed ℕ (LinkState × ℤ) :=
  match data.link, data.muxId with
  | none, _ => pure (st, -enodev)
  | some _, none => pure (st, -einval)
  | some realDev, some muxId =>
      if !env.epAlloc then pure (st, -enomem)
      else do
        let (st, err) ← rmnetRegisterRealDeviceProbed env st realDev
        if err ≠ 0 then pure (st, err)
        else
          match st.ports realDev with
          | none => pure (st, 0)
          | some outer => do
              match ← rmnetVndNewlinkProbed env (u8 muxId) dev realDev outer {} with
              | ((port, ep, priv), 0) => do
                  let port ← ({ port with rmnetMode := rmnetEpmodeVnd } : LinkPort).addHeadProbed muxId ep
                  let port := (port.setFlags data.flags).setAggParams data.ulAggParams
                  pure ((st.setPort realDev (some port)).setDev dev priv, 0)
              | ((_, _, _), err) => pure ((rmnetUnregisterRealDevice st realDev outer).1, err)

/-- The mux id part of `rmnet_changelink`. -/
def changeMuxIdProbed (port : LinkPort) (priv : RmnetPriv) : Option ℕ → Probed ℕ (Option (LinkPort × RmnetPriv))
  | none => pure (some (port, priv))
  | some muxId => do
      match ← rmnetGetEndpointProbed port priv.muxId with
      | none => pure none
      | some ep => do
          let port ← (port.delFound priv.muxId).addHeadProbed muxId { ep with muxId := u8 muxId }
          pure (some (port, { priv with muxId := u8 muxId }))

/-- `rmnet_changelink`. -/
def rmnetChangelinkProbed (env : LinkEnv) (st : LinkState) (dev : ℕ) (data : LinkAttrs) :
    Probed ℕ (LinkState × ℤ) :=
  match data.link, st.devs dev with
  | some realDev, some priv =>
      match st.ports realDev with
      | none => pure (st, -enodev)
      | some port => do
          match ← changeMuxIdProbed port priv data.muxId with
          | none => pure (st, -enodev)
          | some (port, priv) =>
              let port := port.setFlags data.flags
              let (cfg, port, qos) :=
                match data.dfcQos with
                | none => (st.cfg, port, priv.qosInfo)
                | some tcm => qmiRmnetChangeLink env st.cfg port priv.qosInfo tcm
              let port := port.updateAggConfig env.pages data.ulAggParams
              pure ((({ st with cfg := cfg } : LinkState).setPort realDev (some port)).setDev dev
                (some { priv with qosInfo := qos }), 0)
  | _, _ => pure (st, -enodev)

/-- The endpoint part of `rmnet_dellink`. -/
def dellinkEndpointProbed (st : LinkState) (priv : RmnetPriv) (port : LinkPort) :
    Probed ℕ (Option (LinkState × LinkPort)) := do
  match ← rmnetGetEndpointProbed port priv.muxId with
  | none => pure (some (st, port))
  | some ep =>
      let port := port.delFound priv.muxId
      pure ((rmnetUnregisterBridge (st.setPort priv.realDev (some port)) port).map fun st =>
        let port := rmnetVndDellink priv.muxId port ep
        (st.setPort priv.realDev (some port), port))

/-- `rmnet_dellink`. -/
def rmnetDellinkProbed (st : LinkState) (dev : ℕ) : Probed ℕ (Option LinkState) :=
  match st.devs dev with
  | none => pure (some st)
  | some priv =>
      match st.ports priv.realDev with
      | none => pure (some st)
      | some port => do
          let left ← dellinkEndpointProbed st priv port
          pure (left.map fun (st, port) =>
            (rmnetUnregisterRealDevice (st.setDev dev none) priv.realDev port).1)

/-- `rmnet_force_unassociate_device`, with its loop over the table. -/
def rmnetForceUnassociateDeviceProbed (st : LinkState) (realDev : ℕ) : Probed ℕ (Option LinkState) :=
  match st.ports realDev with
  | none => pure (some st)
  | some _ => do
      probeAll (List.range maxLogicalEp)
      pure (rmnetForceUnassociateDevice st realDev)

/-- `rmnet_add_bridge`. -/
def rmnetAddBridgeProbed (env : LinkEnv) (st : LinkState) (rmnetDev slaveDev : ℕ) :
    Probed ℕ (Option (LinkState × ℤ)) :=
  match st.devs rmnetDev with
  | none => pure (some (st, 0))
  | some priv =>
      match st.ports priv.realDev with
      | none => pure none
      | some port =>
          if 1 < port.nrRmnetDevs then pure (some (st, -einval))
          else if rmnetIsRealDevRegistered st slaveDev then pure (some (st, -ebusy))
          else do
            let (st, err) ← rmnetRegisterRealDeviceProbed env st slaveDev
            if err ≠ 0 then pure (some (st, -ebusy))
            else
              let st := st.setBridge slaveDev rmnetEpmodeBridge (some priv.realDev)
              pure (some (st.setBridge priv.realDev rmnetEpmodeBridge (some slaveDev), 0))

/-! ### The values -/

section

variable (env : LinkEnv) (st : LinkState)

theorem rmnetGetEndpointProbed_value (port : LinkPort) (muxId : ℕ) :
    value (rmnetGetEndpointProbed port muxId) = rmnetGetEndpoint port muxId := rfl

theorem rmnetRegisterRealDeviceProbed_value (realDev : ℕ) :
    value (rmnetRegisterRealDeviceProbed env st realDev) = rmnetRegisterRealDevice env st realDev := by
  unfold rmnetRegisterRealDeviceProbed rmnetRegisterRealDevice
  simp only [value_ite, value_bind, value_pure]

theorem rmnetVndNewlinkProbed_value (id dev realDev : ℕ) (port : LinkPort) (ep : RmnetEndpoint) :
    value (rmnetVndNewlinkProbed env id dev realDev port ep) = rmnetVndNewlink env id dev realDev port ep := by
  unfold rmnetVndNewlinkProbed rmnetVndNewlink
  rw [value_ite]
  rfl

theorem rmnetNewlinkProbed_value (dev : ℕ) (data : LinkAttrs) :
    value (rmnetNewlinkProbed env st dev data) = rmnetNewlink env st dev data := by
  unfold rmnetNewlinkProbed rmnetNewlink
  cases data.link with
  | none => rfl
  | some realDev =>
    cases data.muxId with
    | none => rfl
    | some muxId =>
      simp only [value_ite, value_bind, value_pure, rmnetRegisterRealDeviceProbed_value]
      congr 1
      obtain ⟨st₁, err⟩ := rmnetRegisterRealDevice env st realDev
      simp only
      congr 1
      cases st₁.ports realDev with
      | none => rfl
      | some port =>
        simp only [value_bind, rmnetVndNewlinkProbed_value]
        obtain ⟨⟨port', ep, priv⟩, (_ | n) | n⟩ := rmnetVndNewlink env (u8 muxId) dev realDev port {}
        · rfl
        · rfl
        · rfl

theorem changeMuxIdProbed_value (port : LinkPort) (priv : RmnetPriv) (muxId : Option ℕ) :
    value (changeMuxIdProbed port priv muxId) = changeMuxId port priv muxId := by
  cases muxId with
  | none => rfl
  | some muxId =>
    unfold changeMuxIdProbed changeMuxId
    simp only [value_bind, rmnetGetEndpointProbed_value]
    cases rmnetGetEndpoint port priv.muxId with
    | none => rfl
    | some ep => rfl

theorem rmnetChangelinkProbed_value (dev : ℕ) (data : LinkAttrs) :
    value (rmnetChangelinkProbed env st dev data) = rmnetChangelink env st dev data := by
  unfold rmnetChangelinkProbed rmnetChangelink
  cases data.link with
  | none => rfl
  | some realDev =>
    cases st.devs dev with
    | none => rfl
    | some priv =>
      simp only
      cases st.ports realDev with
      | none => rfl
      | some port =>
        simp only [value_bind, changeMuxIdProbed_value]
        cases changeMuxId port priv data.muxId with
        | none => rfl
        | some res => rfl

theorem dellinkEndpointProbed_value (priv : RmnetPriv) (port : LinkPort) :
    value (dellinkEndpointProbed st priv port) = dellinkEndpoint st priv port := by
  unfold dellinkEndpointProbed dellinkEndpoint
  rw [value_bind, rmnetGetEndpointProbed_value]
  cases rmnetGetEndpoint port priv.muxId with
  | none => rfl
  | some ep => rfl

theorem rmnetDellinkProbed_value (dev : ℕ) : value (rmnetDellinkProbed st dev) = rmnetDellink st dev := by
  unfold rmnetDellinkProbed rmnetDellink
  cases st.devs dev with
  | none => rfl
  | some priv =>
    simp only
    cases st.ports priv.realDev with
    | none => rfl
    | some port => simp only [value_bind, value_pure, dellinkEndpointProbed_value]

theorem rmnetForceUnassociateDeviceProbed_value (realDev : ℕ) :
    value (rmnetForceUnassociateDeviceProbed st realDev) = rmnetForceUnassociateDevice st realDev := by
  unfold rmnetForceUnassociateDeviceProbed
  cases hport : st.ports realDev with
  | none =>
    unfold rmnetForceUnassociateDevice
    rw [hport]
    rfl
  | some port => rfl

theorem rmnetAddBridgeProbed_value (rmnetDev slaveDev : ℕ) :
    value (rmnetAddBridgeProbed env st rmnetDev slaveDev) = rmnetAddBridge env st rmnetDev slaveDev := by
  unfold rmnetAddBridgeProbed rmnetAddBridge
  cases st.devs rmnetDev with
  | none => rfl
  | some priv =>
    simp only
    cases st.ports priv.realDev with
    | none => rfl
    | some port =>
      simp only [value_ite, value_bind, value_pure, rmnetRegisterRealDeviceProbed_value]

end

/-! ### Runs of requests -/

/-- A link request, with the flow-control activity in between, on any real devices. -/
inductive TableReq
  | link (l : LinkLabel)
  | addBridge (env : LinkEnv) (rmnetDev slaveDev : ℕ)
  | delBridge (rmnetDev slaveDev : ℕ)

/-- The attributes have passed `rmnet_rtnl_validate`, which no other request goes through. -/
def TableReq.Validated : TableReq → Prop
  | .link (.newlink _ _ data) => rmnetRtnlValidate data = 0
  | .link (.changelink _ _ data) => rmnetRtnlValidate data = 0
  | _ => True

/-- The request, with no result where it dereferences NULL; flow control changes the qos data of a device. -/
def tableReqProbed (st : LinkState) : TableReq → Probed ℕ (Option LinkState)
  | .link (.newlink env dev data) => (fun res => some res.1) <$> rmnetNewlinkProbed env st dev data
  | .link (.changelink env dev data) => (fun res => some res.1) <$> rmnetChangelinkProbed env st dev data
  | .link (.dellink dev) => rmnetDellinkProbed st dev
  | .link (.forceUnassociate dev) => rmnetForceUnassociateDeviceProbed st dev
  | .link (.dfc dev e) => pure (some (st.setDev dev ((st.devs dev).map fun priv =>
      { priv with qosInfo := priv.qosInfo.map fun qos => dfcEventQos st.cfg qos e })))
  | .addBridge env rmnetDev slaveDev => Option.map Prod.fst <$> rmnetAddBridgeProbed env st rmnetDev slaveDev
  | .delBridge rmnetDev slaveDev => pure (rmnetDelBridge st rmnetDev slaveDev)

/-- One request that has a result. -/
def TableStep (st : LinkState) (q : TableReq) (st' : LinkState) : Prop :=
  q.Validated ∧ value (tableReqProbed st q) = some st'

/-- The steps of a run on one real device are such requests. -/
theorem LinkStep.table {r : ℕ} {st st' : LinkState} {l : LinkLabel} (h : LinkStep r st l st') :
    TableStep st (.link l) st' := by
  cases h with
  | newlink env dev data _ _ hval =>
    refine ⟨hval, ?_⟩
    rw [tableReqProbed, value_map, rmnetNewlinkProbed_value]
  | changelink env dev data hval =>
    refine ⟨hval, ?_⟩
    rw [tableReqProbed, value_map, rmnetChangelinkProbed_value]
  | dellink dev hs => exact ⟨trivial, (rmnetDellinkProbed_value st dev).trans hs⟩
  | forceUnassociate dev hs => exact ⟨trivial, (rmnetForceUnassociateDeviceProbed_value st dev).trans hs⟩
  | dfc dev e priv qos hd hq =>
    refine ⟨trivial, ?_⟩
    rw [tableReqProbed, value_pure, hd]
    simp only [Option.map_some, hq]

/-- The mux ids of all devices are in the table. -/
def MuxIdsInTable (st : LinkState) : Prop := ∀ d priv, st.devs d = some priv → InTable priv.muxId

section

variable {st st' : LinkState}

theorem MuxIdsInTable.congr (h : MuxIdsInTable st) (hdevs : st'.devs = st.devs) : MuxIdsInTable st' := by
  unfold MuxIdsInTable
  rw [hdevs]
  exact h

theorem MuxIdsInTable.setDev (h : MuxIdsInTable st) (d : ℕ) {o : Option RmnetPriv}
    (ho : ∀ priv, o = some priv → InTable priv.muxId) : MuxIdsInTable (st.setDev d o) := by
  intro c priv hc
  rw [setDev_devs] at hc
  by_cases hcd : c = d
  · rw [hcd, Function.update_self] at hc
    exact ho priv hc
  · rw [Function.update_of_ne hcd] at hc
    exact h c priv hc

theorem registerRealDevice_devs (env : LinkEnv) (st : LinkState) (realDev : ℕ) :
    (rmnetRegisterRealDevice env st realDev).1.devs = st.devs := by
  unfold rmnetRegisterRealDevice
  split
  · rfl
  · split
    · rfl
    · split
      · rfl
      · rfl

theorem setBridge_devs (st : LinkState) (realDev mode : ℕ) (bridgeEp : Option ℕ) :
    (st.setBridge realDev mode bridgeEp).devs = st.devs := by
  unfold LinkState.setBridge
  split
  · rfl
  · rfl

theorem validate_inTable {data : LinkAttrs} (hval : rmnetRtnlValidate data = 0) {muxId : ℕ}
    (hm : data.muxId = some muxId) : InTable muxId ∧ u8 muxId = muxId :=
  validate_muxId hval hm

theorem MuxIdsInTable.newlink (h : MuxIdsInTable st) (env : LinkEnv) (dev : ℕ) {data : LinkAttrs}
    (hval : rmnetRtnlValidate data = 0) : MuxIdsInTable (rmnetNewlink env st dev data).1 := by
  unfold rmnetNewlink
  split
  · exact h
  · exact h
  · rename_i realDev muxId _ hm
    obtain ⟨hlt, hu8⟩ := validate_inTable hval hm
    split
    · exact h
    · have h₁ : MuxIdsInTable (rmnetRegisterRealDevice env st realDev).1 :=
        h.congr (registerRealDevice_devs env st realDev)
      generalize rmnetRegisterRealDevice env st realDev = res at h₁ ⊢
      obtain ⟨st₁, err⟩ := res
      simp only at h₁ ⊢
      split
      · exact h₁
      · split
        · exact h₁
        · rename_i port _
          rw [hu8]
          rcases vndNewlink_cases env muxId dev realDev port with ⟨err', herr, heq⟩ | ⟨-, qos, -, heq⟩
          · rw [heq]
            split
            · rename_i hzero
              exact absurd (congrArg Prod.snd hzero) herr
            · exact h₁.congr (unregisterRealDevice_devs st₁ realDev port)
          · rw [heq]
            refine (h₁.congr (setPort_devs st₁ realDev _)).setDev dev ?_
            rintro priv ⟨⟩
            exact hlt

theorem changeMuxId_inTable {port port' : LinkPort} {priv priv' : RmnetPriv} {data : LinkAttrs}
    (hval : rmnetRtnlValidate data = 0) (hpriv : InTable priv.muxId)
    (hc : changeMuxId port priv data.muxId = some (port', priv')) : InTable priv'.muxId := by
  cases hm : data.muxId with
  | none =>
    rw [hm] at hc
    cases hc
    exact hpriv
  | some muxId =>
    obtain ⟨hlt, hu8⟩ := validate_inTable hval hm
    rw [hm, changeMuxId] at hc
    split at hc
    · cases hc
    · cases hc
      exact hu8.symm ▸ hlt

theorem MuxIdsInTable.changelink (h : MuxIdsInTable st) (env : LinkEnv) (dev : ℕ) {data : LinkAttrs}
    (hval : rmnetRtnlValidate data = 0) : MuxIdsInTable (rmnetChangelink env st dev data).1 := by
  unfold rmnetChangelink
  split
  · rename_i realDev priv _ hdev
    split
    · exact h
    · split
      · exact h
      · rename_i port' priv' hchange
        have hin : InTable priv'.muxId := changeMuxId_inTable hval (h dev priv hdev) hchange
        refine MuxIdsInTable.setDev (h.congr rfl) dev ?_
        rintro _ ⟨⟩
        exact hin
  · exact h

theorem MuxIdsInTable.delDev (h : MuxIdsInTable st) (dev : ℕ) : MuxIdsInTable (st.setDev dev none) :=
  h.setDev dev fun _ hnone => absurd hnone.symm (Option.some_ne_none _)

theorem MuxIdsInTable.dellink (h : MuxIdsInTable st) {dev : ℕ} (hs : rmnetDellink st dev = some st') :
    MuxIdsInTable st' := by
  rcases dellink_cases hs with rfl | ⟨priv, port, -, -, ⟨-, rfl⟩ | ⟨ep, st₁, -, hbridge, rfl⟩⟩
  · exact h
  · exact (h.delDev dev).congr (unregisterRealDevice_devs ..)
  · have hfound : MuxIdsInTable (st.setPort priv.realDev (some (port.delFound priv.muxId))) := h.congr rfl
    have h₁ : MuxIdsInTable st₁ := hfound.congr (unregisterBridge_devs hbridge)
    have h₂ := (h₁.congr (setPort_devs st₁ priv.realDev
      (some (rmnetVndDellink priv.muxId (port.delFound priv.muxId) ep)))).delDev dev
    exact h₂.congr (unregisterRealDevice_devs ..)

theorem MuxIdsInTable.forceUnassociate (h : MuxIdsInTable st) {realDev : ℕ}
    (hs : rmnetForceUnassociateDevice st realDev = some st') : MuxIdsInTable st' := by
  rcases forceUnassociate_cases hs with ⟨-, rfl⟩ | ⟨port, st₁, -, hbridge, rfl⟩
  · exact h
  · refine MuxIdsInTable.congr (fun d priv hd => ?_) (unregisterRealDevice_devs _ realDev _)
    simp only [unregisterBridge_devs hbridge] at hd
    split at hd
    · cases hd
    · exact h d priv hd

theorem addBridge_devs {env : LinkEnv} {rmnetDev slaveDev : ℕ} {res : LinkState × ℤ}
    (hs : rmnetAddBridge env st rmnetDev slaveDev = some res) : res.1.devs = st.devs := by
  have hreg := registerRealDevice_devs env st slaveDev
  unfold rmnetAddBridge at hs
  generalize rmnetRegisterRealDevice env st slaveDev = reg at hreg hs
  obtain ⟨st₁, err⟩ := reg
  split at hs
  · cases hs
    rfl
  · split at hs
    · cases hs
    · split at hs
      · cases hs
        rfl
      · split at hs
        · cases hs
          rfl
        · simp only at hs
          split at hs
          · cases hs
            exact hreg
          · cases hs
            rw [setBridge_devs, setBridge_devs]
            exact hreg

theorem delBridge_devs {rmnetDev slaveDev : ℕ} (hs : rmnetDelBridge st rmnetDev slaveDev = some st') :
    st'.devs = st.devs := by
  unfold rmnetDelBridge at hs
  split at hs
  · cases hs
    rfl
  · split at hs
    · cases hs
    · obtain ⟨slavePort, -, rfl⟩ := Option.map_eq_some_iff.mp hs
      exact unregisterRealDevice_devs ..

/-- **One request.** -/
theorem MuxIdsInTable.step (h : MuxIdsInTable st) {q : TableReq} (hs : TableStep st q st') : MuxIdsInTable st' := by
  obtain ⟨hval, hs⟩ := hs
  cases q with
  | link l =>
    cases l with
    | newlink env dev data =>
      rw [tableReqProbed, value_map, rmnetNewlinkProbed_value] at hs
      cases hs
      exact h.newlink env dev hval
    | changelink env dev data =>
      rw [tableReqProbed, value_map, rmnetChangelinkProbed_value] at hs
      cases hs
      exact h.changelink env dev hval
    | dellink dev => exact h.dellink ((rmnetDellinkProbed_value st dev).symm.trans hs)
    | forceUnassociate dev => exact h.forceUnassociate ((rmnetForceUnassociateDeviceProbed_value st dev).symm.trans hs)
    | dfc dev e =>
      cases hs
      refine h.setDev dev fun priv hpriv => ?_
      obtain ⟨priv', hd, rfl⟩ := Option.map_eq_some_iff.mp hpriv
      exact h dev priv' hd
  | addBridge env rmnetDev slaveDev =>
    rw [tableReqProbed, value_map, rmnetAddBridgeProbed_value] at hs
    obtain ⟨res, hres, rfl⟩ := Option.map_eq_some_iff.mp hs
    exact h.congr (addBridge_devs hres)
  | delBridge rmnetDev slaveDev => exact h.congr (delBridge_devs hs)

end

/-! ### The indices of a request -/

theorem range_inTable : ∀ i ∈ List.range maxLogicalEp, InTable i := fun _ hi => List.mem_range.mp hi

theorem register_within (env : LinkEnv) (st : LinkState) (realDev : ℕ) :
    Within InTable (rmnetRegisterRealDeviceProbed env st realDev) := by
  refine within_ite (fun _ => within_pure _) fun _ => within_ite (fun _ => within_pure _) fun _ =>
    within_ite (fun _ => within_pure _) fun _ => ?_
  rw [within_bind, within_probeAll]
  exact ⟨range_inTable, within_pure _⟩

theorem getEndpoint_within (port : LinkPort) {muxId : ℕ} (h : InTable muxId) :
    Within InTable (rmnetGetEndpointProbed port muxId) :=
  within_probe_bind h (within_pure _)

theorem addHead_within (port : LinkPort) {muxId : ℕ} (h : InTable muxId) (ep : RmnetEndpoint) :
    Within InTable (port.addHeadProbed muxId ep) :=
  within_probe_bind h (within_pure _)

theorem newlink_within (env : LinkEnv) (st : LinkState) (dev : ℕ) {data : LinkAttrs}
    (hval : rmnetRtnlValidate data = 0) : Within InTable (rmnetNewlinkProbed env st dev data) := by
  unfold rmnetNewlinkProbed
  split
  · exact within_pure _
  · exact within_pure _
  · rename_i realDev muxId _ hm
    obtain ⟨hlt, hu8⟩ := validate_inTable hval hm
    refine within_ite (fun _ => within_pure _) fun _ => ?_
    rw [within_bind]
    refine ⟨register_within env st realDev, within_ite (fun _ => within_pure _) fun _ => ?_⟩
    split
    · exact within_pure _
    · rw [within_bind, hu8]
      refine ⟨within_ite (fun _ => within_pure _) fun _ => ?_, ?_⟩
      · rw [within_bind]
        exact ⟨getEndpoint_within _ hlt, within_pure _⟩
      · split
        · rw [within_bind]
          exact ⟨addHead_within _ hlt _, within_pure _⟩
        · exact within_pure _

theorem changelink_within (env : LinkEnv) {st : LinkState} (h : MuxIdsInTable st) (dev : ℕ) {data : LinkAttrs}
    (hval : rmnetRtnlValidate data = 0) : Within InTable (rmnetChangelinkProbed env st dev data) := by
  unfold rmnetChangelinkProbed
  split
  · rename_i realDev priv _ hdev
    split
    · exact within_pure _
    · rw [within_bind]
      refine ⟨?_, ?_⟩
      · cases hm : data.muxId with
        | none => exact within_pure _
        | some muxId =>
          obtain ⟨hlt, -⟩ := validate_inTable hval hm
          rw [changeMuxIdProbed, within_bind]
          refine ⟨getEndpoint_within _ (h dev priv hdev), ?_⟩
          split
          · exact within_pure _
          · rw [within_bind]
            exact ⟨addHead_within _ hlt _, within_pure _⟩
      · split
        · exact within_pure _
        · exact within_pure _
  · exact within_pure _

theorem dellink_within {st : LinkState} (h : MuxIdsInTable st) (dev : ℕ) :
    Within InTable (rmnetDellinkProbed st dev) := by
  unfold rmnetDellinkProbed
  split
  · exact within_pure _
  · rename_i priv hdev
    split
    · exact within_pure _
    · rw [within_bind, dellinkEndpointProbed, within_bind]
      refine ⟨⟨getEndpoint_within _ (h dev priv hdev), ?_⟩, within_pure _⟩
      split
      · exact within_pure _
      · exact within_pure _

theorem forceUnassociate_within (st : LinkState) (realDev : ℕ) :
    Within InTable (rmnetForceUnassociateDeviceProbed st realDev) := by
  unfold rmnetForceUnassociateDeviceProbed
  split
  · exact within_pure _
  · rw [within_bind, within_probeAll]
    exact ⟨range_inTable, within_pure _⟩

theorem addBridge_within (env : LinkEnv) (st : LinkState) (rmnetDev slaveDev : ℕ) :
    Within InTable (rmnetAddBridgeProbed env st rmnetDev slaveDev) := by
  unfold rmnetAddBridgeProbed
  split
  · exact within_pure _
  · split
    · exact within_pure _
    · refine within_ite (fun _ => within_pure _) fun _ => within_ite (fun _ => within_pure _) fun _ => ?_
      rw [within_bind]
      exact ⟨register_within env st slaveDev, within_ite (fun _ => within_pure _) fun _ => within_pure _⟩

/-- **A link request.** -/
theorem tableReq_within {st : LinkState} (h : MuxIdsInTable st) {q : TableReq} (hval : q.Validated) :
    Within InTable (tableReqProbed st q) := by
  cases q with
  | link l =>
    cases l with
    | newlink env dev data => exact newlink_within env st dev hval
    | changelink env dev data => exact changelink_within env h dev hval
    | dellink dev => exact dellink_within h dev
    | forceUnassociate dev => exact forceUnassociate_within st dev
    | dfc dev e => exact within_pure _
  | addBridge env rmnetDev slaveDev => exact addBridge_within env st rmnetDev slaveDev
  | delBridge rmnetDev slaveDev => exact within_pure _

/-- The state that a run arrives at. -/
theorem tableRun_muxIds {h : List (LinkState × TableReq)} {st : LinkState} (hex : Exec LinkInit TableStep h st) :
    MuxIdsInTable st := by
  have hinv : ∀ t ∈ h.map Prod.fst ++ [st], MuxIdsInTable t :=
    hex.invariant (fun s hs d priv hd => absurd (hd.symm.trans (hs.devs d)) (Option.some_ne_none _))
      (fun s q _ hI hs (_ : True) => hI.step hs) fun _ _ => trivial
  exact hinv st (by simp)

/-! ### Everything that indexes the table -/

/-- What indexes the table from outside, with the state that it meets: a received buffer on one of the two paths, a
flow-control message, a link request. -/
inductive TableUse
  | mapFrames (behind : ℕ → UInt8) (fuel : ℕ) (port : RmnetPort) (skb : SkBuff)
  | fragFrames (port : RmnetPort) (skbs : List RxSkb)
  | flowControl (cfg : DfcConfig) (ignoreGrant : Bool) (host : DfcHost) (msg : DfcMessage)
  | request (st : LinkState) (q : TableReq)

/-- A request is validated and comes after a run of such requests; it need not have a result itself. -/
def TableUse.Occurs : TableUse → Prop
  | .request st q => q.Validated ∧ ∃ h, Exec LinkInit TableStep h st
  | _ => True

/-- In a flow-control message, every mux id that is not in the table stands behind one that is and has no device. -/
def TableUse.Guarded : TableUse → Prop
  | .flowControl _ _ host msg => BehindUnknown host.dev msg.muxIds
  | _ => True

section

variable (skipExthdr : Bytes → ℕ → ℕ → SkipExthdr)
  (dlCsum : RmnetPort → NetDevice → SkBuff → ℕ → RmnetPort × Bool)

/-- The indices of the table that are used. -/
def TableUse.indices : TableUse → List ℕ
  | .mapFrames behind fuel port skb => Probe.indices (mapIngressLoopProbed skipExthdr dlCsum behind fuel port skb)
  | .fragFrames port skbs => Probe.indices (rmnetFragIngressHandlerProbed port skbs)
  | .flowControl cfg ignoreGrant host msg => Probe.indices (dfcMessageProbed cfg ignoreGrant host msg)
  | .request st q => Probe.indices (tableReqProbed st q)

/-- **Exactly when the table is not left.**  Received buffers on both paths, and the requests of any run, use indices
of the table only; a flow-control message does exactly when it is guarded. -/
theorem endpoint_index_iff (u : TableUse) (hu : u.Occurs) :
    (∀ i ∈ u.indices skipExthdr dlCsum, InTable i) ↔ u.Guarded := by
  cases u with
  | mapFrames behind fuel port skb =>
    exact iff_of_true (mapIngressLoop_within skipExthdr dlCsum behind fuel port skb) trivial
  | fragFrames port skbs => exact iff_of_true (rmnetFragIngressHandler_within skbs port) trivial
  | flowControl cfg ignoreGrant host msg => exact dfcMessage_within_iff cfg ignoreGrant host msg
  | request st q =>
    obtain ⟨hval, h, hex⟩ := hu
    exact iff_of_true (tableReq_within (tableRun_muxIds hex) hval) trivial

end

theorem endpoint_index_oneLink :
    (TableUse.request oneLink (.link (.dellink 1))).Guarded ∧
      ∀ i ∈ (TableUse.request oneLink (.link (.dellink 1))).indices
        (fun _ _ _ => ⟨none, 0, 0⟩) (fun port _ _ _ => (port, false)), InTable i := by
  have hnew : LinkStep 0 bareLink (.newlink {} 1 (muxAttrs 1)) oneLink :=
    .newlink bareLink {} 1 (muxAttrs 1) rfl (by simp [muxAttrs]) rfl
  have hex : Exec LinkInit TableStep [(bareLink, .link (.newlink {} 1 (muxAttrs 1)))] oneLink :=
    (Exec.start ⟨fun _ => rfl, fun _ => rfl⟩).next hnew.table
  exact ⟨trivial, (endpoint_index_iff _ _ (.request oneLink (.link (.dellink 1))) ⟨trivial, _, hex⟩).mpr trivial⟩

/-- **Out of the table.**  An entry of a flow-status indication with the mux id 255, and an end-marker request with
it, are looked up behind the last bucket. -/
theorem endpoint_index_out :
    ¬ (∀ i ∈ (TableUse.flowControl qmapCfg false oneDevice
        (.flowStatus false { mixedInd with flowStatus := [grantEntry 255] })).indices
        (fun _ _ _ => ⟨none, 0, 0⟩) (fun port _ _ _ => (port, false)), InTable i) ∧
      ¬ ∀ i ∈ (TableUse.flowControl qmapCfg false oneDevice
        (.qmap true (.endMarker { muxId := 255, txId := 7, bearerId := 5, seqNum := 9 }))).indices
        (fun _ _ _ => ⟨none, 0, 0⟩) (fun port _ _ _ => (port, false)), InTable i := by
  have hout : ∀ msg : DfcMessage, msg.muxIds = [255] →
      ¬ Within InTable (dfcMessageProbed qmapCfg false oneDevice msg) := by
    intro msg hmsg h
    rw [dfcMessage_within_iff, hmsg, behindUnknown_cons] at h
    exact absurd h.1 (by decide)
  exact ⟨hout _ rfl, hout _ rfl⟩

end Rmnet
