import Rmnet.Link.MuxTable

/-!
# The mux tables of all real devices

Every registered real device has its own table, for the rmnet devices that are on it, whatever its bridge
does.  Each operation of the requests keeps all the tables, and the requests are described by what they
write.
-/

namespace Rmnet

open Word Transition Bucket

/-- The allocations of a request succeed; the descriptor pool fails for want of memory only. -/
structure LinkEnv.AllocsSucceed (env : LinkEnv) : Prop where
  ep : env.epAlloc = true
  port : env.portAlloc = true
  descriptors : env.descriptorInit = 0
  qos : env.qosAlloc = true

/-- The rmnet devices on one real device. -/
def devsOn (devs : ℕ → Option RmnetPriv) (r d : ℕ) : Option RmnetPriv :=
  (devs d).filter fun priv => priv.realDev = r

/-- A table says nothing about the bridge. -/
def LinkPort.unbridged (port : LinkPort) : LinkPort := { port with rmnetMode := rmnetEpmodeVnd }

/-- The port of a real device and its rmnet devices agree. -/
structure PortTable (devs : ℕ → Option RmnetPriv) (r : ℕ) (o : Option LinkPort) : Prop where
  table : ∀ port, o = some port → ∃ owner, MuxTable owner (devsOn devs r) port.unbridged
  unregistered : o = none → ∀ d, devsOn devs r d = none

/-- All real devices have a table. -/
def Tables (st : LinkState) : Prop := ∀ r, PortTable st.devs r (st.ports r)

section

variable {devs : ℕ → Option RmnetPriv} {st : LinkState} {r d : ℕ} {priv : RmnetPriv}

theorem devsOn_eq_some : devsOn devs r d = some priv ↔ devs d = some priv ∧ priv.realDev = r := by
  simp [devsOn, Option.filter_eq_some_iff]

theorem devsOn_eq_none : devsOn devs r d = none ↔ ∀ priv, devs d = some priv → priv.realDev ≠ r := by
  simp [devsOn, Option.filter_eq_none_iff]

/-- A device that is created on `r` is added there. -/
theorem devsOn_create (hreal : priv.realDev = r) :
    devsOn (Function.update devs d (some priv)) r = Function.update (devsOn devs r) d (some priv) := by
  funext c
  by_cases hc : c = d
  · rw [hc, Function.update_self, devsOn, Function.update_self]
    simp [hreal]
  · rw [Function.update_of_ne hc, devsOn, Function.update_of_ne hc, devsOn]

/-- A device that is deleted leaves everywhere. -/
theorem devsOn_delete : devsOn (Function.update devs d none) r = Function.update (devsOn devs r) d none := by
  funext c
  by_cases hc : c = d
  · rw [hc, Function.update_self, devsOn, Function.update_self]
    rfl
  · rw [Function.update_of_ne hc, devsOn, Function.update_of_ne hc, devsOn]

/-- On another real device nothing changes. -/
theorem devsOn_other {o : Option RmnetPriv} (hold : devsOn devs r d = none)
    (hnew : ∀ p, o = some p → p.realDev ≠ r) : devsOn (Function.update devs d o) r = devsOn devs r := by
  funext c
  by_cases hc : c = d
  · rw [hc, hold, devsOn_eq_none]
    intro p hp
    rw [Function.update_self] at hp
    exact hnew p hp
  · rw [devsOn, Function.update_of_ne hc, devsOn]

/-! ### One port is written -/

/-- A port is written, and its devices with it. -/
theorem Tables.write (h : Tables st) {st' : LinkState} {o : Option LinkPort}
    (hports : st'.ports = Function.update st.ports r o) (hr : PortTable st'.devs r o)
    (hother : ∀ r', r' ≠ r → devsOn st'.devs r' = devsOn st.devs r') : Tables st' := by
  intro r'
  rw [hports]
  by_cases hr' : r' = r
  · subst hr'
    rw [Function.update_self]
    exact hr
  · rw [Function.update_of_ne hr']
    refine ⟨?_, ?_⟩
    · rw [hother r' hr']
      exact (h r').table
    · rw [hother r' hr']
      exact (h r').unregistered

/-- A registered device has a port. -/
theorem Tables.registered (h : Tables st) (hd : st.devs d = some priv) :
    ∃ port owner, st.ports priv.realDev = some port ∧
      MuxTable owner (devsOn st.devs priv.realDev) port.unbridged ∧
      devsOn st.devs priv.realDev d = some priv := by
  have hon : devsOn st.devs priv.realDev d = some priv := devsOn_eq_some.mpr ⟨hd, rfl⟩
  cases hport : st.ports priv.realDev with
  | none =>
    rw [(h priv.realDev).unregistered hport d] at hon
    cases hon
  | some port =>
    obtain ⟨owner, htable⟩ := (h priv.realDev).table port hport
    exact ⟨port, owner, rfl, htable, hon⟩

/-- The bridge fields are no part of a table. -/
theorem Tables.setPort (h : Tables st) {port port' : LinkPort} (hport : st.ports r = some port)
    (hep : port'.muxedEp = port.muxedEp) (hnr : port'.nrRmnetDevs = port.nrRmnetDevs) :
    Tables (st.setPort r (some port')) := by
  refine h.write rfl ⟨?_, nofun⟩ fun _ _ => rfl
  rintro p ⟨⟩
  obtain ⟨owner, htable⟩ := (h r).table port hport
  exact ⟨owner, htable.congr hep hnr rfl fun _ _ => Iff.rfl⟩

theorem Tables.setBridge (h : Tables st) (r mode : ℕ) (ep : Option ℕ) : Tables (st.setBridge r mode ep) := by
  unfold LinkState.setBridge
  split
  · exact h
  · rename_i port hport
    exact h.setPort hport rfl rfl

/-- A device is registered with an empty table. -/
theorem Tables.register (h : Tables st) (hr : st.ports r = none) : Tables (st.setPort r (some newPort)) := by
  refine h.write rfl ⟨?_, nofun⟩ fun _ _ => rfl
  rintro p ⟨⟩
  exact ⟨fun _ => none, muxTable_empty rfl rfl (by simp [LinkPort.unbridged, rmnetEpmodeVnd, rmnetEpmodeBridge])
    ((h r).unregistered hr)⟩

/-- A port goes only when it has no devices. -/
theorem Tables.unregister (h : Tables st) {port : LinkPort} (hport : st.ports r = some port) :
    Tables (rmnetUnregisterRealDevice st r port).1 := by
  unfold rmnetUnregisterRealDevice
  split
  · exact h
  · rename_i hnr
    refine h.write rfl ⟨?_, fun _ => ?_⟩ fun _ _ => rfl
    · intro port' hport'
      cases hport'
    · obtain ⟨owner, htable⟩ := (h r).table port hport
      exact htable.no_devs (not_not.mp hnr)

theorem Tables.unregisterBridge (h : Tables st) {st' : LinkState} {port : LinkPort}
    (hs : rmnetUnregisterBridge st port = some st') : Tables st' := by
  rcases unregisterBridge_cases hs with rfl | ⟨d, bridgePort, hd, rfl | rfl⟩
  · exact h
  · exact h.setPort hd rfl rfl
  · exact h.unregister hd

/-! ### The operations by what they write -/

theorem unregister_refused (st : LinkState) (r : ℕ) {port : LinkPort} (hnr : port.nrRmnetDevs ≠ 0) :
    rmnetUnregisterRealDevice st r port = (st, -einval) := if_pos hnr

theorem unregister_done (st : LinkState) (r : ℕ) {port : LinkPort} (hnr : port.nrRmnetDevs = 0) :
    rmnetUnregisterRealDevice st r port = (st.setPort r none, 0) := if_neg (not_not.mpr hnr)

theorem register_registered (env : LinkEnv) {port : LinkPort} (hr : st.ports r = some port) :
    rmnetRegisterRealDevice env st r = (st, 0) := by
  rw [rmnetRegisterRealDevice, rmnetIsRealDevRegistered, hr]
  rfl

/-- A fresh device is registered, or the kernel refuses it. -/
theorem register_fresh {env : LinkEnv} (halloc : env.AllocsSucceed) (hr : st.ports r = none) :
    rmnetRegisterRealDevice env st r =
      if env.rxHandlerRegister then (st.setPort r (some newPort), 0) else (st, -ebusy) := by
  rw [rmnetRegisterRealDevice, rmnetIsRealDevRegistered, hr, halloc.port, halloc.descriptors]
  cases env.rxHandlerRegister <;> rfl

/-! ### Link creation -/

/-- What `rmnet_newlink` writes to the port for the device `dev` with the mux id `m`. -/
structure LinkPort.Created (port port' : LinkPort) (m dev : ℕ) : Prop where
  table : port'.muxedEp
    = Function.update port.muxedEp m ({ muxId := m, egressDev := some dev } :: port.muxedEp m)
  nr : port'.nrRmnetDevs = u8 (port.nrRmnetDevs + 1)
  mode : port'.rmnetMode = rmnetEpmodeVnd
  bridge : port'.bridgeEp = port.bridgeEp

variable {env : LinkEnv} {m : ℕ} {data : LinkAttrs} {port : LinkPort} (dev : ℕ)

/-- On a fresh device the port is registered first. -/
theorem newlink_fresh (halloc : env.AllocsSucceed) (hl : data.link = some r) (hm : data.muxId = some m)
    (hr : st.ports r = none) : rmnetNewlink env st dev data =
      if env.rxHandlerRegister then rmnetNewlink env (st.setPort r (some newPort)) dev data
      else (st, -ebusy) := by
  have hnew : (st.setPort r (some newPort)).ports r = some newPort := setPort_ports_self ..
  unfold rmnetNewlink
  simp only [hl, hm, halloc.ep, Bool.not_true, Bool.false_eq_true, if_false]
  rw [register_fresh halloc hr, register_registered env hnew]
  cases env.rxHandlerRegister with
  | true => rfl
  | false =>
    simp only [Bool.false_eq_true, if_false]
    exact if_pos (by simp [ebusy])

/-- On a registered device the mux id or `register_netdevice` may fail, which takes the port away if it has no
rmnet device; otherwise the device is created. -/
theorem newlink_registered (halloc : env.AllocsSucceed) (hval : rmnetRtnlValidate data = 0)
    (hl : data.link = some r) (hm : data.muxId = some m) (hr : st.ports r = some port) :
    ((rmnetGetEndpoint port m).isSome ∨ env.registerNetdevice ≠ 0 →
      (rmnetNewlink env st dev data).1 = (rmnetUnregisterRealDevice st r port).1) ∧
    (rmnetGetEndpoint port m = none → env.registerNetdevice = 0 →
      ∃ port' priv, port.Created port' m dev ∧ priv.realDev = r ∧ priv.muxId = m ∧
        (rmnetNewlink env st dev data).1 = (st.setPort r (some port')).setDev dev (some priv)) := by
  obtain ⟨-, hu8⟩ := validate_muxId hval hm
  unfold rmnetNewlink
  simp only [hl, hm, halloc.ep, Bool.not_true, Bool.false_eq_true, if_false]
  rw [register_registered env hr]
  simp only [ne_eq, not_true_eq_false, if_false, hr, hu8]
  constructor
  · intro hfail
    have hvnd : ∃ err, err ≠ 0 ∧ rmnetVndNewlink env m dev r port {} = ((port, {}, none), err) := by
      unfold rmnetVndNewlink
      simp only [Option.isSome_none, Bool.false_eq_true, if_false]
      by_cases hep : (rmnetGetEndpoint port m).isSome = true
      · rw [if_pos hep]
        exact ⟨-ebusy, by simp [ebusy], rfl⟩
      · rw [if_neg hep, if_pos (hfail.resolve_left hep)]
        exact ⟨_, hfail.resolve_left hep, rfl⟩
    obtain ⟨err, herr, hvnd⟩ := hvnd
    rw [hvnd]
    split
    · rename_i h0
      simp only [Prod.mk.injEq] at h0
      exact absurd h0.2 herr
    · rfl
  · intro hfree hreg
    have hvnd : ∃ qos, rmnetVndNewlink env m dev r port {} =
        (({ port with nrRmnetDevs := u8 (port.nrRmnetDevs + 1) }, { muxId := m, egressDev := some dev },
          some { realDev := r, muxId := m, qosInfo := qos }), 0) := by
      unfold rmnetVndNewlink
      simp only [Option.isSome_none, Bool.false_eq_true, if_false]
      rw [hfree, hreg]
      exact ⟨_, rfl⟩
    obtain ⟨qos, hvnd⟩ := hvnd
    rw [hvnd]
    simp only
    set counted : LinkPort :=
      { port with nrRmnetDevs := u8 (port.nrRmnetDevs + 1), rmnetMode := rmnetEpmodeVnd }
    set added := counted.addHead m { muxId := m, egressDev := some dev }
    obtain ⟨ul₁, h₁⟩ := setFlags_table added data.flags
    obtain ⟨ul₂, h₂⟩ := setAggParams_table (added.setFlags data.flags) data.ulAggParams
    rw [h₂, h₁]
    exact ⟨{ added with ul := ul₂ }, { realDev := r, muxId := m, qosInfo := qos }, ⟨rfl, rfl, rfl, rfl⟩, rfl,
      rfl, rfl⟩

/-- A created device has its place in the table of its port. -/
theorem Tables.create (h : Tables st) {dev : ℕ} {port' : LinkPort} (hdev : st.devs dev = none)
    (hr : st.ports r = some port) (hm : m < maxLogicalEp) (hfree : rmnetGetEndpoint port m = none)
    (hport' : port.Created port' m dev) (hreal : priv.realDev = r) (hid : priv.muxId = m) :
    Tables ((st.setPort r (some port')).setDev dev (some priv)) := by
  obtain ⟨owner, htable⟩ := (h r).table port hr
  have hnone : ∀ r', devsOn st.devs r' dev = none := by
    intro r'
    rw [devsOn, hdev]
    rfl
  refine h.write (o := some port') rfl ⟨?_, nofun⟩ fun r' hr' => ?_
  · rintro p ⟨⟩
    rw [setDev_devs, setPort_devs, devsOn_create hreal]
    have hown : owner m = none := htable.get_none.mp hfree
    exact ⟨_, htable.add hm hown (hnone r) hid hport'.table hport'.nr rfl⟩
  · rw [setDev_devs, setPort_devs]
    refine devsOn_other (hnone r') ?_
    rintro p ⟨⟩ hp
    exact hr' (hp.symm.trans hreal)

end

end Rmnet
