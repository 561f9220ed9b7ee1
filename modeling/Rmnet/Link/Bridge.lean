import Rmnet.Lib.Pairing
import Rmnet.Link.Tables

/-!
# Bridges

`rmnet_add_bridge` registers a slave device and makes its port and the port of the rmnet device name each
other.  The pair is a `Pairing` of the real devices: `rmnet_dellink` and `rmnet_force_unassociate_device`
dissolve it through `rmnet_unregister_bridge`, `rmnet_del_bridge` on its own.

Three requests do not look at the pair they touch.  `rmnet_newlink` writes the mode of a port that is in a
bridge and leaves its `bridge_ep` (`bridge_broken`), `rmnet_add_bridge` writes a second slave over the first,
and `rmnet_del_bridge` removes the device it is given, whoever its peer is, through the port that it does not have
if it is not registered.  `bridge_symmetric_iff` says that these are all: the pairing is symmetric throughout a run
exactly when no request of it does one of the three.
-/

namespace Rmnet

open Word Transition Pairing

/-! ### Runs -/

/-- The requests. -/
inductive BridgeReq
  | newlink (env : LinkEnv) (dev : ℕ) (data : LinkAttrs)
  | dellink (dev : ℕ)
  | addBridge (env : LinkEnv) (rmnetDev slaveDev : ℕ)
  | delBridge (rmnetDev slaveDev : ℕ)
  | forceUnassociate (realDev : ℕ)

/-- One request; the state is `none` once `NULL` has been dereferenced.  The attributes have passed
`rmnet_rtnl_validate`, and `rmnet_newlink` gets a device that is not registered yet. -/
inductive BridgeStep : Option LinkState → BridgeReq → Option LinkState → Prop
  | newlink (st : LinkState) (env : LinkEnv) (dev : ℕ) (data : LinkAttrs) :
      env.AllocsSucceed → st.devs dev = none → rmnetRtnlValidate data = 0 →
      BridgeStep (some st) (.newlink env dev data) (some (rmnetNewlink env st dev data).1)
  | dellink (st : LinkState) (dev : ℕ) : BridgeStep (some st) (.dellink dev) (rmnetDellink st dev)
  | addBridge (st : LinkState) (env : LinkEnv) (rmnetDev slaveDev : ℕ) : env.AllocsSucceed →
      BridgeStep (some st) (.addBridge env rmnetDev slaveDev)
        ((rmnetAddBridge env st rmnetDev slaveDev).map Prod.fst)
  | delBridge (st : LinkState) (rmnetDev slaveDev : ℕ) :
      BridgeStep (some st) (.delBridge rmnetDev slaveDev) (rmnetDelBridge st rmnetDev slaveDev)
  | forceUnassociate (st : LinkState) (realDev : ℕ) :
      BridgeStep (some st) (.forceUnassociate realDev) (rmnetForceUnassociateDevice st realDev)

/-- No `NULL` has been dereferenced, and the state has the property. -/
def Alive (P : LinkState → Prop) (s : Option LinkState) : Prop := ∃ st, s = some st ∧ P st

@[simp] theorem alive_some {P : LinkState → Prop} {st : LinkState} : Alive P (some st) ↔ P st := by
  simp [Alive]

@[simp] theorem not_alive_none {P : LinkState → Prop} : ¬ Alive P none := by
  simp [Alive]

/-! ### The property and the condition -/

/-- A port in bridge mode or with a `bridge_ep` is one side of a pair. -/
def BridgeSymmetric (st : LinkState) : Prop :=
  ∀ p P, st.ports p = some P → P.rmnetMode = rmnetEpmodeBridge ∨ P.bridgeEp ≠ none →
    ∃ d D, P.bridgeEp = some d ∧ st.ports d = some D ∧ D.rmnetMode = rmnetEpmodeBridge ∧
      D.bridgeEp = some p ∧ P.rmnetMode = rmnetEpmodeBridge

/-- `rmnet_newlink` on a device of a bridge fails, at the mux id or in `register_netdevice`, and the device
keeps the rmnet device it has. -/
def NewlinkSparesBridge (st : LinkState) (env : LinkEnv) (data : LinkAttrs) : Prop :=
  ∀ r muxId port, data.link = some r → data.muxId = some muxId → st.ports r = some port →
    port.bridgeEp ≠ none →
    port.nrRmnetDevs ≠ 0 ∧ ((rmnetGetEndpoint port muxId).isSome ∨ env.registerNetdevice ≠ 0)

/-- `rmnet_add_bridge` is refused when the device of the rmnet device is in a bridge: for its second rmnet
device, or for the slave, which is registered or taken by another driver. -/
def AddSparesBridge (st : LinkState) (env : LinkEnv) (rmnetDev slaveDev : ℕ) : Prop :=
  ∀ priv port, st.devs rmnetDev = some priv → st.ports priv.realDev = some port → port.bridgeEp ≠ none →
    1 < port.nrRmnetDevs ∨ rmnetIsRealDevRegistered st slaveDev = true ∨ env.rxHandlerRegister = false

/-- `rmnet_del_bridge` names the peer; or there is none, and the device named is registered, and not removed from a
bridge because it is in none or has an rmnet device. -/
def DelNamesPeer (st : LinkState) (rmnetDev slaveDev : ℕ) : Prop :=
  ∀ priv port, st.devs rmnetDev = some priv → st.ports priv.realDev = some port →
    port.bridgeEp = some slaveDev ∨ (port.bridgeEp = none ∧
      ∃ slavePort, st.ports slaveDev = some slavePort ∧
        (slavePort.bridgeEp ≠ none → slavePort.nrRmnetDevs ≠ 0))

/-- The side condition on a request. -/
def SparesBridge (st : LinkState) : BridgeReq → Prop
  | .newlink env _ data => NewlinkSparesBridge st env data
  | .dellink _ => True
  | .addBridge env rmnetDev slaveDev => AddSparesBridge st env rmnetDev slaveDev
  | .delBridge rmnetDev slaveDev => DelNamesPeer st rmnetDev slaveDev
  | .forceUnassociate _ => True

/-! ### The pairing of the ports -/

section

variable {ports : ℕ → Option LinkPort}

/-- The peer of a real device. -/
def peers (ports : ℕ → Option LinkPort) (p : ℕ) : Option ℕ := (ports p).bind LinkPort.bridgeEp

/-- The invariant of the bridges: the ports are paired, the mode says which are, and of the two sides the
slave has no rmnet device and the other one has one. -/
structure BridgeInv (ports : ℕ → Option LinkPort) : Prop where
  paired : Paired (peers ports)
  mode : ∀ p P, ports p = some P → (P.rmnetMode = rmnetEpmodeBridge ↔ P.bridgeEp ≠ none)
  one : ∀ p P d D, ports p = some P → P.bridgeEp = some d → ports d = some D →
    P.nrRmnetDevs + D.nrRmnetDevs = 1

/-- A port outside any bridge, or no port. -/
def Free (o : Option LinkPort) : Prop :=
  ∀ P, o = some P → P.bridgeEp = none ∧ P.rmnetMode ≠ rmnetEpmodeBridge

theorem free_none : Free none := by
  intro P hP
  cases hP

theorem peers_update (ports : ℕ → Option LinkPort) (r : ℕ) (o : Option LinkPort) :
    peers (Function.update ports r o) = Function.update (peers ports) r (o.bind LinkPort.bridgeEp) := by
  funext p
  by_cases hp : p = r
  · rw [hp, Function.update_self, peers, Function.update_self]
  · rw [Function.update_of_ne hp, peers, Function.update_of_ne hp, peers]

theorem Free.peer {o : Option LinkPort} (h : Free o) : o.bind LinkPort.bridgeEp = none := by
  cases o with
  | none => rfl
  | some P => exact (h P rfl).1

theorem peers_eq_some {p d : ℕ} : peers ports p = some d ↔ ∃ P, ports p = some P ∧ P.bridgeEp = some d :=
  Option.bind_eq_some_iff

/-- The other side of a pair. -/
theorem BridgeInv.peer (h : BridgeInv ports) {p d : ℕ} {P : LinkPort} (hP : ports p = some P)
    (hd : P.bridgeEp = some d) : ∃ D, ports d = some D ∧ D.bridgeEp = some p ∧
      D.rmnetMode = rmnetEpmodeBridge ∧ P.nrRmnetDevs + D.nrRmnetDevs = 1 ∧ p ≠ d := by
  have hpeer : peers ports p = some d := peers_eq_some.mpr ⟨P, hP, hd⟩
  obtain ⟨D, hD, hDp⟩ := peers_eq_some.mp (h.paired.symm hpeer)
  refine ⟨D, hD, hDp, (h.mode d D hD).mpr ?_, h.one p P d D hP hd hD, h.paired.ne hpeer⟩
  rw [hDp]
  exact Option.some_ne_none p

theorem BridgeInv.symmetric {st : LinkState} (h : BridgeInv st.ports) : BridgeSymmetric st := by
  intro p P hP hin
  have hmode := h.mode p P hP
  have hep : P.bridgeEp ≠ none := hin.elim hmode.mp id
  obtain ⟨d, hd⟩ := Option.ne_none_iff_exists'.mp hep
  obtain ⟨D, hD, hDp, hDmode, -, -⟩ := h.peer hP hd
  exact ⟨d, D, hd, hD, hDmode, hDp, hmode.mpr hep⟩

/-- In a symmetric state the peers are mutual. -/
theorem BridgeSymmetric.symm {st : LinkState} (h : BridgeSymmetric st) {p d : ℕ}
    (hp : peers st.ports p = some d) : peers st.ports d = some p := by
  obtain ⟨P, hP, hd⟩ := peers_eq_some.mp hp
  obtain ⟨d', D, hd', hD, -, hDp, -⟩ := h p P hP (.inr (by rw [hd]; exact Option.some_ne_none d))
  rw [hd, Option.some.injEq] at hd'
  subst hd'
  exact peers_eq_some.mpr ⟨D, hD, hDp⟩

/-- A port outside any bridge may be written, registered or removed. -/
theorem BridgeInv.setFree (h : BridgeInv ports) {r : ℕ} {o : Option LinkPort} (hr : peers ports r = none)
    (ho : Free o) : BridgeInv (Function.update ports r o) := by
  have hpeers : peers (Function.update ports r o) = peers ports := by
    rw [peers_update, ho.peer, ← hr, Function.update_eq_self]
  refine ⟨by rw [hpeers]; exact h.paired, ?_, ?_⟩
  · intro p P hP
    by_cases hp : p = r
    · rw [hp, Function.update_self] at hP
      obtain ⟨hep, hmode⟩ := ho P hP
      simp [hep, hmode]
    · rw [Function.update_of_ne hp] at hP
      exact h.mode p P hP
  · intro p P d D hP hd hD
    have hpd : peers ports p = some d := by
      rw [← hpeers]
      exact peers_eq_some.mpr ⟨P, hP, hd⟩
    have hpr : p ≠ r := by
      rintro rfl
      rw [hr] at hpd
      cases hpd
    have hdr : d ≠ r := by
      rintro rfl
      exact h.paired.not_named hr p hpd
    rw [Function.update_of_ne hpr] at hP
    rw [Function.update_of_ne hdr] at hD
    exact h.one p P d D hP hd hD

/-- A pair is dissolved on both sides. -/
theorem BridgeInv.unlink (h : BridgeInv ports) {a b : ℕ} {oa ob : Option LinkPort}
    (hab : peers ports a = some b) (hoa : Free oa) (hob : Free ob) :
    BridgeInv (Function.update (Function.update ports a oa) b ob) := by
  have hpeers : peers (Function.update (Function.update ports a oa) b ob)
      = Function.update (Function.update (peers ports) a none) b none := by
    rw [peers_update, peers_update, hoa.peer, hob.peer]
  have hne : a ≠ b := h.paired.ne hab
  have hpair := h.paired.unlink hab
  rw [← hpeers] at hpair
  refine ⟨hpair, ?_, ?_⟩
  · intro p P hP
    by_cases hpb : p = b
    · rw [hpb, Function.update_self] at hP
      obtain ⟨hep, hmode⟩ := hob P hP
      simp [hep, hmode]
    · rw [Function.update_of_ne hpb] at hP
      by_cases hpa : p = a
      · rw [hpa, Function.update_self] at hP
        obtain ⟨hep, hmode⟩ := hoa P hP
        simp [hep, hmode]
      · rw [Function.update_of_ne hpa] at hP
        exact h.mode p P hP
  · intro p P d D hP hd hD
    have hpd := peers_eq_some.mpr ⟨P, hP, hd⟩
    have hdp := hpair.symm hpd
    -- neither side of another pair is one of the two
    have hout : ∀ c e, peers (Function.update (Function.update ports a oa) b ob) c = some e → c ≠ a ∧ c ≠ b := by
      intro c e hce
      rw [hpeers] at hce
      constructor
      · rintro rfl
        rw [Function.update_of_ne hne, Function.update_self] at hce
        cases hce
      · rintro rfl
        rw [Function.update_self] at hce
        cases hce
    obtain ⟨hpa, hpb⟩ := hout p d hpd
    obtain ⟨hda, hdb⟩ := hout d p hdp
    rw [Function.update_of_ne hpb, Function.update_of_ne hpa] at hP
    rw [Function.update_of_ne hdb, Function.update_of_ne hda] at hD
    exact h.one p P d D hP hd hD

/-- Two ports outside any bridge become a pair. -/
theorem BridgeInv.link (h : BridgeInv ports) {a b : ℕ} {A B : LinkPort} (hab : a ≠ b)
    (ha : peers ports a = none) (hb : peers ports b = none) (hA : A.bridgeEp = some b)
    (hB : B.bridgeEp = some a) (hAmode : A.rmnetMode = rmnetEpmodeBridge)
    (hBmode : B.rmnetMode = rmnetEpmodeBridge) (hone : A.nrRmnetDevs + B.nrRmnetDevs = 1) :
    BridgeInv (Function.update (Function.update ports a (some A)) b (some B)) := by
  have hpeers : peers (Function.update (Function.update ports a (some A)) b (some B))
      = Function.update (Function.update (peers ports) a (some b)) b (some a) := by
    rw [peers_update, peers_update, Option.bind_some, Option.bind_some, hA, hB]
  have hpair := h.paired.link hab ha hb
  rw [← hpeers] at hpair
  refine ⟨hpair, ?_, ?_⟩
  · intro p P hP
    by_cases hpb : p = b
    · rw [hpb, Function.update_self, Option.some.injEq] at hP
      rw [← hP, hBmode, hB]
      simp
    · rw [Function.update_of_ne hpb] at hP
      by_cases hpa : p = a
      · rw [hpa, Function.update_self, Option.some.injEq] at hP
        rw [← hP, hAmode, hA]
        simp
      · rw [Function.update_of_ne hpa] at hP
        exact h.mode p P hP
  · intro p P d D hP hd hD
    by_cases hpb : p = b
    · subst hpb
      rw [Function.update_self, Option.some.injEq] at hP
      subst hP
      rw [hB, Option.some.injEq] at hd
      subst hd
      rw [Function.update_of_ne hab, Function.update_self, Option.some.injEq] at hD
      rw [← hD, Nat.add_comm]
      exact hone
    · rw [Function.update_of_ne hpb] at hP
      by_cases hpa : p = a
      · subst hpa
        rw [Function.update_self, Option.some.injEq] at hP
        subst hP
        rw [hA, Option.some.injEq] at hd
        subst hd
        rw [Function.update_self, Option.some.injEq] at hD
        rw [← hD]
        exact hone
      · rw [Function.update_of_ne hpa] at hP
        have hpd : peers ports p = some d := peers_eq_some.mpr ⟨P, hP, hd⟩
        have hdb : d ≠ b := fun hdb => h.paired.not_named hb p (hdb ▸ hpd)
        have hda : d ≠ a := fun hda => h.paired.not_named ha p (hda ▸ hpd)
        rw [Function.update_of_ne hdb, Function.update_of_ne hda] at hD
        exact h.one p P d D hP hd hD

end

/-! ### The operations on a pair -/

section

variable {st : LinkState} {r d : ℕ} {port : LinkPort}

theorem setPort_comm (st : LinkState) (h : r ≠ d) (a b : Option LinkPort) :
    (st.setPort r a).setPort d b = (st.setPort d b).setPort r a := by
  simp only [LinkState.setPort, Function.update_comm h.symm]

theorem setPort_idem (st : LinkState) (r : ℕ) (a b : Option LinkPort) :
    (st.setPort r a).setPort r b = st.setPort r b := by
  simp only [LinkState.setPort, Function.update_idem]

/-- `rmnet_unregister_bridge` from one side of a pair: the slave frees the other side, which has an rmnet
device, and the other side removes the slave, which has none. -/
theorem unregisterBridge_pair {D : LinkPort} (hmode : port.rmnetMode = rmnetEpmodeBridge)
    (hd : port.bridgeEp = some d) (hD : st.ports d = some D) (hone : port.nrRmnetDevs + D.nrRmnetDevs = 1) :
    rmnetUnregisterBridge st port = some (st.setPort d
      (if port.nrRmnetDevs = 0 then some { D with bridgeEp := none, rmnetMode := rmnetEpmodeVnd } else none)) := by
  unfold rmnetUnregisterBridge
  rw [if_neg (not_not.mpr hmode), hd]
  simp only [hD]
  by_cases hnr : port.nrRmnetDevs = 0
  · rw [if_pos hnr, if_pos hnr]
  · rw [if_neg hnr, if_neg hnr, unregister_done st d (by omega)]

/-- What it does to the ports. -/
theorem BridgeInv.unregisterBridge (h : BridgeInv st.ports) (hr : st.ports r = some port) :
    (port.bridgeEp = none ∧ rmnetUnregisterBridge st port = some st) ∨
    ∃ d o, port.bridgeEp = some d ∧ r ≠ d ∧ port.nrRmnetDevs ≤ 1 ∧ Free o ∧
      rmnetUnregisterBridge st port = some (st.setPort d o) := by
  cases hep : port.bridgeEp with
  | none =>
    refine .inl ⟨rfl, unregisterBridge_eq st fun hmode => ?_⟩
    exact (h.mode r port hr).mp hmode hep
  | some d =>
    obtain ⟨D, hD, -, -, hone, hne⟩ := h.peer hr hep
    have hmode := (h.mode r port hr).mpr (by rw [hep]; exact Option.some_ne_none d)
    refine .inr ⟨d, _, rfl, hne, by omega, ?_, unregisterBridge_pair hmode hep hD hone⟩
    split
    · rintro P ⟨⟩
      exact ⟨rfl, by simp [rmnetEpmodeVnd, rmnetEpmodeBridge]⟩
    · exact free_none

/-- It does not matter whether the table of the port has been written before. -/
theorem BridgeInv.unregisterBridge_slot (h : BridgeInv st.ports) (port' : LinkPort) (hr : st.ports r = some port)
    (hmode : port'.rmnetMode = port.rmnetMode) (hep : port'.bridgeEp = port.bridgeEp)
    (hnr : port'.nrRmnetDevs = port.nrRmnetDevs) (o : Option LinkPort) :
    (rmnetUnregisterBridge (st.setPort r (some port')) port').map (LinkState.setPort · r o)
      = (rmnetUnregisterBridge st port).map (LinkState.setPort · r o) := by
  cases hd : port.bridgeEp with
  | none =>
    have hnot : port.rmnetMode ≠ rmnetEpmodeBridge := fun hm => (h.mode r port hr).mp hm hd
    rw [unregisterBridge_eq _ hnot, unregisterBridge_eq _ (by rwa [hmode]), Option.map_some, Option.map_some,
      setPort_idem]
  | some d =>
    obtain ⟨D, hD, -, -, hone, hne⟩ := h.peer hr hd
    have hbridge := (h.mode r port hr).mpr (by rw [hd]; exact Option.some_ne_none d)
    have hD' : (st.setPort r (some port')).ports d = some D := by rw [setPort_ports_ne st hne.symm, hD]
    rw [unregisterBridge_pair hbridge hd hD hone,
      unregisterBridge_pair (hmode.trans hbridge) (hep.trans hd) hD' (by rw [hnr]; exact hone), hnr,
      Option.map_some, Option.map_some, setPort_comm st hne, setPort_idem]

/-- A port that goes after its bridge leaves the pairing intact. -/
theorem BridgeInv.gone (h : BridgeInv st.ports) (hr : st.ports r = some port) {st' : LinkState}
    (hs : rmnetUnregisterBridge st port = some st') (o : Option LinkPort)
    (hfree : port.bridgeEp = none → Free o) (hpair : port.bridgeEp ≠ none → o = none) :
    BridgeInv (st'.setPort r o).ports := by
  rcases h.unregisterBridge hr with ⟨hep, heq⟩ | ⟨d, od, hep, hne, -, hod, heq⟩
  · obtain rfl := Option.some.inj (hs.symm.trans heq)
    refine h.setFree ?_ (hfree hep)
    rw [peers, hr]
    exact hep
  · obtain rfl := Option.some.inj (hs.symm.trans heq)
    rw [hpair (by rw [hep]; exact Option.some_ne_none d)]
    exact h.unlink (h.paired.symm (peers_eq_some.mpr ⟨port, hr, hep⟩)) hod free_none

/-- In a symmetric state it has a result. -/
theorem BridgeInv.unregisterBridge_some (h : BridgeInv st.ports) (hr : st.ports r = some port) :
    ∃ st', rmnetUnregisterBridge st port = some st' := by
  rcases h.unregisterBridge hr with ⟨-, heq⟩ | ⟨d, o, -, -, -, -, heq⟩
  · exact ⟨_, heq⟩
  · exact ⟨_, heq⟩

end

/-! ### One request -/

/-- The invariant of a run. -/
structure BridgeRun (st : LinkState) : Prop where
  tables : Tables st
  bridges : BridgeInv st.ports

section

variable {st : LinkState} {r dev : ℕ} {priv : RmnetPriv} {port : LinkPort}

/-- `rmnet_dellink` by what it writes. -/
theorem dellink_eq (h : BridgeRun st) (hd : st.devs dev = some priv) :
    ∃ port port' owner st₁, st.ports priv.realDev = some port ∧
      MuxTable owner (devsOn st.devs priv.realDev) port.unbridged ∧
      port'.muxedEp = Function.update port.muxedEp priv.muxId [] ∧
      port'.nrRmnetDevs = sub8 port.nrRmnetDevs 1 ∧ port'.rmnetMode = port.rmnetMode ∧
      port'.bridgeEp = port.bridgeEp ∧ rmnetUnregisterBridge st port = some st₁ ∧
      rmnetDellink st dev = some (rmnetUnregisterRealDevice
        ((st₁.setPort priv.realDev (some port')).setDev dev none) priv.realDev port').1 := by
  obtain ⟨port, owner, hport, htable, hon⟩ := h.tables.registered hd
  have hget : rmnetGetEndpoint port priv.muxId = some { muxId := priv.muxId, egressDev := some dev } :=
    htable.get_dev hon
  have hlt : priv.muxId < maxLogicalEp := htable.lt _ _ ((htable.dev _ _).mpr ⟨priv, hon, rfl⟩)
  have hvnd : rmnetVndDellink priv.muxId (port.delFound priv.muxId)
      { muxId := priv.muxId, egressDev := some dev }
      = { port.delFound priv.muxId with nrRmnetDevs := sub8 port.nrRmnetDevs 1 } := by
    rw [rmnetVndDellink, if_neg (by simpa using hlt)]
    rfl
  obtain ⟨st₁, hbridge⟩ := h.bridges.unregisterBridge_some hport
  refine ⟨port, { port.delFound priv.muxId with nrRmnetDevs := sub8 port.nrRmnetDevs 1 }, owner, st₁, hport, htable,
    htable.delFound priv.muxId, rfl, rfl, rfl, hbridge, ?_⟩
  have hslot := h.bridges.unregisterBridge_slot (port.delFound priv.muxId) hport rfl rfl rfl
    (some { port.delFound priv.muxId with nrRmnetDevs := sub8 port.nrRmnetDevs 1 })
  obtain ⟨st₂, hbridge₂, hst₂⟩ := Option.map_eq_some_iff.mp (hslot.trans (congrArg _ hbridge))
  unfold rmnetDellink
  rw [hd]
  simp only [hport, dellinkEndpoint, hget, hvnd, hbridge₂, Option.map_some]
  rw [hst₂]

theorem unregisterBridge_devs {st' : LinkState} (h : rmnetUnregisterBridge st port = some st') :
    st'.devs = st.devs := by
  rcases unregisterBridge_cases h with rfl | ⟨d, bridgePort, -, rfl | rfl⟩
  · rfl
  · rfl
  · exact unregisterRealDevice_devs ..

/-- A device on the port is counted. -/
theorem BridgeRun.counted (h : BridgeRun st) (hd : st.devs dev = some priv)
    (hport : st.ports priv.realDev = some port) : port.nrRmnetDevs ≠ 0 := by
  intro hnr
  obtain ⟨owner, htable⟩ := (h.tables priv.realDev).table port hport
  have hnone := htable.no_devs hnr dev
  rw [devsOn_eq_some.mpr ⟨hd, rfl⟩] at hnone
  cases hnone

theorem BridgeRun.dellink (h : BridgeRun st) (dev : ℕ) : Alive BridgeRun (rmnetDellink st dev) := by
  cases hd : st.devs dev with
  | none =>
    rw [rmnetDellink, hd]
    exact alive_some.mpr h
  | some priv =>
    obtain ⟨port, port', owner, st₁, hport, htable, hep, hnr, hmode, hbridge, hst₁, heq⟩ := dellink_eq h hd
    have hcounted := h.counted hd hport
    have hdevs := unregisterBridge_devs hst₁
    rw [heq, alive_some]
    refine ⟨Tables.unregister ?_ (by simp), ?_⟩
    · refine (h.tables.unregisterBridge hst₁).write (o := some port') rfl ⟨?_, nofun⟩ fun r' hr' => ?_
      · rintro p ⟨⟩
        rw [setDev_devs, setPort_devs, hdevs, devsOn_delete]
        exact ⟨_, htable.remove (devsOn_eq_some.mpr ⟨hd, rfl⟩) hep hnr rfl⟩
      · rw [setDev_devs, setPort_devs]
        refine devsOn_other (devsOn_eq_none.mpr fun p hp hpr => ?_) nofun
        rw [hdevs, hd, Option.some.injEq] at hp
        exact hr' (by rw [← hpr, ← hp])
    · by_cases hzero : port'.nrRmnetDevs = 0
      · rw [unregister_done _ _ hzero]
        have hgone := h.bridges.gone hport hst₁ none (fun _ => free_none) fun _ => rfl
        simpa only [LinkState.setPort, setDev_ports, Function.update_idem] using hgone
      · rw [unregister_refused _ _ hzero]
        refine h.bridges.gone hport hst₁ (some port') ?_ fun hpair => absurd ?_ hzero
        · rintro hnone P ⟨⟩
          rw [hbridge, hmode]
          exact ⟨hnone, fun hm => (h.bridges.mode _ port hport).mp hm hnone⟩
        · -- the other side of the pair has no rmnet device, so this was the only one here
          obtain ⟨d, hd⟩ := Option.ne_none_iff_exists'.mp hpair
          obtain ⟨D, -, -, -, hone, -⟩ := h.bridges.peer hport hd
          rw [hnr, sub8_of_le (by omega) (by omega)]
          omega

theorem BridgeRun.forceUnassociate (h : BridgeRun st) (r : ℕ) :
    Alive BridgeRun (rmnetForceUnassociateDevice st r) := by
  unfold rmnetForceUnassociateDevice
  cases hport : st.ports r with
  | none => exact alive_some.mpr h
  | some port =>
    obtain ⟨st₁, hst₁⟩ := h.bridges.unregisterBridge_some hport
    have hdevs := unregisterBridge_devs hst₁
    obtain ⟨owner, htable⟩ := (h.tables r).table port hport
    have hmax : maxLogicalEp = 255 := rfl
    have hle : port.endpoints.length ≤ maxLogicalEp := htable.length_le
    have hnr : port.nrRmnetDevs = port.endpoints.length := htable.nr
    have hbeyond : (fun b => if b < maxLogicalEp then [] else port.muxedEp b) = fun _ => [] := htable.beyond
    simp only [hst₁, Option.map_some, alive_some]
    rw [vndDellink_foldl _ ?_ port (le_of_eq hnr.symm) (by omega), hbeyond, hnr, Nat.sub_self]
    swap
    · intro ep hep
      obtain ⟨hlt, d, hd, -⟩ := htable.of_mem_endpoints hep
      exact ⟨hlt, by rw [hd]; rfl⟩
    have hmem : ∀ d, d ∈ port.endpoints.filterMap RmnetEndpoint.egressDev ↔ (devsOn st.devs r d).isSome :=
      htable.mem_egress
    refine ⟨Tables.unregister ?_ (by simp), ?_⟩
    · refine (h.tables.unregisterBridge hst₁).write
        (o := some { port with nrRmnetDevs := 0, muxedEp := fun _ => [] }) rfl ⟨?_, nofun⟩ fun r' hr' => ?_
      · rintro p ⟨⟩
        refine ⟨fun _ => none, muxTable_empty rfl rfl
          (by simp [LinkPort.unbridged, rmnetEpmodeVnd, rmnetEpmodeBridge]) fun d => ?_⟩
        rw [devsOn_eq_none]
        intro p hp hpr
        simp only [setPort_devs, hdevs] at hp
        split at hp
        · cases hp
        · rename_i hout
          rw [hmem, devsOn_eq_some.mpr ⟨hp, hpr⟩] at hout
          exact hout rfl
      · funext d
        simp only [devsOn, setPort_devs, hdevs]
        split
        · rename_i hin
          obtain ⟨p, hp⟩ := Option.isSome_iff_exists.mp ((hmem d).mp hin)
          obtain ⟨hd, hpr⟩ := devsOn_eq_some.mp hp
          have hnot : p.realDev ≠ r' := by
            rw [hpr]
            exact hr'.symm
          simp [hd, Option.filter_some, hnot]
        · rfl
    · rw [unregister_done _ _ rfl]
      have hgone := h.bridges.gone hport hst₁ none (fun _ => free_none) fun _ => rfl
      simpa only [LinkState.setPort, Function.update_idem] using hgone

/-- `rmnet_newlink` on a registered device. -/
theorem BridgeRun.newlink_on (h : BridgeRun st) {env : LinkEnv} {data : LinkAttrs} {m : ℕ}
    (halloc : env.AllocsSucceed) (hdev : st.devs dev = none) (hval : rmnetRtnlValidate data = 0)
    (hl : data.link = some r) (hm : data.muxId = some m) (hport : st.ports r = some port)
    (hspare : port.bridgeEp ≠ none → port.nrRmnetDevs ≠ 0 ∧
      ((rmnetGetEndpoint port m).isSome ∨ env.registerNetdevice ≠ 0)) :
    BridgeRun (rmnetNewlink env st dev data).1 := by
  obtain ⟨hfailed, hcreated⟩ := newlink_registered dev halloc hval hl hm hport
  by_cases hfail : (rmnetGetEndpoint port m).isSome ∨ env.registerNetdevice ≠ 0
  · rw [hfailed hfail]
    by_cases hnr : port.nrRmnetDevs = 0
    · rw [unregister_done st r hnr]
      refine ⟨?_, h.bridges.setFree ?_ free_none⟩
      · have htables := h.tables.unregister hport
        rwa [unregister_done st r hnr] at htables
      · rw [peers, hport]
        by_contra hpair
        exact (hspare hpair).1 hnr
    · rw [unregister_refused st r hnr]
      exact h
  · rw [not_or, not_not] at hfail
    obtain ⟨hfree, hreg⟩ := hfail
    have hnone : rmnetGetEndpoint port m = none := by simpa using hfree
    have hep : port.bridgeEp = none := by
      by_contra hpair
      rcases (hspare hpair).2 with htaken | herr
      · exact hfree htaken
      · exact herr hreg
    obtain ⟨port', priv, hnew, hreal, hid, heq⟩ := hcreated hnone hreg
    rw [heq]
    refine ⟨h.tables.create hdev hport (validate_muxId hval hm).1 hnone hnew hreal hid, ?_⟩
    refine h.bridges.setFree (by rw [peers, hport]; exact hep) ?_
    rintro P ⟨⟩
    rw [hnew.bridge, hnew.mode]
    exact ⟨hep, by simp [rmnetEpmodeVnd, rmnetEpmodeBridge]⟩

/-- A fresh device is in no bridge. -/
theorem BridgeRun.register (h : BridgeRun st) (hr : st.ports r = none) :
    BridgeRun (st.setPort r (some newPort)) := by
  refine ⟨h.tables.register hr, h.bridges.setFree (by rw [peers, hr]; rfl) ?_⟩
  rintro P ⟨⟩
  exact ⟨rfl, by simp [newPort, rmnetEpmodeBridge]⟩

theorem BridgeRun.newlink (h : BridgeRun st) {env : LinkEnv} {data : LinkAttrs}
    (halloc : env.AllocsSucceed) (hdev : st.devs dev = none) (hval : rmnetRtnlValidate data = 0)
    (hspare : NewlinkSparesBridge st env data) : BridgeRun (rmnetNewlink env st dev data).1 := by
  cases hl : data.link with
  | none =>
    simp only [rmnetNewlink, hl]
    exact h
  | some r =>
    cases hm : data.muxId with
    | none =>
      simp only [rmnetNewlink, hl, hm]
      exact h
    | some m =>
      cases hport : st.ports r with
      | some port =>
        exact h.newlink_on halloc hdev hval hl hm hport (hspare r m port hl hm hport)
      | none =>
        rw [newlink_fresh dev halloc hl hm hport]
        split
        · exact (h.register hport).newlink_on halloc hdev hval hl hm (setPort_ports_self ..)
            fun hpair => absurd rfl hpair
        · exact h

/-- `rmnet_add_bridge` past its checks makes a pair. -/
theorem addBridge_done (h : BridgeRun st) {env : LinkEnv} {slave : ℕ} (halloc : env.AllocsSucceed)
    (hd : st.devs dev = some priv) (hport : st.ports priv.realDev = some port)
    (hone : ¬ 1 < port.nrRmnetDevs) (hslave : st.ports slave = none) (hrx : env.rxHandlerRegister = true) :
    ∃ st', rmnetAddBridge env st dev slave = some (st', 0) ∧ slave ≠ priv.realDev ∧ st'.ports =
      Function.update (Function.update st.ports slave
        (some { newPort with rmnetMode := rmnetEpmodeBridge, bridgeEp := some priv.realDev })) priv.realDev
        (some { port with rmnetMode := rmnetEpmodeBridge, bridgeEp := some slave }) ∧ Tables st' := by
  have hne : slave ≠ priv.realDev := by
    rintro rfl
    rw [hport] at hslave
    cases hslave
  refine ⟨((st.setPort slave (some newPort)).setBridge slave rmnetEpmodeBridge (some priv.realDev)).setBridge
    priv.realDev rmnetEpmodeBridge (some slave), ?_, hne, ?_,
    ((h.tables.register hslave).setBridge _ _ _).setBridge _ _ _⟩
  · unfold rmnetAddBridge
    rw [hd]
    simp only [hport]
    rw [if_neg hone, rmnetIsRealDevRegistered, hslave, register_fresh halloc hslave, hrx]
    rfl
  · simp only [LinkState.setBridge, setPort_ports_self, setPort_ports_ne _ hne.symm, hport]
    simp only [LinkState.setPort, Function.update_idem]

theorem BridgeRun.addBridge (h : BridgeRun st) {env : LinkEnv} {slave : ℕ} (halloc : env.AllocsSucceed)
    (hspare : AddSparesBridge st env dev slave) :
    Alive BridgeRun ((rmnetAddBridge env st dev slave).map Prod.fst) := by
  cases hd : st.devs dev with
  | none =>
    simp only [rmnetAddBridge, hd, Option.map_some, alive_some]
    exact h
  | some priv =>
    obtain ⟨port, owner, hport, -, -⟩ := h.tables.registered hd
    by_cases hone : 1 < port.nrRmnetDevs
    · simp only [rmnetAddBridge, hd, hport, if_pos hone, Option.map_some, alive_some]
      exact h
    · cases hslave : st.ports slave with
      | some D =>
        simp only [rmnetAddBridge, hd, hport, if_neg hone, rmnetIsRealDevRegistered, hslave,
          Option.isSome_some, if_true, Option.map_some, alive_some]
        exact h
      | none =>
        cases hrx : env.rxHandlerRegister with
        | false =>
          have hstay : rmnetAddBridge env st dev slave = some (st, -ebusy) := by
            unfold rmnetAddBridge
            rw [hd]
            simp only [hport]
            rw [if_neg hone, rmnetIsRealDevRegistered, hslave, register_fresh halloc hslave, hrx]
            rfl
          rw [hstay, Option.map_some, alive_some]
          exact h
        | true =>
          have hep : port.bridgeEp = none := by
            by_contra hpair
            rcases hspare priv port hd hport hpair with hmany | hreg | hbusy
            · exact hone hmany
            · rw [rmnetIsRealDevRegistered, hslave] at hreg
              cases hreg
            · rw [hrx] at hbusy
              cases hbusy
          obtain ⟨st', heq, hne, hports, htables⟩ := addBridge_done h halloc hd hport hone hslave hrx
          rw [heq, Option.map_some, alive_some]
          refine ⟨htables, ?_⟩
          rw [hports]
          have hcounted := h.counted hd hport
          refine h.bridges.link hne (by rw [peers, hslave]; rfl) (by rw [peers, hport]; exact hep) rfl rfl rfl
            rfl ?_
          show newPort.nrRmnetDevs + port.nrRmnetDevs = 1
          simp only [newPort]
          omega

/-- The port of the real device once `rmnet_del_bridge` has written it. -/
def LinkPort.unpaired (port : LinkPort) : LinkPort := { port with rmnetMode := rmnetEpmodeVnd, bridgeEp := none }

/-- The state of `rmnet_del_bridge` before it removes the slave. -/
theorem delBridge_eq (hd : st.devs dev = some priv) (hport : st.ports priv.realDev = some port) (slave : ℕ) :
    rmnetDelBridge st dev slave = ((st.setPort priv.realDev (some port.unpaired)).ports slave).map fun slavePort =>
      (rmnetUnregisterRealDevice (st.setPort priv.realDev (some port.unpaired)) slave slavePort).1 := by
  simp only [rmnetDelBridge, hd, hport]
  rfl

theorem free_unpaired (port : LinkPort) : Free (some port.unpaired) := by
  rintro P ⟨⟩
  exact ⟨rfl, by simp [LinkPort.unpaired, rmnetEpmodeVnd, rmnetEpmodeBridge]⟩

/-- The slave is not the real device, which has an rmnet device, unless it is kept. -/
theorem unpaired_ports {slave : ℕ} {D : LinkPort}
    (hslave : (st.setPort priv.realDev (some port.unpaired)).ports slave = some D) :
    (slave = priv.realDev ∧ D = port.unpaired) ∨ (slave ≠ priv.realDev ∧ st.ports slave = some D) := by
  by_cases hself : slave = priv.realDev
  · subst hself
    rw [setPort_ports_self, Option.some.injEq] at hslave
    exact .inl ⟨rfl, hslave.symm⟩
  · rw [setPort_ports_ne st hself] at hslave
    exact .inr ⟨hself, hslave⟩

theorem BridgeRun.delBridge (h : BridgeRun st) {slave : ℕ} (hpeer : DelNamesPeer st dev slave) :
    Alive BridgeRun (rmnetDelBridge st dev slave) := by
  cases hd : st.devs dev with
  | none =>
    simp only [rmnetDelBridge, hd, alive_some]
    exact h
  | some priv =>
    obtain ⟨port, owner, hport, -, -⟩ := h.tables.registered hd
    have hcounted := h.counted hd hport
    have htables : Tables (st.setPort priv.realDev (some port.unpaired)) := h.tables.setPort hport rfl rfl
    rw [delBridge_eq hd hport]
    rcases hpeer priv port hd hport with hep | ⟨hep, S, hS, hother⟩
    · obtain ⟨D, hD, -, -, hone, hne⟩ := h.bridges.peer hport hep
      have hslave : (st.setPort priv.realDev (some port.unpaired)).ports slave = some D := by
        rw [setPort_ports_ne st hne.symm, hD]
      rw [hslave, Option.map_some, alive_some]
      refine ⟨htables.unregister hslave, ?_⟩
      rw [unregister_done _ _ (by omega)]
      exact h.bridges.unlink (peers_eq_some.mpr ⟨port, hport, hep⟩) (free_unpaired port) free_none
    · have hclear : BridgeInv (st.setPort priv.realDev (some port.unpaired)).ports :=
        h.bridges.setFree (by rw [peers, hport]; exact hep) (free_unpaired port)
      have hregistered : ∃ D, (st.setPort priv.realDev (some port.unpaired)).ports slave = some D := by
        by_cases hself : slave = priv.realDev
        · exact ⟨_, by rw [hself, setPort_ports_self]⟩
        · exact ⟨S, by rw [setPort_ports_ne st hself, hS]⟩
      obtain ⟨D, hslave⟩ := hregistered
      rw [hslave, Option.map_some, alive_some]
      refine ⟨htables.unregister hslave, ?_⟩
      by_cases hnr : D.nrRmnetDevs = 0
      · rw [unregister_done _ _ hnr]
        refine hclear.setFree ?_ free_none
        rw [peers, hslave]
        rcases unpaired_ports hslave with ⟨-, rfl⟩ | ⟨-, hD⟩
        · exact absurd hnr hcounted
        · obtain rfl := Option.some.inj (hS.symm.trans hD)
          by_contra hpair
          exact hother hpair hnr
      · rw [unregister_refused _ _ hnr]
        exact hclear

/-- **One request that spares the bridges keeps the invariant.** -/
theorem bridgeStep_inv (s : Option LinkState) (q : BridgeReq) (s' : Option LinkState) (h : Alive BridgeRun s)
    (hs : BridgeStep s q s') (hok : Alive (SparesBridge · q) s) : Alive BridgeRun s' := by
  cases hs with
  | newlink st env dev data halloc hdev hval =>
    rw [alive_some] at h hok ⊢
    exact h.newlink halloc hdev hval hok
  | dellink st dev => exact (alive_some.mp h).dellink dev
  | addBridge st env dev slave halloc => exact (alive_some.mp h).addBridge halloc (alive_some.mp hok)
  | delBridge st dev slave => exact (alive_some.mp h).delBridge (alive_some.mp hok)
  | forceUnassociate st r => exact (alive_some.mp h).forceUnassociate r

/-! ### The requests that break a pair -/

/-- A device that still names one that does not name it back. -/
theorem BridgeSymmetric.broken {a b : ℕ} (hab : peers st.ports a = some b) (hba : peers st.ports b ≠ some a) :
    ¬ BridgeSymmetric st := fun hsym => hba (hsym.symm hab)

/-- `rmnet_newlink` on one side of a pair: a device that is created takes the port out of bridge mode, and
one that fails takes the slave away. -/
theorem newlink_breaks (h : BridgeRun st) {env : LinkEnv} {data : LinkAttrs} (halloc : env.AllocsSucceed)
    (hval : rmnetRtnlValidate data = 0) (hno : ¬ NewlinkSparesBridge st env data) :
    ¬ BridgeSymmetric (rmnetNewlink env st dev data).1 := by
  simp only [NewlinkSparesBridge, not_forall] at hno
  obtain ⟨r, m, port, hl, hm, hport, hpair, hbad⟩ := hno
  obtain ⟨d, hep⟩ := Option.ne_none_iff_exists'.mp hpair
  obtain ⟨D, hD, hDp, -, -, hne⟩ := h.bridges.peer hport hep
  obtain ⟨hfailed, hcreated⟩ := newlink_registered dev halloc hval hl hm hport
  by_cases hfail : (rmnetGetEndpoint port m).isSome ∨ env.registerNetdevice ≠ 0
  · have hnr : port.nrRmnetDevs = 0 := by
      by_contra hnr
      exact hbad ⟨hnr, hfail⟩
    rw [hfailed hfail, unregister_done st r hnr]
    have hd : peers (st.setPort r none).ports d = some r := by
      rw [peers, setPort_ports_ne st hne.symm, hD]
      exact hDp
    refine BridgeSymmetric.broken hd ?_
    rw [peers, setPort_ports_self]
    exact nofun
  · rw [not_or, not_not] at hfail
    obtain ⟨port', priv, hnew, -, -, heq⟩ := hcreated (by simpa using hfail.1) hfail.2
    rw [heq]
    intro hsym
    have hep' : port'.bridgeEp ≠ none := by
      rw [hnew.bridge, hep]
      exact Option.some_ne_none d
    obtain ⟨-, -, -, -, -, -, hmode⟩ := hsym r port' (by simp) (.inr hep')
    rw [hnew.mode] at hmode
    simp [rmnetEpmodeVnd, rmnetEpmodeBridge] at hmode

/-- `rmnet_add_bridge` over a pair leaves the first slave behind. -/
theorem addBridge_breaks (h : BridgeRun st) {env : LinkEnv} {slave : ℕ} (halloc : env.AllocsSucceed)
    (hno : ¬ AddSparesBridge st env dev slave) :
    ¬ Alive BridgeSymmetric ((rmnetAddBridge env st dev slave).map Prod.fst) := by
  simp only [AddSparesBridge, not_forall, not_or] at hno
  obtain ⟨priv, port, hd, hport, hpair, hone, hslave, hrx⟩ := hno
  have hfree : st.ports slave = none := by simpa [rmnetIsRealDevRegistered] using hslave
  obtain ⟨d, hep⟩ := Option.ne_none_iff_exists'.mp hpair
  obtain ⟨D, hD, hDp, -, -, hne⟩ := h.bridges.peer hport hep
  obtain ⟨st', heq, hsr, hports, -⟩ := addBridge_done h halloc hd hport hone hfree (by simpa using hrx)
  have hds : d ≠ slave := by
    rintro rfl
    rw [hfree] at hD
    cases hD
  have hdp : peers st'.ports d = some priv.realDev := by
    rw [hports, peers, Function.update_of_ne hne.symm, Function.update_of_ne hds, hD]
    exact hDp
  rw [heq, Option.map_some, alive_some]
  refine BridgeSymmetric.broken hdp ?_
  rw [hports, peers, Function.update_self]
  simpa using hds.symm

/-- Removing a device writes no other port. -/
theorem unregister_other (st : LinkState) {r slave : ℕ} (hne : r ≠ slave) (slavePort : LinkPort) :
    (rmnetUnregisterRealDevice st slave slavePort).1.ports r = st.ports r := by
  unfold rmnetUnregisterRealDevice
  split
  · rfl
  · rw [setPort_ports_ne _ hne]

/-- `rmnet_del_bridge` with a device that is not the peer dereferences `NULL`, or leaves the peer behind, its own or
that of the device it removes. -/
theorem delBridge_breaks (h : BridgeRun st) {slave : ℕ} (hno : ¬ DelNamesPeer st dev slave) :
    ¬ Alive BridgeSymmetric (rmnetDelBridge st dev slave) := by
  simp only [DelNamesPeer, not_forall, not_or] at hno
  obtain ⟨priv, port, hd, hport, hnot, hother⟩ := hno
  rw [delBridge_eq hd hport]
  cases hslave : (st.setPort priv.realDev (some port.unpaired)).ports slave with
  | none =>
    rw [Option.map_none]
    exact not_alive_none
  | some D =>
    rw [Option.map_some, alive_some]
    cases hep : port.bridgeEp with
    | some d =>
      obtain ⟨E, hE, hEp, -, -, hne⟩ := h.bridges.peer hport hep
      have hds : d ≠ slave := by
        rintro rfl
        exact hnot hep
      have hdp : peers (rmnetUnregisterRealDevice (st.setPort priv.realDev (some port.unpaired)) slave D).1.ports d
          = some priv.realDev := by
        rw [peers, unregister_other _ hds, setPort_ports_ne st hne.symm, hE]
        exact hEp
      refine BridgeSymmetric.broken hdp ?_
      have hclear : peers (st.setPort priv.realDev (some port.unpaired)).ports priv.realDev = none := by
        rw [peers, setPort_ports_self]
        rfl
      rcases unpaired_ports hslave with ⟨rfl, rfl⟩ | ⟨hself, -⟩
      · have hcounted := h.counted hd hport
        have hkept : port.unpaired.nrRmnetDevs ≠ 0 := hcounted
        rw [unregister_refused _ _ hkept, hclear]
        exact nofun
      · rw [peers, unregister_other _ hself.symm, ← peers, hclear]
        exact nofun
    | none =>
      simp only [hep, true_and, not_exists, not_and, not_forall, not_not] at hother
      rcases unpaired_ports hslave with ⟨rfl, rfl⟩ | ⟨hself, hD⟩
      · -- the real device itself is in no bridge
        obtain ⟨hpair, -⟩ := hother port hport
        exact absurd hep hpair
      · obtain ⟨hpair, hnr⟩ := hother D hD
        obtain ⟨e, hDe⟩ := Option.ne_none_iff_exists'.mp hpair
        obtain ⟨E, hE, hEs, -, -, hne⟩ := h.bridges.peer hD hDe
        have her : e ≠ priv.realDev := by
          rintro rfl
          obtain rfl := Option.some.inj (hport.symm.trans hE)
          rw [hep] at hEs
          cases hEs
        have hes : peers
            (rmnetUnregisterRealDevice (st.setPort priv.realDev (some port.unpaired)) slave D).1.ports e
              = some slave := by
          rw [peers, unregister_other _ hne.symm, setPort_ports_ne st her, hE]
          exact hEs
        refine BridgeSymmetric.broken hes ?_
        rw [unregister_done _ _ hnr, peers, setPort_ports_self]
        exact nofun

theorem bridgeStep_breaks (s : Option LinkState) (q : BridgeReq) (s' : Option LinkState) (h : Alive BridgeRun s)
    (hs : BridgeStep s q s') (hno : ¬ Alive (SparesBridge · q) s) : ¬ Alive BridgeSymmetric s' := by
  cases hs with
  | newlink st env dev data halloc hdev hval =>
    rw [alive_some] at h hno ⊢
    exact newlink_breaks h halloc hval hno
  | dellink st dev => exact absurd (alive_some.mpr trivial) hno
  | addBridge st env dev slave halloc =>
    rw [alive_some] at h hno
    exact addBridge_breaks h halloc hno
  | delBridge st dev slave =>
    rw [alive_some] at h hno
    exact delBridge_breaks h hno
  | forceUnassociate st r => exact absurd (alive_some.mpr trivial) hno

end

/-- Nothing is registered, so there is no bridge. -/
theorem bridgeRun_init (st : LinkState) (h : LinkInit st) : BridgeRun st := by
  refine ⟨fun r => ⟨fun port hport => ?_, fun _ d => ?_⟩, ?_⟩
  · rw [h.ports] at hport
    cases hport
  · rw [devsOn, h.devs]
    rfl
  · have hpeers : peers st.ports = fun _ => none := by
      funext p
      rw [peers, h.ports]
      rfl
    refine ⟨by rw [hpeers]; exact paired_none, fun p P hP => ?_, fun p P d D hP => ?_⟩
    · rw [h.ports] at hP
      cases hP
    · rw [h.ports] at hP
      cases hP

/-- **Exactly when bridges stay symmetric.**  Along any run from an empty system, no request dereferences `NULL` and
every state pairs the ports symmetrically if and only if every request of the run spares the bridges. -/
theorem bridge_symmetric_iff (h : List (Option LinkState × BridgeReq)) (s : Option LinkState)
    (hex : Exec (Alive LinkInit) BridgeStep h s) :
    (∀ x ∈ h.map Prod.fst ++ [s], Alive BridgeSymmetric x) ↔ ∀ x ∈ h, Alive (SparesBridge · x.2) x.1 := by
  have hinit : ∀ s, Alive LinkInit s → Alive BridgeRun s := by
    rintro s ⟨st, rfl, hst⟩
    exact alive_some.mpr (bridgeRun_init st hst)
  have hsymmetric : ∀ s, Alive BridgeRun s → Alive BridgeSymmetric s := by
    rintro s ⟨st, rfl, hst⟩
    exact alive_some.mpr hst.bridges.symmetric
  exact (hex.forall_iff hinit hsymmetric bridgeStep_inv bridgeStep_breaks).1

/-! ### A one-sided bridge -/

/-- Device 1 with mux id 1 on real device 0, bridged to real device 9. -/
def bridgedLink : LinkState := (((rmnetAddBridge {} oneLink 1 9).map Prod.fst).getD oneLink)

theorem bridgedLink_exec : Exec (Alive LinkInit) BridgeStep
    [(some bareLink, .newlink {} 1 (muxAttrs 1)), (some oneLink, .addBridge {} 1 9)] (some bridgedLink) :=
  ((Exec.start (alive_some.mpr (⟨fun _ => rfl, fun _ => rfl⟩ : LinkInit bareLink))).next
    (.newlink bareLink {} 1 (muxAttrs 1) ⟨rfl, rfl, rfl, rfl⟩ rfl rfl)).next
    (.addBridge oneLink {} 1 9 ⟨rfl, rfl, rfl, rfl⟩)

/-- The bridge is made and its peer named when it is removed, so the two ports name each other as long as it is
there. -/
theorem bridge_symmetric_first : ∃ h st, Exec (Alive LinkInit) BridgeStep h (some st) ∧
    (some bridgedLink, .delBridge 1 9) ∈ h ∧ peers bridgedLink.ports 0 = some 9 ∧ st.ports 9 = none ∧
    ∀ x ∈ h.map Prod.fst ++ [some st], Alive BridgeSymmetric x := by
  have hex := bridgedLink_exec.next (.delBridge bridgedLink 1 9)
  refine ⟨_, _, hex, by simp, rfl, rfl, (bridge_symmetric_iff _ _ hex).mpr fun x hx => ?_⟩
  simp only [List.cons_append, List.nil_append, List.mem_cons, List.not_mem_nil, or_false] at hx
  rcases hx with rfl | rfl | rfl
  · refine alive_some.mpr fun r m port _ _ hport => ?_
    cases hport
  · refine alive_some.mpr fun priv port hd hport hpair => ?_
    cases hd
    cases hport
    exact absurd rfl hpair
  · refine alive_some.mpr fun priv port hd hport => ?_
    cases hd
    cases hport
    exact .inl rfl

/-- **A dangling peer.**  A second rmnet device on real device 0 takes its port out of bridge mode, and when both
rmnet devices are deleted the slave still names real device 0, which has left rmnet. -/
theorem bridge_broken : ∃ h st P, Exec (Alive LinkInit) BridgeStep h (some st) ∧ ¬ BridgeSymmetric st ∧
    st.ports 9 = some P ∧ P.rmnetMode = rmnetEpmodeBridge ∧ P.bridgeEp = some 0 ∧ st.ports 0 = none := by
  have h₁ := bridgedLink_exec.next (.newlink bridgedLink {} 2 (muxAttrs 2) ⟨rfl, rfl, rfl, rfl⟩ rfl rfl)
  have h₂ := (h₁.next (.dellink _ 1)).next (.dellink _ 2)
  refine ⟨_, _, { newPort with rmnetMode := rmnetEpmodeBridge, bridgeEp := some 0 }, h₂, ?_, rfl, rfl, rfl, rfl⟩
  exact BridgeSymmetric.broken (show peers _ 9 = some 0 from rfl) (by rw [show peers _ 0 = none from rfl]; exact nofun)

end Rmnet
