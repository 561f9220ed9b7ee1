import Rmnet.Lib.Bucket
import Rmnet.Lib.Transition
import Rmnet.Link.Config
import Rmnet.Qos.Event

/-!
# Is the mux table of a port a bijection?

Any sequence of link requests on one real device, starting from nothing, with any answers of the kernel
and any flow-control activity in between.  The abstract view of the table is a partial map `owner` from mux
ids to rmnet devices: `MuxTable` says that the buckets represent it and that it is the inverse of
`priv->mux_id`.  Creation adds a pair, deletion removes one, a forced unassociation removes all.

A change of the mux id moves a pair without asking whether the new id is free.  If it is not, two endpoints
share a bucket and a mux id (`mux_table_clash`); `mux_table_iff` says that this is the only way to lose the
bijection.  No such run makes a bridge, so every deletion of it has a result (`link_deletes`).
-/

namespace Rmnet

open Word Transition Bucket

/-! ### Runs -/

/-- The requests, and the flow-control activity of a device. -/
inductive LinkLabel
  | newlink (env : LinkEnv) (dev : ℕ) (data : LinkAttrs)
  | changelink (env : LinkEnv) (dev : ℕ) (data : LinkAttrs)
  | dellink (dev : ℕ)
  | forceUnassociate (dev : ℕ)
  | dfc (dev : ℕ) (e : DfcEvent)

/-- One step with `r` as the only real device.  The attributes of a request have passed
`rmnet_rtnl_validate`, and `rmnet_newlink` gets a device that is not registered yet. -/
inductive LinkStep (r : ℕ) : LinkState → LinkLabel → LinkState → Prop
  | newlink (st : LinkState) (env : LinkEnv) (dev : ℕ) (data : LinkAttrs) :
      st.devs dev = none → (∀ r', data.link = some r' → r' = r) → rmnetRtnlValidate data = 0 →
      LinkStep r st (.newlink env dev data) (rmnetNewlink env st dev data).1
  | changelink (st : LinkState) (env : LinkEnv) (dev : ℕ) (data : LinkAttrs) :
      rmnetRtnlValidate data = 0 →
      LinkStep r st (.changelink env dev data) (rmnetChangelink env st dev data).1
  | dellink {st st' : LinkState} (dev : ℕ) : rmnetDellink st dev = some st' → LinkStep r st (.dellink dev) st'
  | forceUnassociate {st st' : LinkState} (dev : ℕ) : rmnetForceUnassociateDevice st dev = some st' →
      LinkStep r st (.forceUnassociate dev) st'
  | dfc (st : LinkState) (dev : ℕ) (e : DfcEvent) (priv : RmnetPriv) (qos : QosInfo) :
      st.devs dev = some priv → priv.qosInfo = some qos →
      LinkStep r st (.dfc dev e)
        (st.setDev dev (some { priv with qosInfo := some (dfcEventQos st.cfg qos e) }))

/-- No real device is registered and there is no rmnet device. -/
structure LinkInit (st : LinkState) : Prop where
  ports : ∀ r, st.ports r = none
  devs : ∀ d, st.devs d = none

/-! ### The property -/

/-- `d` is an rmnet device on `r` with the mux id `id`. -/
def HasMuxId (st : LinkState) (r d id : ℕ) : Prop :=
  ∃ priv, st.devs d = some priv ∧ priv.realDev = r ∧ priv.muxId = id

/-- The mux table of the port of `r` is a bijection. -/
structure MuxBijection (r : ℕ) (st : LinkState) (port : LinkPort) : Prop where
  ids_distinct : (port.endpoints.map RmnetEndpoint.muxId).Nodup
  in_bucket : ∀ b < maxLogicalEp, ∀ ep ∈ port.muxedEp b, ep.muxId = b
  nr_devs : port.nrRmnetDevs = port.endpoints.length
  found : ∀ id < maxLogicalEp, ∀ ep, rmnetGetEndpoint port id = some ep →
    ep.muxId = id ∧ ∃ d, ep.egressDev = some d ∧ ∀ d', HasMuxId st r d' id ↔ d' = d
  absent : ∀ id < maxLogicalEp, rmnetGetEndpoint port id = none → ∀ d, ¬ HasMuxId st r d id

/-- It is, when the real device is registered. -/
def PortBijection (r : ℕ) (st : LinkState) : Prop :=
  ∀ port, st.ports r = some port → MuxBijection r st port

/-- The side condition on a request: a change of the mux id that is accepted names the id that the device
has, or one without an endpoint. -/
def RenameFree (st : LinkState) : LinkLabel → Prop
  | .changelink _ dev data => ∀ r port priv muxId, data.link = some r → st.ports r = some port →
      st.devs dev = some priv → data.muxId = some muxId → (rmnetGetEndpoint port priv.muxId).isSome →
      muxId = priv.muxId ∨ rmnetGetEndpoint port muxId = none
  | _ => True

/-! ### The table and its map -/

/-- The endpoint of `owner` at `b`. -/
def ownEp (owner : ℕ → Option ℕ) (b : ℕ) : Option RmnetEndpoint :=
  (owner b).map fun d => { muxId := b, egressDev := some d }

/-- The port and the private data of the devices agree on `owner`. -/
structure MuxTable (owner : ℕ → Option ℕ) (devs : ℕ → Option RmnetPriv) (port : LinkPort) : Prop where
  table : Represents port.muxedEp (ownEp owner)
  lt : ∀ b d, owner b = some d → b < maxLogicalEp
  dev : ∀ b d, owner b = some d ↔ ∃ priv, devs d = some priv ∧ priv.muxId = b
  nr : port.nrRmnetDevs = port.endpoints.length
  mode : port.rmnetMode ≠ rmnetEpmodeBridge

/-- The invariant: everything is on `r`, and the port of `r` has a table. -/
structure MuxInv (r : ℕ) (st : LinkState) : Prop where
  real : ∀ d priv, st.devs d = some priv → priv.realDev = r
  others : ∀ r', r' ≠ r → st.ports r' = none
  table : ∀ port, st.ports r = some port → ∃ owner, MuxTable owner st.devs port
  unregistered : st.ports r = none → ∀ d, st.devs d = none

theorem ownEp_key {owner : ℕ → Option ℕ} {b : ℕ} {ep : RmnetEndpoint} (h : ownEp owner b = some ep) :
    ep.muxId = b ∧ owner b = ep.egressDev ∧ ep.egressDev.isSome := by
  obtain ⟨d, hd, rfl⟩ := Option.map_eq_some_iff.mp h
  exact ⟨rfl, hd, rfl⟩

theorem ownEp_update (owner : ℕ → Option ℕ) (b : ℕ) (o : Option ℕ) :
    ownEp (Function.update owner b o)
      = Function.update (ownEp owner) b (o.map fun d => { muxId := b, egressDev := some d }) := by
  funext c
  by_cases hc : c = b
  · subst hc
    simp [ownEp]
  · simp [ownEp, hc]

section

variable {owner : ℕ → Option ℕ} {devs : ℕ → Option RmnetPriv} {port : LinkPort}

theorem MuxTable.get (h : MuxTable owner devs port) (b : ℕ) : rmnetGetEndpoint port b = ownEp owner b :=
  h.table.find? fun ep hep => by simp [(ownEp_key hep).1]

theorem MuxTable.get_none (h : MuxTable owner devs port) {b : ℕ} :
    rmnetGetEndpoint port b = none ↔ owner b = none := by
  rw [h.get, ownEp, Option.map_eq_none_iff]

theorem MuxTable.get_dev (h : MuxTable owner devs port) {d : ℕ} {priv : RmnetPriv}
    (hd : devs d = some priv) :
    rmnetGetEndpoint port priv.muxId = some { muxId := priv.muxId, egressDev := some d } := by
  rw [h.get, ownEp, (h.dev priv.muxId d).mpr ⟨priv, hd, rfl⟩]
  rfl

/-- Every bucket index fits, so there are never more endpoints than ids. -/
theorem MuxTable.length_le (h : MuxTable owner devs port) : port.endpoints.length ≤ maxLogicalEp := by
  have hle := h.table.length_le (fun b ep hep => (ownEp_key hep).1) (List.range maxLogicalEp)
  rwa [List.length_range] at hle

theorem MuxTable.bijection (h : MuxTable owner devs port) {r : ℕ} {st : LinkState} (hdevs : st.devs = devs)
    (hreal : ∀ d priv, st.devs d = some priv → priv.realDev = r) : MuxBijection r st port := by
  have hhas : ∀ d id, HasMuxId st r d id ↔ owner id = some d := by
    intro d id
    rw [h.dev, ← hdevs]
    constructor
    · rintro ⟨priv, hd, -, hid⟩
      exact ⟨priv, hd, hid⟩
    · rintro ⟨priv, hd, hid⟩
      exact ⟨priv, hd, hreal d priv hd, hid⟩
  refine ⟨?_, ?_, h.nr, ?_, ?_⟩
  · exact h.table.nodup_keys (fun b ep hep => (ownEp_key hep).1) List.nodup_range
  · intro b _ ep hep
    rw [h.table b, Option.mem_toList] at hep
    exact (ownEp_key hep).1
  · intro id _ ep hep
    rw [h.get] at hep
    obtain ⟨hid, hown, hsome⟩ := ownEp_key hep
    obtain ⟨d, hd⟩ := Option.isSome_iff_exists.mp hsome
    refine ⟨hid, d, hd, fun d' => ?_⟩
    rw [hhas, hown, hd, Option.some.injEq, eq_comm]
  · intro id _ hnone d hd
    rw [h.get_none] at hnone
    rw [hhas, hnone] at hd
    cases hd

/-- The table reads the buckets, the count and the mode of the port, and the mux ids of the devices. -/
theorem MuxTable.congr (h : MuxTable owner devs port) {devs' : ℕ → Option RmnetPriv} {port' : LinkPort}
    (hep : port'.muxedEp = port.muxedEp) (hnr : port'.nrRmnetDevs = port.nrRmnetDevs)
    (hmode : port'.rmnetMode = port.rmnetMode)
    (hdev : ∀ d b, (∃ priv, devs' d = some priv ∧ priv.muxId = b) ↔
      ∃ priv, devs d = some priv ∧ priv.muxId = b) : MuxTable owner devs' port' where
  table := by rw [hep]; exact h.table
  lt := h.lt
  dev := fun b d => (h.dev b d).trans (hdev d b).symm
  nr := by rw [hnr, h.nr, LinkPort.endpoints, LinkPort.endpoints, hep]
  mode := by rw [hmode]; exact h.mode

/-! ### The operations on the map -/

theorem muxTable_empty (hep : port.muxedEp = fun _ => []) (hnr : port.nrRmnetDevs = 0)
    (hmode : port.rmnetMode ≠ rmnetEpmodeBridge) (hdevs : ∀ d, devs d = none) :
    MuxTable (fun _ => none) devs port where
  table := by rw [hep]; exact represents_empty
  lt := by
    intro b d hb
    cases hb
  dev := by simp [hdevs]
  nr := by rw [hnr, LinkPort.endpoints, hep]; simp
  mode := hmode

/-- Creation adds a pair. -/
theorem MuxTable.add (h : MuxTable owner devs port) {m dev : ℕ} {priv : RmnetPriv} {port' : LinkPort}
    (hm : m < maxLogicalEp) (hfree : owner m = none) (hdev : devs dev = none) (hpriv : priv.muxId = m)
    (hep : port'.muxedEp
      = Function.update port.muxedEp m ({ muxId := m, egressDev := some dev } :: port.muxedEp m))
    (hnr : port'.nrRmnetDevs = u8 (port.nrRmnetDevs + 1)) (hmode : port'.rmnetMode = rmnetEpmodeVnd) :
    MuxTable (Function.update owner m (some dev)) (Function.update devs dev (some priv)) port' := by
  have hnone : ownEp owner m = none := by rw [ownEp, hfree]; rfl
  have htable : Represents port'.muxedEp (ownEp (Function.update owner m (some dev))) := by
    rw [hep, ownEp_update]
    exact h.table.push { muxId := m, egressDev := some dev } hnone
  have hlen : port'.endpoints.length = port.endpoints.length + 1 := by
    have hp := entries_push port.muxedEp ({ muxId := m, egressDev := some dev } : RmnetEndpoint)
      (List.nodup_range (n := maxLogicalEp)) (List.mem_range.mpr hm)
    rw [← hep] at hp
    exact hp.length_eq
  have hle : port'.endpoints.length ≤ maxLogicalEp := by
    have hle := htable.length_le (fun b ep hep => (ownEp_key hep).1) (List.range maxLogicalEp)
    rwa [List.length_range] at hle
  refine ⟨htable, ?_, ?_, ?_, by rw [hmode]; simp [rmnetEpmodeVnd, rmnetEpmodeBridge]⟩
  · intro b d hb
    by_cases hbm : b = m
    · rw [hbm]
      exact hm
    · rw [Function.update_of_ne hbm] at hb
      exact h.lt b d hb
  · intro b d
    by_cases hd : d = dev
    · subst hd
      simp only [Function.update_self, Option.some.injEq, exists_eq_left', hpriv]
      by_cases hbm : b = m
      · simp [hbm]
      · rw [Function.update_of_ne hbm, h.dev]
        simp [hdev, Ne.symm hbm]
    · rw [Function.update_of_ne hd, ← h.dev]
      by_cases hbm : b = m
      · subst hbm
        rw [Function.update_self, hfree]
        simp [Ne.symm hd]
      · rw [Function.update_of_ne hbm]
  · rw [hnr, hlen, h.nr]
    have hmax : maxLogicalEp = 255 := rfl
    exact u8_of_lt (by omega)

/-- Deletion removes one. -/
theorem MuxTable.remove (h : MuxTable owner devs port) {d : ℕ} {priv : RmnetPriv} {port' : LinkPort}
    (hd : devs d = some priv) (hep : port'.muxedEp = Function.update port.muxedEp priv.muxId [])
    (hnr : port'.nrRmnetDevs = sub8 port.nrRmnetDevs 1) (hmode : port'.rmnetMode = port.rmnetMode) :
    MuxTable (Function.update owner priv.muxId none) (Function.update devs d none) port' := by
  have hown : owner priv.muxId = some d := (h.dev _ _).mpr ⟨priv, hd, rfl⟩
  have hlt := h.lt _ _ hown
  have hsome : ownEp owner priv.muxId = some { muxId := priv.muxId, egressDev := some d } := by
    rw [ownEp, hown]
    rfl
  have hlen : port.endpoints.length = port'.endpoints.length + 1 := by
    have hp := h.table.entries_clear hsome (List.nodup_range (n := maxLogicalEp)) (List.mem_range.mpr hlt)
    rw [← hep] at hp
    exact hp.length_eq
  refine ⟨?_, ?_, ?_, ?_, by rw [hmode]; exact h.mode⟩
  · rw [hep, ownEp_update]
    exact h.table.clear priv.muxId
  · intro b c hb
    by_cases hbm : b = priv.muxId
    · rw [hbm, Function.update_self] at hb
      cases hb
    · rw [Function.update_of_ne hbm] at hb
      exact h.lt b c hb
  · intro b c
    by_cases hc : c = d
    · subst hc
      rw [Function.update_self]
      by_cases hbm : b = priv.muxId
      · simp [hbm]
      · rw [Function.update_of_ne hbm, h.dev]
        simp [hd, Ne.symm hbm]
    · rw [Function.update_of_ne hc, ← h.dev]
      by_cases hbm : b = priv.muxId
      · rw [hbm, Function.update_self, hown]
        simp [Ne.symm hc]
      · rw [Function.update_of_ne hbm]
  · have hle := h.length_le
    have hmax : maxLogicalEp = 255 := rfl
    rw [hnr, h.nr, hlen, sub8_of_le (by omega) (by omega), Nat.add_sub_cancel]

/-- The endpoint of a device is in the list of all endpoints. -/
theorem MuxTable.mem_endpoints (h : MuxTable owner devs port) {d : ℕ} {priv : RmnetPriv}
    (hd : devs d = some priv) :
    ({ muxId := priv.muxId, egressDev := some d } : RmnetEndpoint) ∈ port.endpoints := by
  have hown := (h.dev priv.muxId d).mpr ⟨priv, hd, rfl⟩
  refine mem_entries.mpr ⟨priv.muxId, List.mem_range.mpr (h.lt _ _ hown), ?_⟩
  rw [h.table, ownEp, hown]
  exact List.mem_singleton.mpr rfl

/-- Every endpoint in the list belongs to a device. -/
theorem MuxTable.of_mem_endpoints (h : MuxTable owner devs port) {ep : RmnetEndpoint}
    (hep : ep ∈ port.endpoints) : ep.muxId < maxLogicalEp ∧ ∃ d, ep.egressDev = some d ∧ (devs d).isSome := by
  obtain ⟨b, hb, hep⟩ := mem_entries.mp hep
  rw [h.table, Option.mem_toList] at hep
  obtain ⟨hid, hown, hsome⟩ := ownEp_key hep
  obtain ⟨d, hd⟩ := Option.isSome_iff_exists.mp hsome
  rw [hd] at hown
  obtain ⟨priv, hpriv, -⟩ := (h.dev b d).mp hown
  refine ⟨?_, d, hd, by rw [hpriv]; rfl⟩
  rw [hid]
  exact List.mem_range.mp hb

/-- The devices of the endpoints are all devices. -/
theorem MuxTable.mem_egress (h : MuxTable owner devs port) (d : ℕ) :
    d ∈ port.endpoints.filterMap RmnetEndpoint.egressDev ↔ (devs d).isSome := by
  rw [List.mem_filterMap]
  constructor
  · rintro ⟨ep, hep, hd⟩
    obtain ⟨-, c, hc, hsome⟩ := h.of_mem_endpoints hep
    rw [hd, Option.some.injEq] at hc
    rwa [hc]
  · intro hsome
    obtain ⟨priv, hd⟩ := Option.isSome_iff_exists.mp hsome
    exact ⟨_, h.mem_endpoints hd, rfl⟩

/-- A port without endpoints has no devices. -/
theorem MuxTable.no_devs (h : MuxTable owner devs port) (hnr : port.nrRmnetDevs = 0) (d : ℕ) :
    devs d = none := by
  have hnil : port.endpoints = [] := by rw [← List.length_eq_zero_iff, ← h.nr, hnr]
  cases hd : devs d with
  | none => rfl
  | some priv =>
    have hmem := h.mem_endpoints hd
    rw [hnil] at hmem
    cases hmem

/-- Nothing is outside the buckets that `hash_for_each_safe` goes through. -/
theorem MuxTable.beyond (h : MuxTable owner devs port) :
    (fun b => if b < maxLogicalEp then [] else port.muxedEp b) = fun _ => [] := by
  funext b
  split
  · rfl
  · rename_i hb
    rw [h.table]
    cases hown : owner b with
    | none => rw [ownEp, hown]; rfl
    | some d => exact absurd (h.lt b d hown) hb

/-- A change of the mux id to a free one, or to the one that the device has, moves a pair. -/
theorem MuxTable.move (h : MuxTable owner devs port) {d m : ℕ} {priv priv' : RmnetPriv} {port' : LinkPort}
    (hd : devs d = some priv) (hm : m < maxLogicalEp) (hfree : m = priv.muxId ∨ owner m = none)
    (hpriv : priv'.muxId = m)
    (hep : port'.muxedEp = Function.update (Function.update port.muxedEp priv.muxId []) m
      ({ muxId := m, egressDev := some d } :: Function.update port.muxedEp priv.muxId [] m))
    (hnr : port'.nrRmnetDevs = port.nrRmnetDevs) (hmode : port'.rmnetMode = port.rmnetMode) :
    MuxTable (Function.update (Function.update owner priv.muxId none) m (some d))
      (Function.update devs d (some priv')) port' := by
  have hown : owner priv.muxId = some d := (h.dev _ _).mpr ⟨priv, hd, rfl⟩
  have hlt := h.lt _ _ hown
  have hsome : ownEp owner priv.muxId = some { muxId := priv.muxId, egressDev := some d } := by
    rw [ownEp, hown]
    rfl
  set cleared := Function.update owner priv.muxId none with hcleared
  have hnone : cleared m = none := by
    rcases hfree with rfl | hfree
    · exact Function.update_self ..
    · by_cases hmp : m = priv.muxId
      · rw [hmp]
        exact Function.update_self ..
      · rw [hcleared, Function.update_of_ne hmp, hfree]
  refine ⟨?_, ?_, ?_, ?_, by rw [hmode]; exact h.mode⟩
  · have hclear := h.table.clear priv.muxId
    have hown' : Function.update (ownEp owner) priv.muxId none = ownEp cleared := by
      rw [hcleared, ownEp_update]
      rfl
    rw [hown'] at hclear
    rw [hep, ownEp_update]
    exact hclear.push { muxId := m, egressDev := some d } (by rw [ownEp, hnone]; rfl)
  · intro b c hb
    by_cases hbm : b = m
    · rw [hbm]
      exact hm
    · rw [Function.update_of_ne hbm] at hb
      by_cases hbp : b = priv.muxId
      · rw [hbp]
        exact hlt
      · rw [hcleared, Function.update_of_ne hbp] at hb
        exact h.lt b c hb
  · intro b c
    by_cases hc : c = d
    · subst hc
      simp only [Function.update_self, Option.some.injEq, exists_eq_left', hpriv]
      by_cases hbm : b = m
      · simp [hbm]
      · rw [Function.update_of_ne hbm]
        by_cases hbp : b = priv.muxId
        · rw [hbp, hcleared, Function.update_self]
          simp only [reduceCtorEq, false_iff]
          intro hmp
          exact hbm (hbp.trans hmp.symm)
        · rw [hcleared, Function.update_of_ne hbp, h.dev]
          simp [hd, Ne.symm hbm, Ne.symm hbp]
    · rw [Function.update_of_ne hc, ← h.dev]
      by_cases hbm : b = m
      · rw [hbm, Function.update_self]
        rcases hfree with rfl | hfree
        · rw [hown]
        · rw [hfree]
          simp [Ne.symm hc]
      · rw [Function.update_of_ne hbm]
        by_cases hbp : b = priv.muxId
        · rw [hbp, hcleared, Function.update_self, hown]
          simp [Ne.symm hc]
        · rw [hcleared, Function.update_of_ne hbp]
  · have hout := h.table.entries_clear hsome (List.nodup_range (n := maxLogicalEp)) (List.mem_range.mpr hlt)
    have hin := entries_push (Function.update port.muxedEp priv.muxId [])
      ({ muxId := m, egressDev := some d } : RmnetEndpoint) (List.nodup_range (n := maxLogicalEp))
      (List.mem_range.mpr hm)
    rw [← hep] at hin
    have h₁ : port.endpoints.length = _ := hout.length_eq
    have h₂ : port'.endpoints.length = _ := hin.length_eq
    rw [hnr, h.nr, h₁, h₂]
    rfl

end

theorem MuxInv.bijection {r : ℕ} {st : LinkState} (h : MuxInv r st) : PortBijection r st := by
  intro port hport
  obtain ⟨owner, htable⟩ := h.table port hport
  exact htable.bijection rfl h.real

/-! ### One request -/

section

variable {r : ℕ} {st : LinkState}

@[simp] theorem setPort_ports_self (st : LinkState) (r : ℕ) (port : Option LinkPort) :
    (st.setPort r port).ports r = port := by simp [LinkState.setPort]

theorem setPort_ports_ne (st : LinkState) {r r' : ℕ} (h : r' ≠ r) (port : Option LinkPort) :
    (st.setPort r port).ports r' = st.ports r' := by simp [LinkState.setPort, h]

@[simp] theorem setPort_devs (st : LinkState) (r : ℕ) (port : Option LinkPort) :
    (st.setPort r port).devs = st.devs := rfl

@[simp] theorem setDev_ports (st : LinkState) (d : ℕ) (priv : Option RmnetPriv) :
    (st.setDev d priv).ports = st.ports := rfl

@[simp] theorem setDev_devs (st : LinkState) (d : ℕ) (priv : Option RmnetPriv) :
    (st.setDev d priv).devs = Function.update st.devs d priv := rfl

theorem update_real {devs : ℕ → Option RmnetPriv} {d : ℕ} {priv : Option RmnetPriv}
    (h : ∀ d priv, devs d = some priv → priv.realDev = r) (hp : ∀ p, priv = some p → p.realDev = r) :
    ∀ c p, Function.update devs d priv c = some p → p.realDev = r := by
  intro c p hc
  by_cases hcd : c = d
  · rw [hcd, Function.update_self] at hc
    exact hp p hc
  · rw [Function.update_of_ne hcd] at hc
    exact h c p hc

theorem muxInv_init (h : LinkInit st) : MuxInv r st := by
  refine ⟨?_, fun r' _ => h.ports r', ?_, fun _ => h.devs⟩
  · intro d priv hd
    rw [h.devs] at hd
    cases hd
  · intro port hport
    rw [h.ports] at hport
    cases hport

/-- A state with the port and the devices of `r` written. -/
theorem MuxInv.write (h : MuxInv r st) {st' : LinkState} {owner : ℕ → Option ℕ} {port : LinkPort}
    (hports : st'.ports = Function.update st.ports r (some port))
    (hreal : ∀ d priv, st'.devs d = some priv → priv.realDev = r)
    (htable : MuxTable owner st'.devs port) : MuxInv r st' := by
  refine ⟨hreal, ?_, ?_, ?_⟩
  · intro r' hr'
    rw [hports, Function.update_of_ne hr']
    exact h.others r' hr'
  · intro port' hport'
    rw [hports, Function.update_self, Option.some.injEq] at hport'
    subst hport'
    exact ⟨owner, htable⟩
  · intro hnone
    rw [hports, Function.update_self] at hnone
    cases hnone

theorem registerRealDevice_inv (h : MuxInv r st) (env : LinkEnv) :
    MuxInv r (rmnetRegisterRealDevice env st r).1 ∧
      (rmnetRegisterRealDevice env st r).1.devs = st.devs := by
  unfold rmnetRegisterRealDevice rmnetIsRealDevRegistered
  split
  · exact ⟨h, rfl⟩
  · rename_i hreg
    have hnone : st.ports r = none := by simpa using hreg
    split
    · exact ⟨h, rfl⟩
    · split
      · exact ⟨h, rfl⟩
      · have hempty : MuxTable (fun _ => none) st.devs newPort :=
          muxTable_empty rfl rfl (by simp [newPort, rmnetEpmodeBridge]) (h.unregistered hnone)
        exact ⟨h.write rfl h.real hempty, rfl⟩

/-- A port without endpoints has no devices, so it may go. -/
theorem unregisterRealDevice_inv (h : MuxInv r st) {port : LinkPort} (hport : st.ports r = some port) :
    MuxInv r (rmnetUnregisterRealDevice st r port).1 := by
  unfold rmnetUnregisterRealDevice
  split
  · exact h
  · rename_i hnr
    obtain ⟨owner, htable⟩ := h.table port hport
    refine ⟨h.real, ?_, ?_, fun _ => htable.no_devs (not_not.mp hnr)⟩
    · intro r' hr'
      rw [setPort_ports_ne st hr']
      exact h.others r' hr'
    · intro port' hport'
      rw [setPort_ports_self] at hport'
      cases hport'

theorem unregisterRealDevice_devs (st : LinkState) (r : ℕ) (port : LinkPort) :
    (rmnetUnregisterRealDevice st r port).1.devs = st.devs := by
  unfold rmnetUnregisterRealDevice
  split <;> rfl

theorem unregisterBridge_eq (st : LinkState) {port : LinkPort} (h : port.rmnetMode ≠ rmnetEpmodeBridge) :
    rmnetUnregisterBridge st port = some st := by
  rw [rmnetUnregisterBridge, if_pos h]

/-- The requests write the format and the aggregation parameters of the port beside its table. -/
theorem setFlags_table (port : LinkPort) (flags : Option (ℕ × ℕ)) :
    ∃ ul, port.setFlags flags = { port with ul := ul } := by
  cases flags with
  | none => exact ⟨port.ul, rfl⟩
  | some f => exact ⟨_, rfl⟩

theorem setAggParams_table (port : LinkPort) (params : Option RmnetEgressAggParams) :
    ∃ ul, port.setAggParams params = { port with ul := ul } := by
  cases params with
  | none => exact ⟨port.ul, rfl⟩
  | some p => exact ⟨_, rfl⟩

theorem updateAggConfig_table (port : LinkPort) (pages : List ℕ) (params : Option RmnetEgressAggParams) :
    ∃ ul, port.updateAggConfig pages params = { port with ul := ul } := by
  cases params with
  | none => exact ⟨port.ul, rfl⟩
  | some p => exact ⟨_, rfl⟩

/-- A message of a link change writes no table either, and keeps the mux id of the `qos_info`. -/
theorem changeLink_table (env : LinkEnv) (cfg : DfcConfig) (port : LinkPort) (qos : Option QosInfo)
    (tcm : Tcmsg) : (∃ ul, (qmiRmnetChangeLink env cfg port qos tcm).2.1 = { port with ul := ul }) ∧
      (qmiRmnetChangeLink env cfg port qos tcm).2.2.map QosInfo.muxId = qos.map QosInfo.muxId := by
  have hsame : (∃ ul, port = { port with ul := ul }) ∧ qos.map QosInfo.muxId = qos.map QosInfo.muxId :=
    ⟨⟨port.ul, rfl⟩, rfl⟩
  cases tcm with
  | flowActivate tcm =>
    simp only [qmiRmnetChangeLink]
    split
    · exact hsame
    · refine ⟨hsame.1, ?_⟩
      cases qos with
      | none => rfl
      | some q => exact congrArg some (addFlow_write cfg env.kzFlow env.kzBearer q tcm).muxId
  | flowDeactivate tcm =>
    simp only [qmiRmnetChangeLink]
    split
    · exact hsame
    · refine ⟨hsame.1, ?_⟩
      cases qos with
      | none => rfl
      | some q => exact congrArg some (delFlow_write cfg q tcm).muxId
  | clientSetup ifindex =>
    simp only [qmiRmnetChangeLink]
    split
    · exact hsame
    · split
      · exact ⟨⟨_, rfl⟩, rfl⟩
      · exact hsame
  | clientDelete handle =>
    simp only [qmiRmnetChangeLink]
    split
    · exact ⟨⟨_, rfl⟩, rfl⟩
    · exact hsame
  | scaleFactor ifindex =>
    simp only [qmiRmnetChangeLink]
    split
    · exact hsame
    · exact hsame
  | other => exact hsame

/-- Validated mux ids index the table. -/
theorem validate_muxId {data : LinkAttrs} (h : rmnetRtnlValidate data = 0) {muxId : ℕ}
    (hm : data.muxId = some muxId) : muxId < maxLogicalEp ∧ u8 muxId = muxId := by
  have hmax : maxLogicalEp = 255 := rfl
  unfold rmnetRtnlValidate at h
  rw [hm] at h
  split at h
  · simp [erange] at h
  · rename_i hle
    simp only [Option.any_some, decide_eq_true_eq] at hle
    exact ⟨by omega, u8_of_lt (by omega)⟩

/-- The qos data of every device has the mux id of the device. -/
def QosAgrees (st : LinkState) : Prop :=
  ∀ d priv qos, st.devs d = some priv → priv.qosInfo = some qos → qos.muxId = priv.muxId

theorem QosAgrees.update {devs : ℕ → Option RmnetPriv} {d : ℕ} {priv : Option RmnetPriv}
    (h : ∀ d priv qos, devs d = some priv → priv.qosInfo = some qos → qos.muxId = priv.muxId)
    (hp : ∀ p qos, priv = some p → p.qosInfo = some qos → qos.muxId = p.muxId) :
    ∀ c p qos, Function.update devs d priv c = some p → p.qosInfo = some qos → qos.muxId = p.muxId := by
  intro c p qos hc
  by_cases hcd : c = d
  · rw [hcd, Function.update_self] at hc
    exact hp p qos hc
  · rw [Function.update_of_ne hcd] at hc
    exact h c p qos hc

/-- The two outcomes of `rmnet_vnd_newlink` for a fresh endpoint. -/
theorem vndNewlink_cases (env : LinkEnv) (id dev realDev : ℕ) (port : LinkPort) :
    (∃ err, err ≠ 0 ∧ rmnetVndNewlink env id dev realDev port {} = ((port, {}, none), err)) ∨
    (rmnetGetEndpoint port id = none ∧ ∃ qos, (∀ q, qos = some q → q.muxId = id) ∧
      rmnetVndNewlink env id dev realDev port {} =
        (({ port with nrRmnetDevs := u8 (port.nrRmnetDevs + 1) }, { muxId := id, egressDev := some dev },
          some { realDev := realDev, muxId := id, qosInfo := qos }), 0)) := by
  unfold rmnetVndNewlink
  simp only [Option.isSome_none, Bool.false_eq_true, if_false]
  by_cases hep : (rmnetGetEndpoint port id).isSome = true
  · rw [if_pos hep]
    exact .inl ⟨-ebusy, by simp [ebusy], rfl⟩
  · rw [if_neg hep]
    by_cases hreg : env.registerNetdevice ≠ 0
    · rw [if_pos hreg]
      exact .inl ⟨env.registerNetdevice, hreg, rfl⟩
    · rw [if_neg hreg]
      refine .inr ⟨by simpa using hep, _, ?_, rfl⟩
      intro q hq
      split at hq
      · cases hq
        rfl
      · cases hq

theorem newlink_inv (h : MuxInv r st) (env : LinkEnv) {dev : ℕ} {data : LinkAttrs}
    (hdev : st.devs dev = none) (hlink : ∀ r', data.link = some r' → r' = r)
    (hval : rmnetRtnlValidate data = 0) :
    MuxInv r (rmnetNewlink env st dev data).1 ∧ (QosAgrees st → QosAgrees (rmnetNewlink env st dev data).1) := by
  unfold rmnetNewlink
  cases hl : data.link with
  | none => exact ⟨h, id⟩
  | some r' =>
    rw [hlink r' hl]
    cases hm : data.muxId with
    | none => exact ⟨h, id⟩
    | some muxId =>
      obtain ⟨hlt, hu8⟩ := validate_muxId hval hm
      obtain ⟨hreg, hdevs⟩ := registerRealDevice_inv h env
      simp only
      split
      · exact ⟨h, id⟩
      · generalize rmnetRegisterRealDevice env st r = res at hreg hdevs ⊢
        obtain ⟨st₁, err⟩ := res
        simp only at hreg hdevs ⊢
        have hagree₁ : QosAgrees st → QosAgrees st₁ := fun hq => by
          unfold QosAgrees
          rw [hdevs]
          exact hq
        split
        · exact ⟨hreg, hagree₁⟩
        · cases hport : st₁.ports r with
          | none => exact ⟨hreg, hagree₁⟩
          | some port =>
            simp only
            rw [hu8]
            rcases vndNewlink_cases env muxId dev r port with ⟨err, herr, heq⟩ | ⟨hfree, qos, hqos, heq⟩
            · rw [heq]
              split
              · rename_i h0
                simp only [Prod.mk.injEq] at h0
                exact absurd h0.2 herr
              · refine ⟨unregisterRealDevice_inv hreg hport, fun hq => ?_⟩
                unfold QosAgrees
                rw [unregisterRealDevice_devs]
                exact hagree₁ hq
            · rw [heq]
              simp only
              obtain ⟨owner, htable⟩ := hreg.table port hport
              set counted : LinkPort :=
                { port with nrRmnetDevs := u8 (port.nrRmnetDevs + 1), rmnetMode := rmnetEpmodeVnd }
              set added := counted.addHead muxId { muxId := muxId, egressDev := some dev }
              obtain ⟨ul₁, h₁⟩ := setFlags_table added data.flags
              obtain ⟨ul₂, h₂⟩ := setAggParams_table (added.setFlags data.flags) data.ulAggParams
              rw [h₂, h₁]
              set priv : RmnetPriv := { realDev := r, muxId := muxId, qosInfo := qos }
              have hadd : MuxTable (Function.update owner muxId (some dev))
                  (Function.update st₁.devs dev (some priv)) { added with ul := ul₂ } :=
                htable.add hlt (htable.get_none.mp hfree) (hdevs ▸ hdev) rfl rfl rfl rfl
              refine ⟨hreg.write rfl (update_real hreg.real ?_) hadd, fun hq => ?_⟩
              · rintro p ⟨⟩
                rfl
              · refine QosAgrees.update (hagree₁ hq) ?_
                rintro p q ⟨⟩ hpq
                exact hqos q hpq

theorem MuxTable.delFound {owner : ℕ → Option ℕ} {devs : ℕ → Option RmnetPriv} {port : LinkPort}
    (h : MuxTable owner devs port) (b : ℕ) :
    (port.delFound b).muxedEp = Function.update port.muxedEp b [] := by
  have herase : (port.muxedEp b).eraseP (fun ep => ep.muxId = b) = [] :=
    h.table.eraseP fun ep hep => by simp [(ownEp_key hep).1]
  rw [LinkPort.delFound, herase]

/-- The mux id part of a link change keeps the table, when the new id is the old one or free. -/
theorem changeMuxId_table {owner : ℕ → Option ℕ} {devs : ℕ → Option RmnetPriv} {port : LinkPort}
    (h : MuxTable owner devs port) {d : ℕ} {priv : RmnetPriv} (hd : devs d = some priv) {data : LinkAttrs}
    (hval : rmnetRtnlValidate data = 0)
    (hfree : ∀ m, data.muxId = some m → m = priv.muxId ∨ rmnetGetEndpoint port m = none) :
    ∃ port' owner', changeMuxId port priv data.muxId
        = some (port', { priv with muxId := data.muxId.getD priv.muxId }) ∧
      ∀ priv', priv'.muxId = data.muxId.getD priv.muxId →
        MuxTable owner' (Function.update devs d (some priv')) port' := by
  cases hm : data.muxId with
  | none =>
    refine ⟨port, owner, rfl, fun priv' hpriv' => h.congr rfl rfl rfl fun c b => ?_⟩
    by_cases hc : c = d
    · subst hc
      simp only [Function.update_self, Option.some.injEq, exists_eq_left', hpriv', hd, Option.getD_none]
    · rw [Function.update_of_ne hc]
  | some m =>
    obtain ⟨hlt, hu8⟩ := validate_muxId hval hm
    refine ⟨(port.delFound priv.muxId).addHead m { muxId := m, egressDev := some d },
      Function.update (Function.update owner priv.muxId none) m (some d), ?_, fun priv' hpriv' => ?_⟩
    · rw [changeMuxId, h.get_dev hd, hu8]
      rfl
    · refine h.move hd hlt ((hfree m hm).imp_right h.get_none.mp) hpriv' ?_ rfl rfl
      rw [LinkPort.addHead, h.delFound]

/-- What an accepted link change writes, once the mux id is changed. -/
theorem changelink_accepted (env : LinkEnv) {st : LinkState} {dev r : ℕ} {data : LinkAttrs}
    {port port₁ : LinkPort} {priv priv₁ : RmnetPriv} (hlink : data.link = some r)
    (hport : st.ports r = some port) (hd : st.devs dev = some priv)
    (hchange : changeMuxId port priv data.muxId = some (port₁, priv₁)) :
    ∃ ul cfg qos, (rmnetChangelink env st dev data).1
        = { ports := Function.update st.ports r (some { port₁ with ul := ul })
            devs := Function.update st.devs dev (some { priv₁ with qosInfo := qos })
            cfg := cfg } ∧
      qos.map QosInfo.muxId = priv₁.qosInfo.map QosInfo.muxId := by
  unfold rmnetChangelink
  simp only [hlink, hd, hport, hchange]
  obtain ⟨ul₁, h₁⟩ := setFlags_table port₁ data.flags
  rw [h₁]
  cases data.dfcQos with
  | none =>
    obtain ⟨ul₃, h₃⟩ := updateAggConfig_table { port₁ with ul := ul₁ } env.pages data.ulAggParams
    simp only [h₃]
    exact ⟨ul₃, _, priv₁.qosInfo, rfl, rfl⟩
  | some tcm =>
    obtain ⟨⟨ul₂, h₂⟩, hqos⟩ := changeLink_table env st.cfg { port₁ with ul := ul₁ } priv₁.qosInfo tcm
    obtain ⟨ul₃, h₃⟩ := updateAggConfig_table { port₁ with ul := ul₂ } env.pages data.ulAggParams
    simp only [h₂, h₃]
    exact ⟨ul₃, _, _, rfl, hqos⟩

/-- A link change is refused without effect, or it finds its port, its device and the endpoint of it. -/
theorem changelink_cases (h : MuxInv r st) (env : LinkEnv) (dev : ℕ) (data : LinkAttrs) :
    (rmnetChangelink env st dev data).1 = st ∨
    ∃ port priv, data.link = some r ∧ st.ports r = some port ∧ st.devs dev = some priv ∧
      rmnetGetEndpoint port priv.muxId = some { muxId := priv.muxId, egressDev := some dev } := by
  unfold rmnetChangelink
  cases hl : data.link with
  | none => exact .inl rfl
  | some r' =>
    cases hd : st.devs dev with
    | none => exact .inl rfl
    | some priv =>
      simp only
      cases hport : st.ports r' with
      | none => exact .inl rfl
      | some port =>
        have hr' : r' = r := by
          by_contra hne
          rw [h.others r' hne] at hport
          cases hport
        subst hr'
        obtain ⟨owner, htable⟩ := h.table port hport
        exact .inr ⟨port, priv, rfl, hport, rfl, htable.get_dev hd⟩

theorem changelink_inv (h : MuxInv r st) (env : LinkEnv) {dev : ℕ} {data : LinkAttrs}
    (hval : rmnetRtnlValidate data = 0) (hfree : RenameFree st (.changelink env dev data)) :
    MuxInv r (rmnetChangelink env st dev data).1 := by
  rcases changelink_cases h env dev data with heq | ⟨port, priv, hl, hport, hd, hget⟩
  · rw [heq]
    exact h
  · obtain ⟨owner, htable⟩ := h.table port hport
    obtain ⟨port₁, owner', hchange, htable'⟩ := changeMuxId_table htable hd hval
      fun m hm => hfree r port priv m hl hport hd hm (by rw [hget]; rfl)
    obtain ⟨ul, cfg, qos, heq, -⟩ := changelink_accepted env hl hport hd hchange
    rw [heq]
    refine h.write rfl (update_real h.real ?_) ((htable' _ ?_).congr rfl rfl rfl fun _ _ => Iff.rfl)
    · rintro p ⟨⟩
      exact h.real dev priv hd
    · rfl

theorem dellink_inv (h : MuxInv r st) (dev : ℕ) :
    ∃ st', rmnetDellink st dev = some st' ∧ MuxInv r st' ∧ (QosAgrees st → QosAgrees st') := by
  unfold rmnetDellink
  cases hd : st.devs dev with
  | none => exact ⟨st, rfl, h, id⟩
  | some priv =>
    have hreal := h.real dev priv hd
    simp only
    rw [hreal]
    cases hport : st.ports r with
    | none => exact ⟨st, rfl, h, id⟩
    | some port =>
      obtain ⟨owner, htable⟩ := h.table port hport
      simp only
      rw [dellinkEndpoint, htable.get_dev hd]
      simp only
      have hmode : (port.delFound priv.muxId).rmnetMode ≠ rmnetEpmodeBridge := htable.mode
      rw [unregisterBridge_eq _ hmode, hreal]
      have hown : owner priv.muxId = some dev := (htable.dev _ _).mpr ⟨priv, hd, rfl⟩
      have hlt := htable.lt _ _ hown
      set deleted := rmnetVndDellink priv.muxId (port.delFound priv.muxId)
        { muxId := priv.muxId, egressDev := some dev } with hdeleted
      have heq : deleted
          = { port.delFound priv.muxId with nrRmnetDevs := sub8 (port.delFound priv.muxId).nrRmnetDevs 1 } := by
        rw [hdeleted, rmnetVndDellink, if_neg]
        simpa using hlt
      have hrem : MuxTable (Function.update owner priv.muxId none) (Function.update st.devs dev none)
          deleted := by
        rw [heq]
        exact htable.remove hd (htable.delFound priv.muxId) rfl rfl
      have hwrite : MuxInv r (((st.setPort r (some (port.delFound priv.muxId))).setPort r
          (some deleted)).setDev dev none) := by
        refine h.write ?_ (update_real h.real (by simp)) hrem
        simp [LinkState.setPort]
      refine ⟨_, rfl, unregisterRealDevice_inv hwrite (setPort_ports_self ..), fun hq => ?_⟩
      unfold QosAgrees
      rw [unregisterRealDevice_devs]
      exact QosAgrees.update hq (by simp)

/-- The loop over the endpoints counts down by their number. -/
theorem vndDellink_foldl (eps : List RmnetEndpoint) (heps : ∀ ep ∈ eps, ep.muxId < maxLogicalEp ∧
    ep.egressDev.isSome) : ∀ port : LinkPort, eps.length ≤ port.nrRmnetDevs → port.nrRmnetDevs < 256 →
      eps.foldl (fun port ep => rmnetVndDellink ep.muxId port ep) port
        = { port with nrRmnetDevs := port.nrRmnetDevs - eps.length } := by
  induction eps with
  | nil =>
    intro port _ _
    rfl
  | cons ep eps ih =>
    intro port hle hlt
    obtain ⟨hid, hsome⟩ := heps ep (by simp)
    rw [List.length_cons] at hle
    have hone : rmnetVndDellink ep.muxId port ep = { port with nrRmnetDevs := port.nrRmnetDevs - 1 } := by
      rw [rmnetVndDellink, if_neg, sub8_of_le (by omega) hlt]
      simp only [Option.isNone_iff_eq_none, not_or]
      exact ⟨by omega, Option.isSome_iff_ne_none.mp hsome⟩
    rw [List.foldl_cons, hone, ih (fun ep' hep' => heps ep' (by simp [hep'])) _ (by simp; omega) (by simp; omega)]
    simp only [List.length_cons]
    congr 1
    omega

theorem forceUnassociateDevice_inv (h : MuxInv r st) (dev : ℕ) :
    ∃ st', rmnetForceUnassociateDevice st dev = some st' ∧ MuxInv r st' ∧ (QosAgrees st → QosAgrees st') := by
  unfold rmnetForceUnassociateDevice
  cases hport : st.ports dev with
  | none => exact ⟨st, rfl, h, id⟩
  | some port =>
    have hr : dev = r := by
      by_contra hne
      rw [h.others dev hne] at hport
      cases hport
    subst hr
    obtain ⟨owner, htable⟩ := h.table port hport
    simp only
    rw [unregisterBridge_eq _ htable.mode, Option.map_some]
    refine ⟨_, rfl, ?_⟩
    have hmax : maxLogicalEp = 255 := rfl
    have hle := htable.length_le
    rw [vndDellink_foldl _ ?_ port (le_of_eq htable.nr.symm) (by rw [htable.nr]; omega)]
    swap
    · intro ep hep
      obtain ⟨hlt, d, hd, -⟩ := htable.of_mem_endpoints hep
      exact ⟨hlt, by rw [hd]; rfl⟩
    have hgone : ∀ d, (if d ∈ port.endpoints.filterMap RmnetEndpoint.egressDev then none else st.devs d)
        = none := by
      intro d
      split
      · rfl
      · rename_i hout
        rw [htable.mem_egress] at hout
        simpa using hout
    rw [htable.beyond, htable.nr, Nat.sub_self]
    set cleared : LinkState :=
      { ports := (st.setPort dev (some { port with nrRmnetDevs := 0, muxedEp := fun _ => [] })).ports
        devs := fun _ => none
        cfg := st.cfg } with hcleared
    simp only [setPort_devs, hgone]
    have hinv : MuxInv dev cleared :=
      h.write rfl (by simp [hcleared]) (muxTable_empty rfl rfl htable.mode fun _ => rfl)
    refine ⟨unregisterRealDevice_inv hinv (setPort_ports_self ..), fun _ => ?_⟩
    unfold QosAgrees
    show ∀ d priv qos, (rmnetUnregisterRealDevice cleared dev _).1.devs d = some priv → _
    rw [unregisterRealDevice_devs]
    simp [hcleared]

/-- Flow control writes the qos data of a device, not its mux id. -/
theorem dfc_inv (h : MuxInv r st) {dev : ℕ} {priv : RmnetPriv} (hd : st.devs dev = some priv)
    (qos : Option QosInfo) : MuxInv r (st.setDev dev (some { priv with qosInfo := qos })) := by
  refine ⟨update_real h.real ?_, h.others, ?_, ?_⟩
  · rintro p ⟨⟩
    exact h.real dev priv hd
  · intro port hport
    obtain ⟨owner, htable⟩ := h.table port hport
    refine ⟨owner, htable.congr rfl rfl rfl fun c b => ?_⟩
    rw [setDev_devs]
    by_cases hc : c = dev
    · subst hc
      simp only [Function.update_self, Option.some.injEq, exists_eq_left', hd]
    · rw [Function.update_of_ne hc]
  · intro hnone
    have hdev := h.unregistered hnone dev
    rw [hd] at hdev
    cases hdev

/-- **One step.**  A request that does not take an id away keeps the bijection. -/
theorem linkStep_inv (st : LinkState) (l : LinkLabel) (st' : LinkState) (h : MuxInv r st)
    (hs : LinkStep r st l st') (hok : RenameFree st l) : MuxInv r st' := by
  cases hs with
  | newlink env dev data hdev hlink hval => exact (newlink_inv h env hdev hlink hval).1
  | changelink env dev data hval => exact changelink_inv h env hval hok
  | dellink dev hdel =>
    obtain ⟨st₁, heq, hinv, -⟩ := dellink_inv h dev
    obtain rfl := Option.some.inj (hdel.symm.trans heq)
    exact hinv
  | forceUnassociate dev hforce =>
    obtain ⟨st₁, heq, hinv, -⟩ := forceUnassociateDevice_inv h dev
    obtain rfl := Option.some.inj (hforce.symm.trans heq)
    exact hinv
  | dfc dev e priv qos hd hq => exact dfc_inv h hd _

/-- What a change to a taken mux id leaves behind: two endpoints with that id in one bucket, the new one in
front, and the device of the other one. -/
theorem rename_clash (h : MuxInv r st) {env : LinkEnv} {dev : ℕ} {data : LinkAttrs}
    (hval : rmnetRtnlValidate data = 0) (hno : ¬ RenameFree st (.changelink env dev data)) :
    ∃ port m d priv, (rmnetChangelink env st dev data).1.ports r = some port ∧ m < maxLogicalEp ∧ d ≠ dev ∧
      port.muxedEp m = [{ muxId := m, egressDev := some dev }, { muxId := m, egressDev := some d }] ∧
      (rmnetChangelink env st dev data).1.devs d = some priv ∧ priv.muxId = m := by
  simp only [RenameFree, not_forall, not_or] at hno
  obtain ⟨r', port, priv, m, hl, hport, hd, hm, hsome, hne, htaken⟩ := hno
  have hr' : r' = r := by
    by_contra hne
    rw [h.others r' hne] at hport
    cases hport
  subst hr'
  obtain ⟨owner, htable⟩ := h.table port hport
  obtain ⟨hlt, hu8⟩ := validate_muxId hval hm
  have hchange : changeMuxId port priv data.muxId = some
      ((port.delFound priv.muxId).addHead m { muxId := m, egressDev := some dev },
        { priv with muxId := m }) := by
    rw [hm, changeMuxId, htable.get_dev hd, hu8]
  obtain ⟨ul, cfg, qos, heq, -⟩ := changelink_accepted env hl hport hd hchange
  have hget : ownEp owner m ≠ none := by rwa [htable.get] at htaken
  obtain ⟨ep, hep⟩ := Option.ne_none_iff_exists'.mp hget
  obtain ⟨d, hown, rfl⟩ := Option.map_eq_some_iff.mp hep
  obtain ⟨p, hp, hpm⟩ := (htable.dev m d).mp hown
  have hddev : d ≠ dev := by
    rintro rfl
    rw [hd, Option.some.injEq] at hp
    exact hne (by rw [← hpm, ← hp])
  refine ⟨{ (port.delFound priv.muxId).addHead m { muxId := m, egressDev := some dev } with ul := ul },
    m, d, p, ?_, hlt, hddev, ?_, ?_, hpm⟩
  · rw [heq]
    exact Function.update_self ..
  · simp only [LinkPort.addHead, Function.update_self, htable.delFound]
    rw [Function.update_of_ne hne, htable.table, hep]
    rfl
  · rw [heq]
    exact (Function.update_of_ne hddev _ _).trans hp

/-- The mux ids within one bucket are distinct too. -/
theorem MuxBijection.bucket {port : LinkPort} (h : MuxBijection r st port) {b : ℕ} (hb : b < maxLogicalEp) :
    ((port.muxedEp b).map RmnetEndpoint.muxId).Nodup := by
  have hnd := h.ids_distinct
  rw [LinkPort.endpoints, List.map_flatMap, List.nodup_flatMap] at hnd
  exact hnd.1 b (List.mem_range.mpr hb)

theorem rename_breaks (st : LinkState) (l : LinkLabel) (st' : LinkState) (h : MuxInv r st)
    (hs : LinkStep r st l st') (hno : ¬ RenameFree st l) : ¬ PortBijection r st' := by
  cases hs with
  | changelink env dev data hval =>
    obtain ⟨port, m, d, -, hport, hlt, -, hbucket, -, -⟩ := rename_clash h hval hno
    intro hP
    have hm := (hP port hport).bucket hlt
    rw [hbucket] at hm
    simp at hm
  | newlink => exact absurd trivial hno
  | dellink => exact absurd trivial hno
  | forceUnassociate => exact absurd trivial hno
  | dfc => exact absurd trivial hno

end

/-- **Exactly when the mux table is a bijection.**  Along any run, the table of the port is a bijection in
every state if and only if no accepted link change of the run names the mux id of another endpoint. -/
theorem mux_table_iff (r : ℕ) (h : List (LinkState × LinkLabel)) (st : LinkState)
    (hex : Exec LinkInit (LinkStep r) h st) :
    (∀ x ∈ h.map Prod.fst ++ [st], PortBijection r x) ↔ ∀ x ∈ h, RenameFree x.1 x.2 :=
  (hex.forall_iff (fun _ hi => muxInv_init hi) (fun _ hI => hI.bijection) linkStep_inv
    rename_breaks).1

/-! ### Deletions have a result -/

/-- No port is in bridge mode. -/
def NoBridge (st : LinkState) : Prop := ∀ r port, st.ports r = some port → port.rmnetMode ≠ rmnetEpmodeBridge

section

variable {st : LinkState}

theorem NoBridge.setPort (h : NoBridge st) {st' : LinkState} {r : ℕ} {o : Option LinkPort}
    (ho : ∀ port, o = some port → port.rmnetMode ≠ rmnetEpmodeBridge)
    (hports : st'.ports = Function.update st.ports r o) : NoBridge st' := by
  intro r' port hport
  rw [hports] at hport
  by_cases hr : r' = r
  · rw [hr, Function.update_self] at hport
    exact ho port hport
  · rw [Function.update_of_ne hr] at hport
    exact h r' port hport

theorem NoBridge.register (h : NoBridge st) (env : LinkEnv) (r : ℕ) :
    NoBridge (rmnetRegisterRealDevice env st r).1 := by
  unfold rmnetRegisterRealDevice
  split
  · exact h
  · split
    · exact h
    · split
      · exact h
      · refine h.setPort ?_ rfl
        rintro port ⟨⟩
        decide

theorem NoBridge.unregister (h : NoBridge st) (r : ℕ) (port : LinkPort) :
    NoBridge (rmnetUnregisterRealDevice st r port).1 := by
  unfold rmnetUnregisterRealDevice
  split
  · exact h
  · exact h.setPort (fun _ hnone => absurd hnone.symm (Option.some_ne_none _)) rfl

theorem NoBridge.newlink (h : NoBridge st) (env : LinkEnv) (dev : ℕ) (data : LinkAttrs) :
    NoBridge (rmnetNewlink env st dev data).1 := by
  unfold rmnetNewlink
  split
  · exact h
  · exact h
  · rename_i realDev muxId _ _
    split
    · exact h
    · have h₁ := h.register env realDev
      generalize rmnetRegisterRealDevice env st realDev = res at h₁ ⊢
      obtain ⟨st₁, err⟩ := res
      simp only at h₁ ⊢
      split
      · exact h₁
      · split
        · exact h₁
        · rename_i port _
          split
          · rename_i port₁ ep priv _
            obtain ⟨ul₁, hflags⟩ := setFlags_table
              (({ port₁ with rmnetMode := rmnetEpmodeVnd } : LinkPort).addHead muxId ep) data.flags
            obtain ⟨ul₂, hparams⟩ := setAggParams_table
              { ({ port₁ with rmnetMode := rmnetEpmodeVnd } : LinkPort).addHead muxId ep with ul := ul₁ }
              data.ulAggParams
            rw [hflags, hparams]
            refine NoBridge.setPort h₁ ?_ rfl
            rintro port ⟨⟩
            exact (by decide : rmnetEpmodeVnd ≠ rmnetEpmodeBridge)
          · exact h₁.unregister realDev port

theorem changeMuxId_mode {port port₁ : LinkPort} {priv priv₁ : RmnetPriv} {muxId : Option ℕ}
    (h : changeMuxId port priv muxId = some (port₁, priv₁)) : port₁.rmnetMode = port.rmnetMode := by
  cases muxId with
  | none =>
    cases h
    rfl
  | some muxId =>
    rw [changeMuxId] at h
    split at h
    · cases h
    · cases h
      rfl

theorem NoBridge.changelink (h : NoBridge st) (env : LinkEnv) (dev : ℕ) (data : LinkAttrs) :
    NoBridge (rmnetChangelink env st dev data).1 := by
  cases hl : data.link with
  | none =>
    simp only [rmnetChangelink, hl]
    exact h
  | some r =>
    cases hd : st.devs dev with
    | none =>
      simp only [rmnetChangelink, hl, hd]
      exact h
    | some priv =>
      cases hport : st.ports r with
      | none =>
        simp only [rmnetChangelink, hl, hd, hport]
        exact h
      | some port =>
        cases hchange : changeMuxId port priv data.muxId with
        | none =>
          simp only [rmnetChangelink, hl, hd, hport, hchange]
          exact h
        | some res =>
          obtain ⟨port₁, priv₁⟩ := res
          obtain ⟨ul, cfg, qos, heq, -⟩ := changelink_accepted env hl hport hd hchange
          refine h.setPort (o := some { port₁ with ul := ul }) ?_ (by rw [heq])
          rintro port₂ ⟨⟩
          have hmode := h r port hport
          rwa [← changeMuxId_mode hchange] at hmode

theorem vndDellink_mode (id : ℕ) (port : LinkPort) (ep : RmnetEndpoint) :
    (rmnetVndDellink id port ep).rmnetMode = port.rmnetMode := by
  unfold rmnetVndDellink
  split <;> rfl

theorem cleared_mode (port : LinkPort) : port.cleared.rmnetMode = port.rmnetMode := by
  have hfold : ∀ (eps : List RmnetEndpoint) (port : LinkPort),
      (eps.foldl (fun port ep => rmnetVndDellink ep.muxId port ep) port).rmnetMode = port.rmnetMode := by
    intro eps
    induction eps with
    | nil => exact fun _ => rfl
    | cons ep eps ih =>
      intro port
      rw [List.foldl_cons, ih, vndDellink_mode]
  exact hfold port.endpoints port

theorem NoBridge.dellink (h : NoBridge st) (dev : ℕ) : ∃ st', rmnetDellink st dev = some st' ∧ NoBridge st' := by
  unfold rmnetDellink
  cases st.devs dev with
  | none => exact ⟨st, rfl, h⟩
  | some priv =>
    simp only
    cases hport : st.ports priv.realDev with
    | none => exact ⟨st, rfl, h⟩
    | some port =>
      simp only [dellinkEndpoint]
      cases rmnetGetEndpoint port priv.muxId with
      | none =>
        have hgone : NoBridge (st.setDev dev none) := h
        exact ⟨_, rfl, hgone.unregister _ _⟩
      | some ep =>
        have hmode : (port.delFound priv.muxId).rmnetMode ≠ rmnetEpmodeBridge := h _ port hport
        simp only
        rw [unregisterBridge_eq _ hmode]
        refine ⟨_, rfl, NoBridge.unregister ?_ _ _⟩
        have hfound : NoBridge (st.setPort priv.realDev (some (port.delFound priv.muxId))) :=
          h.setPort (fun _ hsome => Option.some.inj hsome ▸ hmode) rfl
        refine hfound.setPort ?_ rfl
        rintro port' ⟨⟩
        rwa [vndDellink_mode]

theorem NoBridge.forceUnassociate (h : NoBridge st) (dev : ℕ) :
    ∃ st', rmnetForceUnassociateDevice st dev = some st' ∧ NoBridge st' := by
  unfold rmnetForceUnassociateDevice
  cases hport : st.ports dev with
  | none => exact ⟨st, rfl, h⟩
  | some port =>
    have hmode := h dev port hport
    simp only
    rw [unregisterBridge_eq _ hmode]
    refine ⟨_, rfl, NoBridge.unregister (h.setPort (o := some port.cleared) ?_ rfl) _ _⟩
    rintro port' ⟨⟩
    rwa [cleared_mode]

theorem noBridge_step {r : ℕ} {l : LinkLabel} {st' : LinkState} (h : NoBridge st) (hs : LinkStep r st l st') :
    NoBridge st' := by
  cases hs with
  | newlink env dev data _ _ _ => exact h.newlink env dev data
  | changelink env dev data _ => exact h.changelink env dev data
  | dellink dev hdel =>
    obtain ⟨st₁, heq, hkeep⟩ := h.dellink dev
    obtain rfl := Option.some.inj (hdel.symm.trans heq)
    exact hkeep
  | forceUnassociate dev hforce =>
    obtain ⟨st₁, heq, hkeep⟩ := h.forceUnassociate dev
    obtain rfl := Option.some.inj (hforce.symm.trans heq)
    exact hkeep
  | dfc dev e priv qos _ _ => exact h

/-- **Deletions have a result.**  In a run of link requests on one real device no bridge is made, so no deletion
meets a bridge device without a port. -/
theorem link_deletes {r : ℕ} {h : List (LinkState × LinkLabel)} (hex : Exec LinkInit (LinkStep r) h st) (dev : ℕ) :
    (∃ st', rmnetDellink st dev = some st') ∧ ∃ st', rmnetForceUnassociateDevice st dev = some st' := by
  have hinv : ∀ t ∈ h.map Prod.fst ++ [st], NoBridge t :=
    hex.invariant (fun s hs r port hport => absurd (hport.symm.trans (hs.ports r)) (Option.some_ne_none _))
      (fun s q _ hI hs (_ : True) => noBridge_step hI hs) fun _ _ => trivial
  have hno := hinv st (by simp)
  obtain ⟨st₁, hdel, -⟩ := hno.dellink dev
  obtain ⟨st₂, hforce, -⟩ := hno.forceUnassociate dev
  exact ⟨⟨st₁, hdel⟩, ⟨st₂, hforce⟩⟩

end

/-! ### The clash -/

/-- Nothing is registered. -/
def bareLink : LinkState :=
  { ports := fun _ => none, devs := fun _ => none,
    cfg := qmapCfg }

/-- The attributes that name a mux id on real device 0. -/
def muxAttrs (muxId : ℕ) : LinkAttrs := { link := some 0, muxId := some muxId }

/-- Device 1 with mux id 1. -/
def oneLink : LinkState := (rmnetNewlink {} bareLink 1 (muxAttrs 1)).1

/-- Device 2 with mux id 2 beside it. -/
def twoLinks : LinkState := (rmnetNewlink {} oneLink 2 (muxAttrs 2)).1

theorem oneLink_exec : Exec LinkInit (LinkStep 0) [(bareLink, .newlink {} 1 (muxAttrs 1))] oneLink :=
  (Exec.start ⟨fun _ => rfl, fun _ => rfl⟩).next (.newlink bareLink {} 1 (muxAttrs 1) rfl (by simp [muxAttrs]) rfl)

theorem twoLinks_exec : Exec LinkInit (LinkStep 0)
    [(bareLink, .newlink {} 1 (muxAttrs 1)), (oneLink, .newlink {} 2 (muxAttrs 2))] twoLinks :=
  oneLink_exec.next (.newlink oneLink {} 2 (muxAttrs 2) rfl (by simp [muxAttrs]) rfl)

/-- **A clash.**  Devices 1 and 2 have the mux ids 1 and 2; device 1 is given the mux id 2 as well, and the
table has two endpoints with it. -/
theorem mux_table_clash :
    ∃ h st, Exec LinkInit (LinkStep 0) h st ∧ ¬ PortBijection 0 st := by
  refine ⟨_, _, twoLinks_exec.next (.changelink twoLinks {} 1 (muxAttrs 2) rfl), ?_⟩
  intro hP
  have hbucket : ((rmnetChangelink {} twoLinks 1 (muxAttrs 2)).1.ports 0).map
      (fun port => (port.muxedEp 2).map RmnetEndpoint.muxId) = some [2, 2] := rfl
  obtain ⟨port, hport, hids⟩ := Option.map_eq_some_iff.mp hbucket
  have hnd := (hP port hport).bucket (show 2 < maxLogicalEp by decide)
  rw [hids] at hnd
  simp at hnd

/-- The run up to the two devices has no link change, so its table is a bijection. -/
theorem mux_table_two : PortBijection 0 twoLinks := by
  refine (mux_table_iff 0 _ _ twoLinks_exec).mpr ?_ twoLinks (by simp)
  intro x hx
  simp only [List.mem_cons, List.not_mem_nil, or_false] at hx
  rcases hx with rfl | rfl
  · exact trivial
  · exact trivial

end Rmnet
