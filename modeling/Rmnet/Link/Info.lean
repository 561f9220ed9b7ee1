import Rmnet.Link.MuxTable

/-!
# What a device reports of itself

`rmnet_fill_info` writes the configuration of a device as the attributes that `rmnet_newlink` and `rmnet_changelink`
read, into a message with the room of `rmnet_get_size`.  `IFLA_LINK` is added by the caller, from
`rmnet_vnd_get_iflink`.

* `fillInfo_isSome` — the room is enough.
* `PortsFit.step` — the parameters of a port can be reported and would be accepted again.
* `link_info_round_trip` — a report given back is accepted and changes nothing but the size of the aggregation,
  which becomes what whole pages hold; from then on reports are stable.
-/

namespace Rmnet

open Word Transition Bucket

/-! ### The report -/

/-- `nla_total_size`: the attribute header and the payload, padded to four bytes. -/
def nlaTotalSize (payload : ℕ) : ℕ := (4 + payload + 3) / 4 * 4

/-- `sizeof(struct ifla_rmnet_flags)`. -/
def iflaRmnetFlagsSize : ℕ := 8

/-- `sizeof(struct tcmsg)`. -/
def tcmsgSize : ℕ := 20

/-- `sizeof(struct rmnet_egress_agg_params)`. -/
def egressAggParamsSize : ℕ := 8

/-- `rmnet_get_size`. -/
def rmnetGetSize : ℕ :=
  nlaTotalSize 2 + nlaTotalSize iflaRmnetFlagsSize + nlaTotalSize tcmsgSize + nlaTotalSize egressAggParamsSize

/-- `nla_put`: the room that is left, or none when the attribute does not fit. -/
def nlaPut (room payload : ℕ) : Option ℕ :=
  if nlaTotalSize payload ≤ room then some (room - nlaTotalSize payload) else none

/-- `rmnet_fill_info` for a registered device, into a message with the given room; `none` is `-EMSGSIZE`. -/
def rmnetFillInfo (room : ℕ) (st : LinkState) (priv : RmnetPriv) : Option LinkAttrs :=
  (nlaPut room 2).bind fun room =>
    let port := if rmnetIsRealDevRegistered st priv.realDev then st.ports priv.realDev else none
    let flags := (port.map fun port => port.ul.dataFormat).getD 0
    (nlaPut room iflaRmnetFlagsSize).bind fun room =>
      let data : LinkAttrs :=
        { link := some priv.realDev, muxId := some priv.muxId, flags := some (flags, 4294967295) }
      match port with
      | none => some data
      | some port =>
          (nlaPut room egressAggParamsSize).map fun _ => { data with ulAggParams := some port.ul.egressAggParams }

/-- The report of a device whose port is registered. -/
def reportOf (port : LinkPort) (priv : RmnetPriv) : LinkAttrs :=
  { link := some priv.realDev
    muxId := some priv.muxId
    flags := some (port.ul.dataFormat, 4294967295)
    ulAggParams := some port.ul.egressAggParams }

/-- **The room of `rmnet_get_size` is enough.** -/
theorem fillInfo_isSome (st : LinkState) (priv : RmnetPriv) :
    (rmnetFillInfo rmnetGetSize st priv).isSome = true := by
  unfold rmnetFillInfo
  have hmux : nlaPut rmnetGetSize 2 = some 48 := rfl
  have hflags : nlaPut 48 iflaRmnetFlagsSize = some 36 := rfl
  have hparams : nlaPut 36 egressAggParamsSize = some 24 := rfl
  simp only [hmux, hflags, Option.bind_some]
  split
  · rfl
  · rw [hparams]
    rfl

theorem fillInfo_eq {st : LinkState} {priv : RmnetPriv} {port : LinkPort}
    (hport : st.ports priv.realDev = some port) : rmnetFillInfo rmnetGetSize st priv = some (reportOf port priv) := by
  have hmux : nlaPut rmnetGetSize 2 = some 48 := rfl
  have hflags : nlaPut 48 iflaRmnetFlagsSize = some 36 := rfl
  have hparams : nlaPut 36 egressAggParamsSize = some 24 := rfl
  simp only [rmnetFillInfo, rmnetIsRealDevRegistered, hport, hmux, hflags, hparams, Option.bind_some,
    Option.isSome_some, if_true, Option.map_some, Option.getD_some]
  rfl

/-! ### Parameters that fit -/

/-- The parameters of the aggregation fit their fields, and its time is one that `rmnet_rtnl_validate` accepts. -/
structure ParamsFit (p : RmnetEgressAggParams) : Prop where
  aggSize : p.aggSize < 65536
  aggCount : p.aggCount < 256
  aggFeatures : p.aggFeatures < 256
  aggTime : p.aggTime < 4294967296
  accepted : 1000000 ≤ p.aggTime

/-- What a port reports fits its fields. -/
structure UlFit (ul : UlPort) : Prop where
  dataFormat : ul.dataFormat < 4294967296
  params : ParamsFit ul.egressAggParams

/-- What every port reports fits. -/
def PortsFit (st : LinkState) : Prop := ∀ r port, st.ports r = some port → UlFit port.ul

/-- The attributes of a request have the values of their types. -/
structure LinkAttrs.Typed (data : LinkAttrs) : Prop where
  flags : ∀ flags mask, data.flags = some (flags, mask) → flags < 4294967296
  params : ∀ p, data.ulAggParams = some p →
    p.aggSize < 65536 ∧ p.aggCount < 256 ∧ p.aggFeatures < 256 ∧ p.aggTime < 4294967296

theorem typed_params {data : LinkAttrs} (ht : data.Typed) (hval : rmnetRtnlValidate data = 0)
    {p : RmnetEgressAggParams} (hp : data.ulAggParams = some p) : ParamsFit p := by
  obtain ⟨h₁, h₂, h₃, h₄⟩ := ht.params p hp
  refine ⟨h₁, h₂, h₃, h₄, ?_⟩
  unfold rmnetRtnlValidate at hval
  split at hval
  · cases hval
  · split at hval
    · cases hval
    · rename_i hno
      rw [hp] at hno
      simpa using hno

/-- `agg_size` after `rmnet_map_update_ul_agg_config`: up to a page it is what was asked for, from there on what
a buffer of whole pages holds. -/
def pagedSize (size : ℕ) : ℕ :=
  if size < pageSize then size else sub16 (u16 (pageSize * 2 ^ getOrder size)) skbSharedInfoSize

/-- The parameters after `rmnet_map_update_ul_agg_config`. -/
def pagedParams (p : RmnetEgressAggParams) : RmnetEgressAggParams := { p with aggSize := pagedSize p.aggSize }

/-- The size of a buffer of whole pages is what such a buffer holds. -/
theorem pagedSize_idem (size : ℕ) : pagedSize (pagedSize size) = pagedSize size := by
  have horder : ∀ n ≤ 4, pagedSize (sub16 (u16 (pageSize * 2 ^ n)) skbSharedInfoSize) =
      sub16 (u16 (pageSize * 2 ^ n)) skbSharedInfoSize := by decide +kernel
  have hle : getOrder size ≤ 4 := by
    unfold getOrder
    split_ifs <;> omega
  by_cases hsize : size < pageSize
  · have heq : pagedSize size = size := if_pos hsize
    rw [heq, heq]
  · have heq : pagedSize size = sub16 (u16 (pageSize * 2 ^ getOrder size)) skbSharedInfoSize := if_neg hsize
    rw [heq]
    exact horder _ hle

theorem pagedSize_lt {size : ℕ} (h : size < 65536) : pagedSize size < 65536 := by
  unfold pagedSize
  split
  · exact h
  · exact Nat.mod_lt _ (by omega)

theorem ParamsFit.paged {p : RmnetEgressAggParams} (h : ParamsFit p) : ParamsFit (pagedParams p) :=
  ⟨pagedSize_lt h.aggSize, h.aggCount, h.aggFeatures, h.aggTime, h.accepted⟩

/-- `rmnet_map_update_ul_agg_config` with parameters that fit. -/
theorem updateUlAggConfig_params {p : RmnetEgressAggParams} (h : ParamsFit p) (pages : List ℕ) (ul : UlPort) :
    (rmnetMapUpdateUlAggConfig p.aggSize p.aggCount p.aggFeatures p.aggTime pages ul).egressAggParams =
        pagedParams p ∧
      (rmnetMapUpdateUlAggConfig p.aggSize p.aggCount p.aggFeatures p.aggTime pages ul).dataFormat =
        ul.dataFormat := by
  have hsize : u16 p.aggSize = p.aggSize := u16_of_lt h.aggSize
  have hcount : u8 p.aggCount = p.aggCount := u8_of_lt h.aggCount
  have hfeatures : u8 p.aggFeatures = p.aggFeatures := u8_of_lt h.aggFeatures
  have htime : u32 p.aggTime = p.aggTime := u32_of_lt h.aggTime
  unfold rmnetMapUpdateUlAggConfig pagedParams
  simp only [hsize, hcount, hfeatures, htime]
  by_cases hpage : p.aggSize < pageSize
  · have heq : pagedSize p.aggSize = p.aggSize := if_pos hpage
    rw [if_pos hpage, heq]
    exact ⟨rfl, rfl⟩
  · have heq : pagedSize p.aggSize = sub16 (u16 (pageSize * 2 ^ getOrder p.aggSize)) skbSharedInfoSize :=
      if_neg hpage
    rw [if_neg hpage, heq]
    split
    · simp only [rmnetAllocAggPages, and_self]
    · exact ⟨rfl, rfl⟩

/-! ### The requests -/

section

variable {st st' : LinkState} {port : LinkPort}

theorem PortsFit.setPort (h : PortsFit st) (r : ℕ) (hp : UlFit port.ul) :
    PortsFit (st.setPort r (some port)) := by
  intro r' port' hport'
  have hupdate : Function.update st.ports r (some port) r' = some port' := hport'
  by_cases hr : r' = r
  · rw [hr, Function.update_self] at hupdate
    obtain rfl := Option.some.inj hupdate
    exact hp
  · rw [Function.update_of_ne hr] at hupdate
    exact h r' port' hupdate

theorem PortsFit.clearPort (h : PortsFit st) (r : ℕ) : PortsFit (st.setPort r none) := by
  intro r' port' hport'
  have hupdate : Function.update st.ports r none r' = some port' := hport'
  by_cases hr : r' = r
  · rw [hr, Function.update_self] at hupdate
    cases hupdate
  · rw [Function.update_of_ne hr] at hupdate
    exact h r' port' hupdate

/-- A new port has the default parameters. -/
theorem newPort_fit : UlFit newPort.ul := by
  refine ⟨by decide, ⟨?_, ?_, ?_, ?_, ?_⟩⟩
  all_goals decide

theorem PortsFit.register (h : PortsFit st) (env : LinkEnv) (r : ℕ) :
    PortsFit (rmnetRegisterRealDevice env st r).1 := by
  unfold rmnetRegisterRealDevice
  split
  · exact h
  · split
    · exact h
    · split
      · exact h
      · exact h.setPort r newPort_fit

theorem PortsFit.unregister (h : PortsFit st) (r : ℕ) (port : LinkPort) :
    PortsFit (rmnetUnregisterRealDevice st r port).1 := by
  unfold rmnetUnregisterRealDevice
  split
  · exact h
  · exact h.clearPort r

theorem PortsFit.unregisterBridge (h : PortsFit st) {port : LinkPort}
    (hs : rmnetUnregisterBridge st port = some st') : PortsFit st' := by
  rcases unregisterBridge_cases hs with rfl | ⟨d, bridgePort, hd, rfl | rfl⟩
  · exact h
  · have hfit : UlFit bridgePort.ul := h _ _ hd
    exact h.setPort _ hfit
  · exact h.unregister _ _

/-- `IFLA_RMNET_FLAGS`. -/
theorem UlFit.setFlags (h : UlFit port.ul) {flags : Option (ℕ × ℕ)}
    (ht : ∀ f m, flags = some (f, m) → f < 4294967296) : UlFit (port.setFlags flags).ul := by
  cases flags with
  | none => exact h
  | some fm => exact ⟨Nat.lt_of_le_of_lt Nat.and_le_left (ht fm.1 fm.2 rfl), h.params⟩

/-- `IFLA_RMNET_UL_AGG_PARAMS` of a new link. -/
theorem UlFit.setAggParams (h : UlFit port.ul) {params : Option RmnetEgressAggParams}
    (hp : ∀ p, params = some p → ParamsFit p) : UlFit (port.setAggParams params).ul := by
  cases params with
  | none => exact h
  | some p => exact ⟨h.dataFormat, hp p rfl⟩

/-- `IFLA_RMNET_UL_AGG_PARAMS` of a changed link. -/
theorem UlFit.updateAggConfig (h : UlFit port.ul) (pages : List ℕ) {params : Option RmnetEgressAggParams}
    (hp : ∀ p, params = some p → ParamsFit p) : UlFit (port.updateAggConfig pages params).ul := by
  cases params with
  | none => exact h
  | some p =>
    obtain ⟨hparams, hfmt⟩ := updateUlAggConfig_params (hp p rfl) pages port.ul
    refine ⟨?_, ?_⟩
    · show (rmnetMapUpdateUlAggConfig _ _ _ _ pages port.ul).dataFormat < _
      rw [hfmt]
      exact h.dataFormat
    · show ParamsFit (rmnetMapUpdateUlAggConfig _ _ _ _ pages port.ul).egressAggParams
      rw [hparams]
      exact (hp p rfl).paged

/-- `IFLA_RMNET_DFC_QOS`. -/
theorem UlFit.changeLink (h : UlFit port.ul) (env : LinkEnv) (cfg : DfcConfig) (qos : Option QosInfo) (tcm : Tcmsg) :
    UlFit (qmiRmnetChangeLink env cfg port qos tcm).2.1.ul := by
  have hor : port.ul.dataFormat ||| ingressFormatPs < 4294967296 :=
    Nat.or_lt_two_pow (n := 32) h.dataFormat (by decide)
  have hdiff : Nat.ldiff port.ul.dataFormat ingressFormatPs < 4294967296 := by
    refine Nat.lt_pow_two_of_testBit (n := 32) _ fun i hi => ?_
    have hpow : (4294967296 : ℕ) ≤ 2 ^ i := by
      calc 4294967296 = 2 ^ 32 := rfl
        _ ≤ 2 ^ i := Nat.pow_le_pow_right (by decide) hi
    rw [Nat.testBit_ldiff, Nat.testBit_lt_two_pow (h.dataFormat.trans_le hpow)]
    rfl
  cases tcm with
  | flowActivate req =>
    simp only [qmiRmnetChangeLink]
    split <;> exact h
  | flowDeactivate req =>
    simp only [qmiRmnetChangeLink]
    split <;> exact h
  | clientSetup ifindex =>
    simp only [qmiRmnetChangeLink]
    split
    · exact h
    · split
      · exact ⟨hor, h.params⟩
      · exact h
  | clientDelete handle =>
    simp only [qmiRmnetChangeLink]
    split
    · exact ⟨hdiff, h.params⟩
    · exact h
  | scaleFactor ifindex =>
    simp only [qmiRmnetChangeLink]
    split <;> exact h
  | other => exact h

/-- `rmnet_newlink`. -/
theorem PortsFit.newlink (h : PortsFit st) (env : LinkEnv) (dev : ℕ) {data : LinkAttrs} (ht : data.Typed)
    (hval : rmnetRtnlValidate data = 0) : PortsFit (rmnetNewlink env st dev data).1 := by
  unfold rmnetNewlink
  split
  · exact h
  · exact h
  · rename_i realDev muxId _ _
    split
    · exact h
    · have hreg := h.register env realDev
      generalize rmnetRegisterRealDevice env st realDev = res at hreg ⊢
      obtain ⟨st₁, err⟩ := res
      dsimp only at hreg ⊢
      split
      · exact hreg
      · split
        · exact hreg
        · rename_i port hport
          have hport := hreg _ _ hport
          split
          · rename_i port' ep priv hvnd
            -- creating the device does not touch the uplink of the port
            have hul : port'.ul = port.ul := by
              unfold rmnetVndNewlink at hvnd
              split at hvnd
              · cases hvnd
              · split at hvnd
                · cases hvnd
                · split at hvnd
                  · rename_i hne
                    simp only [Prod.mk.injEq] at hvnd
                    exact absurd hvnd.2 hne
                  · simp only [Prod.mk.injEq] at hvnd
                    rw [← hvnd.1.1]
            have hfit : UlFit ({ port' with rmnetMode := rmnetEpmodeVnd }.addHead muxId ep).ul := by
              show UlFit port'.ul
              rw [hul]
              exact hport
            exact hreg.setPort realDev
              ((hfit.setFlags ht.flags).setAggParams fun p hp => typed_params ht hval hp)
          · exact hreg.unregister _ _

/-- `rmnet_changelink`. -/
theorem PortsFit.changelink (h : PortsFit st) (env : LinkEnv) (dev : ℕ) {data : LinkAttrs} (ht : data.Typed)
    (hval : rmnetRtnlValidate data = 0) : PortsFit (rmnetChangelink env st dev data).1 := by
  unfold rmnetChangelink
  split
  · rename_i realDev priv _ _
    split
    · exact h
    · rename_i port hport
      split
      · exact h
      · rename_i port' priv' hchange
        have hul : port'.ul = port.ul := by
          unfold changeMuxId at hchange
          split at hchange
          · cases hchange
            rfl
          · split at hchange
            · cases hchange
            · cases hchange
              rfl
        have hfit : UlFit (port'.setFlags data.flags).ul := by
          refine UlFit.setFlags ?_ ht.flags
          rw [hul]
          exact h _ _ hport
        have hparams : ∀ p, data.ulAggParams = some p → ParamsFit p := fun p hp => typed_params ht hval hp
        have hwrite : ∀ (cfg : DfcConfig) (port : LinkPort), UlFit port.ul →
            PortsFit (({ st with cfg := cfg } : LinkState).setPort realDev
              (some (port.updateAggConfig env.pages data.ulAggParams))) :=
          fun cfg port hp => by
            refine PortsFit.setPort ?_ realDev (hp.updateAggConfig env.pages hparams)
            exact h
        cases data.dfcQos with
        | none => exact hwrite _ _ hfit
        | some tcm => exact hwrite _ _ (hfit.changeLink env st.cfg priv'.qosInfo tcm)
  · exact h

/-- `rmnet_dellink`. -/
theorem PortsFit.dellink (h : PortsFit st) {dev : ℕ} (hs : rmnetDellink st dev = some st') : PortsFit st' := by
  have hgone : ∀ (st : LinkState) (r : ℕ) (port : LinkPort), PortsFit st →
      PortsFit (rmnetUnregisterRealDevice (st.setDev dev none) r port).1 :=
    fun st r port h => (show PortsFit (st.setDev dev none) from h).unregister r port
  rcases dellink_cases hs with rfl | ⟨priv, port, -, hport, ⟨-, rfl⟩ | ⟨ep, st₁, -, hbridge, rfl⟩⟩
  · exact h
  · exact hgone _ _ _ h
  · have hdel : UlFit (port.delFound priv.muxId).ul := h priv.realDev port hport
    have hbridged := (h.setPort priv.realDev hdel).unregisterBridge hbridge
    refine hgone _ _ _ (hbridged.setPort _ ?_)
    rw [vndDellink_ul]
    exact hdel

/-- `rmnet_force_unassociate_device`. -/
theorem PortsFit.forceUnassociate (h : PortsFit st) {r : ℕ} (hs : rmnetForceUnassociateDevice st r = some st') :
    PortsFit st' := by
  rcases forceUnassociate_cases hs with ⟨-, rfl⟩ | ⟨port, st₁, hport, hbridge, rfl⟩
  · exact h
  · have hcleared : UlFit port.cleared.ul := by
      rw [cleared_ul]
      exact h _ _ hport
    have hwritten := (h.unregisterBridge hbridge).setPort r hcleared
    refine PortsFit.unregister ?_ r _
    exact hwritten

/-- The attributes of a request have the values of their types. -/
def LinkLabel.Typed : LinkLabel → Prop
  | .newlink _ _ data => data.Typed
  | .changelink _ _ data => data.Typed
  | _ => True

/-- **One step.**  What the ports report keeps fitting. -/
theorem PortsFit.step {r : ℕ} {l : LinkLabel} (h : PortsFit st) (hs : LinkStep r st l st') (ht : l.Typed) :
    PortsFit st' := by
  cases hs with
  | newlink env dev data _ _ hval => exact h.newlink env dev ht hval
  | changelink env dev data hval => exact h.changelink env dev ht hval
  | dellink dev hdel => exact h.dellink hdel
  | forceUnassociate dev hforce => exact h.forceUnassociate hforce
  | dfc => exact h

end

/-! ### Giving a report back -/

section

variable {r dev : ℕ} {st : LinkState} {priv : RmnetPriv} {port : LinkPort}

/-- The endpoint that is taken out of the table goes back to where it was. -/
theorem MuxTable.putBack {owner : ℕ → Option ℕ} {devs : ℕ → Option RmnetPriv} (h : MuxTable owner devs port)
    (hd : devs dev = some priv) :
    (port.delFound priv.muxId).addHead priv.muxId { muxId := priv.muxId, egressDev := some dev } = port := by
  have hown : owner priv.muxId = some dev := (h.dev _ _).mpr ⟨priv, hd, rfl⟩
  have hbucket : port.muxedEp priv.muxId = [{ muxId := priv.muxId, egressDev := some dev }] := by
    rw [h.table, ownEp, hown]
    rfl
  have htable : Function.update (port.delFound priv.muxId).muxedEp priv.muxId
      ({ muxId := priv.muxId, egressDev := some dev } :: (port.delFound priv.muxId).muxedEp priv.muxId) =
        port.muxedEp := by
    rw [h.delFound, Function.update_self, Function.update_idem, ← hbucket, Function.update_eq_self]
  unfold LinkPort.addHead
  rw [htable]
  rfl

theorem MuxTable.muxId_lt {owner : ℕ → Option ℕ} {devs : ℕ → Option RmnetPriv}
    (h : MuxTable owner devs port) (hd : devs dev = some priv) : priv.muxId < maxLogicalEp :=
  h.lt _ _ ((h.dev _ _).mpr ⟨priv, hd, rfl⟩)

theorem reportOf_typed (hfit : UlFit port.ul) (priv : RmnetPriv) : (reportOf port priv).Typed := by
  refine ⟨?_, ?_⟩
  · rintro flags mask ⟨⟩
    exact hfit.dataFormat
  · rintro p ⟨⟩
    exact ⟨hfit.params.aggSize, hfit.params.aggCount, hfit.params.aggFeatures, hfit.params.aggTime⟩

/-- `rmnet_rtnl_validate` accepts what a device reports. -/
theorem reportOf_valid (hfit : UlFit port.ul) (hid : priv.muxId < maxLogicalEp) :
    rmnetRtnlValidate (reportOf port priv) = 0 := by
  have hmax : maxLogicalEp = 255 := rfl
  have hmux : ¬ maxLogicalEp - 1 < priv.muxId := by omega
  have htime : ¬ port.ul.egressAggParams.aggTime < 1000000 := not_lt.mpr hfit.params.accepted
  unfold rmnetRtnlValidate reportOf
  simp only [Option.any_some, decide_eq_true_eq]
  rw [if_neg hmux, if_neg htime]

/-- The port of a device is registered. -/
theorem MuxInv.port_of_dev (h : MuxInv r st) (hd : st.devs dev = some priv) :
    ∃ port, st.ports r = some port := by
  cases hport : st.ports r with
  | some port => exact ⟨port, rfl⟩
  | none =>
    rw [h.unregistered hport] at hd
    cases hd

/-- `rmnet_changelink` with what the device reports. -/
theorem changelink_report (h : MuxInv r st) (hfit : PortsFit st) (hd : st.devs dev = some priv)
    (hport : st.ports r = some port) (env : LinkEnv) :
    ∃ ul, rmnetChangelink env st dev (reportOf port priv) =
        ({ st with ports := Function.update st.ports r (some { port with ul := ul }) }, 0) ∧
      ul.dataFormat = port.ul.dataFormat ∧ ul.egressAggParams = pagedParams port.ul.egressAggParams := by
  obtain ⟨owner, htable⟩ := h.table port hport
  have hul := hfit r port hport
  obtain rfl := h.real dev priv hd
  have hid := htable.muxId_lt hd
  have hu8 : u8 priv.muxId = priv.muxId := by
    have hmax : maxLogicalEp = 255 := rfl
    exact u8_of_lt (by omega)
  have hchange : changeMuxId port priv (some priv.muxId) = some (port, priv) := by
    unfold changeMuxId
    simp only [htable.get_dev hd, hu8, htable.putBack hd]
  have hflags : port.setFlags (some (port.ul.dataFormat, 4294967295)) = port := by
    have hmask : port.ul.dataFormat &&& 4294967295 = port.ul.dataFormat :=
      Nat.and_two_pow_sub_one_of_lt_two_pow (n := 32) hul.dataFormat
    unfold LinkPort.setFlags
    simp only [hmask]
  obtain ⟨hparams, hfmt⟩ := updateUlAggConfig_params hul.params env.pages port.ul
  refine ⟨_, ?_, hfmt, hparams⟩
  unfold rmnetChangelink reportOf
  have hdevs : Function.update st.devs dev (some priv) = st.devs := by
    rw [← hd, Function.update_eq_self]
  simp only [hd, hport, hchange, hflags, LinkPort.updateAggConfig, LinkState.setPort, LinkState.setDev, hdevs]

end

/-- **A report is a request that changes nothing.**  In every state of any run in which no request takes the mux
id of another device, the report of each device fits its message, is valid, and given back it changes the size of
the aggregation and its pages only; the report that follows is given back without any change to it. -/
theorem link_info_round_trip (r : ℕ) (h : List (LinkState × LinkLabel)) (st : LinkState)
    (hex : Exec LinkInit (LinkStep r) h st) (hok : ∀ x ∈ h, RenameFree x.1 x.2 ∧ x.2.Typed)
    (dev : ℕ) (priv : RmnetPriv) (hd : st.devs dev = some priv) (env env' : LinkEnv) :
    ∃ port report st' ul, st.ports r = some port ∧ rmnetFillInfo rmnetGetSize st priv = some report ∧
      rmnetRtnlValidate report = 0 ∧ rmnetChangelink env st dev report = (st', 0) ∧
      st' = { st with ports := Function.update st.ports r (some { port with ul := ul }) } ∧
      rmnetFillInfo rmnetGetSize st' priv =
        some { report with ulAggParams := report.ulAggParams.map pagedParams } ∧
      ∀ report', rmnetFillInfo rmnetGetSize st' priv = some report' →
        rmnetFillInfo rmnetGetSize (rmnetChangelink env' st' dev report').1 priv = some report' := by
  have hinit : ∀ s, LinkInit s → MuxInv r s ∧ PortsFit s := fun s hi => by
    refine ⟨muxInv_init hi, fun r' port hport => ?_⟩
    rw [hi.ports] at hport
    cases hport
  have hstep : ∀ s l s', MuxInv r s ∧ PortsFit s → LinkStep r s l s' → RenameFree s l ∧ l.Typed →
      MuxInv r s' ∧ PortsFit s' :=
    fun s l s' hI hs hok => ⟨linkStep_inv s l s' hI.1 hs hok.1, hI.2.step hs hok.2⟩
  obtain ⟨hinv, hfit⟩ := hex.invariant hinit hstep hok st (by simp)
  obtain ⟨port, hport⟩ := hinv.port_of_dev hd
  obtain ⟨owner, htable⟩ := hinv.table port hport
  have hreal := hinv.real dev priv hd
  have hvalid := reportOf_valid (hfit r port hport) (htable.muxId_lt hd)
  obtain ⟨ul, hback, hfmt, hparams⟩ := changelink_report hinv hfit hd hport env
  have hname : RenameFree st (.changelink env dev (reportOf port priv)) := by
    rintro r' port' priv' m ⟨⟩ hport' hd' ⟨⟩ -
    rw [hd] at hd'
    obtain rfl := Option.some.inj hd'
    exact .inl rfl
  have hinv' := changelink_inv hinv env hvalid hname
  have hfit' := hfit.changelink env dev (reportOf_typed (hfit r port hport) priv) hvalid
  rw [hback] at hinv' hfit'
  -- the state after the report is given back
  set st' : LinkState := { st with ports := Function.update st.ports r (some { port with ul := ul }) } with hst'
  have hport' : st'.ports r = some { port with ul := ul } := Function.update_self ..
  obtain ⟨ul', hback', hfmt', hparams'⟩ := changelink_report hinv' hfit' hd hport' env'
  have hreport : rmnetFillInfo rmnetGetSize st' priv = some (reportOf { port with ul := ul } priv) :=
    fillInfo_eq (by rw [hreal]; exact hport')
  refine ⟨port, reportOf port priv, st', ul, hport, fillInfo_eq (by rw [hreal]; exact hport), hvalid, hback, rfl,
    ?_, ?_⟩
  · rw [hreport]
    unfold reportOf
    rw [hfmt, hparams]
    rfl
  · intro report' hreport'
    rw [hreport] at hreport'
    obtain rfl := Option.some.inj hreport'
    rw [hback']
    have hport'' : (Function.update st'.ports r (some { port with ul := ul' })) priv.realDev =
        some { port with ul := ul' } := by rw [hreal, Function.update_self]
    rw [fillInfo_eq hport'']
    unfold reportOf
    -- a size of whole pages stays
    have hsame : ul'.egressAggParams = ul.egressAggParams := by
      rw [hparams']
      show pagedParams ul.egressAggParams = ul.egressAggParams
      rw [hparams]
      unfold pagedParams
      rw [pagedSize_idem]
    rw [hsame, hfmt']

/-- Device 1 with parameters for two pages. -/
def pagedAttrs : LinkAttrs :=
  { link := some 0, muxId := some 1, flags := some (5, 7), ulAggParams := some ⟨8000, 10, 1, 2000000⟩ }

def pagedLink : LinkState := (rmnetNewlink {} bareLink 1 pagedAttrs).1

theorem pagedLink_exec : Exec LinkInit (LinkStep 0) [(bareLink, .newlink {} 1 pagedAttrs)] pagedLink :=
  (Exec.start ⟨fun _ => rfl, fun _ => rfl⟩).next
    (.newlink bareLink {} 1 pagedAttrs rfl (by simp [pagedAttrs]) rfl)

/-- Given back, 8000 bytes become the 7872 bytes that two pages hold. -/
theorem link_info_round_trip_paged : ∃ priv report st', pagedLink.devs 1 = some priv ∧
    rmnetFillInfo rmnetGetSize pagedLink priv = some report ∧
    report.ulAggParams = some ⟨8000, 10, 1, 2000000⟩ ∧ report.flags = some (5, 4294967295) ∧
    rmnetRtnlValidate report = 0 ∧ rmnetChangelink {} pagedLink 1 report = (st', 0) ∧
    ∃ report', rmnetFillInfo rmnetGetSize st' priv = some report' ∧
      report'.ulAggParams = some ⟨7872, 10, 1, 2000000⟩ ∧ report'.flags = report.flags := by
  have hok : ∀ x ∈ [(bareLink, LinkLabel.newlink {} 1 pagedAttrs)], RenameFree x.1 x.2 ∧ x.2.Typed := by
    intro x hx
    obtain rfl := List.mem_singleton.mp hx
    refine ⟨trivial, ?_, ?_⟩
    · rintro flags mask ⟨⟩
      decide
    · rintro p ⟨⟩
      decide
  set priv : RmnetPriv := { realDev := 0, muxId := 1, qosInfo := some (qmiRmnetQosInit 1 31 fun _ => false) }
  have hd : pagedLink.devs 1 = some priv := rfl
  obtain ⟨port, report, st', ul, hport, hreport, hvalid, hback, -, hnext, -⟩ :=
    link_info_round_trip 0 _ pagedLink pagedLink_exec hok 1 priv hd {} {}
  have hparams : report.ulAggParams = some ⟨8000, 10, 1, 2000000⟩ ∧ report.flags = some (5, 4294967295) := by
    have hvalue : (rmnetFillInfo rmnetGetSize pagedLink priv).map (fun d => (d.ulAggParams, d.flags)) =
        some (some ⟨8000, 10, 1, 2000000⟩, some (5, 4294967295)) := rfl
    rw [hreport] at hvalue
    simpa using hvalue
  refine ⟨priv, report, st', hd, hreport, hparams.1, hparams.2, hvalid, hback, _, hnext, ?_, rfl⟩
  rw [hparams.1]
  rfl

end Rmnet
