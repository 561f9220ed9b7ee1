import Rmnet.Link.MuxTable

/-!
# The mux id in flow-control messages

A device's mux id is stored three times: in its endpoint, in its private data and in its `qos_info`, where
flow control takes it from for every message.  `rmnet_newlink` writes all three, `rmnet_changelink` only the
first two (`mux_id_stale`).  `mux_id_iff` says that the three agree, and that every message carries the id
under which `rmnet_get_endpoint` finds the device, exactly as long as no link change renames a device with
qos data or takes the id of another endpoint.
-/

namespace Rmnet

open Word Transition

/-- The endpoint, the private data and the qos data of every device on `r` have one mux id. -/
def MuxIdsAgree (r : ℕ) (st : LinkState) : Prop :=
  ∀ d priv, st.devs d = some priv → ∃ port, st.ports r = some port ∧
    rmnetGetEndpoint port priv.muxId = some { muxId := priv.muxId, egressDev := some d } ∧
    ∀ qos, priv.qosInfo = some qos → qos.muxId = priv.muxId

/-- Every message of a flow-control event carries a mux id under which the device is found. -/
def SendsCurrentMuxId (r : ℕ) (st : LinkState) : LinkLabel → Prop
  | .dfc dev e => ∀ priv qos, st.devs dev = some priv → priv.qosInfo = some qos →
      ∃ ms, (dfcEventQos st.cfg qos e).sent = qos.sent ++ ms ∧ ∀ m ∈ ms, ∃ port ep,
        st.ports r = some port ∧ rmnetGetEndpoint port m.muxId = some ep ∧ ep.egressDev = some dev
  | _ => True

/-- The side condition on a request: a link change that is accepted names the mux id that the device has, or
the device has no qos data and the id has no endpoint. -/
def KeepsMuxId (st : LinkState) : LinkLabel → Prop
  | .changelink _ dev data => ∀ r port priv muxId, data.link = some r → st.ports r = some port →
      st.devs dev = some priv → data.muxId = some muxId → (rmnetGetEndpoint port priv.muxId).isSome →
      muxId = priv.muxId ∨ (priv.qosInfo = none ∧ rmnetGetEndpoint port muxId = none)
  | _ => True

theorem KeepsMuxId.renameFree {st : LinkState} {l : LinkLabel} (h : KeepsMuxId st l) : RenameFree st l := by
  cases l with
  | changelink env dev data =>
    intro r port priv muxId hl hport hd hm hsome
    exact (h r port priv muxId hl hport hd hm hsome).imp_right And.right
  | newlink => trivial
  | dellink => trivial
  | forceUnassociate => trivial
  | dfc => trivial

/-- The invariant: the table is a bijection and the qos data follows the devices. -/
def MuxIdInv (r : ℕ) (st : LinkState) : Prop := MuxInv r st ∧ QosAgrees st

section

variable {r : ℕ}

theorem MuxIdInv.agree {st : LinkState} (h : MuxIdInv r st) : MuxIdsAgree r st := by
  intro d priv hd
  cases hport : st.ports r with
  | none =>
    have hnone := h.1.unregistered hport d
    rw [hd] at hnone
    cases hnone
  | some port =>
    obtain ⟨owner, htable⟩ := h.1.table port hport
    exact ⟨port, rfl, htable.get_dev hd, fun qos hq => h.2 d priv qos hd hq⟩

/-- Flow control sends with the mux id of the `qos_info`, so with the current one while they agree. -/
theorem MuxIdsAgree.sends {st : LinkState} (h : MuxIdsAgree r st) (l : LinkLabel) :
    SendsCurrentMuxId r st l := by
  cases l with
  | dfc dev e =>
    intro priv qos hd hq
    obtain ⟨port, hport, hget, hmux⟩ := h dev priv hd
    obtain ⟨-, ms, hms, hall⟩ := dfcEvent_sends st.cfg qos e
    refine ⟨ms, hms, fun m hm => ⟨port, { muxId := priv.muxId, egressDev := some dev }, hport, ?_, rfl⟩⟩
    rw [hall m hm, hmux qos hq]
    exact hget
  | newlink => trivial
  | changelink => trivial
  | dellink => trivial
  | forceUnassociate => trivial

theorem changelink_qosAgrees {st : LinkState} (h : MuxIdInv r st) (env : LinkEnv) {dev : ℕ}
    {data : LinkAttrs} (hval : rmnetRtnlValidate data = 0)
    (hok : KeepsMuxId st (.changelink env dev data)) : QosAgrees (rmnetChangelink env st dev data).1 := by
  rcases changelink_cases h.1 env dev data with heq | ⟨port, priv, hl, hport, hd, hget⟩
  · rw [heq]
    exact h.2
  · obtain ⟨owner, htable⟩ := h.1.table port hport
    have hkeep := fun m hm => hok r port priv m hl hport hd hm (by rw [hget]; rfl)
    obtain ⟨port₁, owner', hchange, -⟩ := changeMuxId_table htable hd hval
      fun m hm => (hkeep m hm).imp_right And.right
    obtain ⟨ul, cfg, qos, heq, hqos⟩ := changelink_accepted env hl hport hd hchange
    rw [heq]
    refine QosAgrees.update h.2 ?_
    rintro p q ⟨⟩ hq
    simp only at hq hqos ⊢
    rw [hq] at hqos
    obtain ⟨q₀, hq₀, hmux⟩ := Option.map_eq_some_iff.mp hqos.symm
    have hold := h.2 dev priv q₀ hd hq₀
    cases hm : data.muxId with
    | none => rw [← hmux, hold, Option.getD_none]
    | some m =>
      rcases hkeep m hm with rfl | ⟨hnone, -⟩
      · rw [← hmux, hold, Option.getD_some]
      · rw [hnone] at hq₀
        cases hq₀

/-- **One step.** -/
theorem muxId_step (st : LinkState) (l : LinkLabel) (st' : LinkState) (h : MuxIdInv r st)
    (hs : LinkStep r st l st') (hok : KeepsMuxId st l) : MuxIdInv r st' := by
  refine ⟨linkStep_inv st l st' h.1 hs hok.renameFree, ?_⟩
  cases hs with
  | newlink env dev data hdev hlink hval => exact (newlink_inv h.1 env hdev hlink hval).2 h.2
  | changelink env dev data hval => exact changelink_qosAgrees h env hval hok
  | dellink dev hdel =>
    obtain ⟨st₁, heq, -, hqos⟩ := dellink_inv h.1 dev
    obtain rfl := Option.some.inj (hdel.symm.trans heq)
    exact hqos h.2
  | forceUnassociate dev hforce =>
    obtain ⟨st₁, heq, -, hqos⟩ := forceUnassociateDevice_inv h.1 dev
    obtain rfl := Option.some.inj (hforce.symm.trans heq)
    exact hqos h.2
  | dfc dev e priv qos hd hq =>
    refine QosAgrees.update h.2 ?_
    rintro p q ⟨⟩ hpq
    cases hpq
    rw [(dfcEvent_sends st.cfg qos e).1]
    exact h.2 dev priv qos hd hq

/-- A renamed device with qos data has a stale id there; a device whose id is taken is not found. -/
theorem muxId_breaks (st : LinkState) (l : LinkLabel) (st' : LinkState) (h : MuxIdInv r st)
    (hs : LinkStep r st l st') (hno : ¬ KeepsMuxId st l) : ¬ MuxIdsAgree r st' := by
  cases hs with
  | changelink env dev data hval =>
    by_cases hfree : RenameFree st (.changelink env dev data)
    · simp only [KeepsMuxId, not_forall, not_or, not_and] at hno
      obtain ⟨r', port, priv, m, hl, hport, hd, hm, hsome, hne, hq⟩ := hno
      have hr' : r' = r := by
        by_contra hne
        rw [h.1.others r' hne] at hport
        cases hport
      subst hr'
      obtain ⟨owner, htable⟩ := h.1.table port hport
      have hfree' := (hfree r' port priv m hl hport hd hm hsome).resolve_left hne
      have hqos : priv.qosInfo ≠ none := fun hnone => hq hnone hfree'
      obtain ⟨q, hq⟩ := Option.ne_none_iff_exists'.mp hqos
      obtain ⟨port₁, owner', hchange, -⟩ := changeMuxId_table htable hd hval
        fun m hm => hfree r' port priv m hl hport hd hm hsome
      obtain ⟨ul, cfg, qos, heq, hmux⟩ := changelink_accepted env hl hport hd hchange
      -- the qos data keeps the old id
      simp only [hm, Option.getD_some] at heq
      simp only [hq, Option.map_some] at hmux
      obtain ⟨q', hq', hold⟩ := Option.map_eq_some_iff.mp hmux
      intro hP
      obtain ⟨-, -, -, hagree⟩ := hP dev { priv with muxId := m, qosInfo := qos } (by rw [heq]; simp)
      have hnew := hagree q' hq'
      have hown := h.2 dev priv q hd hq
      exact hne (hnew.symm.trans (hold.trans hown))
    · obtain ⟨port, m, d, priv, hport, -, hd, hbucket, hdev, hm⟩ := rename_clash h.1 hval hfree
      intro hP
      obtain ⟨port', hport', hget, -⟩ := hP d priv hdev
      rw [hport, Option.some.injEq] at hport'
      subst hport'
      rw [hm, rmnetGetEndpoint, hbucket] at hget
      simp only [List.find?_cons, decide_true, Option.some.injEq, RmnetEndpoint.mk.injEq, true_and] at hget
      exact hd hget.symm
  | newlink => exact absurd trivial hno
  | dellink => exact absurd trivial hno
  | forceUnassociate => exact absurd trivial hno
  | dfc => exact absurd trivial hno

end

/-- **Exactly when flow control knows the mux id.**  Along any run, the three copies agree in every state and
every flow-control message carries the id under which its device is found, if and only if no accepted link
change of the run gives a new mux id to a device with qos data, or one that has an endpoint. -/
theorem mux_id_iff (r : ℕ) (h : List (LinkState × LinkLabel)) (st : LinkState)
    (hex : Exec LinkInit (LinkStep r) h st) :
    ((∀ x ∈ h.map Prod.fst ++ [st], MuxIdsAgree r x) ∧ ∀ x ∈ h, SendsCurrentMuxId r x.1 x.2) ↔
      ∀ x ∈ h, KeepsMuxId x.1 x.2 := by
  have hinit : ∀ s, LinkInit s → MuxIdInv r s := by
    intro s hs
    refine ⟨muxInv_init hs, fun d priv qos hd => ?_⟩
    rw [hs.devs] at hd
    cases hd
  have hiff := (hex.forall_iff hinit (fun _ hI => hI.agree) muxId_step muxId_breaks).1
  constructor
  · intro hall
    exact hiff.mp hall.1
  · intro hok
    have hagree := hiff.mpr hok
    refine ⟨hagree, fun x hx => (hagree x.1 ?_).sends x.2⟩
    exact List.mem_append_left _ (List.mem_map_of_mem hx)

/-- Device 1 after it was created with the mux id 1 and renamed to 5. -/
def renamedPriv : RmnetPriv :=
  { realDev := 0, muxId := 5, qosInfo := some (qmiRmnetQosInit 1 31 fun _ => false) }

/-- The state after the renaming. -/
def renamedLink : LinkState := (rmnetChangelink {} oneLink 1 (muxAttrs 5)).1

theorem renamedLink_dev : renamedLink.devs 1 = some renamedPriv := rfl

/-- **A stale mux id.**  Device 1 is created with the mux id 1 and renamed to 5; the end-marker request for a
bearer that it does not have is then confirmed with the mux id 1, which no endpoint has. -/
theorem mux_id_stale : ∃ h st, Exec LinkInit (LinkStep 0) h st ∧
    (¬ ∀ x ∈ h.map Prod.fst ++ [st], MuxIdsAgree 0 x) ∧ ¬ ∀ x ∈ h, SendsCurrentMuxId 0 x.1 x.2 := by
  have hrun := (oneLink_exec.next (.changelink oneLink {} 1 (muxAttrs 5) rfl)).next
    (.dfc renamedLink 1 (.endMarker 7 0 9) renamedPriv _ renamedLink_dev rfl)
  refine ⟨_, _, hrun, fun hagree => ?_, fun hsends => ?_⟩
  · obtain ⟨-, -, -, hmux⟩ := hagree renamedLink (by simp [renamedLink]) 1 renamedPriv renamedLink_dev
    have hstale : (1 : ℕ) = 5 := hmux _ rfl
    omega
  · have hdfc := hsends (renamedLink, .dfc 1 (.endMarker 7 0 9)) (by simp [renamedLink])
    obtain ⟨ms, hms, hall⟩ := hdfc renamedPriv _ renamedLink_dev rfl
    have hsent : ms = [.endMarkerCnf 1 7 0 9] := hms.symm
    obtain ⟨port, ep, hport, hget, -⟩ := hall (.endMarkerCnf 1 7 0 9) (by simp [hsent])
    have hnone : (renamedLink.ports 0).map (fun port => rmnetGetEndpoint port 1) = some none := rfl
    rw [hport, Option.map_some, Option.some.injEq] at hnone
    have hget' : rmnetGetEndpoint port 1 = some ep := hget
    rw [hnone] at hget'
    cases hget'

/-- A device that has been created with the mux id 1, and not renamed, confirms the same request with that id, and
every copy of the id is 1 still. -/
theorem mux_id_one : ∃ h st priv qos, Exec LinkInit (LinkStep 0) h st ∧
    (oneLink, .dfc 1 (.endMarker 7 0 9)) ∈ h ∧ oneLink.devs 1 = some priv ∧ priv.qosInfo = some qos ∧
    (dfcEventQos oneLink.cfg qos (.endMarker 7 0 9)).sent = [.endMarkerCnf 1 7 0 9] ∧
    SendsCurrentMuxId 0 oneLink (.dfc 1 (.endMarker 7 0 9)) ∧ MuxIdsAgree 0 st := by
  have hrun := oneLink_exec.next (.dfc oneLink 1 (.endMarker 7 0 9)
    { realDev := 0, muxId := 1, qosInfo := some (qmiRmnetQosInit 1 31 fun _ => false) } _ rfl rfl)
  obtain ⟨hagree, hsends⟩ := (mux_id_iff 0 _ _ hrun).mpr fun x hx => by
    simp only [List.cons_append, List.nil_append, List.mem_cons, List.not_mem_nil, or_false] at hx
    rcases hx with rfl | rfl
    · exact trivial
    · exact trivial
  exact ⟨_, _, _, _, hrun, by simp, rfl, rfl, rfl, hsends (oneLink, .dfc 1 (.endMarker 7 0 9)) (by simp),
    hagree _ (List.mem_append_right _ (List.mem_singleton_self _))⟩

end Rmnet
