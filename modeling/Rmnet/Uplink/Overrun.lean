import Rmnet.Link.Tables
import Rmnet.Uplink.Conservation

/-!
# When a copy overruns the aggregation buffer

A packet is copied into a buffer that is open only if it fits into the room that is left.  For the packet
that opens a buffer the code compares its length with `agg_size` instead, and the buffer it builds has
`PAGE_SIZE << agg_size_order` bytes less the shared info: the copy overruns exactly when the length lies
between the two (`pass_overrun_iff`).  `rmnet_map_update_ul_agg_config` keeps the two in step from a page on;
below a page it leaves the order alone, and `rmnet_newlink` writes the size without the order.

The system is all link requests that may write the parameters, and all that touches a buffer, one critical
section at a time.  `no_overrun_iff` is about all of its runs.
-/

namespace Rmnet

open Word Transition

/-! ### One pass -/

/-- The room of a buffer that the port builds. -/
def UlPort.freshRoom (port : UlPort) : ℕ := pageSize * 2 ^ port.aggSizeOrder - skbSharedInfoSize

/-- This pass builds a buffer for the packet, if its length does not prevent it: there is no buffer, the packet
has no priority and does not come after a pause, and the memory is there. -/
def TxOpens (skb : SkBuff) (env : TxEnv) (port : UlPort) : Prop :=
  port.aggSkb = none ∧ (port.dataFormat.testBit egressFormatPriority && skb.priority ≠ 0) = false ∧
    (timespec64Sub env.now port.aggLast).tvSec ≤ 0 ∧
    (timespec64Sub env.now port.aggLast).tvNsec ≤ rmnetAggBypassTime ∧
    (rmnetMapBuildSkb env port).2.isSome = true

/-- The length passes the test of `agg_size`, but the buffer has no room for it. -/
def InGap (port : UlPort) (len : ℕ) : Prop := port.freshRoom < len ∧ len < port.egressAggParams.aggSize

/-- The buffer that is built, if the memory is there. -/
theorem buildSkb_snd (env : TxEnv) (port : UlPort) : (rmnetMapBuildSkb env port).2 =
    if (rmnetGetAggPages env port).2 && env.buildSkb then some { data := [], tailroom := port.freshRoom }
    else none := by
  obtain ⟨head, reuse, alloc, hport⟩ := rmnetGetAggPages_frame env port
  unfold rmnetMapBuildSkb
  generalize rmnetGetAggPages env port = r at hport ⊢
  obtain ⟨port', page⟩ := r
  simp only at hport ⊢
  subst hport
  split
  · rfl
  · rfl

theorem buildSkb_room {env : TxEnv} {port : UlPort} {agg : AggSkb} (h : (rmnetMapBuildSkb env port).2 = some agg) :
    agg.tailroom = port.freshRoom := by
  rw [buildSkb_snd] at h
  split at h
  · cases h
    rfl
  · cases h

/-- The clock has no part in the building. -/
theorem buildSkb_clock (env : TxEnv) (port : UlPort) :
    (rmnetMapBuildSkb env { port with aggLast := env.now }).2 = (rmnetMapBuildSkb env port).2 := by
  have hpages : (rmnetGetAggPages env { port with aggLast := env.now }).2 = (rmnetGetAggPages env port).2 := by
    unfold rmnetGetAggPages
    simp only
    split <;> rfl
  rw [buildSkb_snd, buildSkb_snd, hpages]
  rfl

/-- The bypass by the size, as an `int`. -/
theorem bypass_size {aggSize len : ℕ} (hsize : aggSize < 65536) (hlen : len < 2147483648) :
    (sub32 aggSize len = 0 ∨ 2147483648 ≤ sub32 aggSize len) ↔ aggSize ≤ len := by
  unfold sub32 u32
  omega

/-- Opening a buffer. -/
theorem txAggOpen_overrun_iff {skb : SkBuff} (hc : skb.Coherent) (hlen : skb.len < 2147483648) {env : TxEnv}
    {last : Timespec64} {port : UlPort} (hsize : port.egressAggParams.aggSize < 65536) :
    (∃ e, txAggOpen skb env last port = .error e) ↔
      (timespec64Sub port.aggLast last).tvSec ≤ 0 ∧ (timespec64Sub port.aggLast last).tvNsec ≤ rmnetAggBypassTime ∧
        (rmnetMapBuildSkb env port).2.isSome = true ∧ InGap port skb.len := by
  have hbypass : txAggBypass port last skb.len = true ↔
      0 < (timespec64Sub port.aggLast last).tvSec ∨ rmnetAggBypassTime < (timespec64Sub port.aggLast last).tvNsec ∨
        port.egressAggParams.aggSize ≤ skb.len := by
    rw [← bypass_size hsize hlen]
    simp only [txAggBypass, Bool.or_eq_true, decide_eq_true_eq, or_assoc]
  unfold txAggOpen
  by_cases hb : txAggBypass port last skb.len = true
  · rw [if_pos hb]
    refine iff_of_false (by rintro ⟨e, he⟩; cases he) ?_
    rintro ⟨hsec, hnsec, -, -, hlt⟩
    rcases hbypass.mp hb with h | h | h
    · omega
    · omega
    · omega
  · rw [if_neg hb]
    rw [hbypass, not_or, not_or] at hb
    obtain ⟨hsec, hnsec, hlt⟩ := hb
    have hroom := @buildSkb_room env port
    generalize rmnetMapBuildSkb env port = r at hroom ⊢
    obtain ⟨port₁, o⟩ := r
    cases o with
    | none =>
      refine iff_of_false (by rintro ⟨e, he⟩; cases he) ?_
      rintro ⟨-, -, hsome, -⟩
      cases hsome
    | some agg =>
      simp only
      rw [rmnetMapLinearizeCopy_eq agg skb hc, hroom rfl]
      by_cases hfits : skb.len ≤ port.freshRoom
      · rw [if_pos hfits]
        refine iff_of_false (by rintro ⟨e, he⟩; cases he) ?_
        rintro ⟨-, -, -, hgap, -⟩
        omega
      · rw [if_neg hfits]
        exact iff_of_true ⟨_, rfl⟩ ⟨by omega, by omega, rfl, by omega, by omega⟩

/-- **One pass overruns its buffer** exactly when it opens one for a packet in the gap. -/
theorem pass_overrun_iff {skb : SkBuff} (hc : skb.Coherent) (hlen : skb.len < 2147483648) (env : TxEnv)
    {port : UlPort} (hsize : port.egressAggParams.aggSize < 65536) :
    (∃ e, txAggregateLocked skb env port = .error e) ↔ TxOpens skb env port ∧ InGap port skb.len := by
  unfold txAggregateLocked
  simp only
  by_cases hprio : (port.dataFormat.testBit egressFormatPriority && skb.priority ≠ 0) = true
  · rw [if_pos hprio]
    refine iff_of_false (by rintro ⟨e, he⟩; cases he) ?_
    rintro ⟨⟨-, hno, -⟩, -⟩
    rw [hprio] at hno
    cases hno
  · rw [if_neg hprio]
    have hplain : (port.dataFormat.testBit egressFormatPriority && skb.priority ≠ 0) = false :=
      Bool.eq_false_iff.mpr hprio
    cases hagg : port.aggSkb with
    | none =>
      have hopen := @txAggOpen_overrun_iff skb hc hlen env port.aggLast { port with aggLast := env.now } hsize
      rw [buildSkb_clock] at hopen
      simp only [hagg] at hopen ⊢
      rw [hopen]
      constructor
      · rintro ⟨hsec, hnsec, hbuilt, hgap⟩
        exact ⟨⟨hagg, hplain, hsec, hnsec, hbuilt⟩, hgap⟩
      · rintro ⟨⟨-, -, hsec, hnsec, hbuilt⟩, hgap⟩
        exact ⟨hsec, hnsec, hbuilt, hgap⟩
    | some agg =>
      refine iff_of_false ?_ fun h => by rw [h.1.1] at hagg; cases hagg
      simp only
      split
      · rintro ⟨e, he⟩
        cases he
      · -- a buffer that is not full has room for the packet
        rename_i hfull
        have hroom : skb.len ≤ agg.tailroom := by
          simp only [txAggFull, Bool.or_eq_true, decide_eq_true_eq, not_or] at hfull
          omega
        rw [rmnetMapLinearizeCopy_eq agg skb hc, if_pos hroom]
        rintro ⟨e, he⟩
        cases he

/-! ### Who writes the parameters -/

/-- `agg_size` is a `u16`. -/
def LinkPort.Sized (port : LinkPort) : Prop := port.ul.egressAggParams.aggSize < 65536

/-- All ports have a size of 16 bits. -/
def AggSized (st : LinkState) : Prop := ∀ r port, st.ports r = some port → port.Sized

/-- The parameters of a request, as the attribute stores them. -/
def LinkAttrs.Sized (data : LinkAttrs) : Prop := ∀ p, data.ulAggParams = some p → p.aggSize < 65536

section

variable {st st' : LinkState} {r : ℕ} {port : LinkPort}

theorem newPort_sized : newPort.Sized := by
  show (4095 : ℕ) < 65536
  omega

theorem AggSized.write (h : AggSized st) {st' : LinkState} {o : Option LinkPort}
    (hports : st'.ports = Function.update st.ports r o) (ho : ∀ port, o = some port → port.Sized) :
    AggSized st' := by
  intro r' port hport
  rw [hports] at hport
  by_cases hr : r' = r
  · rw [hr, Function.update_self] at hport
    exact ho port hport
  · rw [Function.update_of_ne hr] at hport
    exact h r' port hport

theorem AggSized.setPort (h : AggSized st) (r : ℕ) (hport : port.Sized) : AggSized (st.setPort r (some port)) := by
  refine h.write rfl ?_
  rintro p ⟨⟩
  exact hport

theorem AggSized.setBridge (h : AggSized st) (r mode : ℕ) (ep : Option ℕ) : AggSized (st.setBridge r mode ep) := by
  unfold LinkState.setBridge
  split
  · exact h
  · rename_i port hport
    refine h.setPort r ?_
    exact h r port hport

theorem AggSized.register (h : AggSized st) (env : LinkEnv) (r : ℕ) :
    AggSized (rmnetRegisterRealDevice env st r).1 := by
  unfold rmnetRegisterRealDevice
  split
  · exact h
  · split
    · exact h
    · split
      · exact h
      · exact h.setPort r newPort_sized

theorem AggSized.unregister (h : AggSized st) (r : ℕ) (port : LinkPort) :
    AggSized (rmnetUnregisterRealDevice st r port).1 := by
  unfold rmnetUnregisterRealDevice
  split
  · exact h
  · apply h.write rfl
    intro port hport
    cases hport

theorem AggSized.unregisterBridge (h : AggSized st) (hs : rmnetUnregisterBridge st port = some st') :
    AggSized st' := by
  rcases unregisterBridge_cases hs with rfl | ⟨d, bridgePort, hd, rfl | rfl⟩
  · exact h
  · refine h.setPort _ ?_
    exact h _ bridgePort hd
  · exact h.unregister _ _

/-! ### The requests keep the size in its type -/

/-- `rmnet_newlink` copies what the attribute stores. -/
theorem LinkPort.Sized.setAggParams (h : port.Sized) {data : LinkAttrs} (hdata : data.Sized) :
    ((port.setFlags data.flags).setAggParams data.ulAggParams).Sized := by
  cases hp : data.ulAggParams with
  | none =>
    cases data.flags with
    | none => exact h
    | some f => exact h
  | some p => exact hdata p hp

theorem AggSized.newlink (h : AggSized st) (env : LinkEnv) (dev : ℕ) {data : LinkAttrs} (hdata : data.Sized) :
    AggSized (rmnetNewlink env st dev data).1 := by
  unfold rmnetNewlink
  cases data.link with
  | none => exact h
  | some r =>
    cases data.muxId with
    | none => exact h
    | some muxId =>
      simp only
      split
      · exact h
      · have hreg := h.register env r
        generalize rmnetRegisterRealDevice env st r = res at hreg ⊢
        obtain ⟨st₁, err⟩ := res
        simp only at hreg ⊢
        split
        · exact hreg
        · cases hport : st₁.ports r with
          | none => exact hreg
          | some port =>
            simp only
            rcases vndNewlink_cases env (u8 muxId) dev r port with ⟨err, herr, heq⟩ | ⟨-, qos, -, heq⟩
            · rw [heq]
              split
              · rename_i h0
                simp only [Prod.mk.injEq] at h0
                exact absurd h0.2 herr
              · exact hreg.unregister r _
            · rw [heq]
              refine hreg.setPort r (LinkPort.Sized.setAggParams ?_ hdata)
              exact hreg r port hport

/-- A message of a link change leaves the parameters alone. -/
theorem changeLink_params (env : LinkEnv) (cfg : DfcConfig) (port : LinkPort) (qos : Option QosInfo)
    (tcm : Tcmsg) :
    (qmiRmnetChangeLink env cfg port qos tcm).2.1.ul.egressAggParams = port.ul.egressAggParams := by
  cases tcm with
  | flowActivate tcm =>
    simp only [qmiRmnetChangeLink]
    split <;> rfl
  | flowDeactivate tcm =>
    simp only [qmiRmnetChangeLink]
    split <;> rfl
  | clientSetup ifindex =>
    simp only [qmiRmnetChangeLink]
    split
    · rfl
    · split <;> rfl
  | clientDelete handle =>
    simp only [qmiRmnetChangeLink]
    split <;> rfl
  | scaleFactor ifindex =>
    simp only [qmiRmnetChangeLink]
    split <;> rfl
  | other => rfl

/-- `rmnet_map_update_ul_agg_config` stores a `u16`. -/
theorem updateUlAggConfig_sized (size count features time : ℕ) (pages : List ℕ) (port : UlPort) :
    (rmnetMapUpdateUlAggConfig size count features time pages port).egressAggParams.aggSize < 65536 := by
  have hu16 : ∀ n, u16 n < 65536 := fun n => Nat.mod_lt n (by omega)
  unfold rmnetMapUpdateUlAggConfig
  simp only
  split
  · exact hu16 size
  · split
    · exact hu16 _
    · exact hu16 _

theorem LinkPort.Sized.updateAggConfig (h : port.Sized) (pages : List ℕ) (params : Option RmnetEgressAggParams) :
    (port.updateAggConfig pages params).Sized := by
  cases params with
  | none => exact h
  | some p => exact updateUlAggConfig_sized ..

/-- Moving the endpoint does not touch the aggregation. -/
theorem changeMuxId_ul {priv priv' : RmnetPriv} {muxId : Option ℕ} {port' : LinkPort}
    (h : changeMuxId port priv muxId = some (port', priv')) : port'.ul = port.ul := by
  cases muxId with
  | none =>
    cases h
    rfl
  | some m =>
    rw [changeMuxId] at h
    split at h
    · cases h
    · cases h
      rfl

theorem AggSized.changelink (h : AggSized st) (env : LinkEnv) (dev : ℕ) (data : LinkAttrs) :
    AggSized (rmnetChangelink env st dev data).1 := by
  unfold rmnetChangelink
  split
  · rename_i r priv _ _
    split
    · exact h
    · rename_i port hport
      split
      · exact h
      · rename_i port₁ priv₁ hchange
        have h₁ : (port₁.setFlags data.flags).Sized := by
          have hflags : (port₁.setFlags data.flags).ul.egressAggParams = port₁.ul.egressAggParams := by
            cases data.flags <;> rfl
          unfold LinkPort.Sized
          rw [hflags, changeMuxId_ul hchange]
          exact h r port hport
        refine AggSized.setPort h r (LinkPort.Sized.updateAggConfig ?_ env.pages data.ulAggParams)
        cases data.dfcQos with
        | none => exact h₁
        | some tcm =>
          unfold LinkPort.Sized
          simp only
          rw [changeLink_params]
          exact h₁
  · exact h

theorem AggSized.dellink (h : AggSized st) {dev : ℕ} (hs : rmnetDellink st dev = some st') : AggSized st' := by
  rcases dellink_cases hs with rfl | ⟨priv, port, -, hport, ⟨-, rfl⟩ | ⟨ep, st₁, -, hbridge, rfl⟩⟩
  · exact h
  · have hunset : AggSized (st.setDev dev none) := h
    exact hunset.unregister _ _
  · have hsized : (port.delFound priv.muxId).Sized := h priv.realDev port hport
    have hbridged := (h.setPort priv.realDev hsized).unregisterBridge hbridge
    have hwritten : (rmnetVndDellink priv.muxId (port.delFound priv.muxId) ep).Sized := by
      unfold LinkPort.Sized
      rw [vndDellink_ul]
      exact hsized
    refine AggSized.unregister ?_ _ _
    exact hbridged.setPort priv.realDev hwritten

theorem AggSized.forceUnassociate (h : AggSized st) {r : ℕ} (hs : rmnetForceUnassociateDevice st r = some st') :
    AggSized st' := by
  rcases forceUnassociate_cases hs with ⟨-, rfl⟩ | ⟨port, st₁, hport, hbridge, rfl⟩
  · exact h
  · have hcleared : port.cleared.Sized := by
      unfold LinkPort.Sized
      rw [cleared_ul]
      exact h r port hport
    have hwritten := (h.unregisterBridge hbridge).setPort r hcleared
    refine AggSized.unregister ?_ _ _
    exact hwritten

theorem AggSized.addBridge (h : AggSized st) {env : LinkEnv} {dev slaveDev : ℕ} {rc : ℤ}
    (hs : rmnetAddBridge env st dev slaveDev = some (st', rc)) : AggSized st' := by
  unfold rmnetAddBridge at hs
  split at hs
  · cases hs
    exact h
  · rename_i priv _
    split at hs
    · cases hs
    · split at hs
      · cases hs
        exact h
      · split at hs
        · cases hs
          exact h
        · have hreg := h.register env slaveDev
          generalize rmnetRegisterRealDevice env st slaveDev = res at hreg hs
          obtain ⟨st₁, err⟩ := res
          simp only at hreg hs
          split at hs
          · cases hs
            exact hreg
          · cases hs
            exact (hreg.setBridge slaveDev _ _).setBridge priv.realDev _ _

theorem AggSized.delBridge (h : AggSized st) {dev slaveDev : ℕ} (hs : rmnetDelBridge st dev slaveDev = some st') :
    AggSized st' := by
  unfold rmnetDelBridge at hs
  split at hs
  · cases hs
    exact h
  · rename_i priv _
    split at hs
    · cases hs
    · rename_i port hport
      obtain ⟨slavePort, -, rfl⟩ := Option.map_eq_some_iff.mp hs
      have hsized : LinkPort.Sized { port with rmnetMode := rmnetEpmodeVnd, bridgeEp := none } := h _ port hport
      exact (h.setPort priv.realDev hsized).unregister _ _

end

/-! ### The system -/

/-- What happens to the driver: the link requests, and the critical sections on the aggregation of a device,
each with what it leaves to do after the unlock. -/
inductive AggLabel
  | newlink (env : LinkEnv) (dev : ℕ) (data : LinkAttrs)
  | changelink (env : LinkEnv) (dev : ℕ) (data : LinkAttrs)
  | dellink (dev : ℕ)
  | forceUnassociate (r : ℕ)
  | addBridge (env : LinkEnv) (dev slaveDev : ℕ)
  | delBridge (dev slaveDev : ℕ)
  | txPass (r : ℕ) (skb : Frame) (env : TxEnv)
  | hrtimerFires (r : ℕ)
  | flushWork (r : ℕ)
  | qmapCmd (r : ℕ) (qmapSkb : Bytes)

/-- Write the aggregation part of a port. -/
def LinkState.setUl (st : LinkState) (r : ℕ) (port : LinkPort) (ul : UlPort) : LinkState :=
  st.setPort r (some { port with ul := ul })

/-- One step of the driver; the state is `none` once the kernel has panicked in `skb_put`, and a run does not go on
behind a request that dereferences `NULL`.  A request is validated first, and `agg_size` has 16 bits.  A call of
`rmnet_map_tx_aggregate` is one pass or two, with other steps in between. -/
inductive AggStep : Option LinkState → AggLabel → Option LinkState → Prop
  | newlink {st : LinkState} {env : LinkEnv} {dev : ℕ} {data : LinkAttrs} : st.devs dev = none →
      rmnetRtnlValidate data = 0 → data.Sized →
      AggStep (some st) (.newlink env dev data) (some (rmnetNewlink env st dev data).1)
  | changelink {st : LinkState} {env : LinkEnv} {dev : ℕ} {data : LinkAttrs} :
      rmnetRtnlValidate data = 0 → data.Sized →
      AggStep (some st) (.changelink env dev data) (some (rmnetChangelink env st dev data).1)
  | dellink {st st' : LinkState} (dev : ℕ) : rmnetDellink st dev = some st' →
      AggStep (some st) (.dellink dev) (some st')
  | forceUnassociate {st st' : LinkState} (r : ℕ) : rmnetForceUnassociateDevice st r = some st' →
      AggStep (some st) (.forceUnassociate r) (some st')
  | addBridge {st st' : LinkState} {rc : ℤ} (env : LinkEnv) (dev slaveDev : ℕ) :
      rmnetAddBridge env st dev slaveDev = some (st', rc) →
      AggStep (some st) (.addBridge env dev slaveDev) (some st')
  | delBridge {st st' : LinkState} (dev slaveDev : ℕ) : rmnetDelBridge st dev slaveDev = some st' →
      AggStep (some st) (.delBridge dev slaveDev) (some st')
  | txPass {st : LinkState} {r : ℕ} {port : LinkPort} {skb : Frame} {env : TxEnv} {ul : UlPort}
      {posts : List Post} : st.ports r = some port → skb.1.len < 2147483648 →
      txAggregateLocked skb.1 env port.ul = .ok (ul, posts) →
      AggStep (some st) (.txPass r skb env) (some (st.setUl r port (execPosts ul posts)))
  | txPanic {st : LinkState} {r : ℕ} {port : LinkPort} {skb : Frame} {env : TxEnv} {e : Stop} :
      st.ports r = some port → skb.1.len < 2147483648 → txAggregateLocked skb.1 env port.ul = .error e →
      AggStep (some st) (.txPass r skb env) none
  | hrtimerFires {st : LinkState} {r : ℕ} {port : LinkPort} : st.ports r = some port →
      AggStep (some st) (.hrtimerFires r) (some (st.setUl r port (rmnetMapFlushTxPacketQueue port.ul)))
  | flushWork {st : LinkState} {r : ℕ} {port : LinkPort} : st.ports r = some port →
      AggStep (some st) (.flushWork r) (some (st.setUl r port (rmnetMapFlushTxPacketWork port.ul)))
  | qmapCmd {st : LinkState} {r : ℕ} {port : LinkPort} (qmapSkb : Bytes) : st.ports r = some port →
      AggStep (some st) (.qmapCmd r qmapSkb) (some (st.setUl r port (rmnetMapTxQmapCmd qmapSkb port.ul)))

/-- The driver has been loaded. -/
def AggInit : Option LinkState → Prop
  | none => False
  | some st => LinkInit st

/-- The step opens no buffer for a packet in the gap. -/
def NoGap : Option LinkState → AggLabel → Prop
  | some st, .txPass r skb env =>
      ∀ port, st.ports r = some port → ¬ (TxOpens skb.1 env port.ul ∧ InGap port.ul skb.1.len)
  | _, _ => True

/-- The kernel runs, with sizes of 16 bits. -/
def AggRun : Option LinkState → Prop
  | none => False
  | some st => AggSized st

/-! ### Runs -/

theorem execPosts_params (posts : List Post) (ul : UlPort) :
    (execPosts ul posts).egressAggParams = ul.egressAggParams := by
  induction posts generalizing ul with
  | nil => rfl
  | cons p posts ih =>
    show (execPosts (execPost ul p) posts).egressAggParams = _
    rw [ih]
    cases p <;> rfl

theorem TxPass.params {skb : SkBuff} {ul ul' : UlPort} {posts : List Post} (h : TxPass skb ul ul' posts) :
    ul'.egressAggParams = ul.egressAggParams := by
  cases h with
  | sendFirst agg rest hagg he => exact he.params
  | direct hnone hsame => exact hsame.params
  | opened agg hnone hsch => exact hsch.params
  | appended agg agg' hagg hsch => exact hsch.params

theorem flushTxPacketLocked_params (ul : UlPort) :
    (flushTxPacketLocked ul).1.egressAggParams = ul.egressAggParams := by
  unfold flushTxPacketLocked
  split
  · split <;> rfl
  · rfl

theorem flushTxPacketWork_params (ul : UlPort) :
    (rmnetMapFlushTxPacketWork ul).egressAggParams = ul.egressAggParams := by
  have hlocked := flushTxPacketLocked_params { ul with aggWqQueued := false }
  unfold rmnetMapFlushTxPacketWork
  generalize flushTxPacketLocked { ul with aggWqQueued := false } = r at hlocked ⊢
  obtain ⟨ul', posts⟩ := r
  exact (execPosts_params posts ul').trans hlocked

theorem txQmapCmd_params (qmapSkb : Bytes) (ul : UlPort) :
    (rmnetMapTxQmapCmd qmapSkb ul).egressAggParams = ul.egressAggParams := by
  have hlocked : (txQmapCmdLocked qmapSkb ul).1.egressAggParams = ul.egressAggParams := by
    unfold txQmapCmdLocked
    split
    · split <;> rfl
    · rfl
  unfold rmnetMapTxQmapCmd
  generalize txQmapCmdLocked qmapSkb ul = r at hlocked ⊢
  obtain ⟨ul', posts⟩ := r
  exact (execPosts_params posts ul').trans hlocked

/-- A critical section keeps the parameters. -/
theorem AggSized.setUl {st : LinkState} (h : AggSized st) {r : ℕ} {port : LinkPort} (hport : st.ports r = some port)
    {ul : UlPort} (hul : ul.egressAggParams = port.ul.egressAggParams) : AggSized (st.setUl r port ul) := by
  refine h.setPort r ?_
  unfold LinkPort.Sized
  rw [hul]
  exact h r port hport

theorem aggRun_init (s : Option LinkState) (h : AggInit s) : AggRun s := by
  cases s with
  | none => exact h
  | some st =>
    intro r port hport
    have hnone : st.ports r = none := by rw [h.ports]
    rw [hnone] at hport
    cases hport

/-- **One step** keeps the kernel running if it opens no buffer for a packet in the gap. -/
theorem aggStep_run (s : Option LinkState) (l : AggLabel) (s' : Option LinkState) (h : AggRun s)
    (hs : AggStep s l s') (hok : NoGap s l) : AggRun s' := by
  cases hs with
  | newlink hdev hval hdata => exact AggSized.newlink h _ _ hdata
  | changelink hval hdata => exact AggSized.changelink h _ _ _
  | dellink dev hs => exact AggSized.dellink h hs
  | forceUnassociate r hs => exact AggSized.forceUnassociate h hs
  | addBridge env dev slaveDev hs => exact AggSized.addBridge h hs
  | delBridge dev slaveDev hs => exact AggSized.delBridge h hs
  | @txPass st r port skb env ul posts hport hlen hpass =>
    refine AggSized.setUl h hport ?_
    rw [execPosts_params]
    exact (txAggregateLocked_cases skb.2 hpass).params
  | @txPanic st r port skb env e hport hlen hpass =>
    have hgap := (pass_overrun_iff skb.2 hlen env (h r port hport)).mp ⟨e, hpass⟩
    exact absurd hgap (hok port hport)
  | hrtimerFires hport => exact AggSized.setUl h hport rfl
  | flushWork hport => exact AggSized.setUl h hport (flushTxPacketWork_params _)
  | qmapCmd qmapSkb hport => exact AggSized.setUl h hport (txQmapCmd_params qmapSkb _)

/-- A step that opens a buffer for a packet in the gap is the panic. -/
theorem aggStep_panic (s : Option LinkState) (l : AggLabel) (s' : Option LinkState) (h : AggRun s)
    (hs : AggStep s l s') (hno : ¬ NoGap s l) : ¬ s' ≠ none := by
  cases hs with
  | @txPass st r port skb env ul posts hport hlen hpass =>
    refine absurd ?_ hno
    intro port' hport' hgap
    have hsame : port = port' := Option.some.inj (hport.symm.trans hport')
    subst hsame
    obtain ⟨e, he⟩ := (pass_overrun_iff skb.2 hlen env (h r port hport)).mpr hgap
    rw [hpass] at he
    cases he
  | txPanic hport hlen hpass => exact fun hne => hne rfl
  | newlink => exact absurd trivial hno
  | changelink => exact absurd trivial hno
  | dellink => exact absurd trivial hno
  | forceUnassociate => exact absurd trivial hno
  | addBridge => exact absurd trivial hno
  | delBridge => exact absurd trivial hno
  | hrtimerFires => exact absurd trivial hno
  | flushWork => exact absurd trivial hno
  | qmapCmd => exact absurd trivial hno

/-- **Copies fit.**  A run of requests and packets never panics exactly when no step opens a buffer for a packet
whose length lies between the room of the buffer and `agg_size`. -/
theorem no_overrun_iff (h : List (Option LinkState × AggLabel)) (s : Option LinkState)
    (hex : Exec AggInit AggStep h s) :
    (∀ x ∈ h.map Prod.fst ++ [s], x ≠ none) ↔ ∀ x ∈ h, NoGap x.1 x.2 := by
  have hsome : ∀ s, AggRun s → s ≠ none := by
    intro s hrun hnone
    rw [hnone] at hrun
    exact hrun
  exact (Exec.forall_iff aggRun_init hsome aggStep_run aggStep_panic hex).1

/-! ### A packet in the gap -/

/-- From a page on, `rmnet_map_update_ul_agg_config` makes `agg_size` the room of the buffer. -/
theorem updateUlAggConfig_no_gap {size : ℕ} (hsize : pageSize ≤ u16 size) (count features time : ℕ)
    (pages : List ℕ) (port : UlPort) (len : ℕ) :
    ¬ InGap (rmnetMapUpdateUlAggConfig size count features time pages port) len := by
  have hroom : ∀ n ≤ 4,
      sub16 (u16 (pageSize * 2 ^ n)) skbSharedInfoSize = pageSize * 2 ^ n - skbSharedInfoSize := by
    decide
  have horder : getOrder (u16 size) ≤ 4 := by
    unfold getOrder
    split_ifs <;> omega
  have hfields : (rmnetMapUpdateUlAggConfig size count features time pages port).aggSizeOrder
        = getOrder (u16 size) ∧
      (rmnetMapUpdateUlAggConfig size count features time pages port).egressAggParams.aggSize
        = sub16 (u16 (pageSize * 2 ^ getOrder (u16 size))) skbSharedInfoSize := by
    unfold rmnetMapUpdateUlAggConfig
    simp only [if_neg (Nat.not_lt.mpr hsize)]
    split
    · exact ⟨rfl, rfl⟩
    · exact ⟨rfl, rfl⟩
  rintro ⟨hlo, hhi⟩
  rw [UlPort.freshRoom, hfields.1] at hlo
  rw [hfields.2, hroom _ horder] at hhi
  omega

/-- Below a page it does not: the default parameters have a gap. -/
example (len : ℕ) : InGap newPort.ul len ↔ 3776 < len ∧ len < 4095 := Iff.rfl

/-- A packet of `n` zero bytes. -/
def zeroFrame (n : ℕ) (h : n < 4294967296) : Frame :=
  ⟨{ linear := List.replicate n 0, len := n }, by
    have hlen : (List.replicate n (0 : UInt8)).length = n := List.length_replicate
    exact ⟨by simp [SkBuff.bytes], by rw [hlen, Nat.sub_self], h⟩⟩

/-- The real device 0 with one rmnet device has the default parameters. -/
theorem oneLink_agg : Exec AggInit AggStep [(some bareLink, .newlink {} 1 (muxAttrs 1))] (some oneLink) :=
  (Exec.start (s := some bareLink) ⟨fun _ => rfl, fun _ => rfl⟩).next
    (.newlink rfl rfl (by intro p hp; cases hp))

/-- A packet of 40 bytes is copied to a new buffer. -/
theorem no_overrun_small : ∃ h st, Exec AggInit AggStep h st ∧
    (∃ frame env, (some oneLink, .txPass 0 frame env) ∈ h) ∧ ∀ x ∈ h.map Prod.fst ++ [st], x ≠ none := by
  have hex := oneLink_agg.next
    (@AggStep.txPass oneLink 0 _ (zeroFrame 40 (by omega)) calmEnv _ _ rfl (by decide) rfl)
  refine ⟨_, _, hex, ⟨zeroFrame 40 (by omega), calmEnv, by simp⟩, (no_overrun_iff _ _ hex).mpr ?_⟩
  intro x hx
  simp only [List.mem_append, List.mem_cons, List.not_mem_nil, or_false] at hx
  rcases hx with rfl | rfl
  · exact trivial
  · rintro port hport ⟨-, hgap, -⟩
    cases hport
    exact absurd hgap (by decide)

/-- **An overrun.**  With the default parameters a packet of 4000 bytes is smaller than `agg_size` and larger
than a page less the shared info. -/
theorem overrun_default : ∃ h, Exec AggInit AggStep h none := by
  have hopens : TxOpens (zeroFrame 4000 (by omega)).1 calmEnv newPort.ul := ⟨rfl, rfl, by decide, by decide, rfl⟩
  obtain ⟨e, he⟩ := (pass_overrun_iff (zeroFrame 4000 (by omega)).2 (by decide) calmEnv newPort_sized).mpr
    ⟨hopens, by decide, by decide⟩
  exact ⟨_, oneLink_agg.next (@AggStep.txPanic oneLink 0 _ _ _ _ rfl (by decide) he)⟩

end Rmnet
