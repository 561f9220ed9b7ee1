import Rmnet.Client.Shutout

/-!
# No client is used after it has been freed

`ClientInv` says what holds in every state of a run: what is in a slot is allocated, except between `kfree` and the
reset of its pointer, what is allocated is in its slot, and what the users have found is allocated.

* `ClientInv.step` — every step keeps the invariant.
* `no_client_used_after_free` — a client whose work item is queued or running, whose handle is registered, whose
  answer the power-save work waits for, or that a reader can find or has found, is allocated and in its slot, and the
  `qmi_info` that the power-save work has read is that of the port.
-/

namespace Rmnet

open Transition Worker Reading

/-! ### What holds between two steps -/

/-- What the power-save work has read is there. -/
structure PsSound (p : QmiPort) (w : PsWork) : Prop where
  qmi : ∀ a, w.qmi = some a → ∃ q, p.qmiInfo = some q ∧ q.addr = a
  live : ∀ x ∈ w.run, ∀ c, x.uses = some c → (p.client c).live = true
  mode : ∀ e c, .setMode e c ∈ w.run → (p.client c).slot = .wda
  flow : ∀ c, .queryFlow c ∈ w.run → ∃ i, (p.client c).slot = .dfc i
  awaited : w.Awaited

/-- A reader has found the client, or can find it. -/
def QmiPort.Found (p : QmiPort) (c : ℕ) : Prop :=
  (∃ r, p.readers.Has r ∧ r.phase = .found c) ∨ p.qmapDfcData = some c

/-- Somebody is about to queue the power-save work, or comes to it by the alarm. -/
def QmiPort.Restarts (p : QmiPort) : Prop :=
  p.alarm = true ∨ ∃ r, p.readers.Has r ∧ (r.phase = .queue ∨ r.kind = .alarm)

/-- What holds in every state of a run. -/
structure ClientInv (p : QmiPort) : Prop where
  fresh : ∀ c, p.next ≤ c → (p.client c).live = false
  quiet : ∀ c, (p.client c).live = false → (p.client c).Quiet
  owned : ∀ c, (p.client c).live = true → p.held (p.client c).slot = some c
  slot : ∀ s c, p.held s = some c → (p.client c).slot = s
  one : ∀ q s, p.qmiInfo = some q → q.client s = none ∨ q.pending s = none
  mode : ∀ c i, (p.client c).live = true → (p.client c).slot = .dfc i → (p.client c).qmap = p.dfcQmap
  qmap : ∀ c, (p.client c).qmap = true → (p.client c).Quiet
  reader : ∀ c, p.Found c → (p.client c).live = true ∧ (p.client c).qmap = true ∧ ∃ i, (p.client c).slot = .dfc i
  restarts : p.Restarts → p.psWork.isSome = true
  ps : ∀ w, p.psWork = some w → PsSound p w
  wda : p.psWork.isSome = true → (p.held .wda).isSome = true
  rtnl : RtnlInv p

section

variable {p p' : QmiPort} {s : Slot} {c : ℕ}

/-- What the power-save work has read stays there when `qmi_info` stays at its address, and what it uses stays allocated
and in its slot. -/
theorem PsSound.mono {w w' : PsWork} (h : PsSound p w) (hrun : w'.run = w.run) (hqmi : w'.qmi = w.qmi)
    (hawaited : w'.Awaited) (haddr : ∀ q, p.qmiInfo = some q → ∃ q', p'.qmiInfo = some q' ∧ q'.addr = q.addr)
    (hlive : ∀ x ∈ w.run, ∀ c, x.uses = some c → (p'.client c).live = true)
    (hslot : ∀ x ∈ w.run, ∀ c, x.uses = some c → (p'.client c).slot = (p.client c).slot) : PsSound p' w' := by
  refine ⟨fun a ha => ?_, by rw [hrun]; exact hlive, fun e c hc => ?_, fun c hc => ?_, hawaited⟩
  · obtain ⟨q, hq, hqa⟩ := h.qmi a (hqmi ▸ ha)
    obtain ⟨q', hq', hqa'⟩ := haddr q hq
    exact ⟨q', hq', hqa'.trans hqa⟩
  · rw [hrun] at hc
    exact (hslot _ hc c rfl).trans (h.mode e c hc)
  · rw [hrun] at hc
    obtain ⟨i, hi⟩ := h.flow c hc
    exact ⟨i, (hslot _ hc c rfl).trans hi⟩

/-! ### The steps under the lock -/

/-- A client that is in its slot when the slot is cleared has been freed, and the power-save work is shut out. -/
theorem ClientInv.cleared (h : ClientInv p) {rest : List Instr} (hr : p.rtnl = .clear s :: rest)
    (hc : p.held s = some c) : (p.client c).live = false ∧ p.Shut s := by
  have hord := h.rtnl.order
  have hfreed := h.rtnl.freed s c hc
  rw [hr] at hord hfreed
  have hl := hfreed.now hord (by cases s <;> simp [Instr.rank]) (by simp) (by simp)
  exact ⟨hl, (h.rtnl.gone s c hc hl).2⟩

/-- When a client is freed, its work item is idle and no reader has it. -/
theorem ClientInv.freeing (h : ClientInv p) {rest : List Instr} (hr : p.rtnl = .free s :: rest)
    (hc : p.held s = some c) : (p.client c).Quiet ∧ ¬ p.Found c := by
  have hord := h.rtnl.order
  have hdrained := h.rtnl.drained s c hc
  rw [hr] at hord hdrained
  refine ⟨hdrained.now hord (by cases s <;> simp [Instr.rank]) (by simp) (by simp), fun huse => ?_⟩
  obtain ⟨-, hm, i, hs⟩ := h.reader c huse
  obtain rfl : s = .dfc i := (h.slot s c hc).symm.trans hs
  have hsynced := h.rtnl.synced i c hc hm
  rw [hr] at hsynced
  obtain ⟨hd, hrd⟩ := hsynced.now hord (by simp [Instr.rank]) (by simp) (by simp)
  rcases huse with ⟨r, hr', hphase⟩ | huse
  · exact hrd r hr' c hphase
  · rw [hd] at huse
    cases huse

/-- When the power-save work is freed, nobody comes to queue it. -/
theorem ClientInv.unrestarted (h : ClientInv p) {rest : List Instr} (hr : p.rtnl = .cancelled :: rest) :
    ¬ p.Restarts := by
  intro hre
  obtain ⟨w, hw⟩ := Option.isSome_iff_exists.mp (h.restarts hre)
  have hord := h.rtnl.order
  have hreached := h.rtnl.reached .cancel
  rw [hr] at hord hreached
  obtain ⟨hno, halarm, hcalls, -⟩ := hreached.now hord (by decide) (by simp) nofun w hw
  rcases hre with hset | ⟨r, hrd, hq | hk⟩
  · exact Bool.false_ne_true (halarm.symm.trans hset)
  · exact hno.readers r hrd hq
  · exact hcalls r hrd hk

/-- When a client is freed, the power-save work does not use it. -/
theorem ClientInv.unused (h : ClientInv p) {rest : List Instr} (hr : p.rtnl = .free s :: rest) (hc : p.held s = some c)
    {w : PsWork} (hw : p.psWork = some w) {x : PsPhase} (hx : x ∈ w.run) : x.uses ≠ some c := by
  intro huse
  have hshut := h.rtnl.shut_of_free hr
  have hslot := h.slot s c hc
  have hno : p.psWork ≠ none := by rw [hw]; exact Option.some_ne_none w
  cases s with
  | wda => exact hno hshut
  | dfc i =>
    rcases hshut with hshut | ⟨-, hshut⟩
    · exact hno hshut
    · cases x with
      | setMode e d =>
        obtain rfl : d = c := Option.some.inj huse
        have hs := (h.ps w hw).mode e d hx
        rw [hslot] at hs
        cases hs
      | queryFlow d =>
        obtain rfl : d = c := Option.some.inj huse
        exact hshut ⟨w, d, hw, hx, hslot⟩
      | _ => cases huse

/-- An instruction other than `freeQmi` keeps the invariant. -/
theorem ClientInv.instr (h : ClientInv p) {x : Instr} {rest : List Instr} (hr : p.rtnl = x :: rest)
    (hover : p.over x = true) (hx : x ≠ .freeQmi) : ClientInv ({ p with rtnl := rest }.exec x) := by
  have hk := exec_kept (p := p) x hx rest
  have hpost := exec_post x rest hover
  have hheld := exec_held (p := p) hx rest
  obtain ⟨g, hg, haddr, hone, -⟩ := exec_qmiInfo (p := p) hx rest
  have hrest := exec_rest (p := p) hx rest
  have hwork := fun w' (hw' : ({ p with rtnl := rest }.exec x).psWork = some w') => exec_psWork hx hw'
  have hgone := exec_noWork (p := p) (r := rest) hx
  have hfree := fun c => exec_live (p := p) (c := c) (x := x) (r := rest)
  have hsome : p.qmiInfo.isSome = true → ({ p with rtnl := rest }.exec x).qmiInfo.isSome = true := by
    rw [hg, Option.isSome_map]
    exact id
  generalize { p with rtnl := rest }.exec x = p' at hk hpost hheld hg hrest hwork hgone hfree hsome ⊢
  obtain ⟨hrtnl, hnext, hqmap, hreaders, hdata, halarm⟩ := hrest
  have hdead : ∀ d, (p'.client d).live = false → (p'.client d).Quiet := by
    intro d hl
    cases hl₀ : (p.client d).live with
    | false => exact hk.clients.quiet d (h.quiet d hl₀)
    | true =>
      obtain ⟨s, rfl, hc⟩ := hfree d hl₀ hl
      exact hk.clients.quiet d (h.freeing hr hc).1
  refine
    { fresh := ?_
      quiet := hdead
      owned := ?_
      slot := fun s d hd => (hk.clients.slot d).trans (h.slot s d (hk.held s d hd))
      one := ?_
      mode := ?_
      qmap := fun d hm => hk.clients.quiet d (h.qmap d (by rwa [← hk.clients.qmap d]))
      reader := ?_
      restarts := ?_
      ps := ?_
      wda := ?_
      rtnl := h.rtnl.pop hr hk hrtnl hsome hpost fun s d hd hl hl' => ?_ }
  · intro d hd
    exact Bool.eq_false_iff.mpr fun hl =>
      Bool.false_ne_true ((h.fresh d (hnext ▸ hd)).symm.trans (hk.clients.live d hl))
  · intro d hl
    have hl₀ := hk.clients.live d hl
    have hd := h.owned d hl₀
    rw [hheld, hk.clients.slot d]
    split
    · rename_i hxc
      rw [hxc] at hr
      exact absurd ((h.cleared hr hd).1.symm.trans hl₀) Bool.false_ne_true
    · exact hd
  · intro q' s hq'
    rw [hg] at hq'
    obtain ⟨q, hq, rfl⟩ := Option.map_eq_some_iff.mp hq'
    exact hone q s (h.one q s hq)
  · intro d i hl hs
    rw [hk.clients.qmap d, hqmap]
    exact h.mode d i (hk.clients.live d hl) ((hk.clients.slot d).symm.trans hs)
  · intro d huse
    have huse₀ : p.Found d := by
      refine huse.imp (fun ⟨r, hr, hp⟩ => ⟨r, (hreaders r).mp hr, hp⟩) fun hd => ?_
      rcases hdata with hdata | hdata
      · exact hdata ▸ hd
      · rw [hdata] at hd
        cases hd
    obtain ⟨hl, hm, i, hs⟩ := h.reader d huse₀
    refine ⟨?_, (hk.clients.qmap d).trans hm, i, (hk.clients.slot d).trans hs⟩
    by_contra hl'
    obtain ⟨s, rfl, hc⟩ := hfree d hl (Bool.eq_false_iff.mpr hl')
    exact (h.freeing hr hc).2 huse₀
  · intro hre
    have hre₀ : p.Restarts := hre.imp halarm fun ⟨r, hr, hp⟩ => ⟨r, (hreaders r).mp hr, hp⟩
    by_contra hno
    rcases hgone (h.restarts hre₀) (Option.not_isSome_iff_eq_none.mp hno) with rfl
    exact h.unrestarted hr hre₀
  · intro w' hw'
    obtain ⟨w, hw, hrun, hqmi, hawaited⟩ := hwork w' hw'
    have hps := h.ps w hw
    refine hps.mono hrun hqmi (hawaited hps.awaited) (fun q hq => ⟨g q, by rw [hg, hq, Option.map_some], haddr q⟩)
      (fun y hy d hd => ?_) fun _ _ d _ => hk.clients.slot d
    by_contra hl'
    obtain ⟨s, rfl, hc⟩ := hfree d (hps.live y hy d hd) (Bool.eq_false_iff.mpr hl')
    exact h.unused hr hc hw hy hd
  · intro hw
    obtain ⟨w', hw'⟩ := Option.isSome_iff_exists.mp hw
    obtain ⟨w, hw₀, -⟩ := hwork w' hw'
    have hwda := h.wda (by rw [hw₀]; rfl)
    rw [hheld]
    split
    · rename_i hxc
      rw [hxc] at hr
      obtain ⟨c, hc⟩ := Option.isSome_iff_exists.mp hwda
      have hno : p.psWork = none := (h.cleared hr hc).2
      rw [hw₀] at hno
      cases hno
    · exact hwda
  · obtain ⟨t, hxt, ht⟩ := hfree d hl hl'
    obtain rfl : t = s := (h.slot t d ht).symm.trans (h.slot s d (hk.held s d hd))
    exact hxt

/-- An empty `qmi_info` can be freed: no client is allocated, and the power-save work is gone. -/
theorem ClientInv.dropQmi (h : ClientInv p) (hempty : ∀ s, p.held s = none) {r : List Instr} (hr : r = []) :
    ClientInv { p with qmiInfo := none, rtnl := r } := by
  have hlive : ∀ d, (p.client d).live = false := fun d =>
    Bool.eq_false_iff.mpr fun hl => Option.some_ne_none d ((h.owned d hl).symm.trans (hempty _))
  have hps : p.psWork = none := by
    rw [← Option.not_isSome_iff_eq_none]
    intro hw
    have hwda := h.wda hw
    rw [hempty] at hwda
    cases hwda
  refine
    { fresh := h.fresh
      quiet := h.quiet
      owned := fun d hl => absurd ((hlive d).symm.trans hl) Bool.false_ne_true
      slot := fun s d hd => absurd hd (Option.some_ne_none d).symm
      one := fun q s hq => absurd hq (Option.some_ne_none q).symm
      mode := h.mode
      qmap := h.qmap
      reader := h.reader
      restarts := h.restarts
      ps := fun w hw => absurd (hps.symm.trans hw) (Option.some_ne_none w).symm
      wda := fun hw => ?_
      rtnl := RtnlInv.nil hr fun s d hd => absurd hd (Option.some_ne_none d).symm }
  have hw' : p.psWork.isSome = true := hw
  rw [hps] at hw'
  cases hw'

/-- `rmnet_reset_qmi_pt` and `kfree`, if nothing is left. -/
theorem ClientInv.freeQmi (h : ClientInv p) (hr : p.rtnl = []) : ClientInv p.freeQmi := by
  unfold QmiPort.freeQmi
  split
  · exact h
  · rename_i q hq
    split
    · rename_i hempty
      exact h.dropQmi (fun s => (held_of hq s).trans (held_of_empty hempty s)) hr
    · exact h

/-- **A step of the lock's holder keeps the invariant.** -/
theorem ClientInv.rtnlStep (h : ClientInv p) (hs : rtnlStep p = some p') : ClientInv p' := by
  unfold Rmnet.rtnlStep at hs
  split at hs
  · cases hs
  · rename_i x rest hr
    split at hs
    · rename_i hover
      obtain rfl := Option.some.inj hs
      by_cases hx : x = .freeQmi
      · subst hx
        have hpop : ClientInv { p with rtnl := rest } :=
          { h with
            ps := fun w hw => { h.ps w hw with }
            rtnl := h.rtnl.pop hr (Kept.of_clients rest (SameClients.refl _)) rfl id trivial fun s d _ hl hl' =>
              absurd (hl.symm.trans hl') (by simp) }
        obtain ⟨q, hq⟩ := Option.isSome_iff_exists.mp (h.rtnl.qmi (by rw [hr]; exact List.cons_ne_nil _ _))
        cases hempty : !qmiRmnetHasClient q && !qmiRmnetHasPending q with
        | true =>
          have hfree : ({ p with rtnl := rest } : QmiPort).exec .freeQmi = { p with qmiInfo := none, rtnl := [] } := by
            simp [QmiPort.exec, QmiPort.freeQmi, hq, hempty]
          rw [hfree]
          exact h.dropQmi (fun s => (held_of hq s).trans (held_of_empty hempty s)) rfl
        | false =>
          have hkeep : ({ p with rtnl := rest } : QmiPort).exec .freeQmi = { p with rtnl := rest } := by
            simp [QmiPort.exec, QmiPort.freeQmi, hq, hempty]
          rw [hkeep]
          exact hpop
      · exact h.instr hr hover hx
    · cases hs

/-! ### The set-up -/

/-- With the lock free, `qmi_info` changes, but not what is in a slot. -/
theorem ClientInv.mapQmi (h : ClientInv p) (hr : p.rtnl = []) {g : QmiInfo → QmiInfo} (haddr : ∀ q, (g q).addr = q.addr)
    (hheld : ∀ q, p.qmiInfo = some q → ∀ s, (g q).held s = q.held s)
    (hone : ∀ q, p.qmiInfo = some q → ∀ s, q.client s = none ∨ q.pending s = none →
      (g q).client s = none ∨ (g q).pending s = none) : ClientInv (p.mapQmi g) := by
  have hsame : ∀ s, (p.mapQmi g).held s = p.held s := by
    intro s
    cases hq : p.qmiInfo with
    | none => rw [held_of_none hq, held_of_none (p := p.mapQmi g) (by rw [QmiPort.mapQmi, hq, Option.map_none])]
    | some q =>
      rw [held_of hq, held_of (p := p.mapQmi g) (q := g q) (by rw [QmiPort.mapQmi, hq, Option.map_some])]
      exact hheld q hq s
  refine
    { h with
      owned := fun d hl => (hsame _).trans (h.owned d hl)
      slot := fun s d hd => h.slot s d ((hsame s).symm.trans hd)
      one := ?_
      ps := fun w hw => { h.ps w hw with qmi := fun a ha => ?_ }
      wda := fun hw => by rw [hsame]; exact h.wda hw
      rtnl := RtnlInv.nil hr fun s d hd => h.rtnl.live hr ((hsame s).symm.trans hd) }
  · intro q' s hq'
    obtain ⟨q, hq, rfl⟩ := Option.map_eq_some_iff.mp hq'
    exact hone q hq s (h.one q s hq)
  · obtain ⟨q, hq, hqa⟩ := (h.ps w hw).qmi a ha
    exact ⟨g q, by rw [QmiPort.mapQmi, hq, Option.map_some], (haddr q).trans hqa⟩

/-- A port gets its `qmi_info`. -/
theorem ClientInv.initQmi (h : ClientInv p) (hr : p.rtnl = []) (hq : p.qmiInfo = none) : ClientInv p.initQmi := by
  have hempty : ∀ s, p.held s = none := held_of_none hq
  have hheld : ∀ s, p.initQmi.held s = none := fun s => rfl
  have hps : ∀ w, p.psWork ≠ some w := by
    intro w hw
    have hwda := h.wda (by rw [hw]; rfl)
    rw [hempty] at hwda
    cases hwda
  refine
    { h with
      owned := fun d hl => absurd ((h.owned d hl).symm.trans (hempty _)) (Option.some_ne_none d)
      slot := fun s d hd => absurd ((hheld s).symm.trans hd) (Option.some_ne_none d).symm
      one := fun q s hq' => ?_
      ps := fun w hw => absurd hw (hps w)
      wda := fun hw => ?_
      rtnl := RtnlInv.nil hr fun s d hd => absurd ((hheld s).symm.trans hd) (Option.some_ne_none d).symm }
  · obtain rfl := Option.some.inj hq'
    exact .inl rfl
  · obtain ⟨w, hw⟩ := Option.isSome_iff_exists.mp hw
    exact absurd hw (hps w)

/-- **A new client** is put into an empty slot. -/
theorem ClientInv.add (h : ClientInv p) (hr : p.rtnl = []) {q q' : QmiInfo} (hq : p.qmiInfo = some q)
    (hempty : q.held s = none) {b : Bool} (hmode : ∀ i, s = .dfc i → b = p.dfcQmap) (haddr : q'.addr = q.addr)
    (hheld : ∀ t, q'.held t = if t = s then some p.next else q.held t)
    (hone : ∀ t, q.client t = none ∨ q.pending t = none → q'.client t = none ∨ q'.pending t = none) {d : Option ℕ}
    (hd : d = p.qmapDfcData ∨ (d = some p.next ∧ b = true ∧ ∃ i, s = .dfc i)) :
    ClientInv { p.newClient s b with qmiInfo := some q', qmapDfcData := d } := by
  have hnew : ∀ c, (p.client c).live = true → c ≠ p.next := by
    rintro c hl rfl
    exact Bool.false_ne_true ((h.fresh _ le_rfl).symm.trans hl)
  have hnewHeld : ∀ t c, q.held t = some c → c ≠ p.next := fun t c hc =>
    hnew c (h.rtnl.live hr ((held_of hq t).trans hc))
  -- the clients after the allocation
  set f := Function.update p.client p.next
    { live := true, slot := s, qmap := b, handle := !b, task := Task.fresh, inds := Backlog.empty } with hf
  have hself : f p.next =
      { live := true, slot := s, qmap := b, handle := !b, task := Task.fresh, inds := Backlog.empty } :=
    Function.update_self _ _ _
  have hother : ∀ c, c ≠ p.next → f c = p.client c := fun c hc => Function.update_of_ne hc _ _
  have hlive : ∀ t c, q'.held t = some c → (f c).live = true := by
    intro t c hc
    rw [hheld] at hc
    split at hc
    · rw [← Option.some.inj hc, hself]
    · rw [hother c (hnewHeld t c hc)]
      exact h.rtnl.live hr ((held_of hq t).trans hc)
  refine
    { fresh := ?_
      quiet := ?_
      owned := ?_
      slot := ?_
      one := ?_
      mode := ?_
      qmap := ?_
      reader := ?_
      restarts := h.restarts
      ps := ?_
      wda := ?_
      rtnl := RtnlInv.nil hr hlive }
  · intro c hc
    have hc' : p.next + 1 ≤ c := hc
    show (f c).live = false
    rw [hother c (by omega)]
    exact h.fresh c (by omega)
  · intro c hl
    have hl' : (f c).live = false := hl
    have hne : c ≠ p.next := by
      rintro rfl
      rw [hself] at hl'
      cases hl'
    show (f c).Quiet
    rw [hother c hne] at hl' ⊢
    exact h.quiet c hl'
  · intro c hl
    have hl' : (f c).live = true := hl
    show q'.held (f c).slot = some c
    by_cases hc : c = p.next
    · rw [hc, hself, hheld, if_pos rfl]
    · rw [hother c hc] at hl' ⊢
      have hown := (held_of hq _).symm.trans (h.owned c hl')
      rw [hheld, if_neg, hown]
      intro hs
      rw [hs, hempty] at hown
      cases hown
  · intro t c hc
    have hc' : q'.held t = some c := hc
    show (f c).slot = t
    rw [hheld] at hc'
    split at hc'
    · rename_i ht
      rw [← Option.some.inj hc', hself, ht]
    · rw [hother c (hnewHeld t c hc')]
      exact h.slot t c ((held_of hq t).trans hc')
  · intro q'' t hq''
    obtain rfl := Option.some.inj hq''
    exact hone t (h.one q t hq)
  · intro c i hl hs
    have hl' : (f c).live = true := hl
    have hs' : (f c).slot = .dfc i := hs
    show (f c).qmap = p.dfcQmap
    by_cases hc : c = p.next
    · rw [hc, hself] at hs' ⊢
      exact hmode i hs'
    · rw [hother c hc] at hl' hs' ⊢
      exact h.mode c i hl' hs'
  · intro c hm
    have hm' : (f c).qmap = true := hm
    show (f c).Quiet
    by_cases hc : c = p.next
    · rw [hc, hself] at hm' ⊢
      exact ⟨congrArg not hm', ⟨rfl, rfl⟩, rfl, rfl⟩
    · rw [hother c hc] at hm' ⊢
      exact h.qmap c hm'
  · intro c huse
    have hreader : p.Found c → (f c).live = true ∧ (f c).qmap = true ∧ ∃ i, (f c).slot = .dfc i := by
      intro hc
      have hold := h.reader c hc
      rw [hother c (hnew c hold.1)]
      exact hold
    rcases huse with hm | hdc
    · exact hreader (.inl hm)
    · have hdc' : d = some c := hdc
      rcases hd with rfl | ⟨rfl, rfl, i, rfl⟩
      · exact hreader (.inr hdc')
      · obtain rfl := Option.some.inj hdc'
        show (f p.next).live = true ∧ (f p.next).qmap = true ∧ ∃ i, (f p.next).slot = .dfc i
        rw [hself]
        exact ⟨rfl, rfl, i, rfl⟩
  · intro w hw
    have hps := h.ps w hw
    have hold : ∀ x ∈ w.run, ∀ c, x.uses = some c → f c = p.client c := fun x hx c hc =>
      hother c (hnew c (hps.live x hx c hc))
    refine hps.mono rfl rfl hps.awaited (fun q₀ hq₀ => ⟨q', rfl, ?_⟩) (fun x hx c hc => ?_) fun x hx c hc => ?_
    · obtain rfl := Option.some.inj (hq.symm.trans hq₀)
      exact haddr
    · show (f c).live = true
      rw [hold x hx c hc]
      exact hps.live x hx c hc
    · show (f c).slot = (p.client c).slot
      rw [hold x hx c hc]
  · intro hw
    show (q'.held .wda).isSome = true
    rw [hheld]
    split
    · rfl
    · rw [← held_of hq]
      exact h.wda hw

/-- What every part of a set-up does: it keeps the invariant, and adds clients at most. -/
structure SetUp (p p' : QmiPort) : Prop where
  inv : ClientInv p'
  rtnl : p'.rtnl = []
  qmi : p'.qmiInfo.isSome = true
  psWork : p'.psWork = p.psWork
  dfcQmap : p'.dfcQmap = p.dfcQmap
  held : ∀ s, (p.held s).isSome = true → (p'.held s).isSome = true

theorem SetUp.refl (h : ClientInv p) (hr : p.rtnl = []) (hq : p.qmiInfo.isSome = true) : SetUp p p :=
  ⟨h, hr, hq, rfl, rfl, fun _ => id⟩

theorem SetUp.trans {p₁ p₂ p₃ : QmiPort} (h : SetUp p₁ p₂) (h' : SetUp p₂ p₃) : SetUp p₁ p₃ :=
  ⟨h'.inv, h'.rtnl, h'.qmi, h'.psWork.trans h.psWork, h'.dfcQmap.trans h.dfcQmap, fun s hs => h'.held s (h.held s hs)⟩

/-- The initialisation of a client of WDA, or of DFC over QMI. -/
theorem clientInit_setUp (a : InitAnswers) (h : ClientInv p) (hr : p.rtnl = []) (hq : p.qmiInfo.isSome = true)
    (hempty : p.held s = none) (hmode : ∀ i, s = .dfc i → p.dfcQmap = false) :
    SetUp p (qmiClientInit a s p).1 ∧
      (0 ≤ (qmiClientInit a s p).2 → ((qmiClientInit a s p).1.held s).isSome = true) := by
  have hself := SetUp.refl h hr hq
  unfold qmiClientInit
  split
  · exact ⟨hself, fun hle => absurd hle (by decide : ¬ (0 : ℤ) ≤ -enomem)⟩
  split
  · exact ⟨hself, fun hle => absurd hle (by decide : ¬ (0 : ℤ) ≤ -enomem)⟩
  split
  · rename_i hneg
    exact ⟨hself, fun hle => absurd hle (by simpa using hneg)⟩
  split
  · rename_i hneg
    exact ⟨hself, fun hle => absurd hle (by simpa using hneg)⟩
  obtain ⟨q, hq⟩ := Option.isSome_iff_exists.mp hq
  rw [held_of hq] at hempty
  set q' : QmiInfo := { q with pending := Function.update q.pending s (some p.next) } with hq'
  have hnew : (p.newClient s false).mapQmi (fun q => { q with pending := Function.update q.pending s (some p.next) }) =
      { p.newClient s false with qmiInfo := some q', qmapDfcData := p.qmapDfcData } := by
    simp [QmiPort.mapQmi, QmiPort.newClient, hq, hq']
  have hheld : ∀ t, q'.held t = if t = s then some p.next else q.held t := by
    intro t
    simp only [QmiInfo.held, hq', Function.update_apply]
    split
    · rename_i ht
      rw [ht, (Option.or_eq_none_iff.mp hempty).1, Option.none_or]
    · rfl
  show SetUp p
    ((p.newClient s false).mapQmi fun q => { q with pending := Function.update q.pending s (some p.next) }) ∧ _
  rw [hnew]
  have hinv := h.add (d := p.qmapDfcData) hr hq hempty (fun i hi => (hmode i hi).symm)
    (rfl : q'.addr = q.addr) hheld (fun t ht => ?_) (.inl rfl)
  · refine ⟨⟨hinv, hr, rfl, rfl, rfl, fun t ht => ?_⟩, fun _ => ?_⟩
    · show (q'.held t).isSome = true
      rw [hheld]
      split
      · rfl
      · rwa [held_of hq] at ht
    · show (q'.held s).isSome = true
      rw [hheld, if_pos rfl]
      rfl
  · by_cases hts : t = s
    · rw [hts]
      exact .inl (Option.or_eq_none_iff.mp hempty).1
    · simpa only [hq', Function.update_of_ne hts] using ht

/-- The initialisation of a DFC client over QMAP. -/
theorem qmapInit_setUp (a : InitAnswers) (i : Fin 2) (h : ClientInv p) (hr : p.rtnl = []) (hq : p.qmiInfo.isSome = true)
    (hempty : p.held (.dfc i) = none) (hmode : p.dfcQmap = true) : SetUp p (dfcQmapClientInit a i p).1 := by
  have hself := SetUp.refl h hr hq
  unfold dfcQmapClientInit
  split
  · exact hself
  split
  · exact hself
  obtain ⟨q, hq⟩ := Option.isSome_iff_exists.mp hq
  rw [held_of hq] at hempty
  set q' : QmiInfo := { q with client := Function.update q.client (.dfc i) (some p.next) } with hq'
  have hnew : ({ (p.newClient (.dfc i) true).mapQmi fun q =>
        { q with client := Function.update q.client (.dfc i) (some p.next) } with
        qmapDfcData := some p.next } : QmiPort) =
      { p.newClient (.dfc i) true with qmiInfo := some q', qmapDfcData := some p.next } := by
    simp [QmiPort.mapQmi, QmiPort.newClient, hq, hq']
  have hheld : ∀ t, q'.held t = if t = .dfc i then some p.next else q.held t := by
    intro t
    simp only [QmiInfo.held, hq', Function.update_apply]
    split
    · rfl
    · rfl
  show SetUp p { (p.newClient (.dfc i) true).mapQmi fun q =>
        { q with client := Function.update q.client (.dfc i) (some p.next) } with qmapDfcData := some p.next }
  rw [hnew]
  have hinv := h.add (d := some p.next) hr hq hempty (fun _ _ => hmode.symm) (rfl : q'.addr = q.addr)
    hheld (fun t ht => ?_) (.inr ⟨rfl, rfl, i, rfl⟩)
  · refine ⟨hinv, hr, rfl, rfl, rfl, fun t ht => ?_⟩
    show (q'.held t).isSome = true
    rw [hheld]
    split
    · rfl
    · rwa [held_of hq] at ht
  · by_cases hts : t = .dfc i
    · rw [hts]
      exact .inr (Option.or_eq_none_iff.mp hempty).2
    · simpa only [hq', Function.update_of_ne hts] using ht

/-- The DFC client of a set-up. -/
theorem setupDfc_setUp (a : SetupAnswers) (i : Fin 2) (h : ClientInv p) (hr : p.rtnl = [])
    (hq : p.qmiInfo.isSome = true) : SetUp p (setupDfc a i p).1 := by
  unfold setupDfc
  split
  · rename_i hcond
    have hempty : p.held (.dfc i) = none := Option.isNone_iff_eq_none.mp hcond.2
    have hinit : SetUp p (if p.dfcQmap then dfcQmapClientInit a.dfc i p else dfcQmiClientInit a.dfc i p).1 := by
      cases hm : p.dfcQmap with
      | true => exact qmapInit_setUp a.dfc i h hr hq hempty hm
      | false => exact (clientInit_setUp a.dfc h hr hq hempty fun _ _ => hm).1
    generalize (if p.dfcQmap then dfcQmapClientInit a.dfc i p else dfcQmiClientInit a.dfc i p) = x at hinit ⊢
    obtain ⟨p₁, err⟩ := x
    have hinv := hinit.inv.mapQmi hinit.rtnl
      (g := fun q => { q with dfcClientExiting := Function.update q.dfcClientExiting i false }) (fun _ => rfl)
      (fun _ _ _ => rfl) (fun _ _ _ => id)
    refine hinit.trans ⟨hinv, hinit.rtnl, ?_, rfl, rfl, fun s hs => ?_⟩
    · show (p₁.qmiInfo.map _).isSome = true
      rw [Option.isSome_map]
      exact hinit.qmi
    · obtain ⟨c, hc⟩ := Option.isSome_iff_exists.mp hs
      obtain ⟨q, hq, hc⟩ := exists_qmi hc
      have hheld : (p₁.mapQmi fun q =>
          { q with dfcClientExiting := Function.update q.dfcClientExiting i false }).held s = some c := by
        rw [QmiPort.held, QmiPort.mapQmi, hq, Option.map_some, Option.bind_some]
        exact hc
      exact Option.isSome_iff_exists.mpr ⟨c, hheld⟩
  · exact SetUp.refl h hr hq

/-- `qmi_rmnet_setup_client`: with no error and power save asked for with instance 0, there is a WDA client. -/
theorem setupClient_setUp (a : SetupAnswers) (tcm : ClientTcm) (h : ClientInv p) (hr : p.rtnl = []) :
    (qmiRmnetSetupClient a tcm p = (p, -enomem)) ∨
      ∃ p₀, ClientInv p₀ ∧ (∀ s, p₀.held s = p.held s) ∧ p₀.psWork = p.psWork ∧
        SetUp p₀ (qmiRmnetSetupClient a tcm p).1 ∧
        (0 ≤ (qmiRmnetSetupClient a tcm p).2 → flagPowersave tcm.ifindex = true → tcm.handle = 0 →
          ((qmiRmnetSetupClient a tcm p).1.held .wda).isSome = true) := by
  unfold qmiRmnetSetupClient
  split
  · exact .inl rfl
  · right
    have hstart : ∃ p₀, p₀ = (if p.qmiInfo.isNone then p.initQmi else p) ∧ ClientInv p₀ ∧ p₀.rtnl = [] ∧
        p₀.qmiInfo.isSome = true ∧ (∀ s, p₀.held s = p.held s) ∧ p₀.psWork = p.psWork := by
      cases hq : p.qmiInfo with
      | none =>
        rw [if_pos (by rfl)]
        exact ⟨_, rfl, h.initQmi hr hq, hr, rfl, fun s => (held_of_none hq s).symm, rfl⟩
      | some q =>
        rw [if_neg (by simp)]
        exact ⟨_, rfl, h, hr, by rw [hq]; rfl, fun _ => rfl, rfl⟩
    obtain ⟨p₀, hp₀, h₀, hr₀, hq₀, hheld, hps⟩ := hstart
    refine ⟨p₀, h₀, hheld, hps, ?_⟩
    rw [← hp₀]
    have hdfc := setupDfc_setUp a (clientIdx tcm.handle) h₀ hr₀ hq₀
    dsimp only
    generalize setupDfc a (clientIdx tcm.handle) p₀ = x at hdfc ⊢
    obtain ⟨p₁, err⟩ := x
    dsimp only at hdfc ⊢
    split
    · rename_i hcond
      have hwda := clientInit_setUp a.wda hdfc.inv hdfc.rtnl hdfc.qmi
        (s := .wda) (Option.isNone_iff_eq_none.mp hcond.2.2) (fun _ hi => by cases hi)
      exact ⟨hdfc.trans hwda.1, fun hle _ _ => hwda.2 hle⟩
    · rename_i hcond
      refine ⟨hdfc, fun _ hflag hhandle => ?_⟩
      have hvacant : ¬ p₁.vacant .wda = true := fun hv => hcond ⟨hflag, by rw [hhandle]; rfl, hv⟩
      cases hw : p₁.held .wda with
      | none => exact absurd (Option.isNone_iff_eq_none.mpr hw) hvacant
      | some c => rfl

/-- The power-save work is set up when there is a WDA client. -/
theorem ClientInv.workInit (h : ClientInv p) (wqOk workOk : Bool)
    (hwda : (p.held .wda).isSome = true) (hr : p.rtnl = []) : ClientInv (p.workInit wqOk workOk) := by
  unfold QmiPort.workInit
  split
  · exact h
  split
  · exact h
  · refine
      { h with
        restarts := fun _ => rfl
        ps := ?_
        wda := fun _ => hwda
        rtnl := RtnlInv.nil hr fun s d hd => h.rtnl.live hr hd }
    intro w hw
    obtain rfl := Option.some.inj hw
    exact ⟨nofun, fun x hx => absurd hx List.not_mem_nil, fun e d hd => absurd hd List.not_mem_nil,
      fun d hd => absurd hd List.not_mem_nil, ⟨nofun, nofun, nofun⟩⟩

/-- The mode and QMAP of the module change with the message. -/
theorem ClientInv.setMode (h : ClientInv p) (m : ℕ) {b : Bool} (hb : (∃ i, (p.held (.dfc i)).isSome) → b = p.dfcQmap)
    (hr : p.rtnl = []) : ClientInv { p with dfcMode := m, dfcQmap := b } :=
  { h with
    mode := fun d i hl hs => by
      have hd := h.owned d hl
      rw [hs] at hd
      exact (h.mode d i hl hs).trans (hb ⟨i, by rw [hd]; rfl⟩).symm
    ps := fun w hw => { h.ps w hw with }
    rtnl := RtnlInv.nil hr fun s d hd => h.rtnl.live hr hd }

/-- **`NLMSG_CLIENT_SETUP` keeps the invariant**, if QMAP stays what it is while there is a DFC client, and power save
is asked for with instance 0 while there is no power-save work. -/
theorem ClientInv.setup (h : ClientInv p) (a : SetupAnswers) (tcm : ClientTcm) (hr : p.rtnl = [])
    (hok : ClientOk p (.setup a tcm)) : ClientInv (changeLinkSetup a tcm p) := by
  have hmode := h.setMode (tcm.ifindex % 16) hok.1 hr
  unfold changeLinkSetup
  set p₀ : QmiPort := { p with dfcMode := tcm.ifindex % 16, dfcQmap := flagQmap tcm.ifindex } with hp₀
  dsimp only
  split
  · exact hmode
  rcases setupClient_setUp a tcm hmode hr with herr | ⟨p₁, h₁, hheld, hps, hset, hwda⟩
  · rw [herr]
    dsimp only
    rw [if_pos (by decide)]
    exact hmode.freeQmi hr
  · generalize qmiRmnetSetupClient a tcm p₀ = x at hset hwda ⊢
    obtain ⟨p₂, err⟩ := x
    dsimp only at hset hwda ⊢
    split
    · exact hset.inv.freeQmi hset.rtnl
    split
    · rename_i hpos hflag
      refine hset.inv.workInit a.wq a.work ?_ hset.rtnl
      rcases hok.2 hflag with hhandle | hwork
      · exact hwda (by omega) hflag hhandle
      · exact hset.held .wda (h₁.wda (by rw [hps]; exact hwork))
    · exact hset.inv

end

/-! ### The start of a deletion -/

/-- What the code of a function that deletes is made of; `qmap` says how it deletes DFC clients. -/
structure CodeInv (qmap : Bool) (code : List Instr) : Prop where
  order : InOrder code
  clear : ∀ s, .free s ∈ code ↔ .clear s ∈ code
  ends : .alarmCancelled ∈ code → .cancelled ∈ code
  drain : ∀ s, .drain s ∈ code → .release s ∈ code ∧ .stop s ∈ code
  free : ∀ s, .free s ∈ code → .drain s ∈ code ∨ (qmap = true ∧ s ≠ .wda)
  sync : ∀ i, .sync i ∈ code → .unlink i ∈ code
  synced : ∀ i, .synced i ∈ code → .sync i ∈ code
  readers : ∀ i, .free (.dfc i) ∈ code → qmap = true → .synced i ∈ code
  cancelled : ∀ x ∈ qmiRmnetWorkExit, .cancelled ∈ code → x ∈ code
  wda : .free .wda ∈ code → .cancelled ∈ code
  exiting : ∀ i, .free (.dfc i) ∈ code → .flush ∈ code → .exiting i ∈ code
  flushed : .flushed ∈ code → .flush ∈ code
  dfc : ∀ i, .free (.dfc i) ∈ code → .cancelled ∈ code ∨ .flushed ∈ code

theorem deleteClient_code (wda dfc qmap ctl : Bool) (i : Fin 2) :
    CodeInv qmap (qmiRmnetDeleteClient wda dfc qmap ctl i) := by
  refine ⟨?_, ?_, ?_, ?_, ?_, ?_, ?_, ?_, ?_, ?_, ?_, ?_, ?_⟩ <;> revert wda dfc qmap ctl i <;> decide

theorem qmiExit_code (wda dfc₀ dfc₁ qmap ctl : Bool) : CodeInv qmap (qmiRmnetQmiExit wda dfc₀ dfc₁ qmap ctl) := by
  refine ⟨?_, ?_, ?_, ?_, ?_, ?_, ?_, ?_, ?_, ?_, ?_, ?_, ?_⟩ <;> revert wda dfc₀ dfc₁ qmap ctl <;> decide

section

variable {p p' : QmiPort} {s : Slot} {c : ℕ}

/-- The lock is taken to delete clients. -/
theorem ClientInv.enter (h : ClientInv p) (hr : p.rtnl = []) (hq : p.qmiInfo.isSome = true) {code : List Instr}
    (hcode : CodeInv p.dfcQmap code) : ClientInv { p with rtnl := code } := by
  have hlive : ∀ {s c}, p.held s = some c → (p.client c).live = true := fun hc => h.rtnl.live hr hc
  have hmode : ∀ {i c}, p.held (.dfc i) = some c → (p.client c).qmap = p.dfcQmap :=
    fun hc => h.mode _ _ (hlive hc) (h.slot _ _ hc)
  refine { h with ps := fun w hw => { h.ps w hw with }, rtnl := ?_ }
  refine
    { order := hcode.order
      qmi := fun _ => hq
      clear := fun s => (hcode.clear s).mp
      ends := hcode.ends
      freed := fun s c _ hm => .inl ((hcode.clear s).mpr hm)
      released := fun s c _ hm => .inl (hcode.drain s hm).1
      stopped := fun s c _ hm => .inl (hcode.drain s hm).2
      drained := ?_
      unlinked := fun i hm => .inl (hcode.sync i hm)
      syncing := fun i hm => .inl (hcode.synced i hm)
      synced := fun i c hc hqm hm => .inl (hcode.readers i hm ((hmode hc).symm.trans hqm))
      reached := fun stage hm => .inl (hcode.cancelled _ (by cases stage <;> decide) hm)
      noWork := fun hm => .inl (hcode.wda hm)
      exiting := fun i hf hm => .inl (hcode.exiting i hf hm)
      flushing := fun i _ hm => .inl (hcode.flushed hm)
      shut := fun i hm => (hcode.dfc i hm).imp id fun hf => .inr (.inl hf)
      gone := fun s c hc hl => absurd (hl.symm.trans (hlive hc)) Bool.false_ne_true }
  intro s c hc hm
  rcases hcode.free s hm with hd | ⟨hqm, hs⟩
  · exact .inl hd
  · cases s with
    | wda => exact absurd rfl hs
    | dfc i => exact .inr (h.qmap c ((hmode hc).trans hqm))

/-! ### The steps of the users -/

/-- One client changes, and is allocated before and after. -/
theorem ClientInv.mapClient (h : ClientInv p) {f : QmiClient → QmiClient}
    (hsame : SameClients p.client (Function.update p.client c (f (p.client c))))
    (hlive : (f (p.client c)).live = (p.client c).live) : ClientInv (p.mapClient c f) := by
  have hall : ∀ d, (Function.update p.client c (f (p.client c)) d).live = (p.client d).live := by
    intro d
    rw [Function.update_apply]
    split
    · rename_i hd
      rw [hlive, hd]
    · rfl
  exact
    { h with
      fresh := fun d hd => (hall d).trans (h.fresh d hd)
      quiet := fun d hd => hsame.quiet d (h.quiet d ((hall d).symm.trans hd))
      owned := fun d hd => by
        show p.held (Function.update p.client c (f (p.client c)) d).slot = some d
        rw [hsame.slot d]
        exact h.owned d ((hall d).symm.trans hd)
      slot := fun s d hd => (hsame.slot d).trans (h.slot s d hd)
      mode := fun d i hd hs =>
        (hsame.qmap d).trans (h.mode d i ((hall d).symm.trans hd) ((hsame.slot d).symm.trans hs))
      qmap := fun d hd => hsame.quiet d (h.qmap d ((hsame.qmap d).symm.trans hd))
      reader := fun d hd => by
        obtain ⟨hl, hm, i, hs⟩ := h.reader d hd
        exact ⟨(hall d).trans hl, (hsame.qmap d).trans hm, i, (hsame.slot d).trans hs⟩
      ps := fun w hw =>
        { h.ps w hw with
          live := fun x hx d hd => (hall d).trans ((h.ps w hw).live x hx d hd)
          mode := fun e d hd => (hsame.slot d).trans ((h.ps w hw).mode e d hd)
          flow := fun d hd => ((h.ps w hw).flow d hd).imp fun i hi => (hsame.slot d).trans hi }
      rtnl := h.rtnl.keep (Kept.of_clients p.rtnl hsame) rfl id fun d hd => (hall d).trans hd }

/-- A service arrives. -/
theorem ClientInv.arrive (h : ClientInv p) (hc : (p.client c).handle = true) :
    ClientInv (p.mapClient c fun x => { x with task := x.task.queue }) := by
  refine h.mapClient (SameClients.update rfl rfl id id id fun hq => ?_) rfl
  exact absurd (hq.1.symm.trans hc) Bool.false_ne_true

/-- An indication comes in. -/
theorem ClientInv.indicate (h : ClientInv p) (hs : p.indicate c = some p') : ClientInv p' := by
  unfold QmiPort.indicate at hs
  split at hs
  · cases hs
  · split at hs
    · rename_i hc
      obtain rfl := Option.some.inj hs
      refine h.mapClient (SameClients.update rfl rfl id id id fun hq => ?_) rfl
      exact absurd (hq.1.symm.trans hc) Bool.false_ne_true
    · cases hs

/-- A step of `dfc_qmi_ind_work`. -/
theorem ClientInv.indWork (h : ClientInv p) (hs : p.indWork c = some p') : ClientInv p' := by
  unfold QmiPort.indWork at hs
  split at hs
  · obtain ⟨b, hstep, rfl⟩ := Option.map_eq_some_iff.mp hs
    refine h.mapClient (SameClients.update rfl rfl id id id fun hq => ?_) rfl
    exact absurd hq.2.2 (Backlog.step_isSome.mp (by rw [hstep]; rfl))
  · cases hs

/-- A step of `svc_arrive` of a client. -/
theorem ClientInv.work (h : ClientInv p) {lockFree callOk : Bool} (hlock : ¬ (lockFree = true ∧ p.rtnl ≠ []))
    (hs : svcStep p c lockFree callOk = some p') : ClientInv p' := by
  unfold svcStep at hs
  obtain ⟨⟨t, act⟩, hstep, rfl⟩ := Option.map_eq_some_iff.mp hs
  -- the work item is not idle, so that the client is allocated and in its slot
  have hbusy : ¬ (p.client c).Idle := fun hidle =>
    (Task.step_isSome _ lockFree callOk _).mp (by rw [hstep]; rfl) hidle.1
  have hlive : (p.client c).live = true := by
    by_contra hl
    exact hbusy (h.quiet c (Bool.eq_false_iff.mpr hl)).2
  have hmap : ClientInv (p.mapClient c fun x => { x with task := t }) := by
    refine h.mapClient (SameClients.update rfl rfl id id (fun hcanc => ?_) fun hq => absurd hq.2 hbusy) rfl
    exact (Task.step_keeps hstep).trans hcanc
  cases act with
  | false => exact hmap
  | true =>
    have hr : p.rtnl = [] := by
      by_contra hne
      exact hlock ⟨Task.step_act hstep, hne⟩
    have hslot : ((p.mapClient c fun x => { x with task := t }).client c).slot = (p.client c).slot := by
      show (Function.update p.client c { p.client c with task := t } c).slot = _
      rw [Function.update_self]
    have hown : p.held (p.client c).slot = some c := h.owned c hlive
    show ClientInv ((p.mapClient c fun x => { x with task := t }).svcUp c)
    rw [QmiPort.svcUp, hslot]
    refine hmap.mapQmi hr (fun _ => rfl) (fun q hq s => ?_) fun q hq s hone => ?_
    · rw [held_of (p := p) hq] at hown
      by_cases hs : s = (p.client c).slot
      · rw [hs, hown]
        simp [QmiInfo.held]
      · simp [QmiInfo.held, hs]
    · by_cases hs : s = (p.client c).slot
      · rw [hs]
        exact .inr (Function.update_self _ _ _)
      · simpa only [Function.update_of_ne hs] using hone

/-- Readers and the alarm change, and with them whether the power-save work is pending. -/
theorem ClientInv.setReaders (h : ClientInv p) {x : Sections Reader} {alarm : Bool} {ps : Option PsWork}
    (hps : ∀ w', ps = some w' → ∃ w, p.psWork = some w ∧ w'.run = w.run ∧ w'.qmi = w.qmi ∧
      w'.flushing = w.flushing ∧ (w.Awaited → w'.Awaited)) (hsome : ps.isSome = p.psWork.isSome)
    (hfound : ∀ r, x.Has r → ∀ c, r.phase = .found c → p.Found c)
    (hrecent : ∀ r ∈ x.recent, ∀ c, r.phase = .found c → r ∈ p.readers.recent ∨ p.qmapDfcData = some c)
    (hrestarts : alarm = true ∨ (∃ r, x.Has r ∧ (r.phase = .queue ∨ r.kind = .alarm)) → p.psWork.isSome = true)
    (hreached : ∀ stage, p.Reached stage → ∀ w, ps = some w → w.StageOf x alarm stage) :
    ClientInv { p with readers := x, alarm := alarm, psWork := ps } := by
  refine
    { h with
      reader := fun c hc => h.reader c (hc.elim (fun ⟨r, hr, hp⟩ => hfound r hr c hp) .inr)
      restarts := fun hre => hsome.trans (hrestarts hre)
      ps := fun w' hw' => ?_
      wda := fun hw => h.wda (hsome ▸ hw)
      rtnl := h.rtnl.keep ?_ rfl id fun _ => id }
  · obtain ⟨w, hw, hrun, hqmi, -, hawaited⟩ := hps w' hw'
    have hsound := h.ps w hw
    refine ⟨fun a ha => hsound.qmi a (hqmi ▸ ha), fun y hy => ?_, fun e d hd => ?_, fun d hd => ?_,
      hawaited hsound.awaited⟩
    · exact hsound.live y (hrun ▸ hy)
    · exact hsound.mode e d (hrun ▸ hd)
    · exact hsound.flow d (hrun ▸ hd)
  · have hqueries : ∀ i, ({ p with readers := x, alarm := alarm, psWork := ps } : QmiPort).Queries i → p.Queries i := by
      rintro i ⟨w', c, hw', hc, hs⟩
      obtain ⟨w, hw, hrun, -⟩ := hps w' hw'
      exact ⟨w, c, hw, hrun ▸ hc, hs⟩
    refine
      { held := fun _ _ => id
        clients := SameClients.refl _
        data := id
        unlinked := fun hu => ⟨hu.1, fun r hr c hp => ?_⟩
        unread := fun hu => ⟨hu.1, fun r hr c hp => ?_⟩
        reached := fun stage hst w hw => hreached stage hst w hw
        noWork := fun hno => ?_
        exiting := fun _ => id
        queries := fun i _ hno hq => hno (hqueries i hq)
        flushing := fun i _ hfl hq w' hw' => ?_ }
    · rcases hrecent r hr c hp with hold | hdata
      · exact hu.2 r hold c hp
      · cases hu.1.symm.trans hdata
    · rcases hfound r hr c hp with ⟨r', hr', hp'⟩ | hdata
      · exact hu.2 r' hr' c hp'
      · cases hu.1.symm.trans hdata
    · rw [← Option.not_isSome_iff_eq_none]
      intro hs
      have hs' := hsome.symm.trans hs
      rw [hno] at hs'
      cases hs'
    · obtain ⟨w, hw, -, -, hflush, -⟩ := hps w' hw'
      exact hflush.trans (hfl (hqueries i hq) w hw)

/-- Who is under `rcu_read_lock` and has found nothing yet comes in; with the alarm set, it can be its callback. -/
theorem ClientInv.readLock (h : ClientInv p) {kind : ReadKind} {alarm : Bool} (hset : alarm = true → p.alarm = true)
    (hkind : kind = .alarm → p.alarm = true) :
    ClientInv { p with alarm := alarm, readers := p.readers.enter { kind := kind, phase := .locked } } := by
  refine h.setReaders (fun w hw => ⟨w, hw, rfl, rfl, rfl, id⟩) rfl (fun r hr c hp => ?_) (fun r hr c hp => ?_)
    (fun hre => ?_) fun stage hst w hw => ?_
  · rcases has_enter.mp hr with rfl | hr
    · cases hp
    · exact .inl ⟨r, hr, hp⟩
  · rcases List.mem_cons.mp hr with rfl | hr
    · cases hp
    · exact .inl hr
  · refine h.restarts ?_
    rcases hre with ha | ⟨r, hr, hp⟩
    · exact .inl (hset ha)
    · rcases has_enter.mp hr with rfl | hr
      · exact .inl (hkind (hp.resolve_left nofun))
      · exact .inr ⟨r, hr, hp⟩
  · refine (hst w hw).mono id (fun _ hold r hr => ?_) (fun _ => id)
      (fun hno => ⟨hno.quit, fun r hr => ?_, hno.rearming⟩)
      (fun _ hoff => Bool.eq_false_iff.mpr fun ha => Bool.false_ne_true (hoff.symm.trans (hset ha)))
      (fun hoff hold r hr => ?_) fun _ => id
    · rcases List.mem_cons.mp hr with rfl | hr
      · nofun
      · exact hold r hr
    · rcases has_enter.mp hr with rfl | hr
      · nofun
      · exact hno.readers r hr
    · rcases has_enter.mp hr with rfl | hr
      · exact fun hk => Bool.false_ne_true (hoff.symm.trans (hkind hk))
      · exact hold r hr

/-! What a reader does. -/

theorem readNext_kind {r r' : Reader} (h : p.readNext r = some r') : r'.kind = r.kind := by
  unfold QmiPort.readNext at h
  split at h
  · split at h <;> exact (congrArg Reader.kind (Option.some.inj h)).symm
  · cases h
  · exact (congrArg Reader.kind (Option.some.inj h)).symm
  · cases h

/-- Who has found a client has found the one that there is. -/
theorem readNext_found {r r' : Reader} (h : p.readNext r = some r') (hp : r'.phase = .found c) :
    p.qmapDfcData = some c := by
  unfold QmiPort.readNext at h
  split at h
  · split at h
    · rw [← Option.some.inj h] at hp
      dsimp only at hp
      split at hp
      · cases hp
      · rename_i d hd
        rw [hd, ReadPhase.found.inj hp]
    · rw [← Option.some.inj h] at hp
      cases hp
    · rw [← Option.some.inj h] at hp
      dsimp only at hp
      split at hp <;> cases hp
  · cases h
  · rw [← Option.some.inj h] at hp
    cases hp
  · cases h

/-- Who is about to queue the power-save work has found `rmnet_work_quit` clear. -/
theorem readNext_queue {r r' : Reader} (h : p.readNext r = some r') (hp : r'.phase = .queue) :
    ∃ w, p.psWork = some w ∧ w.quit = false := by
  unfold QmiPort.readNext at h
  split at h
  · split at h
    · rw [← Option.some.inj h] at hp
      dsimp only at hp
      split at hp <;> cases hp
    · rw [← Option.some.inj h] at hp
      cases hp
    · rw [← Option.some.inj h] at hp
      dsimp only at hp
      split at hp
      · rename_i hany
        obtain ⟨w, hw, hquit⟩ := (Option.any_eq_true _ _).mp hany
        exact ⟨w, hw, by simpa using hquit⟩
      · cases hp
  · cases h
  · rw [← Option.some.inj h] at hp
    cases hp
  · cases h

@[simp] theorem queue_run (w : PsWork) (how : Pending) : (w.queue how).run = w.run := by
  unfold PsWork.queue
  split <;> rfl

@[simp] theorem queue_quit (w : PsWork) (how : Pending) : (w.queue how).quit = w.quit := by
  unfold PsWork.queue
  split <;> rfl

@[simp] theorem queue_qmi (w : PsWork) (how : Pending) : (w.queue how).qmi = w.qmi := by
  unfold PsWork.queue
  split <;> rfl

@[simp] theorem queue_flushing (w : PsWork) (how : Pending) : (w.queue how).flushing = w.flushing := by
  unfold PsWork.queue
  split <;> rfl

@[simp] theorem queue_flushNext (w : PsWork) (how : Pending) : (w.queue how).flushNext = w.flushNext := by
  unfold PsWork.queue
  split <;> rfl

@[simp] theorem queue_syncing (w : PsWork) (how : Pending) : (w.queue how).syncing = w.syncing := by
  unfold PsWork.queue
  split <;> rfl

/-- A work that is waited for is in the queue already. -/
theorem PsWork.Awaited.queue {w : PsWork} (h : w.Awaited) (how : Pending) : (w.queue how).Awaited := by
  unfold PsWork.queue
  split
  · rename_i hoff
    refine ⟨h.flushing, fun hn => ?_, h.syncing⟩
    cases hoff.symm.trans (h.flushNext hn)
  · exact h

/-- A step of a reader. -/
theorem ClientInv.read (h : ClientInv p) {old : Bool} {r : Reader} (hr : r ∈ p.readers.side old) :
    ClientInv (p.read old r) := by
  have hmem := has_of_side hr
  have hps : ∀ w', (if r.phase = .queue then p.psWork.map fun w => w.queue .queued else p.psWork) = some w' →
      ∃ w, p.psWork = some w ∧ (w' = w ∨ r.phase = .queue ∧ w' = w.queue .queued) := by
    intro w' hw'
    split at hw'
    · rename_i hq
      obtain ⟨w, hw, rfl⟩ := Option.map_eq_some_iff.mp hw'
      exact ⟨w, hw, .inr ⟨hq, rfl⟩⟩
    · exact ⟨w', hw', .inl rfl⟩
  refine h.setReaders (fun w' hw' => ?_) ?_ (fun s hs c hp => ?_) (fun s hs c hp => ?_) (fun hre => ?_)
    fun stage hst w' hw' => ?_
  · obtain ⟨w, hw, rfl | ⟨-, rfl⟩⟩ := hps w' hw'
    · exact ⟨w', hw, rfl, rfl, rfl, id⟩
    · exact ⟨w, hw, queue_run w _, queue_qmi w _, queue_flushing w _, fun ha => ha.queue _⟩
  · split
    · rw [Option.isSome_map]
    · rfl
  · rcases has_of_step hs with hnext | hs
    · exact .inr (readNext_found hnext hp)
    · exact .inl ⟨s, hs, hp⟩
  · rcases recent_of_step hs with hnext | hs
    · exact .inr (readNext_found hnext hp)
    · exact .inl hs
  · rcases hre with ha | ⟨s, hs, hp⟩
    · exact h.restarts (.inl ha)
    · rcases has_of_step hs with hnext | hs
      · rcases hp with hp | hp
        · obtain ⟨w, hw, -⟩ := readNext_queue hnext hp
          rw [hw]
          rfl
        · exact h.restarts (.inr ⟨r, hmem, .inr ((readNext_kind hnext).symm.trans hp)⟩)
      · exact h.restarts (.inr ⟨s, hs, hp⟩)
  · obtain ⟨w, hw, hchange⟩ := hps w' hw'
    have hquit : w'.quit = w.quit := by
      rcases hchange with rfl | ⟨-, rfl⟩
      · rfl
      · exact queue_quit w _
    have hrun : w'.run = w.run := by
      rcases hchange with rfl | ⟨-, rfl⟩
      · rfl
      · exact queue_run w _
    have hsync : w'.syncing = w.syncing := by
      rcases hchange with rfl | ⟨-, rfl⟩
      · rfl
      · exact queue_syncing w _
    have hre : w'.Rearming → w.Rearming := fun ⟨alarm, hm⟩ => ⟨alarm, hrun ▸ hm⟩
    -- with `rmnet_work_quit` set, nobody finds it clear
    have hnew : w.quit = true → ∀ s, p.readNext r = some s → s.phase ≠ .queue := by
      intro hq s hnext hp
      obtain ⟨w₀, hw₀, hclear⟩ := readNext_queue hnext hp
      obtain rfl := Option.some.inj (hw.symm.trans hw₀)
      exact Bool.false_ne_true (hclear.symm.trans hq)
    refine (hst w hw).mono hquit.trans (fun hq hold s hs => ?_) (fun _ hold hm => hsync.trans (hold (hre hm)))
      (fun hno => ⟨hquit.trans hno.quit, fun s hs => ?_, fun hm => hno.rearming (hre hm)⟩) (fun _ => id)
      (fun _ hold s hs => ?_) fun hno hoff => ?_
    · exact (recent_of_step hs).elim (hnew hq s) (hold s)
    · exact (has_of_step hs).elim (hnew hno.quit s) (hno.readers s)
    · rcases has_of_step hs with hnext | hs
      · exact fun hk => hold r hmem ((readNext_kind hnext).symm.trans hk)
      · exact hold s hs
    · rcases hchange with rfl | ⟨hq, -⟩
      · exact hoff
      · exact absurd hq (hno.readers r hmem)

/-- The power-save work changes, of `qmi_info` at most `ps_enabled`, and its alarm is set. -/
theorem ClientInv.setPs (h : ClientInv p) {w w' : PsWork} (hw : p.psWork = some w) {q' : Option QmiInfo}
    (hq' : q' = p.qmiInfo ∨ ∃ b, q' = p.qmiInfo.map fun q => { q with psEnabled := b }) (hinv : PsSound p w')
    {alarm : Bool} (hstage : ∀ stage, w.StageOf p.readers p.alarm stage → w'.StageOf p.readers alarm stage)
    (hquery : ∀ d i, .queryFlow d ∈ w'.run → (p.client d).slot = .dfc i → p.Exiting i → .queryFlow d ∈ w.run)
    (hflush : w.flushing = true → w'.run ≠ [] → w'.flushing = true) :
    ClientInv { p with qmiInfo := q', alarm := alarm, psWork := some w' } := by
  -- `q'` is `qmi_info` but for `ps_enabled`
  obtain ⟨g, rfl, haddr, hclient, hpending, hexit⟩ : ∃ g : QmiInfo → QmiInfo, q' = p.qmiInfo.map g ∧
      (∀ q, (g q).addr = q.addr) ∧ (∀ q, (g q).client = q.client) ∧ (∀ q, (g q).pending = q.pending) ∧
      ∀ q, (g q).dfcClientExiting = q.dfcClientExiting := by
    rcases hq' with rfl | ⟨b, rfl⟩
    · exact ⟨id, by rw [Option.map_id_fun, id_eq], fun _ => rfl, fun _ => rfl, fun _ => rfl, fun _ => rfl⟩
    · exact ⟨_, rfl, fun _ => rfl, fun _ => rfl, fun _ => rfl, fun _ => rfl⟩
  have hheld : ∀ s, ({ p with qmiInfo := p.qmiInfo.map g, alarm := alarm, psWork := some w' } : QmiPort).held s =
      p.held s := by
    intro s
    rw [QmiPort.held, QmiPort.held]
    cases p.qmiInfo with
    | none => rfl
    | some q =>
      show (g q).held s = q.held s
      rw [QmiInfo.held, hclient, hpending]
      rfl
  refine
    { h with
      owned := fun d hl => (hheld _).trans (h.owned d hl)
      slot := fun s d hd => h.slot s d ((hheld s).symm.trans hd)
      one := ?_
      restarts := fun _ => rfl
      ps := ?_
      wda := fun _ => by rw [hheld]; exact h.wda (by rw [hw]; rfl)
      rtnl := h.rtnl.keep ?_ rfl (fun hq => by rw [← hq, Option.isSome_map]) fun _ => id }
  · intro q'' s hq''
    obtain ⟨q, hq, rfl⟩ := Option.map_eq_some_iff.mp hq''
    rw [hclient, hpending]
    exact h.one q s hq
  · intro w'' hw''
    obtain rfl := Option.some.inj hw''
    refine { hinv with qmi := fun a ha => ?_ }
    obtain ⟨q, hq, hqa⟩ := hinv.qmi a ha
    refine ⟨g q, ?_, (haddr q).trans hqa⟩
    show p.qmiInfo.map g = _
    rw [hq, Option.map_some]
  · refine
      { held := fun s d hd => (hheld s).symm.trans hd
        clients := SameClients.refl _
        data := id
        unlinked := id
        unread := id
        reached := ?_
        noWork := fun hno => by rw [hw] at hno; cases hno
        exiting := ?_
        queries := ?_
        flushing := ?_ }
    · intro stage hst w'' hw''
      obtain rfl := Option.some.inj hw''
      exact hstage stage (hst w hw)
    · intro i he q'' hq''
      obtain ⟨q, hq, rfl⟩ := Option.map_eq_some_iff.mp hq''
      rw [hexit]
      exact he q hq
    · rintro i he hno ⟨w'', d, hw'', hd, hs⟩
      obtain rfl := Option.some.inj hw''
      exact hno ⟨w, d, hw, hquery d i hd hs he, hs⟩
    · rintro i he hfl ⟨w'', d, hw'', hd, hs⟩ w₃ hw₃
      obtain rfl := Option.some.inj hw''
      obtain rfl := Option.some.inj hw₃
      exact hflush (hfl ⟨w, d, hw, hquery d i hd hs he, hs⟩ w hw) (List.ne_nil_of_mem hd)

@[simp] theorem goOn_run (w : PsWork) (run : List PsPhase) : (w.goOn run).run = run := by
  unfold PsWork.goOn
  split
  · rename_i h
    exact h.symm
  · rfl

@[simp] theorem goOn_quit (w : PsWork) (run : List PsPhase) : (w.goOn run).quit = w.quit := by
  unfold PsWork.goOn
  split <;> rfl

@[simp] theorem goOn_pending (w : PsWork) (run : List PsPhase) : (w.goOn run).pending = w.pending := by
  unfold PsWork.goOn
  split <;> rfl

theorem goOn_flushing {w : PsWork} {run : List PsPhase} (h : w.flushing = true) (hrun : run ≠ []) :
    (w.goOn run).flushing = true := by
  rw [PsWork.goOn, if_neg hrun]
  exact h

/-- A run that is over is not waited for. -/
theorem PsWork.Awaited.goOn {w : PsWork} (h : w.Awaited) (run : List PsPhase) : (w.goOn run).Awaited := by
  unfold PsWork.goOn
  split
  · exact ⟨nofun, h.flushNext, nofun⟩
  · rename_i hrun
    exact ⟨fun _ => hrun, h.flushNext, fun _ => hrun⟩

/-- The phase uses no client, and is not about to set the alarm or the timer. -/
def PsPhase.Plain (x : PsPhase) : Prop := x.uses = none ∧ ∀ alarm, x ≠ .rearm alarm

/-- A stage that has been reached is kept when the power-save work goes on, unless it comes to set its alarm or its
timer, for which it must have found `rmnet_work_quit` clear. -/
theorem stageOf_goOn {w : PsWork} {x : Sections Reader} {alarm : Bool} {stage : QuitStage}
    (h : w.StageOf x alarm stage) {run : List PsPhase}
    (hrun : ∀ y ∈ run, y ∈ w.run ∨ (∀ alarm, y ≠ .rearm alarm) ∨ w.quit = false) :
    (w.goOn run).StageOf x alarm stage := by
  have hre : w.quit = true → (w.goOn run).Rearming → w.Rearming := by
    rintro hq ⟨b, hm⟩
    rw [goOn_run] at hm
    rcases hrun _ hm with hold | hno | hclear
    · exact ⟨b, hold⟩
    · exact absurd rfl (hno b)
    · exact absurd (hclear.symm.trans hq) Bool.false_ne_true
  refine h.mono (goOn_quit w run).trans (fun _ => id) (fun hq hold hm => ?_)
    (fun hno => ⟨(goOn_quit w run).trans hno.quit, hno.readers, fun hm => hno.rearming (hre hno.quit hm)⟩) (fun _ => id)
    (fun _ => id) fun _ => (goOn_pending w run).trans
  obtain ⟨b, hb⟩ := hm
  rw [goOn_run] at hb
  rw [PsWork.goOn, if_neg (List.ne_nil_of_mem hb)]
  exact hold (hre hq ⟨b, by rwa [goOn_run]⟩)

/-- A work that is about to set its alarm or its timer can do so at every stage that can have been reached. -/
theorem stageOf_rearm {w w' : PsWork} {x : Sections Reader} {alarm alarm' : Bool} {stage : QuitStage}
    (h : w.StageOf x alarm stage) (hre : w.Rearming) (hquit : w'.quit = w.quit)
    (hsync : w'.syncing = w.syncing) : w'.StageOf x alarm' stage := by
  cases stage with
  | quit => exact hquit.trans h
  | quitSync => exact ⟨hquit.trans h.1, h.2.1, fun _ => hsync.trans (h.2.2 hre)⟩
  | quitSynced => exact absurd hre h.rearming
  | alarmCancel => exact absurd hre h.1.rearming
  | alarmCancelled => exact absurd hre h.1.rearming
  | cancel => exact absurd hre h.1.rearming

/-- The power-save work goes on with phases that it has had before, or that use clients which are there. -/
theorem PsSound.goOn {w : PsWork} (h : PsSound p w) {run : List PsPhase}
    (hrun : ∀ x ∈ run, x ∈ w.run ∨ x.uses = none ∨
      (∃ e d, x = .setMode e d ∧ (p.client d).live = true ∧ (p.client d).slot = .wda) ∨
      ∃ d i, x = .queryFlow d ∧ (p.client d).live = true ∧ (p.client d).slot = .dfc i) : PsSound p (w.goOn run) := by
  refine ⟨fun a ha => ?_, fun x hx d hd => ?_, fun e d hd => ?_, fun d hd => ?_, h.awaited.goOn run⟩
  · unfold PsWork.goOn at ha
    split at ha
    · cases ha
    · exact h.qmi a ha
  · rw [goOn_run] at hx
    rcases hrun x hx with hold | hno | ⟨e, d', rfl, hl, -⟩ | ⟨d', i, rfl, hl, -⟩
    · exact h.live x hold d hd
    · rw [hno] at hd
      cases hd
    · rwa [← Option.some.inj hd]
    · rwa [← Option.some.inj hd]
  · rw [goOn_run] at hd
    rcases hrun _ hd with hold | hno | ⟨e', d', hx, -, hs⟩ | ⟨d', i, hx, -, -⟩
    · exact h.mode e d hold
    · cases hno
    · obtain ⟨-, rfl⟩ := PsPhase.setMode.inj hx
      exact hs
    · cases hx
  · rw [goOn_run] at hd
    rcases hrun _ hd with hold | hno | ⟨e', d', hx, -, -⟩ | ⟨d', i, hx, -, hs⟩
    · exact h.flow d hold
    · cases hno
    · cases hx
    · obtain rfl := PsPhase.queryFlow.inj hx
      exact ⟨i, hs⟩

/-- The power-save work is queued. -/
theorem PsSound.queue {w : PsWork} (h : PsSound p w) (how : Pending) : PsSound p (w.queue how) where
  qmi := by rw [queue_qmi]; exact h.qmi
  live := by rw [queue_run]; exact h.live
  mode := by rw [queue_run]; exact h.mode
  flow := by rw [queue_run]; exact h.flow
  awaited := h.awaited.queue how

/-- The client that the power-save work finds in a slot is allocated. -/
theorem ClientInv.loaded (h : ClientInv p) {w : PsWork} (hw : p.psWork = some w) {q : QmiInfo} (hq : p.qmiInfo = some q)
    (hc : q.client s = some c) (hopen : ∀ i, s = .dfc i → q.dfcClientExiting i = false) :
    (p.client c).live = true ∧ (p.client c).slot = s := by
  have hheld : p.held s = some c := by
    rw [held_of hq, QmiInfo.held, hc]
    rfl
  refine ⟨?_, h.slot s c hheld⟩
  by_contra hl
  have hshut := (h.rtnl.gone s c hheld (Bool.eq_false_iff.mpr hl)).2
  have hno : p.psWork ≠ none := by rw [hw]; exact Option.some_ne_none w
  cases s with
  | wda => exact hno hshut
  | dfc i =>
    rcases hshut with hshut | ⟨he, -⟩
    · exact hno hshut
    · exact Bool.false_ne_true ((hopen i rfl).symm.trans (he q hq))

/-- The power-save work ends its phase. -/
theorem ClientInv.psGoOn (h : ClientInv p) {w : PsWork} (hw : p.psWork = some w) {q' : Option QmiInfo}
    (hq' : q' = p.qmiInfo ∨ ∃ b, q' = p.qmiInfo.map fun q => { q with psEnabled := b }) {run : List PsPhase}
    (hrun : ∀ x ∈ run, x ∈ w.run ∨ x.uses = none ∧ ((∀ alarm, x ≠ .rearm alarm) ∨ w.quit = false)) :
    ClientInv { p with qmiInfo := q', psWork := some (w.goOn run) } := by
  refine h.setPs hw hq' ((h.ps w hw).goOn fun x hx => (hrun x hx).imp_right fun hp => .inl hp.1)
    (fun stage hst => stageOf_goOn hst fun x hx => (hrun x hx).imp_right And.right) (fun d i hd _ _ => ?_)
    fun hf hne => ?_
  · rw [goOn_run] at hd
    rcases hrun _ hd with hold | hno
    · exact hold
    · cases hno.1
  · rw [goOn_run] at hne
    exact goOn_flushing hf hne

/-- The power-save work goes on to a client that it has found. -/
theorem ClientInv.psLoad (h : ClientInv p) {w : PsWork} (hw : p.psWork = some w) {x y : PsPhase} {rest : List PsPhase}
    (hrun : w.run = y :: rest) (hrearm : ∀ alarm, x ≠ .rearm alarm)
    (hx : (∃ e d, x = .setMode e d ∧ (p.client d).live = true ∧ (p.client d).slot = .wda) ∨
      ∃ d i, x = .queryFlow d ∧ ((p.client d).live = true ∧ (p.client d).slot = .dfc i) ∧ ¬ p.Exiting i) :
    ClientInv { p with psWork := some (w.goOn (x :: rest)) } := by
  have hrest : ∀ z ∈ rest, z ∈ w.run := fun z hz => hrun ▸ List.mem_cons_of_mem y hz
  refine h.setPs hw (.inl rfl) ((h.ps w hw).goOn fun z hz => ?_) (fun stage hst => stageOf_goOn hst fun z hz => ?_)
    (fun d j hd hs he => ?_) fun hf _ => goOn_flushing hf (List.cons_ne_nil _ _)
  · rcases List.mem_cons.mp hz with rfl | hz
    · exact .inr (.inr (hx.imp_right fun ⟨d, i, hd, hl, _⟩ => ⟨d, i, hd, hl⟩))
    · exact .inl (hrest z hz)
  · rcases List.mem_cons.mp hz with rfl | hz
    · exact .inr (.inl hrearm)
    · exact .inl (hrest z hz)
  · rw [goOn_run] at hd
    rcases List.mem_cons.mp hd with rfl | hd
    · rcases hx with ⟨e, d', hx, -⟩ | ⟨d', i, hx, hl, hopen⟩
      · cases hx
      · obtain rfl := PsPhase.queryFlow.inj hx
        obtain rfl := Slot.dfc.inj (hl.2.symm.trans hs)
        exact absurd he hopen
    · exact hrest _ hd

/-- The power-save work goes on with the rest of its run. -/
theorem ClientInv.psRest (h : ClientInv p) {w : PsWork} (hw : p.psWork = some w) {q' : Option QmiInfo}
    (hq' : q' = p.qmiInfo ∨ ∃ b, q' = p.qmiInfo.map fun q => { q with psEnabled := b }) {y : PsPhase}
    {rest : List PsPhase} (hrun : w.run = y :: rest) :
    ClientInv { p with qmiInfo := q', psWork := some (w.goOn rest) } :=
  h.psGoOn hw hq' fun _ hx => .inl (hrun ▸ List.mem_cons_of_mem y hx)

/-- The power-save work goes on with a phase in which it uses no client, and then with the rest of its run. -/
theorem ClientInv.psNext (h : ClientInv p) {w : PsWork} (hw : p.psWork = some w) {x y : PsPhase} {rest : List PsPhase}
    (hrun : w.run = y :: rest) (huses : x.uses = none) (hrearm : (∀ alarm, x ≠ .rearm alarm) ∨ w.quit = false) :
    ClientInv { p with psWork := some (w.goOn (x :: rest)) } := by
  refine h.psGoOn hw (.inl rfl) fun z hz => ?_
  rcases List.mem_cons.mp hz with rfl | hz
  · exact .inr ⟨huses, hrearm⟩
  · exact .inl (hrun ▸ List.mem_cons_of_mem y hz)

/-- The power-save work ends. -/
theorem ClientInv.psFinish (h : ClientInv p) {w : PsWork} (hw : p.psWork = some w) (alarm : Bool) :
    ClientInv { p with psWork := some (w.goOn [.finish alarm]) } := by
  refine h.psGoOn hw (.inl rfl) fun x hx => ?_
  rw [List.mem_singleton.mp hx]
  exact .inr ⟨rfl, .inl nofun⟩

/-- The power-save work reads `qmi_info`. -/
theorem ClientInv.psRead (h : ClientInv p) {w : PsWork} (hw : p.psWork = some w) {q : QmiInfo} (hq : p.qmiInfo = some q)
    {run : List PsPhase} (hrun : ∀ x ∈ run, x.Plain) :
    ClientInv { p with psWork := some (({ w with qmi := some q.addr } : PsWork).goOn run) } := by
  have hps := h.ps w hw
  have hread : PsSound p { w with qmi := some q.addr } :=
    { hps with
      qmi := fun a ha => ⟨q, hq, Option.some.inj ha⟩
      awaited := ⟨hps.awaited.flushing, hps.awaited.flushNext, hps.awaited.syncing⟩ }
  refine h.setPs hw (.inl rfl) (hread.goOn fun x hx => .inr (.inl (hrun x hx).1)) (fun stage hst => ?_)
    (fun d i hd _ _ => ?_) fun hf hne => ?_
  · have hst' : ({ w with qmi := some q.addr } : PsWork).StageOf p.readers p.alarm stage :=
      hst.mono id (fun _ => id) (fun _ => id) (fun hno => ⟨hno.quit, hno.readers, hno.rearming⟩) (fun _ => id)
        (fun _ => id) fun _ => id
    exact stageOf_goOn hst' fun x hx => .inr (.inl (hrun x hx).2)
  · rw [goOn_run] at hd
    cases (hrun _ hd).1
  · rw [goOn_run] at hne
    exact goOn_flushing hf hne

/-- The power-save work has seen to it that it runs again. -/
theorem ClientInv.psRearm (h : ClientInv p) {w w' : PsWork} (hw : p.psWork = some w) {alarm al : Bool}
    {rest : List PsPhase} (hrun : w.run = .rearm alarm :: rest) (hsound : PsSound p w') (hquit : w'.quit = w.quit)
    (hrun' : w'.run = w.run) (hsync : w'.syncing = w.syncing) (hflush : w'.flushing = w.flushing) :
    ClientInv { p with alarm := al, psWork := some (w'.goOn rest) } := by
  have hre : w.Rearming := ⟨alarm, by rw [hrun]; exact List.mem_cons_self⟩
  have hrest : ∀ x ∈ rest, x ∈ w'.run := fun x hx => by rw [hrun', hrun]; exact List.mem_cons_of_mem _ hx
  refine h.setPs hw (.inl rfl) (hsound.goOn fun x hx => .inl (hrest x hx)) (fun stage hst => ?_)
    (fun d i hd _ _ => ?_) fun hf hne => ?_
  · exact stageOf_goOn (stageOf_rearm hst hre hquit hsync) fun x hx => .inl (hrest x hx)
  · rw [goOn_run] at hd
    exact hrun' ▸ hrest _ hd
  · rw [goOn_run] at hne
    exact goOn_flushing (hflush.trans hf) hne

/-- A step of `qmi_rmnet_check_stats`. -/
theorem ClientInv.checkStats (h : ClientInv p) {w : PsWork} (hw : p.psWork = some w) (idle ok : Bool) :
    ClientInv (checkStats p w idle ok) := by
  have hps := h.ps w hw
  unfold Rmnet.checkStats
  split
  · exact h
  · -- `start` reads `qmi_info`
    split
    · exact h.psGoOn hw (.inl rfl) (by simp)
    · rename_i q hq
      dsimp only
      split
      · exact h.psRead hw hq (by simp [PsPhase.Plain, PsPhase.uses])
      split
      · exact h.psRead hw hq (by simp [PsPhase.Plain, PsPhase.uses])
      split
      · exact h.psRead hw hq (by simp [PsPhase.Plain, PsPhase.uses])
      · exact h.psRead hw hq (by simp [PsPhase.Plain, PsPhase.uses])
  · -- `powersave` reads the WDA client
    rename_i enable rest hrun
    split
    · exact h.psFinish hw true
    · rename_i c hc
      obtain ⟨q, hq, hc⟩ := Option.bind_eq_some_iff.mp hc
      exact h.psLoad hw hrun nofun (.inl ⟨enable, c, rfl, h.loaded hw hq hc (by simp)⟩)
  · -- the answer of the WDA client
    rename_i enable c rest hrun
    split
    · exact h.psRest hw (.inr ⟨enable, rfl⟩) hrun
    · exact h.psFinish hw true
  · -- `query` reads a DFC client
    rename_i i rest hrun
    split
    · exact h.psRest hw (.inl rfl) hrun
    · rename_i q hq
      split
      · exact h.psRest hw (.inl rfl) hrun
      · rename_i c hc
        split
        · rename_i hopen
          have hexit : q.dfcClientExiting i = false := by simpa using (Bool.and_eq_true_iff.mp hopen).2
          have hload := h.loaded hw hq hc fun j hj => by rwa [← Slot.dfc.inj hj]
          exact h.psLoad hw hrun nofun
            (.inr ⟨c, i, rfl, hload, fun he => Bool.false_ne_true (hexit.symm.trans (he q hq))⟩)
        · exact h.psRest hw (.inl rfl) hrun
  · -- the answer of a DFC client
    rename_i c rest hrun
    exact h.psRest hw (.inl rfl) hrun
  · -- `rcu_read_lock`
    rename_i alarm rest hrun
    exact h.psNext hw hrun rfl (.inl nofun)
  · -- `rmnet_work_quit`
    rename_i alarm rest hrun
    split
    · exact h.psRest hw (.inl rfl) hrun
    · rename_i hquit
      exact h.psNext hw hrun rfl (.inr (Bool.eq_false_iff.mpr hquit))
  · -- the alarm or the timer
    rename_i alarm rest hrun
    split
    · exact h.psRearm hw hrun hps rfl rfl rfl rfl
    · exact h.psRearm hw hrun (hps.queue _) (queue_quit w _) (queue_run w _) (queue_syncing w _) (queue_flushing w _)

/-! ### Runs -/

theorem clientInit_inv (h : ClientInit p) : ClientInv p := by
  obtain ⟨hq, hd, hrd, hps, halarm, hr, hc⟩ := h
  have hlive : ∀ c, (p.client c).live ≠ true := fun c hl => Bool.false_ne_true ((hc c).1.symm.trans hl)
  have hheld : ∀ s c, p.held s ≠ some c := fun s c hh => by rw [held_of_none hq] at hh; cases hh
  refine
    { fresh := fun c _ => (hc c).1
      quiet := fun c _ => (hc c).2
      owned := fun c hl => absurd hl (hlive c)
      slot := fun s c hh => absurd hh (hheld s c)
      one := fun q s hq' => by rw [hq] at hq'; cases hq'
      mode := fun c i hl => absurd hl (hlive c)
      qmap := fun c _ => (hc c).2
      reader := fun c hc => by simp [QmiPort.Found, hd, hrd, Sections.Has, Sections.empty] at hc
      restarts := fun hre => by simp [QmiPort.Restarts, halarm, hrd, Sections.Has, Sections.empty] at hre
      ps := fun w hw => by rw [hps] at hw; cases hw
      wda := fun hw => by rw [hps] at hw; cases hw
      rtnl := RtnlInv.nil hr fun s c hh => absurd hh (hheld s c) }

/-- **The step lemma.** -/
theorem ClientInv.step (h : ClientInv p) {e : ClientEvent} (hs : ClientStep p e p') (hok : ClientOk p e) :
    ClientInv p' := by
  unfold ClientStep at hs
  cases e with
  | setup a tcm =>
    rw [clientStep] at hs
    split at hs
    · rename_i hr
      obtain rfl := Option.some.inj hs
      exact h.setup a tcm hr hok
    · cases hs
  | delete handle ctl =>
    rw [clientStep] at hs
    split at hs
    · rename_i hr
      obtain rfl := Option.some.inj hs
      exact h.enter hr.1 hr.2 (deleteClient_code _ _ _ _ _)
    · cases hs
  | exit ctl =>
    rw [clientStep] at hs
    split at hs
    · rename_i hr
      obtain rfl := Option.some.inj hs
      exact h.enter hr.1 hr.2 (qmiExit_code _ _ _ _ _)
    · cases hs
  | rtnl => exact h.rtnlStep hs
  | arrive c =>
    rw [clientStep] at hs
    split at hs
    · rename_i hc
      obtain rfl := Option.some.inj hs
      exact h.arrive hc
    · cases hs
  | work c lockFree callOk =>
    rw [clientStep] at hs
    split at hs
    · cases hs
    · rename_i hlock
      exact h.work (fun hl => hlock (.inl hl)) hs
  | indicate c => exact h.indicate hs
  | indWork c => exact h.indWork hs
  | psTimer =>
    obtain ⟨w, hw, hs⟩ := Option.bind_eq_some_iff.mp hs
    split at hs
    · rename_i htimer
      obtain rfl := Option.some.inj hs
      have hps := h.ps w hw
      have hnew : PsSound p { w with pending := .queued } :=
        { hps with awaited := ⟨hps.awaited.flushing, fun _ => rfl, hps.awaited.syncing⟩ }
      refine h.setPs hw (.inl rfl) hnew (fun stage hst => ?_) (fun _ _ hd _ _ => hd) fun hf _ => hf
      exact hst.mono id (fun _ => id) (fun _ => id) (fun hno => ⟨hno.quit, hno.readers, hno.rearming⟩) (fun _ => id)
        (fun _ => id) fun _ hoff => by rw [htimer] at hoff; cases hoff
    · cases hs
  | psStart =>
    obtain ⟨w, hw, hs⟩ := Option.bind_eq_some_iff.mp hs
    split at hs
    · rename_i hstart
      obtain rfl := Option.some.inj hs
      have hps := h.ps w hw
      have hnew : PsSound p
          { w with pending := .off, run := [.start], flushing := w.flushNext, flushNext := false } :=
        ⟨hps.qmi, by simp [PsPhase.uses], by simp, by simp, by simp, nofun, by simp⟩
      refine h.setPs hw (.inl rfl) hnew (fun stage hst => ?_) (by simp) fun hf _ =>
        absurd hstart.2 (hps.awaited.flushing hf)
      exact hst.mono id (fun _ => id) (fun _ _ hm => absurd hm (by simp [PsWork.Rearming]))
        (fun hno => ⟨hno.quit, hno.readers, by simp [PsWork.Rearming]⟩) (fun _ => id) (fun _ => id) fun _ _ => rfl
    · cases hs
  | psWork idle ok =>
    obtain ⟨w, hw, hs⟩ := Option.bind_eq_some_iff.mp hs
    split at hs
    · cases hs
    · obtain rfl := Option.some.inj hs
      exact h.checkStats hw idle ok
  | alarm =>
    rw [clientStep] at hs
    split at hs
    · rename_i hset
      obtain rfl := Option.some.inj hs
      exact h.readLock nofun fun _ => hset
    · cases hs
  | readLock kind =>
    rw [clientStep] at hs
    split at hs
    · cases hs
    · rename_i hkind
      obtain rfl := Option.some.inj hs
      exact h.readLock id fun hk => absurd hk hkind
  | read old r =>
    rw [clientStep] at hs
    split at hs
    · rename_i hr
      obtain rfl := Option.some.inj hs
      exact h.read hr
    · cases hs

/-- **The run lemma.** -/
theorem clientRun_inv {h : List (QmiPort × ClientEvent)} (hex : Exec ClientInit ClientStep h p)
    (hok : ∀ x ∈ h, ClientOk x.1 x.2) : ∀ x ∈ h.map Prod.fst ++ [p], ClientInv x :=
  hex.invariant (fun _ => clientInit_inv) (fun p e _ hI hs (hk : ClientOk p e) => hI.step hs hk) hok

/-! ### No use after a free -/

/-- Somebody uses the client, or may find it: a work item, its handle, readers or the power-save work. -/
def QmiPort.InUse (p : QmiPort) (c : ℕ) : Prop :=
  ¬ (p.client c).Idle ∨ (p.client c).handle = true ∨ p.Found c ∨
    ∃ w x, p.psWork = some w ∧ x ∈ w.run ∧ x.uses = some c

/-- **No client is used after it has been freed, and none is lost.**  In every state of every run, however the
messages, arrivals, indications, work items, the power-save work and the readers come, a client in use is allocated, an
allocated client is in its slot, the `qmi_info` that the power-save work has read is that of the port, and the
power-save work is there when somebody comes to queue it. -/
theorem no_client_used_after_free {h : List (QmiPort × ClientEvent)} (hex : Exec ClientInit ClientStep h p)
    (hok : ∀ x ∈ h, ClientOk x.1 x.2) : ∀ x ∈ h.map Prod.fst ++ [p],
      (∀ c, x.InUse c → (x.client c).live = true) ∧
      (∀ c, (x.client c).live = true → x.held (x.client c).slot = some c) ∧
      (∀ w a, x.psWork = some w → w.qmi = some a → ∃ q, x.qmiInfo = some q ∧ q.addr = a) ∧
      (x.Restarts → x.psWork.isSome = true) := by
  intro x hx
  have hinv := clientRun_inv hex hok x hx
  refine ⟨fun c huse => ?_, hinv.owned, fun w a hw ha => (hinv.ps w hw).qmi a ha, hinv.restarts⟩
  by_contra hl
  have hquiet := hinv.quiet c (Bool.eq_false_iff.mpr hl)
  rcases huse with hidle | hhandle | hfound | ⟨w, ph, hw, hph, hc⟩
  · exact hidle hquiet.2
  · exact Bool.false_ne_true (hquiet.1.symm.trans hhandle)
  · exact hl (hinv.reader c hfound).1
  · exact hl ((hinv.ps w hw).live ph hph c hc)

end

/-- A port whose module has just been loaded. -/
def emptyPort : QmiPort :=
  { qmiInfo := none, nextQmi := 0, dfcMode := 0, dfcQmap := false, qmapDfcData := none, readers := Sections.empty,
    client := fun _ =>
      { live := false, slot := .wda, qmap := false, handle := false, task := Task.fresh, inds := Backlog.empty },
    next := 0, psWork := none, alarm := false, rtnl := [] }

theorem emptyPort_init : ClientInit emptyPort :=
  ⟨rfl, rfl, rfl, rfl, rfl, rfl, fun _ => ⟨rfl, rfl, ⟨rfl, rfl⟩, rfl, rfl⟩⟩

/-- Nothing fails. -/
def allGranted : SetupAnswers :=
  { qmiAlloc := true
    dfc := { alloc := true, wq := true, handleInit := 0, addLookup := 0 }
    wda := { alloc := true, wq := true, handleInit := 0, addLookup := 0 }
    wq := true
    work := true }

/-- The set-up of instance 0 with mode 4 and power save, over QMI. -/
def setupBoth : ClientEvent := .setup allGranted { handle := 0, ifindex := 20 }

/-- The port with a WDA and a DFC client, after the set-up of instance 0. -/
def bothClients : QmiPort := (clientStep emptyPort setupBoth).getD emptyPort

theorem bothClients_exec : Exec ClientInit ClientStep [(emptyPort, setupBoth)] bothClients :=
  (Exec.start emptyPort_init).next rfl

theorem setupBoth_ok : ClientOk emptyPort setupBoth :=
  ⟨fun ⟨i, hi⟩ => absurd hi (by simp [held_of_none (p := emptyPort) rfl]), fun _ => .inl rfl⟩

/-- A run goes on with events that meet the condition in every state. -/
theorem clientRun_extend {i : QmiPort → Prop} {k : QmiPort → ClientEvent → Prop} (es : List ClientEvent)
    (hes : ∀ e ∈ es, ∀ p, k p e) {h : List (QmiPort × ClientEvent)} {p p' : QmiPort} (hex : Exec i ClientStep h p)
    (hok : ∀ x ∈ h, k x.1 x.2) (hrun : runList clientStep p es = some p') :
    ∃ h', Exec i ClientStep h' p' ∧ ∀ x ∈ h', k x.1 x.2 :=
  Exec.extend es hes hex hok hrun

/-- The run in which both clients are set up goes on with events that are not set-ups. -/
theorem bothClients_run (es : List ClientEvent) (hes : ∀ e ∈ es, ∀ p, ClientOk p e) {p : QmiPort}
    (hrun : runList clientStep bothClients es = some p) :
    ∃ h, Exec ClientInit ClientStep h p ∧ ∀ x ∈ h, ClientOk x.1 x.2 := by
  refine clientRun_extend es hes bothClients_exec (fun x hx => ?_) hrun
  rw [List.mem_singleton.mp hx]
  exact setupBoth_ok

/-- The service of the DFC client arrives, and its work item comes as far as the lock. -/
def comingUp : List ClientEvent :=
  [.arrive 0, .work 0 false true, .work 0 false true, .work 0 false true, .work 0 false true]

theorem comingUp_ok : ∀ e ∈ comingUp, ∀ p, ClientOk p e := by
  intro e he p
  simp only [comingUp, List.mem_cons, List.not_mem_nil, or_false] at he
  rcases he with rfl | rfl | rfl | rfl | rfl <;> trivial

/-- The work item of the DFC client is running. -/
theorem no_client_used_after_free_running :
    ∃ h p, Exec ClientInit ClientStep h p ∧ (p.client 0).task.work = [.tryLock true] ∧
      ∀ c, p.InUse c → (p.client c).live = true := by
  obtain ⟨h, hex, hok⟩ := bothClients_run comingUp comingUp_ok rfl
  exact ⟨h, _, hex, rfl, (no_client_used_after_free hex hok _ (by simp)).1⟩

end Rmnet
