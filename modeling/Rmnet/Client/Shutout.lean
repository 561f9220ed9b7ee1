import Rmnet.Client.Setup

/-!
# What a deletion has shut out

The functions that delete clients free them while the work items, the power-save work and the readers under RCU may
run.  Each user of a client is shut out by an instruction that comes before the client is freed.  `RtnlInv` reads off
what is left of the code of the lock's holder how far each user has been shut out.

* `exec_kept`, `exec_post` — what an instruction keeps, and what it brings about.
* `RtnlInv.pop` — the holder of the lock goes on by one instruction.
* `RtnlInv.keep` — somebody else takes a step.
-/

namespace Rmnet

open Transition Worker Reading

/-! ### The order of the instructions -/

/-- The place of an instruction in the functions that delete. -/
def Instr.rank : Instr → ℕ
  | .release .wda => 0
  | .quit => 1
  | .quitSync => 2
  | .quitSynced => 3
  | .alarmCancel => 4
  | .alarmCancelled => 5
  | .cancel => 6
  | .cancelled => 7
  | .stop .wda => 8
  | .drain .wda => 9
  | .free .wda => 10
  | .clear .wda => 11
  | .exiting _ => 12
  | .flush => 13
  | .flushed => 14
  | .dereg i => 20 + 10 * i
  | .deregged i => 21 + 10 * i
  | .stop (.dfc i) => 22 + 10 * i
  | .release (.dfc i) => 23 + 10 * i
  | .unlink i => 24 + 10 * i
  | .sync i => 25 + 10 * i
  | .synced i => 26 + 10 * i
  | .drain (.dfc i) => 27 + 10 * i
  | .free (.dfc i) => 28 + 10 * i
  | .clear (.dfc i) => 29 + 10 * i
  | .freeQmi => 0

/-- Every instruction but `freeQmi` comes before those of a higher rank. -/
def InOrder (code : List Instr) : Prop := code.Pairwise fun x y => x = .freeQmi ∨ y = .freeQmi ∨ x.rank < y.rank

instance (code : List Instr) : Decidable (InOrder code) := inferInstanceAs (Decidable (List.Pairwise _ _))

theorem InOrder.tail {x : Instr} {rest : List Instr} (h : InOrder (x :: rest)) : InOrder rest :=
  (List.pairwise_cons.mp h).2

/-- What has a lower rank than the next instruction is over. -/
theorem InOrder.over {x y : Instr} {rest : List Instr} (h : InOrder (x :: rest)) (hr : y.rank ≤ x.rank)
    (hx : x ≠ .freeQmi) (hy : y ≠ .freeQmi) : y ∉ rest := by
  intro hmem
  rcases (List.pairwise_cons.mp h).1 y hmem with hf | hf | hlt
  · exact hx hf
  · exact hy hf
  · omega

/-- While `y` is to come, `x` is to come or `P` holds. -/
def Until (code : List Instr) (y x : Instr) (P : Prop) : Prop := y ∈ code → x ∈ code ∨ P

/-- The next instruction is over: it keeps `P`, or it is the one that brings `P` about. -/
theorem Until.pop {x y z : Instr} {rest : List Instr} {P P' : Prop} (h : Until (z :: rest) y x P)
    (hkeep : P → P') (hdone : y ∈ rest → z = x → P') : Until rest y x P' := by
  intro hy
  rcases h (List.mem_cons_of_mem z hy) with hx | hP
  · rcases List.mem_cons.mp hx with rfl | hx
    · exact .inr (hdone hy rfl)
    · exact .inl hx
  · exact .inr (hkeep hP)

theorem Until.mono {code : List Instr} {y x : Instr} {P P' : Prop} (h : Until code y x P) (hP : P → P') :
    Until code y x P' := fun hy => (h hy).imp_right hP

/-! ### How far the users are shut out -/

/-- The client that a phase of the power-save work uses. -/
def PsPhase.uses : PsPhase → Option ℕ
  | .setMode _ c => some c
  | .queryFlow c => some c
  | _ => none

/-- The handle is not registered, and no work item is queued or running. -/
def QmiClient.Quiet (x : QmiClient) : Prop := x.handle = false ∧ x.Idle

/-- `qmi_rmnet_query_flows` passes over the DFC clients of index `i`. -/
def QmiPort.Exiting (p : QmiPort) (i : Fin 2) : Prop := ∀ q, p.qmiInfo = some q → q.dfcClientExiting i = true

/-- The power-save work waits for an answer of a DFC client of index `i`. -/
def QmiPort.Queries (p : QmiPort) (i : Fin 2) : Prop :=
  ∃ w c, p.psWork = some w ∧ .queryFlow c ∈ w.run ∧ (p.client c).slot = .dfc i

/-- The power-save work does not use the client in a slot, and will not. -/
def QmiPort.Shut (p : QmiPort) : Slot → Prop
  | .wda => p.psWork = none
  | .dfc i => p.psWork = none ∨ (p.Exiting i ∧ ¬ p.Queries i)

/-- The power-save work is about to set its alarm or its timer. -/
def PsWork.Rearming (w : PsWork) : Prop := ∃ alarm, .rearm alarm ∈ w.run

/-- How far `qmi_rmnet_work_exit` has come. -/
inductive QuitStage
  | quit
  | quitSync
  | quitSynced
  | alarmCancel
  | alarmCancelled
  | cancel
  deriving DecidableEq, Repr

/-- The instruction that reaches a stage. -/
def QuitStage.instr : QuitStage → Instr
  | .quit => .quit
  | .quitSync => .quitSync
  | .quitSynced => .quitSynced
  | .alarmCancel => .alarmCancel
  | .alarmCancelled => .alarmCancelled
  | .cancel => .cancel

/-- Nobody is about to queue the power-save work, or to set its alarm or its timer, and nobody will. -/
structure PsWork.NoRestart (w : PsWork) (x : Sections Reader) : Prop where
  quit : w.quit = true
  readers : ∀ r, x.Has r → r.phase ≠ .queue
  rearming : ¬ w.Rearming

/-- What holds of the power-save work at a stage, with the readers and the alarm.  Who can still queue it has found
`rmnet_work_quit` clear and is waited for; then nobody can, the alarm is off and its callback is over, and at last the
work is not pending. -/
def PsWork.StageOf (w : PsWork) (x : Sections Reader) (alarm : Bool) : QuitStage → Prop
  | .quit => w.quit = true
  | .quitSync => w.quit = true ∧ (∀ r ∈ x.recent, r.phase ≠ .queue) ∧ (w.Rearming → w.syncing = true)
  | .quitSynced => w.NoRestart x
  | .alarmCancel => w.NoRestart x ∧ alarm = false
  | .alarmCancelled => w.NoRestart x ∧ alarm = false ∧ ∀ r, x.Has r → r.kind ≠ .alarm
  | .cancel => w.NoRestart x ∧ alarm = false ∧ (∀ r, x.Has r → r.kind ≠ .alarm) ∧ w.pending = .off

/-- The shutdown of the power-save work has reached a stage. -/
def QmiPort.Reached (p : QmiPort) (stage : QuitStage) : Prop :=
  ∀ w, p.psWork = some w → w.StageOf p.readers p.alarm stage

/-- `qmap_dfc_data` is `NULL`, and who has found a client in it is waited for. -/
def QmiPort.Unlinked (p : QmiPort) : Prop :=
  p.qmapDfcData = none ∧ ∀ r ∈ p.readers.recent, ∀ c, r.phase ≠ .found c

/-- `qmap_dfc_data` is `NULL`, and nobody has a client from it. -/
def QmiPort.Unread (p : QmiPort) : Prop :=
  p.qmapDfcData = none ∧ ∀ r, p.readers.Has r → ∀ c, r.phase ≠ .found c

/-- What the rest of the code of the lock's holder says about the port. -/
structure RtnlInv (p : QmiPort) : Prop where
  order : InOrder p.rtnl
  qmi : p.rtnl ≠ [] → p.qmiInfo.isSome = true
  clear : ∀ s, .free s ∈ p.rtnl → .clear s ∈ p.rtnl
  ends : .alarmCancelled ∈ p.rtnl → .cancelled ∈ p.rtnl
  freed : ∀ s c, p.held s = some c → Until p.rtnl (.clear s) (.free s) ((p.client c).live = false)
  released : ∀ s c, p.held s = some c → Until p.rtnl (.drain s) (.release s) ((p.client c).handle = false)
  stopped : ∀ s c, p.held s = some c → Until p.rtnl (.drain s) (.stop s) ((p.client c).task.cancelled = true)
  drained : ∀ s c, p.held s = some c → Until p.rtnl (.free s) (.drain s) (p.client c).Quiet
  unlinked : ∀ i, Until p.rtnl (.sync i) (.unlink i) (p.qmapDfcData = none)
  syncing : ∀ i, Until p.rtnl (.synced i) (.sync i) p.Unlinked
  synced : ∀ i c, p.held (.dfc i) = some c → (p.client c).qmap = true →
    Until p.rtnl (.free (.dfc i)) (.synced i) p.Unread
  reached : ∀ stage, Until p.rtnl .cancelled stage.instr (p.Reached stage)
  noWork : Until p.rtnl (.free .wda) .cancelled (p.psWork = none)
  exiting : ∀ i, .free (.dfc i) ∈ p.rtnl → Until p.rtnl .flush (.exiting i) (p.Exiting i)
  flushing : ∀ i, .free (.dfc i) ∈ p.rtnl → Until p.rtnl .flushed .flush
    (p.Exiting i ∧ (p.Queries i → ∀ w, p.psWork = some w → w.flushing = true))
  shut : ∀ i, Until p.rtnl (.free (.dfc i)) .cancelled
    (p.psWork = none ∨ .flushed ∈ p.rtnl ∨ (p.Exiting i ∧ ¬ p.Queries i))
  gone : ∀ s c, p.held s = some c → (p.client c).live = false → .clear s ∈ p.rtnl ∧ p.Shut s

/-! ### The fields that a step leaves alone -/

section

variable {p : QmiPort} {q : QmiInfo} {s : Slot} {c : ℕ}

theorem held_of (hq : p.qmiInfo = some q) (s : Slot) : p.held s = q.held s := by
  rw [QmiPort.held, hq, Option.bind_some]

theorem held_of_none (hq : p.qmiInfo = none) (s : Slot) : p.held s = none := by rw [QmiPort.held, hq, Option.bind_none]

theorem exists_qmi (h : p.held s = some c) : ∃ q, p.qmiInfo = some q ∧ q.held s = some c := Option.bind_eq_some_iff.mp h

/-- With no client and none pending, the slots are empty. -/
theorem held_of_empty (h : (!qmiRmnetHasClient q && !qmiRmnetHasPending q) = true) (s : Slot) : q.held s = none := by
  simp only [qmiRmnetHasClient, qmiRmnetHasPending, qmiRmnetHasDfcClient, Bool.and_eq_true, Bool.not_eq_true',
    Bool.or_eq_false_iff, Option.isSome_eq_false_iff, Option.isNone_iff_eq_none, Option.or_eq_none_iff] at h
  obtain ⟨⟨hw, h0, h1⟩, ⟨hw', h0'⟩, h1'⟩ := h
  unfold QmiInfo.held
  cases s with
  | wda => rw [hw, hw', Option.none_or]
  | dfc i =>
    revert i
    refine Fin.forall_fin_two.mpr ⟨?_, ?_⟩
    · rw [h0, h0', Option.none_or]
    · rw [h1, h1', Option.none_or]

end

/-- Clients that are in the same slots, of which none has come up again. -/
structure SameClients (f g : ℕ → QmiClient) : Prop where
  slot : ∀ c, (g c).slot = (f c).slot
  qmap : ∀ c, (g c).qmap = (f c).qmap
  live : ∀ c, (g c).live = true → (f c).live = true
  handle : ∀ c, (f c).handle = false → (g c).handle = false
  cancelled : ∀ c, (f c).task.cancelled = true → (g c).task.cancelled = true
  quiet : ∀ c, (f c).Quiet → (g c).Quiet

theorem SameClients.refl (f : ℕ → QmiClient) : SameClients f f :=
  ⟨fun _ => rfl, fun _ => rfl, fun _ => id, fun _ => id, fun _ => id, fun _ => id⟩

/-- A change of one client. -/
theorem SameClients.update {f : ℕ → QmiClient} {c : ℕ} {x : QmiClient} (hslot : x.slot = (f c).slot)
    (hqmap : x.qmap = (f c).qmap) (hlive : x.live = true → (f c).live = true)
    (hhandle : (f c).handle = false → x.handle = false)
    (hcancelled : (f c).task.cancelled = true → x.task.cancelled = true) (hquiet : (f c).Quiet → x.Quiet) :
    SameClients f (Function.update f c x) := by
  have hall : ∀ {P : QmiClient → QmiClient → Prop}, P (f c) x → (∀ d, P (f d) (f d)) →
      ∀ d, P (f d) (Function.update f c x d) := by
    intro P hc hd d
    by_cases h : d = c
    · subst h
      rwa [Function.update_self]
    · rw [Function.update_of_ne h]
      exact hd d
  exact ⟨hall (P := fun a b => b.slot = a.slot) hslot fun _ => rfl,
    hall (P := fun a b => b.qmap = a.qmap) hqmap fun _ => rfl,
    hall (P := fun a b => b.live = true → a.live = true) hlive fun _ => id,
    hall (P := fun a b => a.handle = false → b.handle = false) hhandle fun _ => id,
    hall (P := fun a b => a.task.cancelled = true → b.task.cancelled = true) hcancelled fun _ => id,
    hall (P := fun a b => a.Quiet → b.Quiet) hquiet fun _ => id⟩

/-- What is over stays over. -/
structure Kept (p p' : QmiPort) : Prop where
  held : ∀ s c, p'.held s = some c → p.held s = some c
  clients : SameClients p.client p'.client
  data : p.qmapDfcData = none → p'.qmapDfcData = none
  unlinked : p.Unlinked → p'.Unlinked
  unread : p.Unread → p'.Unread
  reached : ∀ stage, p.Reached stage → p'.Reached stage
  noWork : p.psWork = none → p'.psWork = none
  exiting : ∀ i, p.Exiting i → p'.Exiting i
  queries : ∀ i, p.Exiting i → ¬ p.Queries i → ¬ p'.Queries i
  flushing : ∀ i, p.Exiting i → (p.Queries i → ∀ w, p.psWork = some w → w.flushing = true) →
    p'.Queries i → ∀ w, p'.psWork = some w → w.flushing = true

/-- A stage that has been reached is kept when nobody comes to be about to queue the power-save work. -/
theorem PsWork.StageOf.mono {w w' : PsWork} {x x' : Sections Reader} {alarm alarm' : Bool} {stage : QuitStage}
    (h : w.StageOf x alarm stage) (hquit : w.quit = true → w'.quit = true)
    (hrecent : w.quit = true → (∀ r ∈ x.recent, r.phase ≠ .queue) → ∀ r ∈ x'.recent, r.phase ≠ .queue)
    (hsync : w.quit = true → (w.Rearming → w.syncing = true) → w'.Rearming → w'.syncing = true)
    (hno : w.NoRestart x → w'.NoRestart x') (halarm : w.NoRestart x → alarm = false → alarm' = false)
    (hcalls : alarm = false → (∀ r, x.Has r → r.kind ≠ .alarm) → ∀ r, x'.Has r → r.kind ≠ .alarm)
    (hpending : w.NoRestart x → w.pending = .off → w'.pending = .off) : w'.StageOf x' alarm' stage := by
  cases stage with
  | quit => exact hquit h
  | quitSync => exact ⟨hquit h.1, hrecent h.1 h.2.1, hsync h.1 h.2.2⟩
  | quitSynced => exact hno h
  | alarmCancel => exact ⟨hno h.1, halarm h.1 h.2⟩
  | alarmCancelled => exact ⟨hno h.1, halarm h.1 h.2.1, hcalls h.2.1 h.2.2⟩
  | cancel => exact ⟨hno h.1, halarm h.1 h.2.1, hcalls h.2.1 h.2.2.1, hpending h.1 h.2.2.2⟩

/-- What an instruction has brought about. -/
def Instr.Post (p' : QmiPort) : Instr → Prop
  | .release s => ∀ c, p'.held s = some c → (p'.client c).handle = false
  | .stop s => ∀ c, p'.held s = some c → (p'.client c).task.cancelled = true
  | .drain s => ∀ c, p'.held s = some c → (p'.client c).Idle
  | .free s => ∀ c, p'.held s = some c → (p'.client c).live = false
  | .clear s => p'.held s = none
  | .dereg _ => True
  | .deregged _ => True
  | .unlink _ => p'.qmapDfcData = none
  | .sync _ => p'.readers.recent = []
  | .synced _ => p'.readers.old = []
  | .exiting i => p'.Exiting i
  | .flush => ∀ w, p'.psWork = some w → w.run ≠ [] → w.flushing = true
  | .flushed => ∀ w, p'.psWork = some w → w.flushing = false
  | .quit => ∀ w, p'.psWork = some w → w.quit = true
  | .quitSync => ∀ w, p'.psWork = some w → p'.readers.recent = [] ∧ (w.Rearming → w.syncing = true)
  | .quitSynced => p'.readers.old = [] ∧ ∀ w, p'.psWork = some w → w.syncing = false
  | .alarmCancel => p'.alarm = false
  | .alarmCancelled => ∀ r, p'.readers.Has r → r.kind ≠ .alarm
  | .cancel => ∀ w, p'.psWork = some w → w.pending = .off
  | .cancelled => p'.psWork = none
  | .freeQmi => True

section

variable {p p' : QmiPort} {s : Slot} {c : ℕ}

theorem Kept.shut (hk : Kept p p') (h : p.Shut s) : p'.Shut s := by
  cases s with
  | wda => exact hk.noWork h
  | dfc i =>
    rcases h with h | ⟨he, hq⟩
    · exact .inl (hk.noWork h)
    · exact .inr ⟨hk.exiting i he, hk.queries i he hq⟩

/-- With nothing left to do under the lock, what is in a slot is allocated. -/
theorem RtnlInv.nil (hr : p.rtnl = []) (h : ∀ s c, p.held s = some c → (p.client c).live = true) : RtnlInv p := by
  have hno : ∀ x, x ∉ p.rtnl := fun x => by rw [hr]; exact List.not_mem_nil
  refine ⟨?_, fun hne => absurd hr hne, fun s hs => absurd hs (hno _), fun hs => absurd hs (hno _),
    fun s c _ hs => absurd hs (hno _),
    fun s c _ hs => absurd hs (hno _), fun s c _ hs => absurd hs (hno _), fun s c _ hs => absurd hs (hno _),
    fun i hs => absurd hs (hno _), fun i hs => absurd hs (hno _), fun i c _ _ hs => absurd hs (hno _),
    fun _ hs => absurd hs (hno _), fun hs => absurd hs (hno _), fun i hs => absurd hs (hno _),
    fun i hs => absurd hs (hno _), fun i hs => absurd hs (hno _), fun s c hc hl => ?_⟩
  · rw [hr]
    exact List.Pairwise.nil
  · exact absurd (h s c hc) (by rw [hl]; exact Bool.false_ne_true)

theorem RtnlInv.live (h : RtnlInv p) (hr : p.rtnl = []) (hc : p.held s = some c) : (p.client c).live = true := by
  by_contra hl
  have hmem := (h.gone s c hc (Bool.eq_false_iff.mpr hl)).1
  rw [hr] at hmem
  exact List.not_mem_nil hmem

/-- While the lock's holder waits, what it has brought about stays. -/
theorem RtnlInv.keep (h : RtnlInv p) (hk : Kept p p') (hr : p'.rtnl = p.rtnl)
    (hq : p.qmiInfo.isSome = true → p'.qmiInfo.isSome = true)
    (hlive : ∀ c, (p.client c).live = true → (p'.client c).live = true) : RtnlInv p' where
  order := by rw [hr]; exact h.order
  qmi := by rw [hr]; exact fun hne => hq (h.qmi hne)
  clear := by rw [hr]; exact h.clear
  ends := by rw [hr]; exact h.ends
  freed := fun s c hc => by
    rw [hr]
    refine (h.freed s c (hk.held s c hc)).mono fun hl => ?_
    exact Bool.eq_false_iff.mpr fun hl' => Bool.false_ne_true (hl.symm.trans (hk.clients.live c hl'))
  released := fun s c hc => by rw [hr]; exact (h.released s c (hk.held s c hc)).mono (hk.clients.handle c)
  stopped := fun s c hc => by rw [hr]; exact (h.stopped s c (hk.held s c hc)).mono (hk.clients.cancelled c)
  drained := fun s c hc => by rw [hr]; exact (h.drained s c (hk.held s c hc)).mono (hk.clients.quiet c)
  unlinked := fun i => by rw [hr]; exact (h.unlinked i).mono hk.data
  syncing := fun i => by rw [hr]; exact (h.syncing i).mono hk.unlinked
  synced := fun i c hc hm => by
    rw [hr]
    exact (h.synced i c (hk.held _ c hc) (by rwa [← hk.clients.qmap c])).mono hk.unread
  reached := fun stage => by rw [hr]; exact (h.reached stage).mono (hk.reached stage)
  noWork := by rw [hr]; exact h.noWork.mono hk.noWork
  exiting := fun i => by rw [hr]; exact fun hf => (h.exiting i hf).mono (hk.exiting i)
  flushing := fun i => by
    rw [hr]
    exact fun hf => (h.flushing i hf).mono fun he => ⟨hk.exiting i he.1, hk.flushing i he.1 he.2⟩
  shut := fun i => by
    rw [hr]
    refine (h.shut i).mono fun hs => ?_
    rcases hs with hs | hs | ⟨he, hs⟩
    · exact .inl (hk.noWork hs)
    · exact .inr (.inl hs)
    · exact .inr (.inr ⟨hk.exiting i he, hk.queries i he hs⟩)
  gone := fun s c hc hl => by
    rw [hr]
    have hl' : (p.client c).live = false :=
      Bool.eq_false_iff.mpr fun hlc => Bool.false_ne_true (hl.symm.trans (hlive c hlc))
    have hg := h.gone s c (hk.held s c hc) hl'
    exact ⟨hg.1, hk.shut hg.2⟩

/-- What comes before the next instruction has been brought about. -/
theorem Until.now {x y : Instr} {rest : List Instr} {P : Prop} (h : Until (y :: rest) y x P)
    (hord : InOrder (y :: rest))
    (hr : x.rank < y.rank) (hy : y ≠ .freeQmi) (hx : x ≠ .freeQmi) : P := by
  rcases h List.mem_cons_self with hmem | hP
  · rcases List.mem_cons.mp hmem with rfl | hmem
    · exact absurd hr (Nat.lt_irrefl _)
    · exact absurd hmem (hord.over hr.le hy hx)
  · exact hP

/-- Before a client is freed, the power-save work has been shut out of its slot. -/
theorem RtnlInv.shut_of_free {rest : List Instr} (h : RtnlInv p) (hr : p.rtnl = .free s :: rest) : p.Shut s := by
  have hord := h.order
  rw [hr] at hord
  cases s with
  | wda =>
    have hno := h.noWork
    rw [hr] at hno
    exact hno.now hord (by decide) (by decide) (by decide)
  | dfc i =>
    have hshut := h.shut i
    rw [hr] at hshut
    rcases hshut.now hord (by simp only [Instr.rank]; omega) (by simp) (by simp) with hs | hs | hs
    · exact .inl hs
    · rw [List.mem_cons] at hs
      refine absurd (hs.resolve_left (by simp)) (hord.over ?_ (by simp) (by simp))
      simp only [Instr.rank]
      omega
    · exact .inr hs

/-- An instruction of `qmi_rmnet_work_exit` reaches its stage from the stage before. -/
theorem Instr.Post.reached {stage : QuitStage} (hpost : stage.instr.Post p)
    (hprev : ∀ stage', stage'.instr ≠ stage.instr → stage'.instr.rank ≤ stage.instr.rank → p.Reached stage') :
    p.Reached stage := by
  intro w hw
  cases stage with
  | quit => exact hpost w hw
  | quitSync =>
    obtain ⟨hrecent, hsync⟩ := hpost w hw
    refine ⟨hprev .quit (by decide) (by decide) w hw, fun r hr => ?_, hsync⟩
    rw [hrecent] at hr
    cases hr
  | quitSynced =>
    obtain ⟨hquit, hrecent, hsync⟩ := hprev .quitSync (by decide) (by decide) w hw
    obtain ⟨hold, hdone⟩ := hpost
    refine ⟨hquit, fun r hr => hr.elim (hrecent r) fun hr => ?_, fun hre => ?_⟩
    · rw [hold] at hr
      cases hr
    · exact Bool.false_ne_true ((hdone w hw).symm.trans (hsync hre))
  | alarmCancel => exact ⟨hprev .quitSynced (by decide) (by decide) w hw, hpost⟩
  | alarmCancelled =>
    obtain ⟨hno, halarm⟩ := hprev .alarmCancel (by decide) (by decide) w hw
    exact ⟨hno, halarm, hpost⟩
  | cancel =>
    obtain ⟨hno, halarm, hcalls⟩ := hprev .alarmCancelled (by decide) (by decide) w hw
    exact ⟨hno, halarm, hcalls, hpost w hw⟩

/-- The lock's holder goes on by one instruction. -/
theorem RtnlInv.pop {x : Instr} {rest : List Instr} (h : RtnlInv p) (hr : p.rtnl = x :: rest) (hk : Kept p p')
    (hr' : p'.rtnl = rest) (hq : p.qmiInfo.isSome = true → p'.qmiInfo.isSome = true) (hpost : x.Post p')
    (hlive : ∀ s c, p'.held s = some c → (p.client c).live = true → (p'.client c).live = false → x = .free s) :
    RtnlInv p' := by
  have hord := h.order
  rw [hr] at hord
  have hmem : ∀ {y}, y ∈ rest → y ∈ p.rtnl := fun hy => by rw [hr]; exact List.mem_cons_of_mem x hy
  -- an instruction of a lower rank than the next one is not to come
  have hover : ∀ {y}, y ∈ p.rtnl → x ≠ y → y.rank ≤ x.rank → x ≠ .freeQmi → y ≠ .freeQmi → False := by
    intro y hy hne hrank hxf hyf
    rw [hr, List.mem_cons] at hy
    exact hord.over hrank hxf hyf (hy.resolve_left hne.symm)
  have hpop : ∀ {y z : Instr} {P P' : Prop}, Until p.rtnl y z P → (P → P') → (y ∈ rest → x = z → P') →
      Until p'.rtnl y z P' := by
    intro y z P P' hu hkeep hdone
    rw [hr']
    rw [hr] at hu
    exact hu.pop hkeep hdone
  refine
    { order := by rw [hr']; exact hord.tail
      qmi := fun _ => hq (h.qmi (by rw [hr]; exact List.cons_ne_nil x rest))
      clear := ?_
      ends := ?_
      freed := ?_
      released := ?_
      stopped := ?_
      drained := ?_
      unlinked := ?_
      syncing := ?_
      synced := ?_
      reached := ?_
      noWork := ?_
      exiting := ?_
      flushing := ?_
      shut := ?_
      gone := ?_ }
  · intro s hs
    rw [hr'] at hs ⊢
    have hc := h.clear s (hmem hs)
    rw [hr, List.mem_cons] at hc
    rcases hc with rfl | hc
    · refine absurd hs (hord.over ?_ (by simp) (by simp))
      cases s <;> simp [Instr.rank]
    · exact hc
  · intro hs
    rw [hr'] at hs ⊢
    have hc := h.ends (hmem hs)
    rw [hr, List.mem_cons] at hc
    rcases hc with rfl | hc
    · exact absurd hs (hord.over (by decide) (by simp) (by simp))
    · exact hc
  · intro s c hc
    refine hpop (h.freed s c (hk.held s c hc)) (fun hl => ?_) fun _ hx => ?_
    · exact Bool.eq_false_iff.mpr fun hl' => Bool.false_ne_true (hl.symm.trans (hk.clients.live c hl'))
    · subst hx
      exact hpost c hc
  · intro s c hc
    refine hpop (h.released s c (hk.held s c hc)) (hk.clients.handle c) fun _ hx => ?_
    subst hx
    exact hpost c hc
  · intro s c hc
    refine hpop (h.stopped s c (hk.held s c hc)) (hk.clients.cancelled c) fun _ hx => ?_
    subst hx
    exact hpost c hc
  · intro s c hc
    refine hpop (h.drained s c (hk.held s c hc)) (hk.clients.quiet c) fun _ hx => ?_
    subst hx
    have hrel := h.released s c (hk.held s c hc)
    rw [hr] at hrel
    have hh := hrel.now hord (by cases s <;> simp [Instr.rank]) (by simp) (by simp)
    exact ⟨hk.clients.handle c hh, hpost c hc⟩
  · intro i
    refine hpop (h.unlinked i) hk.data fun _ hx => ?_
    subst hx
    exact hpost
  · intro i
    refine hpop (h.syncing i) hk.unlinked fun _ hx => ?_
    subst hx
    have hun := h.unlinked i
    rw [hr] at hun
    refine ⟨hk.data (hun.now hord (by simp [Instr.rank]) (by simp) (by simp)), fun r hrd => ?_⟩
    rw [hpost] at hrd
    cases hrd
  · intro i c hc hm
    refine hpop (h.synced i c (hk.held _ c hc) (by rwa [← hk.clients.qmap c])) hk.unread fun _ hx => ?_
    subst hx
    have hsync := h.syncing i
    rw [hr] at hsync
    obtain ⟨hd, hrecent⟩ := hk.unlinked (hsync.now hord (by simp [Instr.rank]) (by simp) (by simp))
    refine ⟨hd, fun r hrd => hrd.elim (hrecent r) fun hold => ?_⟩
    rw [hpost] at hold
    cases hold
  · intro stage
    refine hpop (h.reached stage) (hk.reached stage) fun hy hx => ?_
    subst hx
    -- the stages before have been reached
    have hprev : ∀ stage', stage'.instr ≠ stage.instr → stage'.instr.rank ≤ stage.instr.rank → p'.Reached stage' := by
      intro stage' hne hrank
      rcases h.reached stage' (hmem hy) with hm | hp
      · exact (hover hm (Ne.symm hne) hrank (by cases stage <;> nofun) (by cases stage' <;> nofun)).elim
      · exact hk.reached stage' hp
    exact hpost.reached hprev
  · refine hpop h.noWork hk.noWork fun _ hx => ?_
    subst hx
    exact hpost
  · intro i hf
    rw [hr'] at hf
    refine hpop (h.exiting i (hmem hf)) (hk.exiting i) fun _ hx => ?_
    subst hx
    exact hpost
  · intro i hf
    rw [hr'] at hf
    refine hpop (h.flushing i (hmem hf)) (fun he => ⟨hk.exiting i he.1, hk.flushing i he.1 he.2⟩) fun _ hx => ?_
    subst hx
    have hex := h.exiting i (hmem hf)
    rw [hr] at hex
    refine ⟨hk.exiting i (hex.now hord (by simp [Instr.rank]) (by simp) (by simp)), ?_⟩
    rintro ⟨w, d, hw, hd, -⟩ w' hw'
    obtain rfl : w = w' := Option.some.inj (hw.symm.trans hw')
    exact hpost w hw (List.ne_nil_of_mem hd)
  · intro i
    rw [hr']
    intro hf
    have hsh := h.shut i (hmem hf)
    rw [hr, List.mem_cons] at hsh
    rcases hsh with (rfl | hm) | hno | hm | ⟨he, hs⟩
    · exact .inr (.inl hpost)
    · exact .inl hm
    · exact .inr (.inl (hk.noWork hno))
    · rcases List.mem_cons.mp hm with rfl | hm
      · -- the run that was waited for is over
        have hfl := h.flushing i (hmem hf)
        rw [hr] at hfl
        have he := hfl.now hord (by simp [Instr.rank]) (by simp) (by simp)
        refine .inr (.inr (.inr ⟨hk.exiting i he.1, fun hqs => ?_⟩))
        have hw := hk.flushing i he.1 he.2 hqs
        obtain ⟨w, d, hw', -⟩ := hqs
        exact Bool.false_ne_true ((hpost w hw').symm.trans (hw w hw'))
      · exact .inr (.inr (.inl hm))
    · exact .inr (.inr (.inr ⟨hk.exiting i he, hk.queries i he hs⟩))
  · intro s c hc hl
    rw [hr']
    cases hl₀ : (p.client c).live with
    | false =>
      have hg := h.gone s c (hk.held s c hc) hl₀
      refine ⟨?_, hk.shut hg.2⟩
      have hm := hg.1
      rw [hr, List.mem_cons] at hm
      rcases hm with rfl | hm
      · rw [Instr.Post, hc] at hpost
        exact absurd hpost (Option.some_ne_none c)
      · exact hm
    | true =>
      obtain rfl := hlive s c hc hl₀ hl
      refine ⟨?_, hk.shut (h.shut_of_free hr)⟩
      have hm := h.clear s (by rw [hr]; exact List.mem_cons_self)
      rw [hr, List.mem_cons] at hm
      exact hm.resolve_left (by simp)

/-- Only clients change. -/
theorem Kept.of_clients {g : ℕ → QmiClient} (r : List Instr) (h : SameClients p.client g) :
    Kept p { p with rtnl := r, client := g } where
  held := fun _ _ => id
  clients := h
  data := id
  unlinked := id
  unread := id
  reached := fun _ => id
  noWork := id
  exiting := fun _ => id
  queries := fun i _ hno => by
    rintro ⟨w, c, hw, hc, hs⟩
    exact hno ⟨w, c, hw, hc, (h.slot c).symm.trans hs⟩
  flushing := fun i _ hfl => by
    rintro ⟨w, c, hw, hc, hs⟩
    exact hfl ⟨w, c, hw, hc, (h.slot c).symm.trans hs⟩

/-- Only the slots and what is exiting change. -/
theorem Kept.of_qmi {f : QmiInfo → QmiInfo} (r : List Instr)
    (hheld : ∀ q s c, (f q).held s = some c → q.held s = some c)
    (hexit : ∀ q i, q.dfcClientExiting i = true → (f q).dfcClientExiting i = true) :
    Kept p ({ p with rtnl := r }.mapQmi f) where
  held := by
    intro s c hc
    obtain ⟨q', hq', hc⟩ := exists_qmi hc
    obtain ⟨q, hq, rfl⟩ := Option.map_eq_some_iff.mp hq'
    rw [held_of (p := p) hq]
    exact hheld q s c hc
  clients := SameClients.refl _
  data := id
  unlinked := id
  unread := id
  reached := fun _ => id
  noWork := id
  exiting := by
    intro i he q' hq'
    obtain ⟨q, hq, rfl⟩ := Option.map_eq_some_iff.mp hq'
    exact hexit q i (he q hq)
  queries := fun _ _ => id
  flushing := fun _ _ => id

/-- Only what stands beside the run of the power-save work changes, and who is waited for. -/
theorem Kept.of_ps {f : PsWork → PsWork} {x : Sections Reader} (r : List Instr) (hrun : ∀ w, (f w).run = w.run)
    (hquit : ∀ w, w.quit = true → (f w).quit = true) (hpending : ∀ w, w.pending = .off → (f w).pending = .off)
    (hflushing : ∀ w, w.run ≠ [] → w.flushing = true → (f w).flushing = true)
    (hsyncing : ∀ w : PsWork, w.Rearming → w.syncing = true → (f w).syncing = true)
    (hhas : ∀ r, x.Has r → p.readers.Has r) (hrecent : ∀ r ∈ x.recent, r ∈ p.readers.recent) :
    Kept p { { p with rtnl := r }.mapPs f with readers := x } where
  held := fun _ _ => id
  clients := SameClients.refl _
  data := id
  unlinked := fun h => ⟨h.1, fun r hr => h.2 r (hrecent r hr)⟩
  unread := fun h => ⟨h.1, fun r hr => h.2 r (hhas r hr)⟩
  reached := by
    intro stage h w' hw'
    obtain ⟨w, hw, rfl⟩ := Option.map_eq_some_iff.mp hw'
    have hre : (f w).Rearming → w.Rearming := fun ⟨alarm, hm⟩ => ⟨alarm, hrun w ▸ hm⟩
    exact (h w hw).mono (hquit w) (fun _ hold r hr => hold r (hrecent r hr))
      (fun _ hold hm => hsyncing w (hre hm) (hold (hre hm)))
      (fun hno => ⟨hquit w hno.quit, fun r hr => hno.readers r (hhas r hr), fun hm => hno.rearming (hre hm)⟩)
      (fun _ => id) (fun _ hold r hr => hold r (hhas r hr)) fun _ => hpending w
  noWork := fun h => by
    show p.psWork.map f = none
    rw [h, Option.map_none]
  exiting := fun _ => id
  queries := by
    rintro i _ hno ⟨w', c, hw', hc, hs⟩
    obtain ⟨w, hw, rfl⟩ := Option.map_eq_some_iff.mp hw'
    exact hno ⟨w, c, hw, hrun w ▸ hc, hs⟩
  flushing := by
    rintro i _ hfl ⟨w', c, hw', hc, hs⟩ w'' hw''
    obtain rfl : w' = w'' := Option.some.inj (hw'.symm.trans hw'')
    obtain ⟨w, hw, rfl⟩ := Option.map_eq_some_iff.mp hw'
    rw [hrun w] at hc
    exact hflushing w (List.ne_nil_of_mem hc) (hfl ⟨w, c, hw, hc, hs⟩ w hw)

/-- `synchronize_rcu` begins. -/
theorem Kept.of_synchronize (r : List Instr) : Kept p ({ p with rtnl := r } : QmiPort).synchronize := by
  refine Kept.of_ps r (fun _ => rfl) (fun _ => id) (fun _ => id) (fun _ _ => id) (fun w hre _ => ?_)
    (fun _ => has_synchronize.mp) nofun
  obtain ⟨alarm, hm⟩ := hre
  exact List.any_eq_true.mpr ⟨_, hm, rfl⟩

/-- Links, the power-save work and its alarm only go. -/
theorem Kept.of_users {p' : QmiPort} (hq : p'.qmiInfo = p.qmiInfo) (hc : p'.client = p.client)
    (hd : p'.qmapDfcData = p.qmapDfcData ∨ p'.qmapDfcData = none) (hr : p'.readers = p.readers)
    (hw : p'.psWork = p.psWork ∨ p'.psWork = none) (ha : p'.alarm = p.alarm ∨ p'.alarm = false) : Kept p p' where
  held := fun s c hh => by rwa [QmiPort.held, ← hq]
  clients := by rw [hc]; exact SameClients.refl _
  data := fun h => hd.elim (fun hd => hd.trans h) id
  unlinked := fun h => ⟨hd.elim (fun hd => hd.trans h.1) id, by rw [hr]; exact h.2⟩
  unread := fun h => ⟨hd.elim (fun hd => hd.trans h.1) id, by rw [hr]; exact h.2⟩
  reached := by
    intro stage h w hw'
    rcases hw with hw | hw
    · have hstage := h w (hw ▸ hw')
      rw [hr]
      exact hstage.mono id (fun _ => id) (fun _ => id) id
        (fun _ hoff => ha.elim (fun ha => ha.trans hoff) id) (fun _ => id) fun _ => id
    · rw [hw] at hw'
      cases hw'
  noWork := fun h => hw.elim (fun hw => hw.trans h) id
  exiting := fun i he q hq' => he q (hq ▸ hq')
  queries := by
    rintro i _ hno ⟨w, c, hw', hmem, hs⟩
    rcases hw with hw | hw
    · exact hno ⟨w, c, hw ▸ hw', hmem, hc ▸ hs⟩
    · rw [hw] at hw'
      cases hw'
  flushing := by
    rintro i _ hfl ⟨w, c, hw', hmem, hs⟩
    rcases hw with hw | hw
    · rw [hw]
      exact hfl ⟨w, c, hw ▸ hw', hmem, hc ▸ hs⟩
    · rw [hw] at hw'
      cases hw'

theorem mapHeld_of_none {f : QmiClient → QmiClient} (hc : p.held s = none) : p.mapHeld s f = p := by
  rw [QmiPort.mapHeld, hc]

theorem mapHeld_of_some {f : QmiClient → QmiClient} (hc : p.held s = some c) : p.mapHeld s f = p.mapClient c f := by
  rw [QmiPort.mapHeld, hc]

/-- A change of the client in a slot, if there is one. -/
theorem Kept.of_held {f : QmiClient → QmiClient} (r : List Instr) (hslot : ∀ x, (f x).slot = x.slot)
    (hqmap : ∀ x, (f x).qmap = x.qmap) (hlive : ∀ x, (f x).live = true → x.live = true)
    (hhandle : ∀ x, x.handle = false → (f x).handle = false)
    (hcancelled : ∀ x, x.task.cancelled = true → (f x).task.cancelled = true)
    (hquiet : ∀ x : QmiClient, x.Quiet → (f x).Quiet) : Kept p ({ p with rtnl := r }.mapHeld s f) := by
  cases hc : p.held s with
  | none =>
    rw [mapHeld_of_none (p := { p with rtnl := r }) hc]
    exact Kept.of_clients r (SameClients.refl _)
  | some c =>
    rw [mapHeld_of_some (p := { p with rtnl := r }) hc]
    exact Kept.of_clients r (SameClients.update (hslot _) (hqmap _) (hlive _) (hhandle _) (hcancelled _) (hquiet _))

theorem held_clear (q : QmiInfo) (s t : Slot) :
    ({ q with
        client := Function.update q.client s none
        pending := Function.update q.pending s none } : QmiInfo).held t = if t = s then none else q.held t := by
  unfold QmiInfo.held
  by_cases h : t = s
  · subst h
    simp
  · simp [h]

/-- What an instruction keeps. -/
theorem exec_kept (x : Instr) (hx : x ≠ .freeQmi) (r : List Instr) : Kept p ({ p with rtnl := r }.exec x) := by
  cases x with
  | release s =>
    exact Kept.of_held (f := fun x => { x with handle := false }) r (fun _ => rfl) (fun _ => rfl) (fun _ => id)
      (fun _ _ => rfl) (fun _ => id) fun _ hq => ⟨rfl, hq.2⟩
  | stop s =>
    exact Kept.of_held (f := fun x => { x with task := x.task.cancel }) r (fun _ => rfl) (fun _ => rfl) (fun _ => id)
      (fun _ => id) (fun _ _ => rfl) fun _ hq => hq
  | free s =>
    exact Kept.of_held (f := fun x => { x with live := false }) r (fun _ => rfl) (fun _ => rfl)
      (fun _ hl => absurd hl Bool.false_ne_true) (fun _ => id) (fun _ => id) fun _ hq => hq
  | clear s =>
    refine Kept.of_qmi r (fun q t c hc => ?_) fun _ _ => id
    rw [held_clear] at hc
    split at hc
    · cases hc
    · exact hc
  | exiting i =>
    refine Kept.of_qmi r (fun _ _ _ => id) fun q j hj => ?_
    simp only [Function.update_apply]
    split
    · rfl
    · exact hj
  | flush =>
    exact Kept.of_ps r (fun _ => rfl) (fun _ => id) (fun _ => id) (fun w hw _ => by simp [hw]) (fun _ _ => id)
      (fun _ => id) fun _ => id
  | quit =>
    exact Kept.of_ps r (fun _ => rfl) (fun _ _ => rfl) (fun _ => id) (fun _ _ => id) (fun _ _ => id) (fun _ => id)
      fun _ => id
  | cancel =>
    exact Kept.of_ps r (fun _ => rfl) (fun _ => id) (fun _ _ => rfl) (fun _ _ => id) (fun _ _ => id) (fun _ => id)
      fun _ => id
  | dereg i => exact Kept.of_synchronize r
  | sync i => exact Kept.of_synchronize r
  | quitSync =>
    rw [QmiPort.exec]
    split
    · exact Kept.of_synchronize r
    · exact Kept.of_users rfl rfl (.inl rfl) rfl (.inl rfl) (.inl rfl)
  | unlink i => exact Kept.of_users rfl rfl (.inr rfl) rfl (.inl rfl) (.inl rfl)
  | alarmCancel => exact Kept.of_users rfl rfl (.inl rfl) rfl (.inl rfl) (.inr rfl)
  | cancelled => exact Kept.of_users rfl rfl (.inl rfl) rfl (.inr rfl) (.inl rfl)
  | freeQmi => exact absurd rfl hx
  | _ => exact Kept.of_users rfl rfl (.inl rfl) rfl (.inl rfl) (.inl rfl)

/-- A fact about the client in a slot after it has been changed. -/
theorem held_of_mapHeld {f : QmiClient → QmiClient} {P : QmiClient → Prop} (r : List Instr) (hf : ∀ x, P (f x)) :
    ∀ c, ({ p with rtnl := r }.mapHeld s f).held s = some c → P (({ p with rtnl := r }.mapHeld s f).client c) := by
  intro c hc
  cases hh : p.held s with
  | none =>
    rw [mapHeld_of_none (p := { p with rtnl := r }) hh] at hc
    cases hh.symm.trans hc
  | some d =>
    rw [mapHeld_of_some (p := { p with rtnl := r }) hh] at hc ⊢
    obtain rfl : d = c := Option.some.inj (hh.symm.trans hc)
    show P (Function.update p.client d _ d)
    rw [Function.update_self]
    exact hf _

/-- `synchronize_rcu` has returned: nobody is left of those that it has waited for. -/
theorem old_of_synchronized (h : p.synchronized = true) :
    p.readers.old = [] ∧ ∀ w, p.psWork = some w → w.syncing = false := by
  obtain ⟨hold, hwork⟩ := Bool.and_eq_true_iff.mp h
  refine ⟨List.isEmpty_iff.mp hold, fun w hw => ?_⟩
  rw [hw] at hwork
  simpa using hwork

/-- What an instruction brings about, once what it waits for is over. -/
theorem exec_post (x : Instr) (r : List Instr) (hover : p.over x = true) : x.Post ({ p with rtnl := r }.exec x) := by
  cases x with
  | release s => exact held_of_mapHeld (P := fun x => x.handle = false) r fun _ => rfl
  | stop s => exact held_of_mapHeld (P := fun x => x.task.cancelled = true) r fun _ => rfl
  | free s => exact held_of_mapHeld (P := fun x => x.live = false) r fun _ => rfl
  | drain s =>
    intro c hc
    have hc' : p.held s = some c := hc
    rw [QmiPort.over, hc'] at hover
    exact of_decide_eq_true hover
  | clear s =>
    show QmiPort.held _ s = none
    cases hq : p.qmiInfo with
    | none =>
      exact held_of_none rfl s
    | some q =>
      exact (held_clear q s s).trans (if_pos rfl)
  | exiting i =>
    intro q' hq'
    obtain ⟨q, hq, rfl⟩ := Option.map_eq_some_iff.mp hq'
    show Function.update q.dfcClientExiting i true i = true
    rw [Function.update_self]
  | flush =>
    intro w' hw' hne
    obtain ⟨w, hw, rfl⟩ := Option.map_eq_some_iff.mp hw'
    simpa using hne
  | quit =>
    intro w' hw'
    obtain ⟨w, hw, rfl⟩ := Option.map_eq_some_iff.mp hw'
    rfl
  | cancel =>
    intro w' hw'
    obtain ⟨w, hw, rfl⟩ := Option.map_eq_some_iff.mp hw'
    rfl
  | dereg i => exact trivial
  | deregged i => exact trivial
  | unlink i => exact rfl
  | sync i => exact rfl
  | synced i => exact (old_of_synchronized hover).1
  | quitSync =>
    intro w' hw'
    cases hps : p.psWork with
    | none =>
      rw [QmiPort.exec, if_neg (by simp [hps])] at hw'
      cases hps.symm.trans hw'
    | some w =>
      rw [QmiPort.exec, if_pos (by simp [hps])] at hw' ⊢
      refine ⟨rfl, fun hre => ?_⟩
      obtain ⟨w₀, -, rfl⟩ := Option.map_eq_some_iff.mp hw'
      obtain ⟨alarm, hm⟩ := hre
      exact List.any_eq_true.mpr ⟨_, hm, rfl⟩
  | quitSynced => exact old_of_synchronized hover
  | alarmCancel => exact rfl
  | alarmCancelled =>
    intro r hr
    have hall := List.all_eq_true.mp hover r (List.mem_append.mpr hr)
    simpa using hall
  | cancelled => exact rfl
  | flushed =>
    intro w hw
    have hw' : p.psWork = some w := hw
    rw [QmiPort.over, hw', Option.all_some, Bool.and_eq_true_iff] at hover
    simpa using hover.1
  | freeQmi => exact trivial

/-- Instructions free clients, and nothing else. -/
theorem exec_live {x : Instr} {r : List Instr} (hl : (p.client c).live = true)
    (hl' : (({ p with rtnl := r }.exec x).client c).live = false) : ∃ s, x = .free s ∧ p.held s = some c := by
  have hno : ∀ s f, (∀ x : QmiClient, (f x).live = x.live) →
      (({ p with rtnl := r }.mapHeld s f).client c).live = (p.client c).live := by
    intro s f hf
    cases hh : p.held s with
    | none => rw [mapHeld_of_none (p := { p with rtnl := r }) hh]
    | some d =>
      rw [mapHeld_of_some (p := { p with rtnl := r }) hh]
      show (Function.update p.client d (f (p.client d)) c).live = _
      rw [Function.update_apply]
      split
      · rename_i hcd
        rw [hf, hcd]
      · rfl
  cases x with
  | free s =>
    cases hh : p.held s with
    | none =>
      rw [QmiPort.exec, mapHeld_of_none (p := { p with rtnl := r }) hh] at hl'
      exact absurd (hl.symm.trans hl') (by simp)
    | some d =>
      rw [QmiPort.exec, mapHeld_of_some (p := { p with rtnl := r }) hh] at hl'
      have hu : (Function.update p.client d { p.client d with live := false } c).live = false := hl'
      rw [Function.update_apply] at hu
      split at hu
      · rename_i hcd
        exact ⟨s, rfl, by rw [hh, hcd]⟩
      · exact absurd (hl.symm.trans hu) (by simp)
  | release s =>
    have hsame := hno s (fun x => { x with handle := false }) fun _ => rfl
    exact absurd (hl.symm.trans (hsame.symm.trans hl')) (by simp)
  | stop s =>
    have hsame := hno s (fun x => { x with task := x.task.cancel }) fun _ => rfl
    exact absurd (hl.symm.trans (hsame.symm.trans hl')) (by simp)
  | freeQmi =>
    have hsame : (({ p with rtnl := r }.exec .freeQmi).client c) = p.client c := by
      simp only [QmiPort.exec, QmiPort.freeQmi]
      split
      · split <;> rfl
      · split <;> (split <;> rfl)
    exact absurd (hl.symm.trans (hsame ▸ hl')) (by simp)
  | quitSync =>
    rw [QmiPort.exec] at hl'
    split at hl' <;> exact absurd (hl.symm.trans hl') (by simp)
  | _ => exact absurd (hl.symm.trans hl') (by simp)

/-- What an instruction does to `qmi_info`. -/
theorem exec_qmiInfo {x : Instr} (hx : x ≠ .freeQmi) (r : List Instr) :
    ∃ g : QmiInfo → QmiInfo, ({ p with rtnl := r }.exec x).qmiInfo = p.qmiInfo.map g ∧
      (∀ q, (g q).addr = q.addr) ∧
      (∀ q s, q.client s = none ∨ q.pending s = none → (g q).client s = none ∨ (g q).pending s = none) ∧
      ∀ q s, (g q).held s = if x = .clear s then none else q.held s := by
  have hid : ({ p with rtnl := r }.exec x).qmiInfo = p.qmiInfo → (∀ s, x ≠ .clear s) →
      ∃ g : QmiInfo → QmiInfo, ({ p with rtnl := r }.exec x).qmiInfo = p.qmiInfo.map g ∧
      (∀ q, (g q).addr = q.addr) ∧
      (∀ q s, q.client s = none ∨ q.pending s = none → (g q).client s = none ∨ (g q).pending s = none) ∧
      ∀ q s, (g q).held s = if x = .clear s then none else q.held s := by
    intro h hc
    refine ⟨id, by rw [h, Option.map_id_fun, id_eq], fun _ => rfl, fun _ _ => id, fun q s => ?_⟩
    rw [if_neg (hc s)]
    rfl
  have hheld : ∀ s f, ({ p with rtnl := r }.mapHeld s f).qmiInfo = p.qmiInfo := by
    intro s f
    cases hh : p.held s with
    | none => rw [mapHeld_of_none (p := { p with rtnl := r }) hh]
    | some d =>
      rw [mapHeld_of_some (p := { p with rtnl := r }) hh]
      rfl
  cases x with
  | freeQmi => exact absurd rfl hx
  | clear s =>
    refine ⟨_, rfl, fun _ => rfl, fun q t ht => ?_, fun q t => ?_⟩
    · by_cases h : t = s
      · subst h
        exact .inl (Function.update_self _ _ _)
      · simpa only [Function.update_of_ne h] using ht
    · refine (held_clear q s t).trans ?_
      by_cases h : t = s
      · rw [if_pos h, if_pos (by rw [h])]
      · rw [if_neg h, if_neg (by simpa using Ne.symm h)]
  | exiting i => exact ⟨_, rfl, fun _ => rfl, fun _ _ => id, fun _ _ => rfl⟩
  | release s => exact hid (hheld s _) (by simp)
  | stop s => exact hid (hheld s _) (by simp)
  | free s => exact hid (hheld s _) (by simp)
  | quitSync =>
    refine hid ?_ (by simp)
    rw [QmiPort.exec]
    split <;> rfl
  | _ => exact hid rfl (by simp)

/-- Instructions other than `freeQmi` clear slots, and nothing else. -/
theorem exec_held {x : Instr} (hx : x ≠ .freeQmi) (r : List Instr) (s : Slot) :
    ({ p with rtnl := r }.exec x).held s = if x = .clear s then none else p.held s := by
  obtain ⟨g, hg, -, -, hheld⟩ := exec_qmiInfo (p := p) hx r
  rw [QmiPort.held, hg, QmiPort.held]
  cases p.qmiInfo with
  | none => simp
  | some q => exact hheld q s

/-- Who waits for the power-save work waits for a run that there is. -/
structure PsWork.Awaited (w : PsWork) : Prop where
  flushing : w.flushing = true → w.run ≠ []
  flushNext : w.flushNext = true → w.pending = .queued
  syncing : w.syncing = true → w.run ≠ []

/-- `synchronize_rcu` waits for a run under `rcu_read_lock`. -/
theorem PsWork.Awaited.synchronize {w : PsWork} (h : w.Awaited) :
    ({ w with syncing := w.reading } : PsWork).Awaited where
  flushing := h.flushing
  flushNext := h.flushNext
  syncing := fun hr hnil => by
    have hr' : w.reading = true := hr
    have hnil' : w.run = [] := hnil
    rw [PsWork.reading, hnil'] at hr'
    cases hr'

/-- What an instruction does to the power-save work. -/
theorem exec_psWork {x : Instr} (hx : x ≠ .freeQmi) {r : List Instr} {w' : PsWork}
    (hw' : ({ p with rtnl := r }.exec x).psWork = some w') :
    ∃ w, p.psWork = some w ∧ w'.run = w.run ∧ w'.qmi = w.qmi ∧ (w.Awaited → w'.Awaited) := by
  have hheld : ∀ s f, ({ p with rtnl := r }.mapHeld s f).psWork = p.psWork := by
    intro s f
    cases hh : p.held s with
    | none => rw [mapHeld_of_none (p := { p with rtnl := r }) hh]
    | some d =>
      rw [mapHeld_of_some (p := { p with rtnl := r }) hh]
      rfl
  have hsync : ({ p with rtnl := r } : QmiPort).synchronize.psWork = some w' →
      ∃ w, p.psWork = some w ∧ w'.run = w.run ∧ w'.qmi = w.qmi ∧ (w.Awaited → w'.Awaited) := by
    intro hw'
    obtain ⟨w, hw, rfl⟩ := Option.map_eq_some_iff.mp hw'
    exact ⟨w, hw, rfl, rfl, PsWork.Awaited.synchronize⟩
  cases x with
  | freeQmi => exact absurd rfl hx
  | release s => exact ⟨w', (hheld s _).symm.trans hw', rfl, rfl, id⟩
  | stop s => exact ⟨w', (hheld s _).symm.trans hw', rfl, rfl, id⟩
  | free s => exact ⟨w', (hheld s _).symm.trans hw', rfl, rfl, id⟩
  | dereg i => exact hsync hw'
  | sync i => exact hsync hw'
  | quitSync =>
    rw [QmiPort.exec] at hw'
    split at hw'
    · exact hsync hw'
    · exact ⟨w', hw', rfl, rfl, id⟩
  | flush =>
    obtain ⟨w, hw, rfl⟩ := Option.map_eq_some_iff.mp hw'
    exact ⟨w, hw, rfl, rfl, fun h => ⟨by simp, by simp, h.syncing⟩⟩
  | quit =>
    obtain ⟨w, hw, rfl⟩ := Option.map_eq_some_iff.mp hw'
    exact ⟨w, hw, rfl, rfl, fun h => ⟨h.flushing, h.flushNext, h.syncing⟩⟩
  | cancel =>
    obtain ⟨w, hw, rfl⟩ := Option.map_eq_some_iff.mp hw'
    exact ⟨w, hw, rfl, rfl, fun h => ⟨h.flushing, nofun, h.syncing⟩⟩
  | cancelled => cases hw'
  | _ => exact ⟨w', hw', rfl, rfl, id⟩

/-- Only `cancelled` ends the power-save work. -/
theorem exec_noWork {x : Instr} {r : List Instr} (hx : x ≠ .freeQmi) (hw : p.psWork.isSome = true)
    (hw' : ({ p with rtnl := r }.exec x).psWork = none) : x = .cancelled := by
  have hno : p.psWork ≠ none := Option.isSome_iff_ne_none.mp hw
  have hheld : ∀ s f, ({ p with rtnl := r }.mapHeld s f).psWork ≠ none := by
    intro s f
    cases hh : p.held s with
    | none =>
      rw [mapHeld_of_none (p := { p with rtnl := r }) hh]
      exact hno
    | some d =>
      rw [mapHeld_of_some (p := { p with rtnl := r }) hh]
      exact hno
  have hmap : ∀ f, ({ p with rtnl := r }.mapPs f).psWork ≠ none := fun f h => hno (Option.map_eq_none_iff.mp h)
  cases x with
  | freeQmi => exact absurd rfl hx
  | cancelled => rfl
  | release s => exact absurd hw' (hheld s _)
  | stop s => exact absurd hw' (hheld s _)
  | free s => exact absurd hw' (hheld s _)
  | flush => exact absurd hw' (hmap _)
  | quit => exact absurd hw' (hmap _)
  | cancel => exact absurd hw' (hmap _)
  | dereg i => exact absurd hw' (hmap _)
  | sync i => exact absurd hw' (hmap _)
  | quitSync =>
    rw [QmiPort.exec, if_pos hw] at hw'
    exact absurd hw' (hmap _)
  | _ => exact absurd hw' hno

/-- Something is left alone, or lets go at most. -/
structure Untouched (p : QmiPort) (r : List Instr) (p' : QmiPort) : Prop where
  rtnl : p'.rtnl = r
  next : p'.next = p.next
  dfcQmap : p'.dfcQmap = p.dfcQmap
  readers : ∀ x, p'.readers.Has x ↔ p.readers.Has x
  data : p'.qmapDfcData = p.qmapDfcData ∨ p'.qmapDfcData = none
  alarm : p'.alarm = true → p.alarm = true

/-- What an instruction other than `freeQmi` does not touch. -/
theorem exec_rest {x : Instr} (hx : x ≠ .freeQmi) (r : List Instr) : Untouched p r ({ p with rtnl := r }.exec x) := by
  have hself : Untouched p r { p with rtnl := r } := ⟨rfl, rfl, rfl, fun _ => Iff.rfl, .inl rfl, id⟩
  have hheld : ∀ s f, Untouched p r ({ p with rtnl := r }.mapHeld s f) := by
    intro s f
    cases hh : p.held s with
    | none =>
      rw [mapHeld_of_none (p := { p with rtnl := r }) hh]
      exact hself
    | some d =>
      rw [mapHeld_of_some (p := { p with rtnl := r }) hh]
      exact ⟨rfl, rfl, rfl, fun _ => Iff.rfl, .inl rfl, id⟩
  have hsync : Untouched p r ({ p with rtnl := r } : QmiPort).synchronize :=
    ⟨rfl, rfl, rfl, fun _ => has_synchronize, .inl rfl, id⟩
  cases x with
  | freeQmi => exact absurd rfl hx
  | release s => exact hheld s _
  | stop s => exact hheld s _
  | free s => exact hheld s _
  | unlink i => exact ⟨rfl, rfl, rfl, fun _ => Iff.rfl, .inr rfl, id⟩
  | alarmCancel => exact ⟨rfl, rfl, rfl, fun _ => Iff.rfl, .inl rfl, nofun⟩
  | dereg i => exact hsync
  | sync i => exact hsync
  | quitSync =>
    rw [QmiPort.exec]
    split
    · exact hsync
    · exact hself
  | _ => exact ⟨rfl, rfl, rfl, fun _ => Iff.rfl, .inl rfl, id⟩

end

end Rmnet
