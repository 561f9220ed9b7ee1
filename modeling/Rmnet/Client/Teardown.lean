import Rmnet.Client.Lifetime

/-!
# A deletion never waits in vain, and an exit leaves nothing

While clients are deleted the rtnl lock is held, and the work items that a deletion waits for want the same lock.  The
way out is `restart_state`: a work item that finds it set gives up.  Indications come in until the handle is released.
The power-save work, its alarm and the readers that queue it keep starting one another until `rmnet_work_quit` is set.

* `deletion_never_stuck` — the holder of the lock can go on, or what it waits for can, and every step of the latter
  brings the end of the waiting nearer, which no other step puts off.
* `exit_leaves_nothing` — when `qmi_rmnet_qmi_exit` is through, nothing is allocated, and nobody is left who has a
  client or comes to queue the power-save work.
-/

namespace Rmnet

open Transition Worker Reading

/-! ### How long the waiting is -/

/-- The steps that a phase of the power-save work takes at most, up to the next one or to its end. -/
def PsPhase.size : PsPhase → ℕ
  | .start => 13
  | .powersave _ => 5
  | .setMode _ _ => 4
  | .query _ => 2
  | .queryFlow _ => 1
  | .finish _ => 3
  | .locked _ => 2
  | .rearm _ => 1

/-- The steps that the run of the power-save work takes at most. -/
def PsWork.size (w : PsWork) : ℕ := (w.run.map PsPhase.size).sum

/-- The steps that a reader takes at most. -/
def Reader.size (r : Reader) : ℕ :=
  match r.phase with
  | .locked => 3
  | .queue => 2
  | .found _ => 1
  | .done => 1

/-- The steps of the callback of the alarm. -/
def Reader.alarmSize (r : Reader) : ℕ := if r.kind = .alarm then r.size else 0

/-- The steps that the work items of a client in a slot take at most, once it has been stopped. -/
def QmiClient.size (x : QmiClient) (s : Slot) : ℕ := x.task.size (svcProgram s) + x.inds.size

/-- The steps, at most, that `synchronize_rcu` waits for. -/
def QmiPort.syncSize (p : QmiPort) : ℕ :=
  weight Reader.size p.readers.old + (p.psWork.map fun w => if w.syncing then w.size else 0).getD 0

/-- The steps, at most, that `flush_workqueue` waits for; a run in the queue comes after the run at hand. -/
def PsWork.flushSize (w : PsWork) : ℕ :=
  if w.flushNext then w.size + 1 + PsPhase.start.size else if w.flushing then w.size else 0

/-- The steps, at most, that an instruction waits for. -/
def QmiPort.waitFor (p : QmiPort) : Instr → ℕ
  | .drain s => ((p.held s).map fun c => (p.client c).size s).getD 0
  | .deregged _ => p.syncSize
  | .synced _ => p.syncSize
  | .flushed => (p.psWork.map PsWork.flushSize).getD 0
  | .quitSynced => p.syncSize
  | .alarmCancelled => p.readers.total Reader.alarmSize
  | .cancelled => (p.psWork.map PsWork.size).getD 0
  | _ => 0

/-- The steps that the next instruction waits for. -/
def QmiPort.waitSize (p : QmiPort) : ℕ := (p.rtnl.head?.map p.waitFor).getD 0

/-- The event is a step of what `synchronize_rcu` waits for. -/
def QmiPort.AwaitedBySync (p : QmiPort) : ClientEvent → Prop
  | .read old r => old = true ∧ r ∈ p.readers.old
  | .psWork _ _ => ∃ w, p.psWork = some w ∧ w.syncing = true ∧ w.run ≠ []
  | _ => False

/-- The event is a step of a work item of the client, of which there is one at a time. -/
def QmiPort.AwaitedByDrain (p : QmiPort) (c : ℕ) : ClientEvent → Prop
  | .work d lockFree _ =>
      d = c ∧ lockFree = false ∧ ¬ (p.client c).task.Idle ∧ (p.client c).inds.running = false
  | .indWork d =>
      d = c ∧ ¬ (p.client c).inds.Idle ∧ ((p.client c).inds.running = true ∨ (p.client c).task.work = [])
  | _ => False

/-- The event is a step of what an instruction waits for. -/
def QmiPort.AwaitedBy (p : QmiPort) (e : ClientEvent) : Instr → Prop
  | .drain s => ∃ c, p.held s = some c ∧ p.AwaitedByDrain c e
  | .deregged _ => p.AwaitedBySync e
  | .synced _ => p.AwaitedBySync e
  | .flushed => ∃ w, p.psWork = some w ∧
      ((∃ idle ok, e = .psWork idle ok) ∧ (w.flushing = true ∨ w.flushNext = true) ∧ w.run ≠ [] ∨
        e = .psStart ∧ w.flushNext = true ∧ w.pending = .queued ∧ w.run = [])
  | .quitSynced => p.AwaitedBySync e
  | .alarmCancelled => ∃ old r, e = .read old r ∧ r ∈ p.readers.side old ∧ r.kind = .alarm
  | .cancelled => ∃ w idle ok, e = .psWork idle ok ∧ p.psWork = some w ∧ w.run ≠ []
  | _ => False

/-- The event is a step of what the next instruction waits for. -/
def QmiPort.Awaited (p : QmiPort) (e : ClientEvent) : Prop := ∃ x ∈ p.rtnl.head?, p.AwaitedBy e x

section

variable {p p' : QmiPort} {x : Instr} {rest : List Instr} {w : PsWork}

theorem PsWork.size_eq_zero : w.size = 0 ↔ w.run = [] := by
  unfold PsWork.size
  cases w.run with
  | nil => simp
  | cons x run => cases x <;> simp [PsPhase.size]

theorem Reader.size_pos (r : Reader) : 0 < r.size := by
  unfold Reader.size
  split <;> decide

theorem QmiClient.size_eq_zero {y : QmiClient} {s : Slot} : y.size s = 0 ↔ y.Idle := by
  rw [QmiClient.size, Nat.add_eq_zero_iff, Task.size_eq_zero, Backlog.size_eq_zero]
  rfl

theorem waitSize_cons (hr : p.rtnl = x :: rest) : p.waitSize = p.waitFor x := by rw [QmiPort.waitSize, hr]; rfl

/-- `synchronize_rcu` can return when no step is left. -/
theorem ClientInv.synchronized_iff (h : ClientInv p) : p.synchronized = true ↔ p.syncSize = 0 := by
  have hold : p.readers.old.isEmpty = true ↔ weight Reader.size p.readers.old = 0 := by
    rw [weight_eq_zero, List.isEmpty_iff]
    refine ⟨fun hnil => by simp [hnil], fun hall => List.eq_nil_iff_forall_not_mem.mpr fun r hr => ?_⟩
    exact absurd (hall r hr) r.size_pos.ne'
  have hwork : (p.psWork.all fun w => !w.syncing) = true ↔
      (p.psWork.map fun w => if w.syncing then w.size else 0).getD 0 = 0 := by
    cases hw : p.psWork with
    | none => simp
    | some w =>
      have hsync := (h.ps w hw).awaited.syncing
      cases hs : w.syncing with
      | false => simp [hs]
      | true => simpa [hs, PsWork.size_eq_zero] using hsync hs
  rw [QmiPort.synchronized, QmiPort.syncSize, Bool.and_eq_true_iff, hold, hwork, Nat.add_eq_zero_iff]

/-- `flush_workqueue` can return when no step is left. -/
theorem PsWork.Awaited.flushed_iff (h : w.Awaited) : (!w.flushing && !w.flushNext) = true ↔ w.flushSize = 0 := by
  unfold PsWork.flushSize
  cases hn : w.flushNext with
  | true => simp
  | false =>
    cases hf : w.flushing with
    | false => simp
    | true => simpa [PsWork.size_eq_zero] using h.flushing hf

/-- What an instruction waits for is over when no step is left. -/
theorem ClientInv.over_iff (h : ClientInv p) (x : Instr) : p.over x = true ↔ p.waitFor x = 0 := by
  cases x with
  | drain s =>
    simp only [QmiPort.over, QmiPort.waitFor]
    cases p.held s with
    | none => simp
    | some c => simp [QmiClient.size_eq_zero]
  | deregged i => exact h.synchronized_iff
  | synced i => exact h.synchronized_iff
  | quitSynced => exact h.synchronized_iff
  | flushed =>
    simp only [QmiPort.over, QmiPort.waitFor]
    cases hw : p.psWork with
    | none => simp
    | some w => exact (h.ps w hw).awaited.flushed_iff
  | alarmCancelled =>
    rw [QmiPort.over, QmiPort.waitFor, total_eq_zero, List.all_eq_true]
    have hzero : ∀ r : Reader, decide (r.kind ≠ .alarm) = true ↔ r.alarmSize = 0 := by
      intro r
      unfold Reader.alarmSize
      split
      · rename_i hk
        simp [hk, r.size_pos.ne']
      · rename_i hk
        simp [hk]
    refine forall_congr' fun r => ?_
    rw [List.mem_append, hzero]
    rfl
  | cancelled =>
    simp only [QmiPort.over, QmiPort.waitFor]
    cases p.psWork with
    | none => simp
    | some w => simp [PsWork.size_eq_zero]
  | _ => simp [QmiPort.over, QmiPort.waitFor]

/-- The holder of the lock can go on when it waits for nothing. -/
theorem ClientInv.rtnl_isSome (h : ClientInv p) (hne : p.rtnl ≠ []) :
    (clientStep p .rtnl).isSome = true ↔ p.waitSize = 0 := by
  obtain ⟨x, rest, hr⟩ := List.exists_cons_of_ne_nil hne
  rw [waitSize_cons hr, ← h.over_iff]
  rw [clientStep, Rmnet.rtnlStep, hr]
  dsimp only
  split
  · rename_i hover
    exact ⟨fun _ => hover, fun _ => rfl⟩
  · rename_i hover
    exact ⟨fun hs => absurd hs (by simp), fun ho => absurd ho hover⟩

/-- If `synchronize_rcu` waits, what it waits for can take a step. -/
theorem exists_awaitedBySync (hpos : 0 < p.syncSize) : ∃ e, p.AwaitedBySync e := by
  cases hold : p.readers.old with
  | cons r old => exact ⟨.read true r, rfl, by rw [hold]; exact List.mem_cons_self⟩
  | nil =>
    cases hw : p.psWork with
    | none => simp [QmiPort.syncSize, hold, hw, weight] at hpos
    | some w =>
      cases hs : w.syncing with
      | false => simp [QmiPort.syncSize, hold, hw, hs, weight] at hpos
      | true =>
        refine ⟨.psWork true true, w, hw, hs, fun hrun => ?_⟩
        simp [QmiPort.syncSize, hold, hw, hs, weight, PsWork.size_eq_zero.mpr hrun] at hpos

/-- A client that is not idle can take a step. -/
theorem exists_awaitedByDrain {c : ℕ} (hbusy : ¬ (p.client c).Idle) : ∃ e, p.AwaitedByDrain c e := by
  cases hrun : (p.client c).inds.running with
  | true => exact ⟨.indWork c, rfl, fun hidle => Bool.false_ne_true (hidle.2.symm.trans hrun), .inl hrun⟩
  | false =>
    by_cases htask : (p.client c).task.Idle
    · exact ⟨.indWork c, rfl, fun hidle => hbusy ⟨htask, hidle⟩, .inr htask.2⟩
    · exact ⟨.work c false true, rfl, rfl, htask, hrun⟩

/-- If there is something to wait for, it can take a step. -/
theorem ClientInv.exists_awaited (h : ClientInv p) (hpos : 0 < p.waitSize) : ∃ e, p.Awaited e := by
  cases hr : p.rtnl with
  | nil => simp [QmiPort.waitSize, hr] at hpos
  | cons x rest =>
    rw [waitSize_cons hr] at hpos
    have hmem : x ∈ p.rtnl.head? := by rw [hr]; rfl
    have hsync : 0 < p.syncSize → (∀ e, p.AwaitedBySync e → p.AwaitedBy e x) → ∃ e, p.Awaited e := by
      intro hpos himp
      obtain ⟨e, he⟩ := exists_awaitedBySync hpos
      exact ⟨e, x, hmem, himp e he⟩
    cases x with
    | drain s =>
      cases hc : p.held s with
      | none => simp [QmiPort.waitFor, hc] at hpos
      | some c =>
        have hbusy : ¬ (p.client c).Idle := by
          intro hidle
          simp [QmiPort.waitFor, hc, QmiClient.size_eq_zero.mpr hidle] at hpos
        obtain ⟨e, he⟩ := exists_awaitedByDrain hbusy
        exact ⟨e, _, hmem, c, hc, he⟩
    | deregged i => exact hsync hpos fun _ => id
    | synced i => exact hsync hpos fun _ => id
    | quitSynced => exact hsync hpos fun _ => id
    | flushed =>
      cases hw : p.psWork with
      | none => simp [QmiPort.waitFor, hw] at hpos
      | some w =>
        have hawaited := (h.ps w hw).awaited
        have hwait : w.flushing = true ∨ w.flushNext = true := by
          by_contra hno
          simp only [not_or, Bool.not_eq_true] at hno
          simp [QmiPort.waitFor, hw, PsWork.flushSize, hno] at hpos
        by_cases hrun : w.run = []
        · have hnext := hwait.resolve_left fun hf => hawaited.flushing hf hrun
          exact ⟨.psStart, _, hmem, w, hw, .inr ⟨rfl, hnext, hawaited.flushNext hnext, hrun⟩⟩
        · exact ⟨.psWork true true, _, hmem, w, hw, .inl ⟨⟨true, true, rfl⟩, hwait, hrun⟩⟩
    | alarmCancelled =>
      have hex : ∃ r, p.readers.Has r ∧ r.kind = .alarm := by
        by_contra hno
        have hzero : p.readers.total Reader.alarmSize = 0 :=
          total_eq_zero.mpr fun r hr => if_neg fun hk => hno ⟨r, hr, hk⟩
        exact absurd hzero (show 0 < p.readers.total Reader.alarmSize from hpos).ne'
      obtain ⟨r, hr | hr, hk⟩ := hex
      · exact ⟨.read false r, _, hmem, false, r, rfl, hr, hk⟩
      · exact ⟨.read true r, _, hmem, true, r, rfl, hr, hk⟩
    | cancelled =>
      cases hw : p.psWork with
      | none => simp [QmiPort.waitFor, hw] at hpos
      | some w =>
        refine ⟨.psWork true true, _, hmem, w, true, true, rfl, hw, fun hrun => ?_⟩
        simp [QmiPort.waitFor, hw, PsWork.size_eq_zero.mpr hrun] at hpos
    | _ => simp [QmiPort.waitFor] at hpos

/-- What is waited for can take a step, whatever it is answered. -/
theorem awaited_isSome {e : ClientEvent} (ha : p.Awaited e) : (clientStep p e).isSome = true := by
  obtain ⟨x, -, ha⟩ := ha
  have hps : ∀ idle ok w, p.psWork = some w → w.run ≠ [] → (clientStep p (.psWork idle ok)).isSome = true := by
    intro idle ok w hw hne
    simp [clientStep, hw, hne]
  have hread : ∀ old r, r ∈ p.readers.side old → (clientStep p (.read old r)).isSome = true := by
    intro old r hr
    rw [clientStep, if_pos hr]
    rfl
  have hsync : p.AwaitedBySync e → (clientStep p e).isSome = true := by
    intro ha
    unfold QmiPort.AwaitedBySync at ha
    split at ha
    · obtain ⟨rfl, hr⟩ := ha
      exact hread true _ hr
    · obtain ⟨w, hw, -, hne⟩ := ha
      exact hps _ _ w hw hne
    · exact ha.elim
  cases x with
  | drain s =>
    obtain ⟨c, -, ha⟩ := ha
    unfold QmiPort.AwaitedByDrain at ha
    split at ha
    · obtain ⟨rfl, rfl, hbusy, hrun⟩ := ha
      simp only [clientStep, hrun, Bool.false_eq_true, false_and, or_self, if_false, svcStep, Option.isSome_map]
      exact (Task.step_isSome _ _ _ _).mpr hbusy
    · obtain ⟨rfl, hbusy, hready⟩ := ha
      rw [clientStep, QmiPort.indWork, if_pos hready, Option.isSome_map]
      exact Backlog.step_isSome.mpr hbusy
    · exact ha.elim
  | deregged i => exact hsync ha
  | synced i => exact hsync ha
  | quitSynced => exact hsync ha
  | flushed =>
    obtain ⟨w, hw, ⟨⟨idle, ok, rfl⟩, -, hne⟩ | ⟨rfl, -, hq, hrun⟩⟩ := ha
    · exact hps _ _ w hw hne
    · simp [clientStep, hw, hq, hrun]
  | alarmCancelled =>
    obtain ⟨old, r, rfl, hr, -⟩ := ha
    exact hread old r hr
  | cancelled =>
    obtain ⟨w, idle, ok, rfl, hw, hne⟩ := ha
    exact hps _ _ w hw hne
  | _ => exact ha.elim

/-! ### What a step does to the waiting -/

/-- The power-save work has less to do, and nobody has come to wait for it. -/
structure PsWork.Shorter (w w' : PsWork) : Prop where
  size : w'.size < w.size
  flushing : w'.flushing = true → w.flushing = true
  flushNext : w'.flushNext = w.flushNext
  syncing : w'.syncing = true → w.syncing = true

/-- The power-save work goes on with less than it had. -/
theorem shorter_goOn {w w' : PsWork} {run : List PsPhase} (hf : w'.flushing = w.flushing)
    (hn : w'.flushNext = w.flushNext) (hs : w'.syncing = w.syncing) (hlt : (run.map PsPhase.size).sum < w.size) :
    w.Shorter (w'.goOn run) := by
  unfold PsWork.goOn
  split
  · rename_i hrun
    rw [hrun] at hlt
    exact ⟨hlt, nofun, hn, nofun⟩
  · exact ⟨hlt, fun h => hf.symm.trans h, hn, fun h => hs.symm.trans h⟩

/-- A step of the power-save work brings its end nearer. -/
theorem checkStats_size (p : QmiPort) {w : PsWork} (hne : w.run ≠ []) (idle ok : Bool) :
    ∃ q' alarm w', checkStats p w idle ok = { p with qmiInfo := q', alarm := alarm, psWork := some w' } ∧
      (∀ s, (q'.bind fun q => q.held s) = p.held s) ∧ w.Shorter w' := by
  have hgo : ∀ (w' : PsWork) (alarm : Bool) (run : List PsPhase), w'.flushing = w.flushing →
      w'.flushNext = w.flushNext → w'.syncing = w.syncing → (run.map PsPhase.size).sum < w.size →
      ∃ q' alarm' w'', { p with alarm := alarm, psWork := some (w'.goOn run) }
          = { p with qmiInfo := q', alarm := alarm', psWork := some w'' } ∧
        (∀ s, (q'.bind fun q => q.held s) = p.held s) ∧ w.Shorter w'' := fun w' alarm run hf hn hs hlt =>
    ⟨p.qmiInfo, alarm, _, rfl, fun _ => rfl, shorter_goOn hf hn hs hlt⟩
  unfold Rmnet.checkStats
  split
  · rename_i hrun
    exact absurd hrun hne
  · rename_i rest hrun
    have hsize : 13 ≤ w.size := by simp [PsWork.size, hrun, PsPhase.size]
    split
    · exact hgo w p.alarm _ rfl rfl rfl (by simp; omega)
    dsimp only
    split
    · exact hgo _ p.alarm _ rfl rfl rfl (by simp [PsPhase.size]; omega)
    split
    · exact hgo _ p.alarm _ rfl rfl rfl (by simp [PsPhase.size]; omega)
    split
    · exact hgo _ p.alarm _ rfl rfl rfl (by simp [PsPhase.size]; omega)
    · exact hgo _ p.alarm _ rfl rfl rfl (by simp [PsPhase.size]; omega)
  · rename_i enable rest hrun
    have hsize : w.size = 5 + (rest.map PsPhase.size).sum := by simp [PsWork.size, hrun, PsPhase.size]
    split
    · exact hgo w p.alarm _ rfl rfl rfl (by simp [PsPhase.size]; omega)
    · exact hgo w p.alarm _ rfl rfl rfl (by simp [PsPhase.size]; omega)
  · rename_i enable c rest hrun
    have hsize : w.size = 4 + (rest.map PsPhase.size).sum := by simp [PsWork.size, hrun, PsPhase.size]
    split
    · refine ⟨_, p.alarm, _, rfl, fun s => ?_, shorter_goOn rfl rfl rfl (by omega)⟩
      rw [QmiPort.held, QmiPort.mapQmi]
      cases p.qmiInfo with
      | none => rfl
      | some q => rfl
    · exact hgo w p.alarm _ rfl rfl rfl (by simp [PsPhase.size]; omega)
  · rename_i i rest hrun
    have hsize : w.size = 2 + (rest.map PsPhase.size).sum := by simp [PsWork.size, hrun, PsPhase.size]
    split
    · exact hgo w p.alarm rest rfl rfl rfl (by omega)
    split
    · exact hgo w p.alarm rest rfl rfl rfl (by omega)
    split
    · exact hgo w p.alarm _ rfl rfl rfl (by simp [PsPhase.size]; omega)
    · exact hgo w p.alarm rest rfl rfl rfl (by omega)
  · rename_i c rest hrun
    have hsize : w.size = 1 + (rest.map PsPhase.size).sum := by simp [PsWork.size, hrun, PsPhase.size]
    exact hgo w p.alarm rest rfl rfl rfl (by omega)
  · rename_i alarm rest hrun
    have hsize : w.size = 3 + (rest.map PsPhase.size).sum := by simp [PsWork.size, hrun, PsPhase.size]
    exact hgo w p.alarm _ rfl rfl rfl (by simp [PsPhase.size]; omega)
  · rename_i alarm rest hrun
    have hsize : w.size = 2 + (rest.map PsPhase.size).sum := by simp [PsWork.size, hrun, PsPhase.size]
    split
    · exact hgo w p.alarm rest rfl rfl rfl (by omega)
    · exact hgo w p.alarm _ rfl rfl rfl (by simp [PsPhase.size]; omega)
  · rename_i alarm rest hrun
    have hsize : w.size = 1 + (rest.map PsPhase.size).sum := by simp [PsWork.size, hrun, PsPhase.size]
    split
    · exact hgo w true rest rfl rfl rfl (by omega)
    · exact hgo _ p.alarm rest (queue_flushing w _) (queue_flushNext w _) (queue_syncing w _) (by omega)

/-- What `flush_workqueue` waits for comes nearer to its end. -/
theorem PsWork.Shorter.flushSize {w w' : PsWork} (h : w.Shorter w') :
    w'.flushSize ≤ w.flushSize ∧ (w.flushing = true ∨ w.flushNext = true → w'.flushSize < w.flushSize) := by
  have hlt := h.size
  unfold PsWork.flushSize
  rw [h.flushNext]
  cases hn : w.flushNext with
  | true =>
    simp only [if_true]
    exact ⟨by omega, fun _ => by omega⟩
  | false =>
    simp only [Bool.false_eq_true, if_false, or_false]
    cases hf' : w'.flushing with
    | true =>
      rw [if_pos rfl, if_pos (h.flushing hf')]
      exact ⟨hlt.le, fun _ => hlt⟩
    | false =>
      rw [if_neg Bool.false_ne_true]
      refine ⟨Nat.zero_le _, fun hf => ?_⟩
      rw [if_pos hf]
      omega

/-- A reader that goes on has less to do. -/
theorem readNext_size (r : Reader) : ((p.readNext r).map Reader.size).getD 0 < r.size := by
  obtain ⟨kind, phase⟩ := r
  cases phase with
  | found c => exact Nat.zero_lt_one
  | queue => exact Nat.one_lt_two
  | done => exact Nat.zero_lt_one
  | locked =>
    have hquit : (Reader.mk kind (if p.psWork.any fun w => !w.quit then .queue else .done)).size < 3 := by
      cases p.psWork.any fun w => !w.quit with
      | true => simp [Reader.size]
      | false => simp [Reader.size]
    cases kind with
    | dfc =>
      cases hd : p.qmapDfcData with
      | none => simp [QmiPort.readNext, hd, Reader.size]
      | some c => simp [QmiPort.readNext, hd, Reader.size]
    | other => simp [QmiPort.readNext, Reader.size]
    | restart => exact hquit
    | alarm => exact hquit

/-- The callback of the alarm goes on as such, and others do not come to be it. -/
theorem readNext_alarmSize (r : Reader) : ((p.readNext r).map Reader.alarmSize).getD 0 ≤ r.alarmSize ∧
    (r.kind = .alarm → ((p.readNext r).map Reader.alarmSize).getD 0 < r.alarmSize) := by
  have hsize := readNext_size (p := p) r
  cases hnext : p.readNext r with
  | none =>
    refine ⟨Nat.zero_le _, fun hk => ?_⟩
    rw [Reader.alarmSize, if_pos hk]
    exact r.size_pos
  | some s =>
    rw [hnext] at hsize
    simp only [Option.map_some, Option.getD_some, Reader.alarmSize, readNext_kind hnext] at hsize ⊢
    split
    · exact ⟨hsize.le, fun _ => hsize⟩
    · rename_i hk
      exact ⟨le_rfl, fun hk' => absurd hk' hk⟩

/-- A client that is waited for is stopped, and nothing arrives for it. -/
theorem ClientInv.draining (h : ClientInv p) {s : Slot} (hr : p.rtnl = .drain s :: rest) {c : ℕ}
    (hc : p.held s = some c) : (p.client c).task.cancelled = true ∧ (p.client c).handle = false := by
  have hord := h.rtnl.order
  have hstop := h.rtnl.stopped s c hc
  have hrel := h.rtnl.released s c hc
  rw [hr] at hord hstop hrel
  exact ⟨hstop.now hord (by cases s <;> simp [Instr.rank]) (by simp) (by simp),
    hrel.now hord (by cases s <;> simp [Instr.rank]) (by simp) (by simp)⟩

/-- Once the callback of the alarm is waited for, the alarm is off, and nobody will set it. -/
theorem ClientInv.alarmCancelling (h : ClientInv p) (hr : p.rtnl = .alarmCancelled :: rest) :
    p.alarm = false ∧ ∀ w, p.psWork = some w → ¬ w.Rearming := by
  have hord := h.rtnl.order
  have hends := h.rtnl.ends (by rw [hr]; exact List.mem_cons_self)
  have hreached : p.Reached .alarmCancel := by
    refine (h.rtnl.reached .alarmCancel hends).resolve_left fun hm => ?_
    rw [hr] at hm hord
    rcases List.mem_cons.mp hm with hm | hm
    · cases hm
    · exact hord.over (by decide) (by simp) (by simp [QuitStage.instr]) hm
  refine ⟨?_, fun w hw => (hreached w hw).1.rearming⟩
  by_contra hset
  obtain ⟨w, hw⟩ := Option.isSome_iff_exists.mp (h.restarts (.inl (Bool.eq_true_of_not_eq_false hset)))
  exact hset (hreached w hw).2

/-- Once the power-save work is waited for, it is not started again. -/
theorem ClientInv.cancelling (h : ClientInv p) (hr : p.rtnl = .cancelled :: rest) (hw : p.psWork = some w) :
    w.pending = .off := by
  have hord := h.rtnl.order
  have hreached := h.rtnl.reached .cancel
  rw [hr] at hord hreached
  exact (hreached.now hord (by decide) (by simp) nofun w hw).2.2.2

/-- A change of a client that is not waited for does not touch what is waited for. -/
theorem waitFor_mapClient {c : ℕ} {f : QmiClient → QmiClient} (x : Instr)
    (hx : ∀ s, x = .drain s → p.held s ≠ some c) : (p.mapClient c f).waitFor x = p.waitFor x := by
  cases x with
  | drain s =>
    show ((p.held s).map fun d => (Function.update p.client c (f (p.client c)) d).size s).getD 0 = _
    rw [QmiPort.waitFor]
    cases hd : p.held s with
    | none => rfl
    | some d =>
      have hne : d ≠ c := by
        rintro rfl
        exact hx s rfl hd
      rw [Option.map_some, Option.map_some, Function.update_of_ne hne]
  | _ => rfl

/-- Only work items, the power-save work and readers are waited for. -/
theorem awaitedBy_cases {e : ClientEvent} (ha : p.AwaitedBy e x) :
    (∃ s c, x = .drain s ∧ p.held s = some c ∧ p.AwaitedByDrain c e) ∨ (∃ idle ok, e = .psWork idle ok) ∨
      e = .psStart ∨ ∃ old r, e = .read old r := by
  have hsync : p.AwaitedBySync e → (∃ idle ok, e = .psWork idle ok) ∨ ∃ old r, e = .read old r := by
    intro ha
    unfold QmiPort.AwaitedBySync at ha
    split at ha
    · exact .inr ⟨_, _, rfl⟩
    · exact .inl ⟨_, _, rfl⟩
    · exact ha.elim
  cases x with
  | drain s =>
    obtain ⟨c, hc, ha⟩ := ha
    exact .inl ⟨s, c, rfl, hc, ha⟩
  | deregged i => exact .inr ((hsync ha).imp_right .inr)
  | synced i => exact .inr ((hsync ha).imp_right .inr)
  | quitSynced => exact .inr ((hsync ha).imp_right .inr)
  | flushed =>
    obtain ⟨w, -, ⟨he, -⟩ | ⟨he, -⟩⟩ := ha
    · exact .inr (.inl he)
    · exact .inr (.inr (.inl he))
  | alarmCancelled =>
    obtain ⟨old, r, he, -⟩ := ha
    exact .inr (.inr (.inr ⟨old, r, he⟩))
  | cancelled =>
    obtain ⟨w, idle, ok, he, -⟩ := ha
    exact .inr (.inl ⟨idle, ok, he⟩)
  | _ => exact ha.elim

/-- Nothing is put off when each part of what can be waited for is not. -/
theorem waitFor_le (hheld : ∀ s, p'.held s = p.held s) (hclient : p'.client = p.client)
    (hsync : p'.syncSize ≤ p.syncSize)
    (hflush : (p'.psWork.map PsWork.flushSize).getD 0 ≤ (p.psWork.map PsWork.flushSize).getD 0)
    (halarm : x = .alarmCancelled → p'.readers.total Reader.alarmSize ≤ p.readers.total Reader.alarmSize)
    (hcancel : x = .cancelled → (p'.psWork.map PsWork.size).getD 0 ≤ (p.psWork.map PsWork.size).getD 0) :
    p'.waitFor x ≤ p.waitFor x := by
  cases x with
  | drain s =>
    rw [QmiPort.waitFor, QmiPort.waitFor, hheld, hclient]
  | deregged i => exact hsync
  | synced i => exact hsync
  | quitSynced => exact hsync
  | flushed => exact hflush
  | alarmCancelled => exact halarm rfl
  | cancelled => exact hcancel rfl
  | _ => exact le_rfl

/-- What others do to the wait of an instruction: nothing puts off its end, and what is waited for brings it nearer. -/
structure Nearer (p p' : QmiPort) (x : Instr) (e : ClientEvent) : Prop where
  rtnl : p'.rtnl = p.rtnl
  held : ∀ s, p'.held s = p.held s
  le : p'.waitFor x ≤ p.waitFor x
  lt : p.AwaitedBy e x → p'.waitFor x < p.waitFor x

/-- A step of the power-save work. -/
theorem psWork_nearer {idle ok : Bool} (hs : ClientStep p (.psWork idle ok) p') :
    Nearer p p' x (.psWork idle ok) := by
  obtain ⟨w, hw, hs⟩ := Option.bind_eq_some_iff.mp hs
  split at hs
  · cases hs
  rename_i hne
  obtain rfl := Option.some.inj hs
  obtain ⟨q', alarm, w', hcheck, hheld, hshort⟩ := checkStats_size p hne idle ok
  rw [hcheck]
  have hflush := hshort.flushSize
  have hsync : ∀ old, old + (if w'.syncing then w'.size else 0) ≤ old + (if w.syncing then w.size else 0) ∧
      (w.syncing = true → old + (if w'.syncing then w'.size else 0) < old + (if w.syncing then w.size else 0)) := by
    intro old
    have hlt := hshort.size
    cases hs' : w'.syncing with
    | true => simp [hshort.syncing hs', hlt, hlt.le]
    | false =>
      refine ⟨by simp, fun hs => ?_⟩
      simp only [hs, Bool.false_eq_true, if_false, if_true]
      omega
  refine ⟨rfl, hheld, waitFor_le hheld rfl ?_ ?_ (fun _ => le_rfl) fun _ => ?_, fun ha => ?_⟩
  · simpa only [QmiPort.syncSize, hw, Option.map_some, Option.getD_some] using (hsync _).1
  · simpa only [hw, Option.map_some, Option.getD_some] using hflush.1
  · simpa only [hw, Option.map_some, Option.getD_some] using hshort.size.le
  · have hbySync : p.AwaitedBySync (.psWork idle ok) →
        ({ p with qmiInfo := q', alarm := alarm, psWork := some w' } : QmiPort).syncSize < p.syncSize := by
      rintro ⟨w₀, hw₀, hs, -⟩
      obtain rfl := Option.some.inj (hw.symm.trans hw₀)
      simpa only [QmiPort.syncSize, hw, Option.map_some, Option.getD_some] using (hsync _).2 hs
    cases x with
    | drain s =>
      obtain ⟨c, -, he⟩ := ha
      exact he.elim
    | deregged i => exact hbySync ha
    | synced i => exact hbySync ha
    | quitSynced => exact hbySync ha
    | flushed =>
      obtain ⟨w₀, hw₀, ⟨-, hwait, -⟩ | ⟨he, -⟩⟩ := ha
      · obtain rfl := Option.some.inj (hw.symm.trans hw₀)
        simpa only [QmiPort.waitFor, hw, Option.map_some, Option.getD_some] using hflush.2 hwait
      · cases he
    | alarmCancelled =>
      obtain ⟨old, r, he, -⟩ := ha
      cases he
    | cancelled => simpa only [QmiPort.waitFor, hw, Option.map_some, Option.getD_some] using hshort.size
    | _ => exact ha.elim

/-- The power-save work begins. -/
theorem ClientInv.psStart_nearer (h : ClientInv p) (hr : p.rtnl = x :: rest) (hs : ClientStep p .psStart p') :
    Nearer p p' x .psStart := by
  obtain ⟨w, hw, hs⟩ := Option.bind_eq_some_iff.mp hs
  split at hs
  · rename_i hstart
    obtain rfl := Option.some.inj hs
    have hawaited := (h.ps w hw).awaited
    have hflushing : w.flushing = false := Bool.eq_false_iff.mpr fun hf => hawaited.flushing hf hstart.2
    have hsyncing : w.syncing = false := Bool.eq_false_iff.mpr fun hf => hawaited.syncing hf hstart.2
    have hsize : w.size = 0 := PsWork.size_eq_zero.mpr hstart.2
    refine ⟨rfl, fun _ => rfl, waitFor_le (fun _ => rfl) rfl ?_ ?_ (fun _ => le_rfl) fun hx => ?_, fun ha => ?_⟩
    · simp [QmiPort.syncSize, hw, hsyncing]
    · simp only [hw, Option.map_some, Option.getD_some, PsWork.flushSize, hflushing, hsize]
      cases w.flushNext <;> simp [PsWork.size, PsPhase.size]
    · subst hx
      exact absurd (hstart.1.symm.trans (h.cancelling hr hw)) nofun
    · have hbySync : ¬ p.AwaitedBySync .psStart := id
      cases x with
      | drain s =>
        obtain ⟨c, -, he⟩ := ha
        exact he.elim
      | flushed =>
        obtain ⟨w₀, hw₀, ⟨⟨idle, ok, he⟩, -⟩ | ⟨-, hnext, -⟩⟩ := ha
        · cases he
        · obtain rfl := Option.some.inj (hw.symm.trans hw₀)
          simp [QmiPort.waitFor, hw, PsWork.flushSize, hnext, PsWork.size, PsPhase.size]
      | alarmCancelled =>
        obtain ⟨old, r, he, -⟩ := ha
        cases he
      | cancelled =>
        obtain ⟨w₀, idle, ok, he, -⟩ := ha
        cases he
      | deregged i => exact absurd ha hbySync
      | synced i => exact absurd ha hbySync
      | quitSynced => exact absurd ha hbySync
      | _ => exact ha.elim
  · cases hs

/-- Queueing the power-save work does not touch what is waited for. -/
theorem queue_sizes (w : PsWork) (how : Pending) : (w.queue how).size = w.size ∧
    (w.queue how).flushSize = w.flushSize := by
  have hsize : (w.queue how).size = w.size := by rw [PsWork.size, queue_run, PsWork.size]
  refine ⟨hsize, ?_⟩
  rw [PsWork.flushSize, PsWork.flushSize, hsize, queue_flushNext, queue_flushing]

/-- A step of a reader. -/
theorem read_nearer {old : Bool} {r : Reader} (hs : ClientStep p (.read old r) p') : Nearer p p' x (.read old r) := by
  unfold ClientStep at hs
  rw [clientStep] at hs
  split at hs
  · rename_i hr
    obtain rfl := Option.some.inj hs
    have hps : ∀ g : PsWork → ℕ, (∀ w, g (w.queue .queued) = g w) →
        ((p.read old r).psWork.map g).getD 0 = (p.psWork.map g).getD 0 := by
      intro g hg
      show ((if r.phase = .queue then p.psWork.map fun w => w.queue .queued else p.psWork).map g).getD 0 = _
      split
      · cases p.psWork with
        | none => rfl
        | some w => exact hg w
      · rfl
    have hsyncing := hps (fun w => if w.syncing then w.size else 0) fun w => by
      rw [queue_syncing, (queue_sizes w _).1]
    have hsize := readNext_size (p := p) r
    have halarm := readNext_alarmSize (p := p) r
    have htotal := total_step Reader.alarmSize hr (p.readNext r)
    have hold : weight Reader.size (p.read old r).readers.old ≤ weight Reader.size p.readers.old ∧
        (old = true → weight Reader.size (p.read old r).readers.old < weight Reader.size p.readers.old) := by
      cases old with
      | false => exact ⟨le_rfl, fun hold => absurd hold Bool.false_ne_true⟩
      | true =>
        have hstep := weight_step Reader.size (l := p.readers.old) hr (p.readNext r)
        show weight Reader.size ((p.readNext r).toList ++ p.readers.old.erase r) ≤ _ ∧
          (_ → weight Reader.size ((p.readNext r).toList ++ p.readers.old.erase r) < _)
        exact ⟨by omega, fun _ => by omega⟩
    refine ⟨rfl, fun _ => rfl, waitFor_le (fun _ => rfl) rfl ?_ (hps _ fun w => (queue_sizes w _).2).le (fun _ => ?_)
      fun _ => (hps _ fun w => (queue_sizes w _).1).le, fun ha => ?_⟩
    · rw [QmiPort.syncSize, QmiPort.syncSize, hsyncing]
      omega
    · show (p.readers.step old r (p.readNext r)).total Reader.alarmSize ≤ _
      omega
    · have hbySync : p.AwaitedBySync (.read old r) → (p.read old r).syncSize < p.syncSize := by
        intro ha
        rw [QmiPort.syncSize, QmiPort.syncSize, hsyncing]
        have := hold.2 ha.1
        omega
      cases x with
      | drain s =>
        obtain ⟨c, -, he⟩ := ha
        exact he.elim
      | deregged i => exact hbySync ha
      | synced i => exact hbySync ha
      | quitSynced => exact hbySync ha
      | flushed =>
        obtain ⟨w, -, ⟨⟨idle, ok, he⟩, -⟩ | ⟨he, -⟩⟩ := ha
        · cases he
        · cases he
      | alarmCancelled =>
        obtain ⟨old', r', he, -, hk⟩ := ha
        obtain ⟨rfl, rfl⟩ := ClientEvent.read.inj he
        have hlt := halarm.2 hk
        show (p.readers.step old r (p.readNext r)).total Reader.alarmSize < p.readers.total Reader.alarmSize
        omega
      | cancelled =>
        obtain ⟨w, idle, ok, he, -⟩ := ha
        cases he
      | _ => exact ha.elim
  · cases hs

/-- A step of a client brings its end nearer, if that is waited for. -/
theorem mapClient_nearer {c : ℕ} {f : QmiClient → QmiClient} {e : ClientEvent}
    (hlt : ∀ s, x = .drain s → p.held s = some c → (f (p.client c)).size s < (p.client c).size s)
    (hdrain : p.AwaitedBy e x → ∃ s, x = .drain s ∧ p.held s = some c) : Nearer p (p.mapClient c f) x e := by
  by_cases hx : ∃ s, x = .drain s ∧ p.held s = some c
  · obtain ⟨s, rfl, hc⟩ := hx
    have hnow : (p.mapClient c f).waitFor (.drain s) = (f (p.client c)).size s := by
      show ((p.held s).map fun d => (Function.update p.client c (f (p.client c)) d).size s).getD 0 = _
      rw [hc, Option.map_some, Function.update_self]
      rfl
    have hwas : p.waitFor (.drain s) = (p.client c).size s := by
      rw [QmiPort.waitFor, hc]
      rfl
    have hlt := hlt s rfl hc
    rw [← hnow, ← hwas] at hlt
    exact ⟨rfl, fun _ => rfl, hlt.le, fun _ => hlt⟩
  · have hsame : (p.mapClient c f).waitFor x = p.waitFor x := waitFor_mapClient x fun s hxs hc => hx ⟨s, hxs, hc⟩
    exact ⟨rfl, fun _ => rfl, hsame.le, fun ha => absurd (hdrain ha) hx⟩

/-- A step of `svc_arrive` of a client. -/
theorem ClientInv.work_nearer (h : ClientInv p) (hr : p.rtnl = x :: rest) {c : ℕ} {lockFree callOk : Bool}
    (hs : ClientStep p (.work c lockFree callOk) p') : Nearer p p' x (.work c lockFree callOk) := by
  have hbusy : p.rtnl ≠ [] := by rw [hr]; exact List.cons_ne_nil x rest
  unfold ClientStep at hs
  rw [clientStep] at hs
  split at hs
  · cases hs
  rename_i hlock
  obtain rfl : lockFree = false := by
    by_contra hl
    exact hlock (.inl ⟨Bool.eq_true_of_not_eq_false hl, hbusy⟩)
  unfold svcStep at hs
  obtain ⟨⟨t, act⟩, hstep, rfl⟩ := Option.map_eq_some_iff.mp hs
  obtain rfl : act = false := by
    by_contra ha
    rw [Bool.eq_true_of_not_eq_false ha] at hstep
    exact Bool.false_ne_true (Task.step_act hstep)
  show Nearer p (p.mapClient c fun x => { x with task := t }) x _
  refine mapClient_nearer (fun s hx hc => ?_) fun ha => ?_
  · -- the work item that is waited for has been stopped
    subst hx
    have hlt := (Task.step_cancelled (h.draining hr hc).1 hstep).2
    rw [h.slot s c hc] at hlt
    exact Nat.add_lt_add_right hlt _
  · rcases awaitedBy_cases ha with ⟨s, d, hx, hd, rfl, -⟩ | ⟨_, _, he⟩ | he | ⟨_, _, he⟩
    · exact ⟨s, hx, hd⟩
    all_goals cases he

/-- A step of `dfc_qmi_ind_work`. -/
theorem indWork_nearer {c : ℕ} (hs : ClientStep p (.indWork c) p') : Nearer p p' x (.indWork c) := by
  unfold ClientStep at hs
  rw [clientStep, QmiPort.indWork] at hs
  split at hs
  · obtain ⟨b, hstep, rfl⟩ := Option.map_eq_some_iff.mp hs
    refine mapClient_nearer (fun s hx hc => ?_) fun ha => ?_
    · exact Nat.add_lt_add_left (Backlog.step_size hstep) _
    · rcases awaitedBy_cases ha with ⟨s, d, hx, hd, rfl, -⟩ | ⟨_, _, he⟩ | he | ⟨_, _, he⟩
      · exact ⟨s, hx, hd⟩
      all_goals cases he
  · cases hs

/-- **What others do while the holder of the lock waits**: nothing puts off the end of the waiting, and every step of
what is waited for brings it nearer. -/
theorem ClientInv.waits (h : ClientInv p) (hr : p.rtnl = x :: rest) {e : ClientEvent} (he : e ≠ .rtnl)
    (hs : ClientStep p e p') : Nearer p p' x e := by
  have hbusy : p.rtnl ≠ [] := by rw [hr]; exact List.cons_ne_nil x rest
  unfold ClientStep at hs
  cases e with
  | rtnl => exact absurd rfl he
  | setup a tcm => simp [clientStep, hbusy] at hs
  | delete handle ctl => simp [clientStep, hbusy] at hs
  | exit ctl => simp [clientStep, hbusy] at hs
  | arrive c =>
    rw [clientStep] at hs
    split at hs
    · rename_i hhandle
      obtain rfl := Option.some.inj hs
      refine ⟨rfl, fun _ => rfl, (waitFor_mapClient x fun s hx hc => ?_).le, fun ha => ?_⟩
      · subst hx
        exact Bool.false_ne_true ((h.draining hr hc).2.symm.trans hhandle)
      · rcases awaitedBy_cases ha with ⟨_, _, _, _, he⟩ | ⟨_, _, he⟩ | he | ⟨_, _, he⟩ <;> cases he
    · cases hs
  | work c lockFree callOk => exact h.work_nearer hr hs
  | indicate c =>
    rw [clientStep, QmiPort.indicate] at hs
    split at hs
    · cases hs
    split at hs
    · rename_i hhandle
      obtain rfl := Option.some.inj hs
      refine ⟨rfl, fun _ => rfl, (waitFor_mapClient x fun s hx hc => ?_).le, fun ha => ?_⟩
      · subst hx
        exact Bool.false_ne_true ((h.draining hr hc).2.symm.trans hhandle)
      · rcases awaitedBy_cases ha with ⟨_, _, _, _, he⟩ | ⟨_, _, he⟩ | he | ⟨_, _, he⟩ <;> cases he
    · cases hs
  | indWork c => exact indWork_nearer hs
  | psTimer =>
    obtain ⟨w, hw, hs⟩ := Option.bind_eq_some_iff.mp hs
    split at hs
    · obtain rfl := Option.some.inj hs
      refine ⟨rfl, fun _ => rfl, waitFor_le (fun _ => rfl) rfl ?_ ?_ (fun _ => le_rfl) fun _ => ?_, fun ha => ?_⟩
      · simp [QmiPort.syncSize, hw, PsWork.size]
      · simp [hw, PsWork.flushSize, PsWork.size]
      · simp [hw, PsWork.size]
      · rcases awaitedBy_cases ha with ⟨_, _, _, _, he⟩ | ⟨_, _, he⟩ | he | ⟨_, _, he⟩ <;> cases he
    · cases hs
  | psStart => exact h.psStart_nearer hr hs
  | psWork idle ok => exact psWork_nearer hs
  | alarm =>
    rw [clientStep] at hs
    split at hs
    · rename_i hset
      obtain rfl := Option.some.inj hs
      refine ⟨rfl, fun _ => rfl, waitFor_le (fun _ => rfl) rfl le_rfl le_rfl (fun hx => ?_) fun _ => le_rfl,
        fun ha => ?_⟩
      · subst hx
        exact absurd ((h.alarmCancelling hr).1.symm.trans hset) Bool.false_ne_true
      · rcases awaitedBy_cases ha with ⟨_, _, _, _, he⟩ | ⟨_, _, he⟩ | he | ⟨_, _, he⟩ <;> cases he
    · cases hs
  | readLock kind =>
    rw [clientStep] at hs
    split at hs
    · cases hs
    · rename_i hkind
      obtain rfl := Option.some.inj hs
      refine ⟨rfl, fun _ => rfl, waitFor_le (fun _ => rfl) rfl le_rfl le_rfl (fun _ => ?_) fun _ => le_rfl,
        fun ha => ?_⟩
      · have hzero : ({ kind := kind, phase := .locked } : Reader).alarmSize = 0 := if_neg hkind
        simp [Sections.total, Sections.enter, weight, hzero]
      · rcases awaitedBy_cases ha with ⟨_, _, _, _, he⟩ | ⟨_, _, he⟩ | he | ⟨_, _, he⟩ <;> cases he
  | read old r => exact read_nearer hs

/-- **A deletion never waits in vain.**  In every state of every run in which the lock is held: its holder can go on
if it waits for nothing, what it waits for can take a step, whatever it is answered, and nothing but the holder of
the lock changes what is left to do, nothing puts off the end of the waiting, and every step of what is waited for
brings it nearer. -/
theorem deletion_never_stuck {h : List (QmiPort × ClientEvent)} (hex : Exec ClientInit ClientStep h p)
    (hok : ∀ x ∈ h, ClientOk x.1 x.2) (hne : p.rtnl ≠ []) :
    ((clientStep p .rtnl).isSome = true ↔ p.waitSize = 0) ∧ (0 < p.waitSize → ∃ e, p.Awaited e) ∧
      (∀ e, p.Awaited e → (clientStep p e).isSome = true) ∧
      ∀ e p', ClientStep p e p' → e ≠ .rtnl →
        p'.rtnl = p.rtnl ∧ p'.waitSize ≤ p.waitSize ∧ (p.Awaited e → p'.waitSize < p.waitSize) := by
  have hinv := clientRun_inv hex hok p (by simp)
  refine ⟨hinv.rtnl_isSome hne, hinv.exists_awaited, fun e => awaited_isSome, fun e p' hs he => ?_⟩
  obtain ⟨x, rest, hr⟩ := List.exists_cons_of_ne_nil hne
  obtain ⟨hrtnl, -, hle, hlt⟩ := hinv.waits hr he hs
  rw [waitSize_cons hr, waitSize_cons (hrtnl.trans hr)]
  refine ⟨hrtnl, hle, fun ⟨y, hy, ha⟩ => hlt ?_⟩
  rw [hr, List.head?_cons, Option.mem_some_iff] at hy
  rwa [hy]

/-! ### The end of an exit -/

/-- No message is handled and no exit begins. -/
def NoMessage : ClientEvent → Prop
  | .setup _ _ => False
  | .delete _ _ => False
  | .exit _ => False
  | _ => True

/-- What is left of an exit: it clears every slot that is in use, and ends with the release of `qmi_info`. -/
structure ExitInv (p : QmiPort) : Prop where
  inv : ClientInv p
  clears : ∀ s c, p.held s = some c → .clear s ∈ p.rtnl
  last : p.rtnl ≠ [] → p.rtnl.getLast? = some .freeQmi
  gone : p.rtnl = [] → p.qmiInfo = none

theorem qmiExit_last (wda dfc₀ dfc₁ qmap ctl : Bool) :
    (qmiRmnetQmiExit wda dfc₀ dfc₁ qmap ctl).getLast? = some .freeQmi := by
  revert wda dfc₀ dfc₁ qmap ctl
  decide

theorem qmiExit_clear (s : Slot) (wda dfc₀ dfc₁ qmap ctl : Bool) :
    (s = .wda → wda = true) → (s = .dfc 0 → dfc₀ = true) → (s = .dfc 1 → dfc₁ = true) →
      .clear s ∈ qmiRmnetQmiExit wda dfc₀ dfc₁ qmap ctl := by
  revert s wda dfc₀ dfc₁ qmap ctl
  decide

/-- An exit begins. -/
theorem ExitInv.start (h : ClientInv p) {ctl : Bool} (hs : ClientStep p (.exit ctl) p') : ExitInv p' := by
  have hinv := h.step hs trivial
  unfold ClientStep at hs
  rw [clientStep] at hs
  split at hs
  · obtain rfl := Option.some.inj hs
    have hlast := qmiExit_last (p.held .wda).isSome (p.held (.dfc 0)).isSome (p.held (.dfc 1)).isSome p.dfcQmap ctl
    refine ⟨hinv, fun s c hc => ?_, fun _ => hlast, fun hnil => ?_⟩
    · have hsome : (p.held s).isSome = true := by
        have hc' : p.held s = some c := hc
        rw [hc']
        rfl
      refine qmiExit_clear s _ _ _ _ _ ?_ ?_ ?_
      all_goals
        rintro rfl
        exact hsome
    · have hnil' : qmiRmnetQmiExit (p.held .wda).isSome (p.held (.dfc 0)).isSome (p.held (.dfc 1)).isSome
          p.dfcQmap ctl = [] := hnil
      rw [hnil'] at hlast
      cases hlast
  · cases hs

/-- The holder of the lock goes on with an exit. -/
theorem ExitInv.rtnlStep (h : ExitInv p) (hs : rtnlStep p = some p') : ExitInv p' := by
  have hinv := h.inv.rtnlStep hs
  unfold Rmnet.rtnlStep at hs
  split at hs
  · cases hs
  rename_i x rest hr
  split at hs
  · obtain rfl := Option.some.inj hs
    have hlast := h.last (by rw [hr]; exact List.cons_ne_nil x rest)
    rw [hr] at hlast
    by_cases hx : x = .freeQmi
    · subst hx
      obtain ⟨q, hq⟩ := Option.isSome_iff_exists.mp (h.inv.rtnl.qmi (by rw [hr]; exact List.cons_ne_nil _ _))
      cases hempty : !qmiRmnetHasClient q && !qmiRmnetHasPending q with
      | true =>
        have hfree : ({ p with rtnl := rest } : QmiPort).exec .freeQmi = { p with qmiInfo := none, rtnl := [] } := by
          simp [QmiPort.exec, QmiPort.freeQmi, hq, hempty]
        rw [hfree] at hinv ⊢
        exact ⟨hinv, fun s c hc => absurd hc (Option.some_ne_none c).symm, fun hne => absurd rfl hne, fun _ => rfl⟩
      | false =>
        have hkeep : ({ p with rtnl := rest } : QmiPort).exec .freeQmi = { p with rtnl := rest } := by
          simp [QmiPort.exec, QmiPort.freeQmi, hq, hempty]
        rw [hkeep] at hinv ⊢
        have hclears : ∀ s c, p.held s = some c → .clear s ∈ rest := by
          intro s c hc
          have hm := h.clears s c hc
          rw [hr, List.mem_cons] at hm
          exact hm.resolve_left (by simp)
        -- a slot is in use, and is still to be cleared
        have hrest : rest ≠ [] := by
          rintro rfl
          have hheld : ∀ s, p.held s = none := fun s =>
            Option.eq_none_iff_forall_not_mem.mpr fun c hc => List.not_mem_nil (hclears s c hc)
          have hno : ∀ s, q.client s = none ∧ q.pending s = none := fun s => by
            have hs := hheld s
            rw [held_of hq] at hs
            exact Option.or_eq_none_iff.mp hs
          simp [qmiRmnetHasClient, qmiRmnetHasPending, qmiRmnetHasDfcClient, hno] at hempty
        refine ⟨hinv, hclears, fun _ => ?_, fun hnil => absurd hnil hrest⟩
        rwa [List.getLast?_cons_of_ne_nil hrest] at hlast
    · have hrest : rest ≠ [] := by
        rintro rfl
        exact hx (Option.some.inj hlast)
      have hrtnl := (exec_rest (p := p) hx rest).rtnl
      refine ⟨hinv, fun s c hc => ?_, fun _ => ?_, fun hnil => absurd (hrtnl.symm.trans hnil) hrest⟩
      · rw [exec_held hx] at hc
        split at hc
        · cases hc
        · rename_i hne
          have hm := h.clears s c hc
          rw [hr, List.mem_cons] at hm
          rw [hrtnl]
          exact hm.resolve_left (Ne.symm hne)
      · rw [hrtnl]
        rwa [List.getLast?_cons_of_ne_nil hrest] at hlast
  · cases hs

/-- After `qmi_info` is gone, nobody is left. -/
theorem ClientInv.nobody (h : ClientInv p) (hq : p.qmiInfo = none) :
    p.psWork = none ∧ p.alarm = false ∧ p.qmapDfcData = none ∧
      (∀ r, p.readers.Has r → r.kind ≠ .alarm ∧ r.phase ≠ .queue ∧ ∀ c, r.phase ≠ .found c) ∧
      ∀ c, (p.client c).live = false ∧ (p.client c).Quiet := by
  have hlive : ∀ c, (p.client c).live = false := by
    intro c
    by_contra hl
    have hown := h.owned c (Bool.eq_true_of_not_eq_false hl)
    rw [held_of_none hq] at hown
    cases hown
  have hwork : p.psWork = none := by
    rw [← Option.not_isSome_iff_eq_none]
    intro hw
    have hwda := h.wda hw
    rw [held_of_none hq] at hwda
    cases hwda
  have hfound : ∀ c, ¬ p.Found c := fun c hc => Bool.false_ne_true ((hlive c).symm.trans (h.reader c hc).1)
  have hrestarts : ¬ p.Restarts := by
    intro hre
    have hsome := h.restarts hre
    rw [hwork] at hsome
    cases hsome
  refine ⟨hwork, ?_, ?_, fun r hr => ⟨?_, ?_, fun c hc => ?_⟩, fun c => ⟨hlive c, h.quiet c (hlive c)⟩⟩
  · exact Bool.eq_false_iff.mpr fun hset => hrestarts (.inl hset)
  · exact Option.eq_none_iff_forall_not_mem.mpr fun c hc => hfound c (.inr hc)
  · exact fun hk => hrestarts (.inr ⟨r, hr, .inr hk⟩)
  · exact fun hp => hrestarts (.inr ⟨r, hr, .inl hp⟩)
  · exact hfound c (.inl ⟨r, hr, hc⟩)

/-- Without `qmi_info` and with the lock free, only readers come and go until the next message. -/
theorem ClientInv.stays (h : ClientInv p) (hr : p.rtnl = []) (hq : p.qmiInfo = none) {e : ClientEvent}
    (hs : ClientStep p e p') (hno : NoMessage e) : p'.rtnl = [] ∧ p'.qmiInfo = none := by
  obtain ⟨hwork, halarm, -, -, hall⟩ := h.nobody hq
  unfold ClientStep at hs
  cases e with
  | setup a tcm => exact hno.elim
  | delete handle ctl => exact hno.elim
  | exit ctl => exact hno.elim
  | rtnl =>
    rw [clientStep, Rmnet.rtnlStep, hr] at hs
    cases hs
  | arrive c =>
    rw [clientStep, (hall c).2.1, if_neg Bool.false_ne_true] at hs
    cases hs
  | work c lockFree callOk =>
    have hidle : (p.client c).task.step (svcProgram (p.client c).slot) lockFree callOk = none := by
      rw [← Option.not_isSome_iff_eq_none, Task.step_isSome]
      exact fun hn => hn (hall c).2.2.1
    rw [clientStep, svcStep, hidle, Option.map_none, ite_self] at hs
    cases hs
  | indicate c =>
    rw [clientStep, QmiPort.indicate, (hall c).2.1, if_neg Bool.false_ne_true] at hs
    split at hs <;> cases hs
  | indWork c =>
    have hidle : (p.client c).inds.step = none := by
      rw [← Option.not_isSome_iff_eq_none, Backlog.step_isSome]
      exact fun hn => hn (hall c).2.2.2
    rw [clientStep, QmiPort.indWork, hidle, Option.map_none, ite_self] at hs
    cases hs
  | psTimer =>
    rw [clientStep, hwork] at hs
    cases hs
  | psStart =>
    rw [clientStep, hwork] at hs
    cases hs
  | psWork idle ok =>
    rw [clientStep, hwork] at hs
    cases hs
  | alarm =>
    rw [clientStep, halarm, if_neg Bool.false_ne_true] at hs
    cases hs
  | readLock kind =>
    rw [clientStep] at hs
    split at hs
    · cases hs
    · obtain rfl := Option.some.inj hs
      exact ⟨hr, hq⟩
  | read old r =>
    rw [clientStep] at hs
    split at hs
    · obtain rfl := Option.some.inj hs
      exact ⟨hr, hq⟩
    · cases hs

/-- A step that handles no message goes on with an exit, or leaves it what it is. -/
theorem ExitInv.step (h : ExitInv p) {e : ClientEvent} (hs : ClientStep p e p') (hno : NoMessage e) : ExitInv p' := by
  have hinv : ClientInv p' := h.inv.step hs (by cases e <;> trivial)
  by_cases he : e = .rtnl
  · subst he
    exact h.rtnlStep hs
  cases hr : p.rtnl with
  | cons x rest =>
    obtain ⟨hrtnl, hheld, -, -⟩ := h.inv.waits hr he hs
    refine ⟨hinv, fun s c hc => ?_, by rw [hrtnl]; exact h.last, fun hnil => ?_⟩
    · rw [hrtnl]
      exact h.clears s c ((hheld s).symm.trans hc)
    · rw [hrtnl, hr] at hnil
      cases hnil
  | nil =>
    obtain ⟨hrtnl, hq⟩ := h.inv.stays hr (h.gone hr) hs hno
    refine ⟨hinv, fun s c hc => ?_, fun hne => absurd hrtnl hne, fun _ => hq⟩
    rw [held_of_none hq] at hc
    cases hc

/-- **The run lemma.** -/
theorem exitRun_inv {p₀ p₁ : QmiPort} {ctl : Bool} {h : List (QmiPort × ClientEvent)} (h₀ : ClientInv p₀)
    (hexit : ClientStep p₀ (.exit ctl) p₁) (hex : Exec (· = p₁) ClientStep h p) (hno : ∀ x ∈ h, NoMessage x.2) :
    ∀ x ∈ h.map Prod.fst ++ [p], ExitInv x :=
  hex.invariant (fun s hp => by obtain rfl : s = p₁ := hp; exact ExitInv.start h₀ hexit)
    (fun _ e _ hI hs (hn : NoMessage e) => hI.step hs hn) hno

/-- **An exit leaves nothing.**  From any state of a run in which `qmi_rmnet_qmi_exit` is called, until the next
message: when the lock is free again, `qmi_info` and all clients have been freed, there is no power-save work, its alarm
is off, `qmap_dfc_data` is `NULL`, no reader runs the callback of the alarm, is about to queue the power-save work or
has found a client, and no work item is queued or running. -/
theorem exit_leaves_nothing {p₀ p₁ : QmiPort} {ctl : Bool} {h h' : List (QmiPort × ClientEvent)}
    (hex : Exec ClientInit ClientStep h p₀) (hok : ∀ x ∈ h, ClientOk x.1 x.2) (hexit : ClientStep p₀ (.exit ctl) p₁)
    (hex' : Exec (· = p₁) ClientStep h' p) (hno : ∀ x ∈ h', NoMessage x.2) (hfree : p.rtnl = []) :
    p.qmiInfo = none ∧ p.psWork = none ∧ p.alarm = false ∧ p.qmapDfcData = none ∧
      (∀ r, p.readers.Has r → r.kind ≠ .alarm ∧ r.phase ≠ .queue ∧ ∀ c, r.phase ≠ .found c) ∧
      ∀ c, (p.client c).live = false ∧ (p.client c).handle = false ∧ (p.client c).Idle := by
  have hinv := exitRun_inv (clientRun_inv hex hok p₀ (by simp)) hexit hex' hno p (by simp)
  exact ⟨hinv.gone hfree, hinv.inv.nobody (hinv.gone hfree)⟩

end

/-! ### A port with both clients -/

/-- The work item of the DFC client comes as far as the lock, an indication waits behind it, the power-save work is
about to set its alarm, and a reader is about to queue it. -/
def everybodyBusy : List ClientEvent :=
  comingUp ++
    [.indicate 0, .psTimer, .psStart, .psWork false true, .psWork false true, .psWork false true, .readLock .restart,
      .read false { kind := .restart, phase := .locked }]

/-- The exit begins, and comes as far as `synchronize_rcu`. -/
def untilSync : List ClientEvent := .exit false :: List.replicate 3 .rtnl

/-- The power-save work sets its alarm and the reader queues it.  The alarm goes off, and its callback is waited for. -/
def untilDrain : List ClientEvent :=
  [.psWork false true, .read true { kind := .restart, phase := .queue },
    .read true { kind := .restart, phase := .done }, .rtnl, .alarm, .rtnl,
    .read false { kind := .alarm, phase := .locked }, .read false { kind := .alarm, phase := .done }] ++
      List.replicate 9 .rtnl

/-- The work item gives up when it is waited for, the indication is dropped, and the exit goes on to its end. -/
def untilEnd : List ClientEvent := .work 0 false true :: List.replicate 3 (.indWork 0) ++ List.replicate 4 .rtnl

/-- The exit waits for readers, and then for the work items of the DFC client, one of which still wants the lock. -/
theorem deletion_never_stuck_unloading :
    (∃ h p, Exec ClientInit ClientStep h p ∧ p.rtnl.head? = some .quitSynced ∧ p.waitSize = 3 ∧
      ∃ e, p.Awaited e ∧ (clientStep p e).isSome = true) ∧
    ∃ h p, Exec ClientInit ClientStep h p ∧ (p.client 0).task.work = [.tryLock true] ∧ p.waitSize = 4 ∧
      ∃ e, p.Awaited e ∧ (clientStep p e).isSome = true := by
  constructor
  · obtain ⟨h, hex, hok⟩ := bothClients_run (everybodyBusy ++ untilSync)
      (by simp [everybodyBusy, comingUp, untilSync, ClientOk]) rfl
    have hstuck := deletion_never_stuck hex hok (List.cons_ne_nil _ _)
    obtain ⟨e, he⟩ := hstuck.2.1 (by decide)
    exact ⟨h, _, hex, rfl, rfl, e, he, hstuck.2.2.1 e he⟩
  · obtain ⟨h, hex, hok⟩ := bothClients_run (everybodyBusy ++ untilSync ++ untilDrain)
      (by simp [everybodyBusy, comingUp, untilSync, untilDrain, ClientOk]) rfl
    have hstuck := deletion_never_stuck hex hok (List.cons_ne_nil _ _)
    obtain ⟨e, he⟩ := hstuck.2.1 (by decide)
    exact ⟨h, _, hex, rfl, rfl, e, he, hstuck.2.2.1 e he⟩

/-- The port when that exit begins. -/
def unloading : QmiPort := (runList clientStep bothClients (everybodyBusy ++ [.exit false])).getD bothClients

/-- The rest of that exit. -/
def unloadingEvents : List ClientEvent := List.replicate 3 .rtnl ++ untilDrain ++ untilEnd

/-- That exit leaves nothing. -/
theorem exit_leaves_nothing_unloading :
    ∃ p, runList clientStep unloading unloadingEvents = some p ∧ (unloading.client 0).live = true ∧
      unloading.psWork.isSome = true ∧ p.qmiInfo = none ∧ p.psWork = none ∧ (p.client 0).live = false := by
  obtain ⟨h, hex, hok⟩ := bothClients_run everybodyBusy (by simp [everybodyBusy, comingUp, ClientOk]) rfl
  have hrun : ∃ p, runList clientStep unloading unloadingEvents = some p ∧ p.rtnl = [] := ⟨_, rfl, rfl⟩
  obtain ⟨p, hrun, hfree⟩ := hrun
  obtain ⟨h', hex', hno'⟩ := clientRun_extend (i := (· = unloading)) (k := fun _ e => NoMessage e) unloadingEvents
    (by simp [unloadingEvents, untilDrain, untilEnd, NoMessage]) (Exec.start rfl) (by simp) hrun
  obtain ⟨hq, hps, -, -, -, hall⟩ := exit_leaves_nothing hex hok rfl hex' hno' hfree
  exact ⟨p, hrun, rfl, rfl, hq, hps, (hall 0).1⟩

end Rmnet
