import Rmnet.Lib.Transition

/-!
# The power-save worker and what starts it

Packets, the alarm and the worker `qmi_rmnet_check_stats` of one port between `qmi_rmnet_work_init` and
`qmi_rmnet_work_exit`, interleaved at every access to the state they share.  A packet sets
`PS_WORK_ACTIVE_BIT` and queues the work only if it found the bit clear; the worker clears the bit in its middle,
when it enters power save, and starts nothing on that path.

`worker_never_lost` is the result: while the bit is set something is on its way to start the worker, and a packet
that finds the bit clear stays on its way until the work is queued.
-/

namespace Rmnet

open Transition

/-- Where the worker stands in `qmi_rmnet_check_stats`. -/
inductive PsWorker
  | idle
  | started
  | leaving
  | stats
  | flows (dlMsgActive : Bool)
  | entering
  | clearing
  | enabling
  | ending (useAlarmTimer : Bool)
  deriving DecidableEq

/-- The caller of `qmi_rmnet_work_restart`: `qmi_rmnet_work_maybe_restart` for a packet, or
`qmi_rmnet_work_alarm`. -/
inductive Caller
  | packet
  | alarm
  deriving DecidableEq

/-- Where a call stands: `rmnet_work_inited` not yet read, the bit not yet tested and set, `rmnet_work_quit`
not yet read, the work not yet queued. -/
inductive CallPc
  | entered
  | testing
  | restarting
  | queueing
  | returned
  deriving DecidableEq

/-- A thread in `qmi_rmnet_work_maybe_restart` or in the alarm's function. -/
structure Call where
  caller : Caller
  pc : CallPc
  deriving DecidableEq

/-- The power-save fields of `qmi_info`, the module's variables, the delayed work and the alarm, and the
threads.  `psWorkActive` is `PS_WORK_ACTIVE_BIT`. -/
structure PsSys where
  psWorkActive : Bool
  psEnabled : Bool
  psIgnoreGrant : Bool
  dlMsgActive : Bool
  psWq : Bool
  workQuit : Bool
  workInited : Bool
  oldRxPkts : UInt64
  oldTxPkts : UInt64
  queued : Bool
  alarmArmed : Bool
  worker : PsWorker
  calls : List Call
  deriving DecidableEq

/-- What the rest of the kernel answers while the worker runs: `rmnet_get_packets`,
`rmnet_all_flows_enabled` and the result of `qmi_rmnet_set_powersave_mode`. -/
structure PsAnswers where
  rx : UInt64
  tx : UInt64
  allFlowsEnabled : Bool
  rc : Int
  deriving DecidableEq

/-- `qmi_rmnet_work_init`, with the outcomes of its two allocations and the counters it reads. -/
def qmiRmnetWorkInit (wqOk workOk : Bool) (rx tx : UInt64) (s : PsSys) : PsSys :=
  if s.psWq then s
  else if !wqOk then s
  else if !workOk then { s with psWq := false }
  else
    { s with
      psWq := true
      worker := .idle
      alarmArmed := false
      oldRxPkts := rx
      oldTxPkts := tx
      workQuit := false
      psWorkActive := true
      queued := true
      workInited := true }

/-- The code at the label `end`. -/
def checkStatsEnd (useAlarmTimer : Bool) (s : PsSys) : PsSys :=
  if s.workQuit then s
  else if useAlarmTimer then { s with alarmArmed := true }
  else { s with queued := true }

/-- `qmi_rmnet_check_stats`, run without interruption. -/
def qmiRmnetCheckStats (a : PsAnswers) (s : PsSys) : PsSys :=
  if s.psEnabled then
    let s := { s with psIgnoreGrant := false }
    if a.rc < 0 then checkStatsEnd true s
    else checkStatsEnd true { s with psEnabled := false }
  else
    let rxd := a.rx - s.oldRxPkts
    let txd := a.tx - s.oldTxPkts
    let dlMsgActive := s.dlMsgActive
    let s := { s with oldRxPkts := a.rx, oldTxPkts := a.tx, dlMsgActive := false }
    if rxd = 0 ∧ txd = 0 then
      if !dlMsgActive && !a.allFlowsEnabled then checkStatsEnd false s
      else if a.rc < 0 then checkStatsEnd true s
      else { s with psEnabled := true, psIgnoreGrant := true, psWorkActive := false }
    else checkStatsEnd true s

/-- The worker moves on to `w`. -/
def PsSys.goto (s : PsSys) (w : PsWorker) : PsSys := { s with worker := w }

/-- One step of the worker: the same code, cut at every access to what it shares. -/
def checkStatsStep (a : PsAnswers) (s : PsSys) : PsSys :=
  match s.worker with
  | .idle => s
  | .started => if s.psEnabled then s.goto .leaving else s.goto .stats
  | .leaving =>
    let s := { s with psIgnoreGrant := false }
    if a.rc < 0 then s.goto (.ending true)
    else { s with psEnabled := false }.goto (.ending true)
  | .stats =>
    let rxd := a.rx - s.oldRxPkts
    let txd := a.tx - s.oldTxPkts
    let dlMsgActive := s.dlMsgActive
    let s := { s with oldRxPkts := a.rx, oldTxPkts := a.tx, dlMsgActive := false }
    if rxd = 0 ∧ txd = 0 then s.goto (.flows dlMsgActive) else s.goto (.ending true)
  | .flows dlMsgActive =>
    if !dlMsgActive && !a.allFlowsEnabled then s.goto (.ending false) else s.goto .entering
  | .entering =>
    if a.rc < 0 then s.goto (.ending true)
    else { s with psEnabled := true, psIgnoreGrant := true }.goto .clearing
  | .clearing => { s with psWorkActive := false }.goto .enabling
  -- the flows are enabled and the listeners notified; the work is not queued again
  | .enabling => s.goto .idle
  | .ending useAlarmTimer => (checkStatsEnd useAlarmTimer s).goto .idle

/-- One step of a call: `qmi_rmnet_work_maybe_restart` up to `restarting`, then
`qmi_rmnet_work_restart`. -/
def callStep (i : ℕ) (c : Call) (s : PsSys) : PsSys :=
  let goto (pc : CallPc) : List Call := s.calls.set i { c with pc := pc }
  match c.pc with
  | .entered =>
    if s.workInited then { s with calls := goto .testing } else { s with calls := goto .returned }
  | .testing =>
    if s.psWorkActive then { s with calls := goto .returned }
    else { s with psWorkActive := true, calls := goto .restarting }
  | .restarting =>
    if s.workQuit then { s with calls := goto .returned } else { s with calls := goto .queueing }
  | .queueing => { s with queued := true, calls := goto .returned }
  | .returned => s

/-- The events: a packet enters `qmi_rmnet_work_maybe_restart`, the alarm expires, a call goes on, the work
queue starts the work, the worker goes on, a downlink marker sets `dl_msg_active`. -/
inductive PsEvent
  | packet
  | expires
  | call (i : ℕ)
  | dequeue
  | work (a : PsAnswers)
  | dlMsg
  deriving DecidableEq

/-- One event, where it is possible.  The work is not reentrant: it starts only when it is not running. -/
def psStep (s : PsSys) : PsEvent → Option PsSys
  | .packet => some { s with calls := s.calls ++ [⟨.packet, .entered⟩] }
  | .expires =>
    if s.alarmArmed then
      some { s with alarmArmed := false, calls := s.calls ++ [⟨.alarm, .restarting⟩] }
    else none
  | .call i => s.calls[i]?.map fun c => callStep i c s
  | .dequeue =>
    if s.queued && s.worker = .idle then some ({ s with queued := false }.goto .started) else none
  | .work a => if s.worker = .idle then none else some (checkStatsStep a s)
  | .dlMsg => some { s with dlMsgActive := true }

/-! ### The cut code is the code -/

@[simp] theorem goto_worker (s : PsSys) (w : PsWorker) : (s.goto w).worker = w := rfl

@[simp] theorem goto_goto (s : PsSys) (w w' : PsWorker) : (s.goto w).goto w' = s.goto w' := rfl

@[simp] theorem checkStatsEnd_goto (u : Bool) (s : PsSys) (w : PsWorker) :
    checkStatsEnd u (s.goto w) = (checkStatsEnd u s).goto w := by
  unfold checkStatsEnd PsSys.goto
  split
  · rfl
  · split <;> rfl

/-- Without another event, the worker gets from `s` to `t`. -/
inductive Alone (a : PsAnswers) : PsSys → PsSys → Prop
  | refl (s : PsSys) : Alone a s s
  | step {s t u : PsSys} : psStep s (.work a) = some t → Alone a t u → Alone a s u

theorem Alone.next {a : PsAnswers} {s t u : PsSys} (hne : s.worker ≠ .idle) (hst : checkStatsStep a s = t)
    (h : Alone a t u) : Alone a s u := by
  refine .step ?_ h
  rw [psStep, if_neg hne, hst]

/-- From the label `end` the worker stops. -/
theorem Alone.ending (a : PsAnswers) (u : Bool) (s : PsSys) :
    Alone a (s.goto (.ending u)) ((checkStatsEnd u s).goto .idle) := by
  refine .next (by simp) ?_ (.refl _)
  simp [checkStatsStep]

/-- Left alone, the worker does what `qmi_rmnet_check_stats` does. -/
theorem checkStats_alone (a : PsAnswers) (s : PsSys) :
    Alone a (s.goto .started) ((qmiRmnetCheckStats a s).goto .idle) := by
  unfold qmiRmnetCheckStats
  by_cases hps : s.psEnabled = true
  · refine .next (t := s.goto .leaving) (by simp) (if_pos hps) ?_
    rw [if_pos hps]
    by_cases hrc : a.rc < 0
    · rw [if_pos hrc]
      exact .next (by simp) (if_pos hrc) (.ending a true { s with psIgnoreGrant := false })
    · rw [if_neg hrc]
      exact .next (by simp) (if_neg hrc)
        (.ending a true { s with psIgnoreGrant := false, psEnabled := false })
  · refine .next (t := s.goto .stats) (by simp) (if_neg hps) ?_
    rw [if_neg hps]
    let s₁ : PsSys := { s with oldRxPkts := a.rx, oldTxPkts := a.tx, dlMsgActive := false }
    by_cases hidle : a.rx - s.oldRxPkts = 0 ∧ a.tx - s.oldTxPkts = 0
    · refine .next (t := s₁.goto (.flows s.dlMsgActive)) (by simp) (if_pos hidle) ?_
      simp only [if_pos hidle]
      by_cases hflow : (!s.dlMsgActive && !a.allFlowsEnabled) = true
      · rw [if_pos hflow]
        exact .next (by simp) (if_pos hflow) (.ending a false s₁)
      · refine .next (t := s₁.goto .entering) (by simp) (if_neg hflow) ?_
        rw [if_neg hflow]
        by_cases hrc : a.rc < 0
        · rw [if_pos hrc]
          exact .next (by simp) (if_pos hrc) (.ending a true s₁)
        · rw [if_neg hrc]
          let s₂ : PsSys := { s₁ with psEnabled := true, psIgnoreGrant := true }
          refine .next (t := s₂.goto .clearing) (by simp) (if_neg hrc) ?_
          refine .next (t := { s₂ with psWorkActive := false }.goto .enabling) (by simp) rfl ?_
          exact .next (by simp) rfl (.refl _)
    · simp only [if_neg hidle]
      exact .next (by simp) (if_neg hidle) (.ending a true s₁)

/-! ### Something is on its way to start the worker -/

/-- The worker is running and has not cleared the bit in this run. -/
def PsWorker.BeforeClear : PsWorker → Prop
  | .idle => False
  | .enabling => False
  | _ => True

/-- The call has not queued the work yet; a packet at this point has set the bit. -/
def Call.AboutToQueue (c : Call) : Prop := c.pc = .restarting ∨ c.pc = .queueing

/-- The alarm is to start the work: its timer is queued, or has expired and its function has not queued the
work yet. -/
def PsSys.AlarmArmed (s : PsSys) : Prop :=
  s.alarmArmed = true ∨ ∃ c ∈ s.calls, c.caller = .alarm ∧ c.AboutToQueue

/-- Some packet has set the bit and is about to queue the work. -/
def PsSys.PacketAbout (s : PsSys) : Prop := ∃ c ∈ s.calls, c.caller = .packet ∧ c.AboutToQueue

/-- Something starts the worker or keeps it running up to the point where it clears the bit. -/
def PsSys.Triggered (s : PsSys) : Prop :=
  s.queued = true ∨ s.worker.BeforeClear ∨ s.alarmArmed = true ∨ ∃ c ∈ s.calls, c.AboutToQueue

/-- The invariant between `qmi_rmnet_work_init` and `qmi_rmnet_work_exit`. -/
structure PsInv (s : PsSys) : Prop where
  running : s.workQuit = false
  triggered : s.psWorkActive = true → s.Triggered

theorem PsSys.Triggered.split {s : PsSys} (h : s.Triggered) :
    s.queued = true ∨ s.worker.BeforeClear ∨ s.AlarmArmed ∨ s.PacketAbout := by
  rcases h with h | h | h | ⟨c, hc, habout⟩
  · exact .inl h
  · exact .inr (.inl h)
  · exact .inr (.inr (.inl (.inl h)))
  · cases hcaller : c.caller with
    | packet => exact .inr (.inr (.inr ⟨c, hc, hcaller, habout⟩))
    | alarm => exact .inr (.inr (.inl (.inr ⟨c, hc, hcaller, habout⟩)))

theorem checkStatsEnd_psInv {s : PsSys} (h : s.workQuit = false) (u : Bool) :
    PsInv ((checkStatsEnd u s).goto .idle) := by
  have hnq : ¬ s.workQuit = true := by simp [h]
  unfold checkStatsEnd
  rw [if_neg hnq]
  cases u with
  | true => exact ⟨h, fun _ => .inr (.inr (.inl rfl))⟩
  | false => exact ⟨h, fun _ => .inl rfl⟩

/-- A worker that has not come to the bit is a trigger. -/
theorem PsInv.before {s t : PsSys} (h : PsInv s) (hq : t.workQuit = s.workQuit)
    (hw : t.worker.BeforeClear) : PsInv t :=
  ⟨hq.trans h.running, fun _ => .inr (.inl hw)⟩

/-- A step of the worker.  Every path but one ends at the label `end`, which arms the alarm or queues the
work; the other clears the bit. -/
theorem PsInv.check {s : PsSys} (h : PsInv s) (hw : s.worker ≠ .idle) (a : PsAnswers) :
    PsInv (checkStatsStep a s) := by
  cases hpc : s.worker with
  | idle => exact absurd hpc hw
  | started =>
    simp only [checkStatsStep, hpc]
    split <;> exact h.before rfl trivial
  | leaving =>
    simp only [checkStatsStep, hpc]
    split <;> exact h.before rfl trivial
  | stats =>
    simp only [checkStatsStep, hpc]
    split <;> exact h.before rfl trivial
  | flows dl =>
    simp only [checkStatsStep, hpc]
    split <;> exact h.before rfl trivial
  | entering =>
    simp only [checkStatsStep, hpc]
    split <;> exact h.before rfl trivial
  | clearing =>
    simp only [checkStatsStep, hpc]
    exact ⟨h.running, fun hbit => by cases hbit⟩
  | enabling =>
    simp only [checkStatsStep, hpc]
    refine ⟨h.running, fun hbit => ?_⟩
    rcases h.triggered hbit with hq | hb | ha | hc
    · exact .inl hq
    · rw [hpc] at hb
      exact hb.elim
    · exact .inr (.inr (.inl ha))
    · exact .inr (.inr (.inr hc))
  | ending u =>
    simp only [checkStatsStep, hpc]
    exact checkStatsEnd_psInv h.running u

/-- A call that is replaced takes no trigger away unless it was about to queue the work. -/
theorem PsSys.Triggered.set {s t : PsSys} {i : ℕ} {c c' : Call} (h : s.Triggered) (hc : s.calls[i]? = some c)
    (hq : s.queued = true → t.queued = true) (hw : t.worker = s.worker) (ha : t.alarmArmed = s.alarmArmed)
    (hcalls : t.calls = s.calls.set i c') (hkeep : c.AboutToQueue → t.queued = true ∨ c'.AboutToQueue) :
    t.Triggered := by
  rcases h with h | h | h | ⟨d, hd, habout⟩
  · exact .inl (hq h)
  · rw [← hw] at h
    exact .inr (.inl h)
  · rw [← ha] at h
    exact .inr (.inr (.inl h))
  · obtain ⟨hlt, hget⟩ := List.getElem?_eq_some_iff.mp hc
    obtain ⟨j, hj, hjd⟩ := List.mem_iff_getElem.mp hd
    by_cases hij : i = j
    · subst hij
      rw [hjd] at hget
      rw [← hget] at hkeep
      rcases hkeep habout with hqueued | habout'
      · exact .inl hqueued
      · refine .inr (.inr (.inr ⟨c', ?_, habout'⟩))
        rw [hcalls]
        exact List.mem_set hlt c'
    · refine .inr (.inr (.inr ⟨d, ?_, habout⟩))
      rw [hcalls, List.mem_iff_getElem]
      refine ⟨j, by simpa using hj, ?_⟩
      rw [List.getElem_set_ne hij, hjd]

/-- A step of a call. -/
theorem PsInv.call {s : PsSys} (h : PsInv s) {i : ℕ} {c : Call} (hc : s.calls[i]? = some c) :
    PsInv (callStep i c s) := by
  obtain ⟨hlt, _⟩ := List.getElem?_eq_some_iff.mp hc
  cases hpc : c.pc with
  | entered =>
    have hnot : ¬ c.AboutToQueue := by simp [Call.AboutToQueue, hpc]
    simp only [callStep, hpc]
    split <;>
    exact ⟨h.running, fun hbit =>
      (h.triggered hbit).set hc id rfl rfl rfl fun habout => absurd habout hnot⟩
  | testing =>
    have hnot : ¬ c.AboutToQueue := by simp [Call.AboutToQueue, hpc]
    simp only [callStep, hpc]
    split
    · exact ⟨h.running, fun hbit =>
        (h.triggered hbit).set hc id rfl rfl rfl fun habout => absurd habout hnot⟩
    · exact ⟨h.running, fun _ => .inr (.inr (.inr ⟨_, List.mem_set hlt _, .inl rfl⟩))⟩
  | restarting =>
    simp only [callStep, hpc]
    rw [if_neg (by simp [h.running])]
    exact ⟨h.running, fun _ => .inr (.inr (.inr ⟨_, List.mem_set hlt _, .inr rfl⟩))⟩
  | queueing =>
    simp only [callStep, hpc]
    exact ⟨h.running, fun _ => .inl rfl⟩
  | returned =>
    simp only [callStep, hpc]
    exact h

/-- **One event keeps the invariant.** -/
theorem PsInv.step {s s' : PsSys} {e : PsEvent} (h : PsInv s) (hs : psStep s e = some s') : PsInv s' := by
  cases e with
  | packet =>
    cases hs
    refine ⟨h.running, fun hbit => ?_⟩
    rcases h.triggered hbit with hq | hb | ha | ⟨c, hc, habout⟩
    · exact .inl hq
    · exact .inr (.inl hb)
    · exact .inr (.inr (.inl ha))
    · exact .inr (.inr (.inr ⟨c, List.mem_append_left _ hc, habout⟩))
  | expires =>
    simp only [psStep] at hs
    split at hs
    · cases hs
      exact ⟨h.running, fun _ => .inr (.inr (.inr ⟨_, List.mem_append_right _ List.mem_cons_self, .inl rfl⟩))⟩
    · cases hs
  | call i =>
    simp only [psStep, Option.map_eq_some_iff] at hs
    obtain ⟨c, hc, rfl⟩ := hs
    exact h.call hc
  | dequeue =>
    simp only [psStep] at hs
    split at hs
    · cases hs
      exact h.before rfl trivial
    · cases hs
  | work a =>
    simp only [psStep] at hs
    split at hs
    · cases hs
    · rename_i hw
      cases hs
      exact h.check hw a
  | dlMsg =>
    cases hs
    exact ⟨h.running, h.triggered⟩

/-! ### A packet that has set the bit queues the work -/

@[simp] theorem checkStatsEnd_calls (u : Bool) (s : PsSys) : (checkStatsEnd u s).calls = s.calls := by
  unfold checkStatsEnd
  split
  · rfl
  · split <;> rfl

@[simp] theorem goto_calls (s : PsSys) (w : PsWorker) : (s.goto w).calls = s.calls := rfl

/-- The worker leaves the calls alone. -/
@[simp] theorem checkStatsStep_calls (a : PsAnswers) (s : PsSys) : (checkStatsStep a s).calls = s.calls := by
  unfold checkStatsStep
  split
  · rfl
  · split <;> rfl
  · dsimp only
    split <;> rfl
  · dsimp only
    split <;> rfl
  · split <;> rfl
  · split <;> rfl
  · rfl
  · rfl
  · rw [goto_calls, checkStatsEnd_calls]

/-- A step of another call leaves this one where it is. -/
theorem callStep_other {s : PsSys} {i j : ℕ} {c d : Call} (hij : j ≠ i) (hc : s.calls[i]? = some c) :
    (callStep j d s).calls[i]? = some c := by
  have hset : ∀ pc, (s.calls.set j { d with pc := pc })[i]? = some c := by
    intro pc
    rw [List.getElem?_set_ne hij, hc]
  unfold callStep
  dsimp only
  split
  · split <;> exact hset _
  · split <;> exact hset _
  · split <;> exact hset _
  · exact hset _
  · exact hc

/-- The call is still to queue the work after one of its own steps, or has just done it. -/
theorem Call.AboutToQueue.own {s : PsSys} {i : ℕ} {c : Call} (hinv : PsInv s) (hc : s.calls[i]? = some c)
    (habout : c.AboutToQueue) :
    (∃ c', (callStep i c s).calls[i]? = some c' ∧ c'.AboutToQueue) ∨ (callStep i c s).queued = true := by
  obtain ⟨hlt, _⟩ := List.getElem?_eq_some_iff.mp hc
  rcases habout with hpc | hpc
  · left
    simp only [callStep, hpc]
    rw [if_neg (by simp [hinv.running])]
    exact ⟨_, List.getElem?_set_self hlt, .inr rfl⟩
  · right
    simp only [callStep, hpc]

/-- Whatever happens, a call that is to queue the work stays so until the work is queued. -/
theorem Call.AboutToQueue.step {s s' : PsSys} {i : ℕ} {c : Call} {e : PsEvent} (hinv : PsInv s)
    (hc : s.calls[i]? = some c) (habout : c.AboutToQueue) (hs : psStep s e = some s') :
    (∃ c', s'.calls[i]? = some c' ∧ c'.AboutToQueue) ∨ s'.queued = true := by
  obtain ⟨hlt, _⟩ := List.getElem?_eq_some_iff.mp hc
  have happend : ∀ d : Call, (s.calls ++ [d])[i]? = some c := by
    intro d
    rw [List.getElem?_append_left hlt, hc]
  cases e with
  | packet =>
    cases hs
    exact .inl ⟨c, happend _, habout⟩
  | expires =>
    simp only [psStep] at hs
    split at hs
    · cases hs
      exact .inl ⟨c, happend _, habout⟩
    · cases hs
  | call j =>
    simp only [psStep, Option.map_eq_some_iff] at hs
    obtain ⟨d, hd, rfl⟩ := hs
    by_cases hji : j = i
    · subst hji
      rw [hc] at hd
      cases hd
      exact habout.own hinv hc
    · exact .inl ⟨c, callStep_other hji hc, habout⟩
  | dequeue =>
    simp only [psStep] at hs
    split at hs
    · cases hs
      exact .inl ⟨c, hc, habout⟩
    · cases hs
  | work a =>
    simp only [psStep] at hs
    split at hs
    · cases hs
    · cases hs
      exact .inl ⟨c, by rw [checkStatsStep_calls, hc], habout⟩
  | dlMsg =>
    cases hs
    exact .inl ⟨c, hc, habout⟩

/-- In every run from such a call, the call is still to queue the work at the end, or the work was queued on
the way. -/
theorem Call.AboutToQueue.run {i : ℕ} : ∀ (evs : List PsEvent) {s s' : PsSys} {c : Call}, PsInv s →
    s.calls[i]? = some c → c.AboutToQueue → runList psStep s evs = some s' →
    (∃ c', s'.calls[i]? = some c' ∧ c'.AboutToQueue) ∨
      ∃ k t, runList psStep s (evs.take k) = some t ∧ t.queued = true := by
  intro evs
  induction evs with
  | nil =>
    intro s s' c _ hc habout hrun
    cases hrun
    exact .inl ⟨c, hc, habout⟩
  | cons e evs ih =>
    intro s s' c hinv hc habout hrun
    simp only [runList, Option.bind_eq_some_iff] at hrun
    obtain ⟨s₁, hs, hrest⟩ := hrun
    rcases habout.step hinv hc hs with ⟨c₁, hc₁, habout₁⟩ | hqueued
    · rcases ih (hinv.step hs) hc₁ habout₁ hrest with hstill | ⟨k, t, hk, hqueued⟩
      · exact .inl hstill
      · refine .inr ⟨k + 1, t, ?_, hqueued⟩
        simp only [List.take_succ_cons, runList, hs, Option.bind_some]
        exact hk
    · refine .inr ⟨1, s₁, ?_, hqueued⟩
      simp only [List.take_succ_cons, List.take_zero, runList, hs, Option.bind_some]

/-- `qmi_rmnet_work_init` sets the bit and queues the work. -/
theorem workInit_psInv {s₀ : PsSys} (hwq : s₀.psWq = false) (rx tx : UInt64) :
    PsInv (qmiRmnetWorkInit true true rx tx s₀) := by
  have hinit : (qmiRmnetWorkInit true true rx tx s₀).workQuit = false ∧
      (qmiRmnetWorkInit true true rx tx s₀).queued = true := by
    unfold qmiRmnetWorkInit
    rw [hwq]
    exact ⟨rfl, rfl⟩
  exact ⟨hinit.1, fun _ => .inl hinit.2⟩

/-- Every state of a run after `qmi_rmnet_work_init` has the invariant. -/
theorem workInit_run {s₀ : PsSys} (hwq : s₀.psWq = false) (rx tx : UInt64) {evs : List PsEvent} {s : PsSys}
    (hrun : runList psStep (qmiRmnetWorkInit true true rx tx s₀) evs = some s) : PsInv s :=
  runList_invariant (I := fun _ s => PsInv s) (fun _ _ _ _ h hs => h.step hs) evs [] _ s
    (workInit_psInv hwq rx tx) hrun

/-- **The power-save worker is never lost.**  In every state reached after `qmi_rmnet_work_init`: if the bit is
set, the work is queued, or the worker is running and has not cleared the bit, or the alarm is armed, or a
packet is about to queue the work.  And a packet whose test-and-set finds the bit clear is about to queue the
work from then on, in every continuation, until the work is queued. -/
theorem worker_never_lost {s₀ : PsSys} (hwq : s₀.psWq = false) (rx tx : UInt64) {evs : List PsEvent}
    {s : PsSys} (hrun : runList psStep (qmiRmnetWorkInit true true rx tx s₀) evs = some s) :
    (s.psWorkActive = true →
      s.queued = true ∨ s.worker.BeforeClear ∨ s.AlarmArmed ∨ s.PacketAbout) ∧
    ∀ (i : ℕ) (c : Call) (s₁ : PsSys), s.calls[i]? = some c → c.pc = .testing → s.psWorkActive = false →
      psStep s (.call i) = some s₁ → ∀ (evs' : List PsEvent) (s' : PsSys),
        runList psStep s₁ evs' = some s' →
        (∃ c', s'.calls[i]? = some c' ∧ c'.AboutToQueue) ∨
          ∃ k t, runList psStep s₁ (evs'.take k) = some t ∧ t.queued = true := by
  have hinv : PsInv s := workInit_run hwq rx tx hrun
  refine ⟨fun hbit => (hinv.triggered hbit).split, ?_⟩
  intro i c s₁ hc hpc hclear hs evs' s' hrun'
  obtain ⟨hlt, _⟩ := List.getElem?_eq_some_iff.mp hc
  have hs₁ : s₁.calls[i]? = some { c with pc := .restarting } := by
    simp only [psStep, hc, Option.map_some, Option.some.injEq] at hs
    rw [← hs]
    simp only [callStep, hpc, hclear, Bool.false_eq_true, if_false]
    exact List.getElem?_set_self hlt
  exact Call.AboutToQueue.run evs' (hinv.step hs) hs₁ (.inl rfl) hrun'

/-- A module that has just been loaded. -/
def psSysLoaded : PsSys :=
  { psWorkActive := false, psEnabled := false, psIgnoreGrant := false, dlMsgActive := false, psWq := false,
    workQuit := false, workInited := false, oldRxPkts := 0, oldTxPkts := 0, queued := false,
    alarmArmed := false, worker := .idle, calls := [] }

/-- The worker has entered power save while a packet is between the two checks of
`qmi_rmnet_work_maybe_restart`. -/
def enteredEvents : List PsEvent :=
  .dequeue :: .packet :: .call 0 :: List.replicate 5 (.work ⟨5, 5, true, 0⟩)

/-- The packet finds the bit clear and sets it: it is what will start the worker, now and after the worker has
stopped. -/
theorem worker_never_lost_enter :
    ∃ s s₁ s₂, runList psStep (qmiRmnetWorkInit true true 5 5 psSysLoaded) enteredEvents = some s ∧
      s.psEnabled = true ∧ psStep s (.call 0) = some s₁ ∧ s₁.psWorkActive = true ∧
      (s₁.queued = true ∨ s₁.worker.BeforeClear ∨ s₁.AlarmArmed ∨ s₁.PacketAbout) ∧
      runList psStep s₁ [.work ⟨5, 5, true, 0⟩, .call 0] = some s₂ ∧
      ((∃ c, s₂.calls[0]? = some c ∧ c.AboutToQueue) ∨
        ∃ k t, runList psStep s₁ ([.work ⟨5, 5, true, 0⟩, .call 0].take k) = some t ∧ t.queued = true) := by
  have hwq : psSysLoaded.psWq = false := rfl
  have hrun : ∃ s s₁ s₂, runList psStep (qmiRmnetWorkInit true true 5 5 psSysLoaded) enteredEvents = some s ∧
      s.psEnabled = true ∧ s.calls[0]? = some ⟨.packet, .testing⟩ ∧ s.psWorkActive = false ∧
      psStep s (.call 0) = some s₁ ∧ s₁.psWorkActive = true ∧
      runList psStep (qmiRmnetWorkInit true true 5 5 psSysLoaded) (enteredEvents ++ [.call 0]) = some s₁ ∧
      runList psStep s₁ [.work ⟨5, 5, true, 0⟩, .call 0] = some s₂ :=
    ⟨_, _, _, rfl, rfl, rfl, rfl, rfl, rfl, rfl, rfl⟩
  obtain ⟨s, s₁, s₂, hs, henabled, hcall, hclear, hs₁, hset, hrun₁, hrun₂⟩ := hrun
  exact ⟨s, s₁, s₂, hs, henabled, hs₁, hset, (worker_never_lost hwq 5 5 hrun₁).1 hset, hrun₂,
    (worker_never_lost hwq 5 5 hs).2 0 _ s₁ hcall rfl hclear hs₁ _ s₂ hrun₂⟩

end Rmnet
