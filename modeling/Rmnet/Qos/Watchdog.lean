import Rmnet.Qos.Event

/-!
# Is removing a bearer from the watchdog effective?

One bearer, its timer, and any number of callbacks that have left the timer and wait for `qos_lock`.
`qmi_rmnet_watchdog_add` and `_remove`, the expiry, the callbacks and everything else that happens under the
lock come in any order.  A callback remembers whether its arming has been removed since it expired.

`watchdog_quit` is all that a removal leaves for such a callback, and the next `_add` clears it: the callback
then acts for an arming that is gone, and takes the new one for its own (`removed_callback_acts`).  As long as
no callback of a removed arming finds the flag clear, it changes nothing, and the timer is armed only while
`watchdog_started` is set (`removed_callback_harmless`).
-/

namespace Rmnet

open Word Transition

/-- The device, and for each callback on its way whether its arming has been removed. -/
structure WatchdogSys where
  qos : QosInfo
  inFlight : List Bool

/-- What happens to the bearer in a step. -/
inductive WatchdogLabel
  | add
  | remove
  | expires
  | fn (removed : Bool)
  | other
  deriving DecidableEq

/-- The watchdog fields of two bearers agree. -/
def SameWatchdog (b b' : RmnetBearerMap) : Prop :=
  b'.watchdogArmed = b.watchdogArmed ∧ b'.watchdogStarted = b.watchdogStarted ∧
    b'.watchdogQuit = b.watchdogQuit

/-- One step for the bearer at `a`.  A removal concerns every callback that is on its way; a step of other
code leaves the watchdog of the bearer alone. -/
inductive WatchdogStep (cfg : DfcConfig) (a : Addr) : WatchdogSys → WatchdogLabel → WatchdogSys → Prop
  | add (s : WatchdogSys) :
      WatchdogStep cfg a s .add { s with qos := s.qos.modifyBearer a qmiRmnetWatchdogAdd }
  | remove (s : WatchdogSys) :
      WatchdogStep cfg a s .remove
        { qos := s.qos.modifyBearer a qmiRmnetWatchdogRemove, inFlight := s.inFlight.map fun _ => true }
  | expires (s : WatchdogSys) : (s.qos.heap a).watchdogArmed = true →
      WatchdogStep cfg a s .expires
        { qos := s.qos.modifyBearer a watchdogExpires, inFlight := false :: s.inFlight }
  | fn (s : WatchdogSys) (removed : Bool) (before after : List Bool) :
      s.inFlight = before ++ removed :: after →
      WatchdogStep cfg a s (.fn removed)
        { qos := qmiRmnetWatchdogFn cfg s.qos a, inFlight := before ++ after }
  | other (s : WatchdogSys) (qos : QosInfo) : SameWatchdog (s.qos.heap a) (qos.heap a) →
      WatchdogStep cfg a s .other { s with qos := qos }

/-- The timer has not been used yet; the device is otherwise arbitrary. -/
structure WatchdogInit (a : Addr) (s : WatchdogSys) : Prop where
  armed : (s.qos.heap a).watchdogArmed = false
  started : (s.qos.heap a).watchdogStarted = false
  inFlight : s.inFlight = []

/-- The timer is armed only if `watchdog_started` is set. -/
def ArmedStarted (a : Addr) (s : WatchdogSys) : Prop :=
  (s.qos.heap a).watchdogArmed = true → (s.qos.heap a).watchdogStarted = true

/-- A callback of a removed arming changes no grant, no byte count and no queue. -/
def RemovedHarmless (cfg : DfcConfig) (a : Addr) (s : WatchdogSys) (l : WatchdogLabel) : Prop :=
  l = .fn true →
    let qos := qmiRmnetWatchdogFn cfg s.qos a
    (qos.heap a).grantSize = (s.qos.heap a).grantSize ∧
      (qos.heap a).grantThresh = (s.qos.heap a).grantThresh ∧
      (qos.heap a).bytesInFlight = (s.qos.heap a).bytesInFlight ∧ qos.stopped = s.qos.stopped

/-- The side condition on a step: when a callback of a removed arming gets the lock, the bearer has not been
added to the watchdog again. -/
def RemovedQuits (a : Addr) (s : WatchdogSys) (l : WatchdogLabel) : Prop :=
  l = .fn true → (s.qos.heap a).watchdogQuit = true

/-- `qmi_rmnet_watchdog_fn` ends the arming, whatever it found. -/
theorem watchdogFn_flags (cfg : DfcConfig) (b : RmnetBearerMap) :
    (watchdogFnBearer cfg b).watchdogStarted = false ∧
      (watchdogFnBearer cfg b).watchdogArmed = b.watchdogArmed ∧
      (watchdogFnBearer cfg b).watchdogQuit = b.watchdogQuit := by
  unfold watchdogFnBearer
  split <;> simp

/-- The invariant of a bearer and its callbacks: at most one arming is alive, either as a pending timer or as
one callback, and then `watchdog_started` is set; a quit bearer has none. -/
structure WatchdogInv (b : RmnetBearerMap) (inFlight : List Bool) : Prop where
  armed : b.watchdogArmed = true → b.watchdogStarted = true
  alive : false ∈ inFlight → b.watchdogStarted = true ∧ b.watchdogArmed = false
  one : inFlight.count false ≤ 1
  quit : b.watchdogQuit = true → b.watchdogStarted = false ∧ false ∉ inFlight

section

variable {b b' : RmnetBearerMap} {inFlight : List Bool}

theorem WatchdogInv.same (h : WatchdogInv b inFlight) (hb : SameWatchdog b b') :
    WatchdogInv b' inFlight := by
  obtain ⟨harmed, hstarted, hquit⟩ := hb
  refine ⟨?_, ?_, h.one, ?_⟩
  · rw [harmed, hstarted]
    exact h.armed
  · rw [harmed, hstarted]
    exact h.alive
  · rw [hquit, hstarted]
    exact h.quit

/-- An addition arms the timer unless an arming is alive. -/
theorem WatchdogInv.add (h : WatchdogInv b inFlight) : WatchdogInv (qmiRmnetWatchdogAdd b) inFlight := by
  unfold qmiRmnetWatchdogAdd
  simp only
  by_cases hst : b.watchdogStarted = true
  · rw [if_pos hst]
    refine ⟨fun _ => hst, h.alive, h.one, fun hq => ?_⟩
    cases hq
  · rw [if_neg hst]
    refine ⟨fun _ => rfl, fun hmem => ?_, h.one, fun hq => ?_⟩
    · exact absurd (h.alive hmem).1 hst
    · cases hq

/-- A removal ends the arming, and the callbacks that are on its way are no longer its own. -/
theorem WatchdogInv.remove (h : WatchdogInv b inFlight) :
    WatchdogInv (qmiRmnetWatchdogRemove b) (inFlight.map fun _ => true) := by
  have hnone : false ∉ inFlight.map fun _ => true := by simp
  have hfields : (qmiRmnetWatchdogRemove b).watchdogStarted = false ∧
      (qmiRmnetWatchdogRemove b).watchdogArmed = false := by
    unfold qmiRmnetWatchdogRemove
    simp only
    by_cases hst : b.watchdogStarted = true
    · rw [if_pos hst]
      exact ⟨rfl, rfl⟩
    · rw [if_neg hst]
      have harmed : b.watchdogArmed ≠ true := fun ha => hst (h.armed ha)
      exact ⟨by simpa using hst, by simpa using harmed⟩
  refine ⟨fun ha => ?_, fun hmem => absurd hmem hnone, ?_, fun _ => ⟨hfields.1, hnone⟩⟩
  · rw [hfields.2] at ha
    cases ha
  · rw [List.count_eq_zero_of_not_mem hnone]
    omega

/-- The expiry of a pending timer: the arming is alive as a callback now. -/
theorem WatchdogInv.expires (h : WatchdogInv b inFlight) (ha : b.watchdogArmed = true) :
    WatchdogInv (watchdogExpires b) (false :: inFlight) := by
  have hnone : false ∉ inFlight := by
    intro hmem
    rw [(h.alive hmem).2] at ha
    cases ha
  refine ⟨fun hno => ?_, fun _ => ⟨h.armed ha, rfl⟩, ?_, fun hq => ?_⟩
  · cases hno
  · rw [List.count_cons_self, List.count_eq_zero_of_not_mem hnone]
  · have hst := (h.quit hq).1
    rw [h.armed ha] at hst
    cases hst

/-- A callback ends the arming.  It is its own, or the bearer has quit and has none. -/
theorem WatchdogInv.fn {removed : Bool} {before after : List Bool}
    (h : WatchdogInv b (before ++ removed :: after)) (cfg : DfcConfig)
    (hok : removed = true → b.watchdogQuit = true) :
    WatchdogInv (watchdogFnBearer cfg b) (before ++ after) := by
  obtain ⟨hst, harmed, hquit⟩ := watchdogFn_flags cfg b
  have hdead : b.watchdogArmed = false ∧ false ∉ before ++ after := by
    cases removed with
    | true =>
      obtain ⟨hns, hnone⟩ := h.quit (hok rfl)
      refine ⟨?_, fun hmem => hnone ?_⟩
      · by_contra ha
        rw [h.armed (by simpa using ha)] at hns
        cases hns
      · simpa using hmem
    | false =>
      refine ⟨(h.alive (by simp)).2, fun hmem => ?_⟩
      have hone := h.one
      rw [List.count_append, List.count_cons_self] at hone
      have hpos := List.count_pos_iff.mpr hmem
      rw [List.count_append] at hpos
      omega
  refine ⟨fun ha => ?_, fun hmem => absurd hmem hdead.2, ?_, fun _ => ⟨hst, hdead.2⟩⟩
  · rw [harmed, hdead.1] at ha
    cases ha
  · rw [List.count_eq_zero_of_not_mem hdead.2]
    omega

end

section

variable {cfg : DfcConfig} {a : Addr}

theorem watchdogInv_init (s : WatchdogSys) (h : WatchdogInit a s) :
    WatchdogInv (s.qos.heap a) s.inFlight := by
  refine ⟨fun harmed => ?_, ?_, ?_, fun _ => ⟨h.started, ?_⟩⟩
  · rw [h.armed] at harmed
    cases harmed
  all_goals simp [h.inFlight]

/-- **One step.** -/
theorem watchdogInv_step (s : WatchdogSys) (l : WatchdogLabel) (s' : WatchdogSys)
    (h : WatchdogInv (s.qos.heap a) s.inFlight) (hs : WatchdogStep cfg a s l s')
    (hok : RemovedQuits a s l) : WatchdogInv (s'.qos.heap a) s'.inFlight := by
  cases hs with
  | add => simpa using h.add
  | remove => simpa using h.remove
  | expires harmed => simpa using h.expires harmed
  | fn removed before after hin =>
    rw [hin] at h
    have hfn := h.fn cfg fun hr => hok (by rw [hr])
    rwa [← (watchdogFn_wrote cfg s.qos a).heap_self] at hfn
  | other qos hsame => exact h.same hsame

/-- A callback that finds `watchdog_quit` set only clears `watchdog_started`. -/
theorem watchdogFn_quit (cfg : DfcConfig) {qos : QosInfo} (hq : (qos.heap a).watchdogQuit = true) :
    qmiRmnetWatchdogFn cfg qos a = qos.modifyBearer a fun b => { b with watchdogStarted := false } := by
  unfold qmiRmnetWatchdogFn
  simp only
  rw [if_pos hq]

end

/-- **When a removal is effective.**  In every run in which each callback of a removed arming finds
`watchdog_quit` set, the timer is armed only while `watchdog_started` is set, and no such callback changes
the grant, its threshold, the bytes in flight or a queue. -/
theorem removed_callback_harmless (cfg : DfcConfig) (a : Addr) (h : List (WatchdogSys × WatchdogLabel))
    (s : WatchdogSys) (hex : Exec (WatchdogInit a) (WatchdogStep cfg a) h s)
    (hok : ∀ x ∈ h, RemovedQuits a x.1 x.2) :
    (∀ x ∈ h.map Prod.fst ++ [s], ArmedStarted a x) ∧ ∀ x ∈ h, RemovedHarmless cfg a x.1 x.2 := by
  have hinv := hex.invariant watchdogInv_init watchdogInv_step hok
  refine ⟨fun x hx => (hinv x hx).armed, fun x hx hl => ?_⟩
  rw [watchdogFn_quit cfg (hok x hx hl)]
  simp [QosInfo.modifyBearer]

/-! ### A removal that is not -/

/-- A device with one flow, on queue 1, whose bearer has been charged for 30000 bytes. -/
def chargedQos : QosInfo :=
  dfcQmiBurstCheck qmapCfg oneFlow.qos 4 1 30000

/-- The bearer is added to the watchdog and its timer expires. -/
def expiredSys : WatchdogSys :=
  { qos := (chargedQos.modifyBearer 0 qmiRmnetWatchdogAdd).modifyBearer 0 watchdogExpires,
    inFlight := [false] }

/-- The bearer is removed before the callback gets the lock. -/
def removedSys : WatchdogSys :=
  { qos := expiredSys.qos.modifyBearer 0 qmiRmnetWatchdogRemove, inFlight := [true] }

/-- It is added again, still before the callback gets the lock. -/
def readdedSys : WatchdogSys :=
  { qos := removedSys.qos.modifyBearer 0 qmiRmnetWatchdogAdd, inFlight := [true] }

theorem removedSys_exec : Exec (WatchdogInit 0) (WatchdogStep qmapCfg 0)
    [({ qos := chargedQos, inFlight := [] }, .add),
      ({ qos := chargedQos.modifyBearer 0 qmiRmnetWatchdogAdd, inFlight := [] }, .expires),
      (expiredSys, .remove)] removedSys :=
  (((Exec.start ⟨rfl, rfl, rfl⟩).next (.add _)).next (.expires _ rfl)).next (.remove expiredSys)

/-- **A removed callback acts.**  Expiry, removal, addition, callback: the callback of the removed arming
grants 20480 bytes and opens the queue, and leaves the new timer armed with `watchdog_started` clear. -/
theorem removed_callback_acts : ∃ h s, Exec (WatchdogInit 0) (WatchdogStep qmapCfg 0) h s ∧
    (¬ ∀ x ∈ h.map Prod.fst ++ [s], ArmedStarted 0 x) ∧ ¬ ∀ x ∈ h, RemovedHarmless qmapCfg 0 x.1 x.2 := by
  have hrun := (removedSys_exec.next (.add removedSys)).next
    (.fn readdedSys true [] [] rfl : WatchdogStep qmapCfg 0 readdedSys (.fn true) _)
  refine ⟨_, _, hrun, fun harmed => ?_, fun hharmless => ?_⟩
  · have hst := harmed _ (List.mem_append_right _ (List.mem_singleton.mpr rfl)) rfl
    cases hst
  · have hgrant := (hharmless (readdedSys, .fn true)
      (List.mem_append_right _ (List.mem_singleton.mpr rfl)) rfl).1
    have hold : (readdedSys.qos.heap 0).grantSize = 0 := rfl
    have hnew : ((qmiRmnetWatchdogFn qmapCfg readdedSys.qos 0).heap 0).grantSize = 20480 := rfl
    rw [hold, hnew] at hgrant
    cases hgrant

/-- Without the second addition the same callback is harmless. -/
theorem removed_callback_quits : RemovedHarmless qmapCfg 0 removedSys (.fn true) := by
  have hrun := removedSys_exec.next
    (.fn removedSys true [] [] rfl : WatchdogStep qmapCfg 0 removedSys (.fn true) _)
  refine (removed_callback_harmless qmapCfg 0 _ _ hrun ?_).2 (removedSys, .fn true) (by simp)
  intro x hx hl
  simp only [List.cons_append, List.nil_append, List.mem_cons, List.not_mem_nil, or_false] at hx
  rcases hx with rfl | rfl | rfl | rfl
  · cases hl
  · cases hl
  · cases hl
  · rfl

end Rmnet
