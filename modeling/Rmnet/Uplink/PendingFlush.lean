import Rmnet.Uplink.Conservation

/-!
# Does an aggregation buffer always have a flush coming?

The concurrent semantics of the uplink path.  Any number of CPUs run `rmnet_map_tx_aggregate` and
`rmnet_map_tx_qmap_cmd`, the timer fires, the work item runs.  Every `agg_lock` critical section is one
step; the `hrtimer_cancel` and the transmissions that a sender performs after the unlock are steps of
their own, so other CPUs may run in between.

The answer is no.  A sender that has taken the buffer out cancels the timer only after it has released
the lock; if another CPU opens the next buffer in between, the cancel stops *that* buffer's timer, and
nothing flushes it (`pending_flush_lost`).  `pending_flush_iff` says that this is the only way: a run has
a flush coming in all its states exactly when each of its cancels finds no buffer, or finds the flush
work already queued.
-/

namespace Rmnet

open Word Transition

/-- A CPU inside one of the senders: its packet, and what it still has to do without the lock. -/
structure Cpu where
  skb : Option Frame := none
  posts : List Post := []

/-- The work item: not running, started but not yet holding `agg_lock`, or past its critical section. -/
inductive Worker
  | idle
  | started
  | unlocked (posts : List Post)

/-- The port, the CPUs and the worker. -/
structure UlSys where
  port : UlPort
  cpu : ℕ → Cpu
  worker : Worker

/-- What happens in a step. -/
inductive UlLabel
  | txAggregate (c : ℕ) (skb : Frame) (env : TxEnv)
  | newPacket (c : ℕ) (env : TxEnv)
  | qmapCmd (c : ℕ) (qmapSkb : Bytes)
  | hrtimerCancel (c : ℕ)
  | devQueueXmit (c : ℕ)
  | hrtimerFires
  | workStart
  | workLocked
  | workXmit

/-- One step of the uplink path. -/
inductive UlStep : UlSys → UlLabel → UlSys → Prop
  | txAggregate (s : UlSys) (c : ℕ) (skb : Frame) (env : TxEnv) (port : UlPort) (posts : List Post) :
      (s.cpu c).posts = [] → txAggregateLocked skb.1 env s.port = .ok (port, posts) →
      UlStep s (.txAggregate c skb env)
        { s with port := port, cpu := Function.update s.cpu c { skb := some skb, posts := posts } }
  | newPacket (s : UlSys) (c : ℕ) (skb : Frame) (env : TxEnv) (port : UlPort) (posts : List Post) :
      s.cpu c = { skb := some skb, posts := [.newPacket] } →
      txAggregateLocked skb.1 env s.port = .ok (port, posts) →
      UlStep s (.newPacket c env)
        { s with port := port, cpu := Function.update s.cpu c { skb := some skb, posts := posts } }
  | qmapCmd (s : UlSys) (c : ℕ) (qmapSkb : Bytes) :
      (s.cpu c).posts = [] →
      UlStep s (.qmapCmd c qmapSkb)
        { s with port := (txQmapCmdLocked qmapSkb s.port).1,
                 cpu := Function.update s.cpu c { posts := (txQmapCmdLocked qmapSkb s.port).2 } }
  | hrtimerCancel (s : UlSys) (c : ℕ) (skb : Option Frame) (rest : List Post) :
      s.cpu c = { skb := skb, posts := .hrtimerCancel :: rest } →
      UlStep s (.hrtimerCancel c)
        { s with port := execPost s.port .hrtimerCancel,
                 cpu := Function.update s.cpu c { skb := skb, posts := rest } }
  | devQueueXmit (s : UlSys) (c : ℕ) (skb : Option Frame) (buf : Bytes) (rest : List Post) :
      s.cpu c = { skb := skb, posts := .devQueueXmit buf :: rest } →
      UlStep s (.devQueueXmit c)
        { s with port := execPost s.port (.devQueueXmit buf),
                 cpu := Function.update s.cpu c { skb := skb, posts := rest } }
  | hrtimerFires (s : UlSys) : s.port.hrtimerArmed = true →
      UlStep s .hrtimerFires { s with port := rmnetMapFlushTxPacketQueue s.port }
  | workStart (s : UlSys) : s.port.aggWqQueued = true → s.worker = .idle →
      UlStep s .workStart { s with port := { s.port with aggWqQueued := false }, worker := .started }
  | workLocked (s : UlSys) : s.worker = .started →
      UlStep s .workLocked
        { s with port := (flushTxPacketLocked s.port).1,
                 worker := match (flushTxPacketLocked s.port).2 with
                   | [] => .idle
                   | posts => .unlocked posts }
  | workXmit (s : UlSys) (buf : Bytes) : s.worker = .unlocked [.devQueueXmit buf] →
      UlStep s .workXmit { s with port := execPost s.port (.devQueueXmit buf), worker := .idle }

/-- Nothing has been submitted yet; the parameters and the format are arbitrary. -/
structure UlInit (s : UlSys) : Prop where
  aggSkb : s.port.aggSkb = none
  aggState : s.port.aggState = 0
  cpu : ∀ c, (s.cpu c).posts = []
  worker : s.worker = .idle

/-- The flush work is queued, or has been taken off the queue and is about to take `agg_lock`. -/
def UlSys.flushQueued (s : UlSys) : Prop := s.port.aggWqQueued = true ∨ s.worker = .started

/-- A buffer has a flush coming: the timer is armed or the work is queued. -/
def PendingFlush (s : UlSys) : Prop :=
  s.port.aggSkb ≠ none → s.port.hrtimerArmed = true ∨ s.flushQueued

/-- The side condition on a step: a cancel finds no buffer, or finds the work queued. -/
def CancelHarmless (s : UlSys) : UlLabel → Prop
  | .hrtimerCancel _ => s.port.aggSkb = none ∨ s.flushQueued
  | _ => True

/-- The invariant: `agg_state` says whether there is a buffer, and a buffer has a flush coming. -/
structure FlushInv (s : UlSys) : Prop where
  state_iff : s.port.aggState = -eInProgress ↔ s.port.aggSkb ≠ none
  pending : PendingFlush s

theorem flushInv_init (s : UlSys) (h : UlInit s) : FlushInv s := by
  refine ⟨?_, fun hne => absurd h.aggSkb hne⟩
  rw [h.aggState, h.aggSkb]
  simp [eInProgress]

/-- A pass of `rmnet_map_tx_aggregate` keeps the invariant: it leaves no buffer, or arms the timer, or
appends to a buffer that already had a flush coming. -/
theorem flushInv_txPass {s : UlSys} {skb : SkBuff} {port : UlPort} {posts : List Post}
    (h : FlushInv s) (hp : TxPass skb s.port port posts) (cpu : ℕ → Cpu) :
    FlushInv { s with port := port, cpu := cpu } := by
  cases hp with
  | sendFirst agg rest hagg he _ =>
    refine ⟨?_, fun hne => absurd he.aggSkb hne⟩
    simp [he.aggState, he.aggSkb, eInProgress]
  | direct hnone _ hnone' _ hst _ =>
    refine ⟨?_, fun hne => absurd hnone' hne⟩
    have hs := h.state_iff
    simp only [hst, hnone'] at hs ⊢
    rw [hs, hnone]
  | opened agg hnone hsch hagg _ _ =>
    refine ⟨by simp [hsch.aggState, hagg], fun _ => .inl ?_⟩
    have hst : s.port.aggState ≠ -eInProgress := fun he => h.state_iff.mp he hnone
    simp [hsch.hrtimerArmed, hst]
  | appended agg agg' hagg hsch hagg' _ _ _ =>
    refine ⟨by simp [hsch.aggState, hagg'], fun _ => ?_⟩
    rcases h.pending (by simp [hagg]) with harm | hq | hw
    · exact .inl (by simp [hsch.hrtimerArmed, harm])
    · exact .inr (.inl (by simp [hsch.aggWqQueued, hq]))
    · exact .inr (.inr hw)

/-- Taking the buffer out under the lock keeps the invariant. -/
theorem flushInv_emptied {s : UlSys} {port : UlPort} (he : Emptied s.port port) (cpu : ℕ → Cpu)
    (worker : Worker) : FlushInv { port := port, cpu := cpu, worker := worker } := by
  refine ⟨?_, fun hne => absurd he.aggSkb hne⟩
  simp [he.aggState, he.aggSkb, eInProgress]

theorem flushInv_qmapCmd {s : UlSys} (h : FlushInv s) (qmapSkb : Bytes) (cpu : ℕ → Cpu) :
    FlushInv { s with port := (txQmapCmdLocked qmapSkb s.port).1, cpu := cpu } := by
  unfold txQmapCmdLocked
  split
  · cases hagg : s.port.aggSkb with
    | none => exact ⟨h.state_iff, h.pending⟩
    | some agg => exact flushInv_emptied (resetAgg_emptied s.port) cpu s.worker
  · exact ⟨h.state_iff, h.pending⟩

/-- The work item's critical section leaves no buffer behind, whatever it found. -/
theorem flushTxPacketLocked_empties {s : UlSys} (h : FlushInv s) :
    (flushTxPacketLocked s.port).1.aggSkb = none ∧
      (flushTxPacketLocked s.port).1.aggState ≠ -eInProgress := by
  unfold flushTxPacketLocked
  by_cases hst : s.port.aggState = -eInProgress
  · rw [if_pos hst]
    cases hagg : s.port.aggSkb with
    | none => exact absurd hagg (h.state_iff.mp hst)
    | some agg => exact ⟨rfl, by simp [resetAgg, eInProgress]⟩
  · rw [if_neg hst]
    refine ⟨?_, hst⟩
    by_contra hne
    exact hst (h.state_iff.mpr hne)

/-- **One step.**  Every step whose cancel is harmless keeps the invariant. -/
theorem flushInv_step (s : UlSys) (l : UlLabel) (s' : UlSys) (h : FlushInv s) (hs : UlStep s l s')
    (hok : CancelHarmless s l) : FlushInv s' := by
  cases hs with
  | txAggregate c skb env port posts _ hok' =>
    exact flushInv_txPass h (txAggregateLocked_cases skb.2 hok') _
  | newPacket c skb env port posts _ hok' =>
    exact flushInv_txPass h (txAggregateLocked_cases skb.2 hok') _
  | qmapCmd c qmapSkb _ => exact flushInv_qmapCmd h qmapSkb _
  | hrtimerCancel c skb rest _ =>
    refine ⟨h.state_iff, fun hne => ?_⟩
    rcases hok with hnone | hq
    · exact absurd hnone hne
    · exact .inr hq
  | devQueueXmit c skb buf rest _ => exact ⟨h.state_iff, h.pending⟩
  | hrtimerFires _ => exact ⟨h.state_iff, fun _ => .inr (.inl rfl)⟩
  | workStart _ _ => exact ⟨h.state_iff, fun _ => .inr (.inr rfl)⟩
  | workLocked _ =>
    obtain ⟨hnone, hst⟩ := flushTxPacketLocked_empties h
    exact ⟨by simp [hnone, hst], fun hne => absurd hnone hne⟩
  | workXmit buf hw =>
    refine ⟨h.state_iff, fun hne => ?_⟩
    rcases h.pending hne with harm | hq | hst
    · exact .inl harm
    · exact .inr (.inl hq)
    · rw [hw] at hst; cases hst

/-- A cancel that is not harmless leaves a buffer without a flush. -/
theorem cancel_breaks (s : UlSys) (l : UlLabel) (s' : UlSys) (hs : UlStep s l s')
    (hno : ¬ CancelHarmless s l) : ¬ PendingFlush s' := by
  cases hs with
  | hrtimerCancel c skb rest _ =>
    simp only [CancelHarmless, not_or] at hno
    intro hp
    rcases hp hno.1 with harm | hq
    · simp [execPost] at harm
    · exact hno.2 hq
  | txAggregate => exact absurd trivial hno
  | newPacket => exact absurd trivial hno
  | qmapCmd => exact absurd trivial hno
  | devQueueXmit => exact absurd trivial hno
  | hrtimerFires => exact absurd trivial hno
  | workStart => exact absurd trivial hno
  | workLocked => exact absurd trivial hno
  | workXmit => exact absurd trivial hno

/-- **Exactly when a flush is always coming.**  Along any run, every state has a flush coming for its
buffer if and only if every `hrtimer_cancel` of the run found no buffer or found the work queued. -/
theorem pending_flush_iff (h : List (UlSys × UlLabel)) (s : UlSys) (hex : Exec UlInit UlStep h s) :
    (∀ x ∈ h.map Prod.fst ++ [s], PendingFlush x) ↔ ∀ x ∈ h, CancelHarmless x.1 x.2 :=
  (hex.forall_iff flushInv_init (fun _ hI => hI.pending) flushInv_step
    (fun s l s' _ hs hno => cancel_breaks s l s' hs hno)).1

/-! ### The race -/

/-- The port after a pass that leaves nothing to do. -/
def lockedPort (skb : Frame) (port : UlPort) : UlPort :=
  match txAggregateLocked skb.1 calmEnv port with
  | .ok r => r.1
  | .error _ => port

/-- An idle system on a freshly initialised port with aggregation on. -/
def raceStart : UlSys :=
  { port := rmnetMapTxAggregateInit (2 ^ 31), cpu := fun _ => {}, worker := .idle }

/-- CPU 0 has opened a buffer. -/
def raceOpened : UlSys :=
  { raceStart with
    port := lockedPort (linearFrame [1] (by decide)) raceStart.port
    cpu := Function.update raceStart.cpu 0 { skb := some (linearFrame [1] (by decide)) } }

/-- CPU 1 has taken it out for an in-band command, and released the lock. -/
def raceTaken : UlSys :=
  { raceOpened with
    port := (txQmapCmdLocked [9] raceOpened.port).1
    cpu := Function.update raceOpened.cpu 1 { posts := (txQmapCmdLocked [9] raceOpened.port).2 } }

/-- CPU 0 has opened the next buffer and armed the timer for it. -/
def raceReopened : UlSys :=
  { raceTaken with
    port := lockedPort (linearFrame [2] (by decide)) raceTaken.port
    cpu := Function.update raceTaken.cpu 0 { skb := some (linearFrame [2] (by decide)) } }

/-- CPU 1 has cancelled that timer. -/
def raceLost : UlSys :=
  { raceReopened with
    port := execPost raceReopened.port .hrtimerCancel
    cpu := Function.update raceReopened.cpu 1 { posts := [.devQueueXmit [1], .devQueueXmit [9]] } }

theorem raceStart_init : UlInit raceStart := ⟨rfl, rfl, fun _ => rfl, rfl⟩

theorem race_opened :
    UlStep raceStart (.txAggregate 0 (linearFrame [1] (by decide)) calmEnv) raceOpened :=
  .txAggregate raceStart 0 _ calmEnv _ [] rfl rfl

theorem race_exec : Exec UlInit UlStep
    [(raceStart, .txAggregate 0 (linearFrame [1] (by decide)) calmEnv), (raceOpened, .qmapCmd 1 [9]),
      (raceTaken, .txAggregate 0 (linearFrame [2] (by decide)) calmEnv),
      (raceReopened, .hrtimerCancel 1)] raceLost := by
  have h₁ := (Exec.start raceStart_init).next race_opened
  have h₂ := h₁.next (.qmapCmd raceOpened 1 [9] rfl : UlStep raceOpened (.qmapCmd 1 [9]) raceTaken)
  have h₃ := h₂.next (.txAggregate raceTaken 0 (linearFrame [2] (by decide)) calmEnv _ [] rfl rfl :
    UlStep raceTaken (.txAggregate 0 (linearFrame [2] (by decide)) calmEnv) raceReopened)
  exact h₃.next (.hrtimerCancel raceReopened 1 none _ rfl :
    UlStep raceReopened (.hrtimerCancel 1) raceLost)

/-- **A lost flush.**  CPU 1 takes the buffer out and unlocks; CPU 0 opens the next buffer and arms the
timer; CPU 1's `hrtimer_cancel` stops it.  The buffer is there, no timer is armed, no work is queued. -/
theorem pending_flush_lost :
    ∃ h s, Exec UlInit UlStep h s ∧ ¬ PendingFlush s := by
  refine ⟨_, raceLost, race_exec, ?_⟩
  intro hp
  have hskb : raceLost.port.aggSkb ≠ none := by
    intro h
    have hdata : (raceLost.port.aggSkb.map AggSkb.data) = some [2] := rfl
    rw [h] at hdata
    cases hdata
  rcases hp hskb with harm | hq | hw
  · have hoff : raceLost.port.hrtimerArmed = false := rfl
    rw [hoff] at harm
    cases harm
  · have hoff : raceLost.port.aggWqQueued = false := rfl
    rw [hoff] at hq
    cases hq
  · cases hw

/-- CPU 1 cancels the timer before CPU 0 opens the next buffer. -/
def calmCancelled : UlSys :=
  { raceTaken with
    port := execPost raceTaken.port .hrtimerCancel
    cpu := Function.update raceTaken.cpu 1 { posts := [.devQueueXmit [1], .devQueueXmit [9]] } }

/-- The cancel finds no buffer, so the buffer that is opened after it has a flush coming. -/
theorem pending_flush_opened :
    ∃ h s, Exec UlInit UlStep h s ∧ (∃ x ∈ h, x.2 = .hrtimerCancel 1) ∧ s.port.aggSkb ≠ none ∧ PendingFlush s := by
  have h₁ := (Exec.start raceStart_init).next race_opened
  have h₂ := h₁.next (.qmapCmd raceOpened 1 [9] rfl : UlStep raceOpened (.qmapCmd 1 [9]) raceTaken)
  have h₃ := h₂.next (.hrtimerCancel raceTaken 1 none _ rfl :
    UlStep raceTaken (.hrtimerCancel 1) calmCancelled)
  have h₄ := h₃.next (.txAggregate calmCancelled 0 (linearFrame [2] (by decide)) calmEnv _ [] rfl rfl)
  have hcancel : (raceTaken, UlLabel.hrtimerCancel 1) ∈ [(raceTaken, UlLabel.hrtimerCancel 1)] :=
    List.mem_singleton_self _
  refine ⟨_, _, h₄, ⟨_, List.mem_append_left _ (List.mem_append_right _ hcancel), rfl⟩, ?_,
    (pending_flush_iff _ _ h₄).mpr ?_ _ (by simp)⟩
  · exact Option.some_ne_none _
  · intro x hx
    simp only [List.nil_append, List.cons_append, List.mem_cons, List.not_mem_nil, or_false] at hx
    rcases hx with rfl | rfl | rfl | rfl
    · exact trivial
    · exact trivial
    · exact .inl rfl
    · exact trivial

end Rmnet
