import Rmnet.Lib.Transition

/-!
# A queue and the work item that empties it

A sender puts a message at the end of a queue and then, in a step of its own, queues a work item.  The work item takes
messages from the front until it finds the queue empty.  The receiver can be stopped, after which messages are thrown
away, and closed, after which none come in.

* `Inv.step` — messages are handled in the order of their arrival, none twice, and none is left behind.
* `progress` — what is in the queue is on its way out.
* `Inv.drained` — once the work item of a closed receiver is idle, nothing is left in the queue.
-/

namespace Mailbox

open Transition

variable {μ : Type*}

/-- Where the work item stands: not running, about to look at the queue, or with a message in hand. -/
inductive Worker (μ : Type*)
  | idle
  | looking
  | holding (m : μ)
  deriving DecidableEq, Repr

/-- The receiver: its queue, how many senders have put a message and not yet queued the work item, whether the work
item is queued, and where it stands.  The last three fields are its history: the messages that came in, those that
were handled and those that were thrown away. -/
structure Box (μ : Type*) where
  queue : List μ
  senders : ℕ
  queued : Bool
  worker : Worker μ
  isOpen : Bool
  stopped : Bool
  accepted : List μ
  handled : List μ
  dropped : List μ
  deriving DecidableEq, Repr

/-- An open receiver that has had no message. -/
def Box.empty : Box μ :=
  { queue := [], senders := 0, queued := false, worker := .idle, isOpen := true, stopped := false, accepted := [],
    handled := [], dropped := [] }

/-- What can happen.  `next` is a step of the work item, and `close` waits for the senders. -/
inductive Event (μ : Type*)
  | send (m : μ)
  | notify
  | start
  | next
  | stop
  | close

/-- The next step of the work item. -/
def Box.next (b : Box μ) : Option (Box μ) :=
  match b.worker with
  | .idle => none
  | .looking =>
      match b.queue with
      | [] => some { b with worker := .idle }
      | m :: rest => some { b with queue := rest, worker := .holding m }
  | .holding m =>
      if b.stopped then some { b with worker := .looking, dropped := b.dropped ++ [m] }
      else some { b with worker := .looking, handled := b.handled ++ [m] }

/-- One step. -/
def Box.step (b : Box μ) : Event μ → Option (Box μ)
  | .send m =>
      if b.isOpen then
        some { b with queue := b.queue ++ [m], senders := b.senders + 1, accepted := b.accepted ++ [m] }
      else none
  | .notify => if 0 < b.senders then some { b with senders := b.senders - 1, queued := true } else none
  | .start =>
      match b.worker with
      | .idle => if b.queued then some { b with queued := false, worker := .looking } else none
      | _ => none
  | .next => b.next
  | .stop => some { b with stopped := true }
  | .close => if b.senders = 0 then some { b with isOpen := false } else none

/-- The message in the hand of the work item. -/
def Worker.held : Worker μ → List μ
  | .holding m => [m]
  | _ => []

/-- The work item is neither queued nor running, and no sender is about to queue it. -/
def Box.Settled (b : Box μ) : Prop := b.senders = 0 ∧ b.queued = false ∧ b.worker = .idle

/-- What holds in every state. -/
structure Inv (b : Box μ) : Prop where
  order : b.accepted = b.handled ++ b.dropped ++ b.worker.held ++ b.queue
  stopped : b.dropped ≠ [] → b.stopped = true
  wake : b.Settled → b.queue = []
  closed : b.isOpen = false → b.senders = 0

theorem inv_empty : Inv (Box.empty : Box μ) := ⟨rfl, fun h => absurd rfl h, fun _ => rfl, fun h => by cases h⟩

section

variable {b b' : Box μ} {e : Event μ}

/-- A step of the work item. -/
theorem Inv.next (h : Inv b) (hs : b.next = some b') : Inv b' := by
  unfold Box.next at hs
  split at hs
  · cases hs
  · rename_i hw
    have hord := h.order
    split at hs
    · rename_i hq
      obtain rfl := Option.some.inj hs
      rw [hw] at hord
      exact ⟨hord, h.stopped, fun _ => hq, h.closed⟩
    · rename_i m rest hq
      obtain rfl := Option.some.inj hs
      refine ⟨?_, h.stopped, fun hset => absurd hset.2.2 (by simp), h.closed⟩
      rw [hord, hw, hq]
      simp [Worker.held]
  · rename_i m hw
    have hord := h.order
    rw [hw] at hord
    split at hs
    · rename_i hstop
      obtain rfl := Option.some.inj hs
      refine ⟨?_, fun _ => hstop, fun hset => absurd hset.2.2 (by simp), h.closed⟩
      rw [hord]
      simp [Worker.held]
    · rename_i hstop
      obtain rfl := Option.some.inj hs
      -- nothing has been thrown away yet
      have hnone : b.dropped = [] := by
        by_contra hne
        exact hstop (h.stopped hne)
      refine ⟨?_, h.stopped, fun hset => absurd hset.2.2 (by simp), h.closed⟩
      rw [hord, hnone]
      simp [Worker.held]

/-- **The step lemma.** -/
theorem Inv.step (h : Inv b) (hs : b.step e = some b') : Inv b' := by
  cases e with
  | send m =>
    rw [Box.step] at hs
    split at hs
    · rename_i hopen
      obtain rfl := Option.some.inj hs
      refine ⟨?_, h.stopped, fun hset => absurd hset.1 (Nat.succ_ne_zero _), fun hc => ?_⟩
      · rw [h.order]
        simp
      · exact absurd (hopen.symm.trans hc) (by simp)
    · cases hs
  | notify =>
    rw [Box.step] at hs
    split at hs
    · obtain rfl := Option.some.inj hs
      refine ⟨h.order, h.stopped, fun hset => absurd hset.2.1 (by simp), fun hc => ?_⟩
      show b.senders - 1 = 0
      rw [h.closed hc]
    · cases hs
  | start =>
    rw [Box.step] at hs
    split at hs
    · rename_i hw
      split at hs
      · obtain rfl := Option.some.inj hs
        refine ⟨?_, h.stopped, fun hset => absurd hset.2.2 (by simp), h.closed⟩
        rw [h.order, hw]
        rfl
      · cases hs
    · cases hs
  | next => exact h.next hs
  | stop =>
    obtain rfl := Option.some.inj hs
    exact ⟨h.order, fun _ => rfl, h.wake, h.closed⟩
  | close =>
    rw [Box.step] at hs
    split at hs
    · rename_i hsenders
      obtain rfl := Option.some.inj hs
      exact ⟨h.order, h.stopped, h.wake, fun _ => hsenders⟩
    · cases hs

/-- **A receiver that is closed and whose work item is idle** has handled or thrown away what came in. -/
theorem Inv.drained (h : Inv b) (hopen : b.isOpen = false) (hqueued : b.queued = false) (hidle : b.worker = .idle) :
    b.queue = [] ∧ b.accepted = b.handled ++ b.dropped := by
  have hq := h.wake ⟨h.closed hopen, hqueued, hidle⟩
  refine ⟨hq, ?_⟩
  rw [h.order, hq, hidle]
  simp [Worker.held]

/-- How many steps it takes at most to empty the queue. -/
def Box.size (b : Box μ) : ℕ :=
  3 * (b.queue.length + b.senders) + (if b.queued then 2 else 0) +
    match b.worker with
    | .idle => 0
    | .looking => 1
    | .holding _ => 3

/-- The steps that take a message on its way. -/
def Event.isWork : Event μ → Bool
  | .notify => true
  | .start => true
  | .next => true
  | _ => false

/-- Every step of a sender or of the work item brings the end nearer. -/
theorem size_lt (hs : b.step e = some b') (he : e.isWork = true) : b'.size < b.size := by
  unfold Box.size
  cases e with
  | notify =>
    rw [Box.step] at hs
    split at hs
    · obtain rfl := Option.some.inj hs
      simp only [if_true]
      split <;> omega
    · cases hs
  | start =>
    rw [Box.step] at hs
    split at hs
    · rename_i hw
      split at hs
      · rename_i hq
        obtain rfl := Option.some.inj hs
        simp [hw, hq]
      · cases hs
    · cases hs
  | next =>
    rw [Box.step] at hs
    unfold Box.next at hs
    split at hs
    · cases hs
    · split at hs
      · obtain rfl := Option.some.inj hs
        simp
      · rename_i m rest hq
        obtain rfl := Option.some.inj hs
        simp only [hq, List.length_cons]
        omega
    · split at hs
      · obtain rfl := Option.some.inj hs
        simp
      · obtain rfl := Option.some.inj hs
        simp
  | send m => cases he
  | stop => cases he
  | close => cases he

/-- **What is in the queue is on its way out**: until the queue is empty and the work item idle, a sender or the work
item can take a step. -/
theorem progress (h : Inv b) (hne : b.queue ≠ [] ∨ ¬ b.Settled) :
    ∃ e : Event μ, e.isWork = true ∧ (b.step e).isSome = true := by
  have hset : ¬ b.Settled := hne.elim (fun hq hs => hq (h.wake hs)) id
  by_cases hsenders : 0 < b.senders
  · exact ⟨.notify, rfl, by rw [Box.step, if_pos hsenders]; rfl⟩
  · cases hw : b.worker with
    | idle =>
      have hq : b.queued = true := by
        by_contra hq
        exact hset ⟨by omega, Bool.eq_false_iff.mpr hq, hw⟩
      exact ⟨.start, rfl, by rw [Box.step, hw]; simp [hq]⟩
    | looking =>
      refine ⟨.next, rfl, ?_⟩
      rw [Box.step, Box.next, hw]
      cases b.queue <;> rfl
    | holding m =>
      refine ⟨.next, rfl, ?_⟩
      rw [Box.step, Box.next, hw]
      cases b.stopped <;> rfl

end

end Mailbox
