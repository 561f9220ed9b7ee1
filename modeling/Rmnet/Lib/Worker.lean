import Mathlib.Data.List.Basic

/-!
# Work items that somebody waits for

A `Task` runs a program: it checks whether it has been cancelled, calls something that may fail, and takes a lock.
It only tries the lock, over and over, until it has it or finds that it has been cancelled.  Whoever cancels the item
holds the lock, sets the flag, and waits until the item is neither queued nor running.  A `Backlog` takes messages from
a queue until that is empty.

* `Task.step_isSome`, `Backlog.step_isSome` — an item that is waited for can take a step.
* `Task.step_cancelled` — while its canceller waits, each step brings the end nearer, and none gets the lock.
* `Backlog.step_size` — each step brings the end nearer, as long as no messages come in.
-/

namespace Worker

/-- What an item does next; `tryLock act` does something under the lock if `act` says so. -/
inductive Phase
  | check
  | call
  | tryLock (act : Bool)
  deriving DecidableEq, Repr

/-- An item: whether it has been cancelled, whether it is queued, and what it has still to do in the run at hand. -/
structure Task where
  cancelled : Bool
  queued : Bool
  work : List Phase
  deriving DecidableEq, Repr

/-- An item that has not been queued. -/
def Task.fresh : Task := { cancelled := false, queued := false, work := [] }

/-- Neither queued nor running. -/
def Task.Idle (t : Task) : Prop := t.queued = false ∧ t.work = []

instance (t : Task) : Decidable t.Idle := inferInstanceAs (Decidable (_ ∧ _))

def Task.queue (t : Task) : Task := { t with queued := true }

def Task.cancel (t : Task) : Task := { t with cancelled := true }

/-- One step, with the outcomes of the attempt on the lock and of the call: the item, and whether it acts under the
lock. -/
def Task.step (program : List Phase) (lockFree callOk : Bool) (t : Task) : Option (Task × Bool) :=
  match t.work with
  | [] => if t.queued then some ({ t with queued := false, work := program }, false) else none
  | .check :: rest => some ({ t with work := if t.cancelled then [] else rest }, false)
  | .call :: rest => some ({ t with work := if callOk then rest else [] }, false)
  | .tryLock act :: rest =>
      if lockFree then some ({ t with work := rest }, act)
      else some (if t.cancelled then { t with work := [] } else t, false)

/-- How many steps are left at most, once the item has been cancelled. -/
def Task.size (program : List Phase) (t : Task) : ℕ :=
  t.work.length + if t.queued then program.length + 1 else 0

section

variable {program : List Phase} {lockFree callOk act : Bool} {t t' : Task}

/-- An item can take a step unless it is idle. -/
theorem Task.step_isSome (program : List Phase) (lockFree callOk : Bool) (t : Task) :
    (t.step program lockFree callOk).isSome = true ↔ ¬ t.Idle := by
  unfold Task.step Task.Idle
  cases hw : t.work with
  | nil =>
    cases hq : t.queued with
    | true => simp
    | false => simp
  | cons p rest =>
    cases p with
    | check => simp
    | call => simp
    | tryLock act => cases lockFree <;> simp

theorem Task.size_eq_zero : t.size program = 0 ↔ t.Idle := by
  unfold Task.size Task.Idle
  cases t.queued with
  | true => simp
  | false => simp

/-- Steps leave the flag alone. -/
theorem Task.step_keeps (h : t.step program lockFree callOk = some (t', act)) : t'.cancelled = t.cancelled := by
  unfold Task.step at h
  split at h
  · split at h
    · obtain ⟨rfl, rfl⟩ := Prod.mk.inj (Option.some.inj h)
      rfl
    · cases h
  · obtain ⟨rfl, rfl⟩ := Prod.mk.inj (Option.some.inj h)
    rfl
  · obtain ⟨rfl, rfl⟩ := Prod.mk.inj (Option.some.inj h)
    rfl
  · split at h
    · obtain ⟨rfl, rfl⟩ := Prod.mk.inj (Option.some.inj h)
      rfl
    · obtain ⟨rfl, rfl⟩ := Prod.mk.inj (Option.some.inj h)
      split <;> rfl

/-- An item acts with the lock only. -/
theorem Task.step_act (h : t.step program lockFree callOk = some (t', true)) : lockFree = true := by
  unfold Task.step at h
  split at h
  · split at h
    · cases (Prod.mk.inj (Option.some.inj h)).2
    · cases h
  · cases (Prod.mk.inj (Option.some.inj h)).2
  · cases (Prod.mk.inj (Option.some.inj h)).2
  · split at h
    · rename_i hlock
      exact hlock
    · cases (Prod.mk.inj (Option.some.inj h)).2

/-- **While its canceller waits**, an item does not get the lock, and every step of it brings its end nearer. -/
theorem Task.step_cancelled (hcancel : t.cancelled = true) (h : t.step program false callOk = some (t', act)) :
    act = false ∧ t'.size program < t.size program := by
  unfold Task.step at h
  unfold Task.size
  split at h
  · rename_i hw
    split at h
    · rename_i hq
      obtain ⟨rfl, rfl⟩ := Prod.mk.inj (Option.some.inj h)
      simp [hw, hq]
    · cases h
  · rename_i rest hw
    obtain ⟨rfl, rfl⟩ := Prod.mk.inj (Option.some.inj h)
    simp [hw, hcancel]
  · rename_i rest hw
    obtain ⟨rfl, rfl⟩ := Prod.mk.inj (Option.some.inj h)
    refine ⟨rfl, ?_⟩
    simp only [hw, List.length_cons]
    split
    · omega
    · simp only [List.length_nil]
      omega
  · rename_i a rest hw
    rw [if_neg Bool.false_ne_true, if_pos hcancel] at h
    obtain ⟨rfl, rfl⟩ := Prod.mk.inj (Option.some.inj h)
    simp [hw]

end

/-! ### An item that empties a queue -/

/-- How many messages there are, and whether the item that takes them is queued, and runs. -/
structure Backlog where
  messages : ℕ
  queued : Bool
  running : Bool
  deriving DecidableEq, Repr

/-- No message has come in. -/
def Backlog.empty : Backlog := { messages := 0, queued := false, running := false }

/-- Neither queued nor running. -/
def Backlog.Idle (b : Backlog) : Prop := b.queued = false ∧ b.running = false

instance (b : Backlog) : Decidable b.Idle := inferInstanceAs (Decidable (_ ∧ _))

/-- A message comes in. -/
def Backlog.add (b : Backlog) : Backlog := { b with messages := b.messages + 1, queued := true }

/-- One step: the item begins, takes a message, or finds none and returns. -/
def Backlog.step (b : Backlog) : Option Backlog :=
  if b.running then
    some (if b.messages = 0 then { b with running := false } else { b with messages := b.messages - 1 })
  else if b.queued then some { b with queued := false, running := true }
  else none

/-- How many steps are left at most. -/
def Backlog.size (b : Backlog) : ℕ :=
  (if b.queued then b.messages + 2 else 0) + if b.running then b.messages + 1 else 0

section

variable {b b' : Backlog}

theorem Backlog.step_isSome : b.step.isSome = true ↔ ¬ b.Idle := by
  unfold Backlog.step Backlog.Idle
  cases b.running with
  | true => simp
  | false =>
    cases b.queued with
    | true => simp
    | false => simp

theorem Backlog.size_eq_zero : b.size = 0 ↔ b.Idle := by
  unfold Backlog.size Backlog.Idle
  cases b.queued with
  | true => simp
  | false => simp

/-- Every step brings the end nearer. -/
theorem Backlog.step_size (h : b.step = some b') : b'.size < b.size := by
  unfold Backlog.step at h
  unfold Backlog.size
  cases hrun : b.running with
  | true =>
    rw [hrun, if_pos rfl] at h
    obtain rfl := Option.some.inj h
    by_cases hm : b.messages = 0
    · simp [hm]
    · simp only [hm, if_true, if_false]
      cases b.queued with
      | true => simp; omega
      | false => simp; omega
  | false =>
    cases hq : b.queued with
    | true =>
      simp only [hrun, hq, Bool.false_eq_true, if_false, if_true, Option.some.injEq] at h
      subst h
      simp
    | false => simp [hrun, hq] at h

end

end Worker
