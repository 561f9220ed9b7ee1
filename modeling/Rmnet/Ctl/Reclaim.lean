import Rmnet.Ctl.Endpoint
import Rmnet.Lib.Owner

/-!
# What the endpoint frees

Each object that has not been freed has its place: its pointer, the devices that have been probed, or the hands of one
thread.  `CtlOwners` says so, and what the readers' domain knows of it; `CtlReaders` says what the calls have found.

* `CtlOwners.alloc`, …, `CtlOwners.reclaim` — an object moves from place to place.
* `CtlInv.step` — what every step keeps.
* `ctlStep_log` — what every step does to the log.
* `ctl_calls_safe` — no step uses a client or a device that is free, a hook that runs is that of a client that is still
  there, nothing is lost, whoever waits to free an object waits for calls that can go on, and the log is not used when
  it is free unless somebody removes it meanwhile.
-/

namespace Rmnet

open Transition Grace Owner

/-! ### Owners -/

/-- The object that a thread owns, and how far it has come with it. -/
def CtlCall.owns : CtlCall → Option (CtlStage × CtlKind × ℕ)
  | .owner stage kind a => some (stage, kind, a)
  | _ => none

/-- The object that is owned. -/
def ownedObj (x : CtlStage × CtlKind × ℕ) : ℕ := x.2.2

/-- Where the objects are: an object that has not been freed is the one of its pointer, a device that has been probed,
or owned by a thread, and the readers' domain says so. -/
structure CtlOwners (heap : ℕ → Option CtlObj) (ptr : CtlKind → Option ℕ) (bound : List ℕ)
    (own : ℕ → Option (CtlStage × CtlKind × ℕ)) (d : Domain ℕ ℕ) : Prop where
  once : Once ownedObj own
  published : ∀ a, a ∈ d.published ↔ ptr .client = some a ∨ ptr .dev = some a
  hidden : ∀ a, a ∈ d.hidden ↔ (a ∈ bound ∧ ptr .dev ≠ some a) ∨ ∃ k, Held own (.hidden, k, a)
  waiting : ∀ a, d.Waits a ↔ ∃ k, Held own (.waiting, k, a)
  pointed : ∀ k a, ptr k = some a → (heap a).map CtlObj.kind = some k
  owned : ∀ stage k a, Held own (stage, k, a) → (heap a).map CtlObj.kind = some k
  unpublished : ∀ stage k a, Held own (stage, k, a) → ∀ k', ptr k' ≠ some a
  probed : ∀ a ∈ bound, (heap a).map CtlObj.kind = some .dev
  nodup : bound.Nodup
  unbound : ∀ stage k a, Held own (stage, k, a) → a ∉ bound
  dev : ∀ a, ptr .dev = some a → a ∈ bound
  accounted : ∀ a, heap a ≠ none → ptr .client = some a ∨ a ∈ bound ∨ ∃ stage k, Held own (stage, k, a)

section

variable {heap : ℕ → Option CtlObj} {ptr : CtlKind → Option ℕ} {bound : List ℕ}
  {own : ℕ → Option (CtlStage × CtlKind × ℕ)} {d : Domain ℕ ℕ} {t a : ℕ} {k : CtlKind}

/-- A thread comes to own an object that nobody does. -/
theorem once_take (h : Once ownedObj own) (hfree : ∀ stage k, ¬ Held own (stage, k, a)) {stage : CtlStage} :
    Once ownedObj (Function.update own t (some (stage, k, a))) := by
  refine h.take fun x hx => ?_
  obtain ⟨stage', k', b⟩ := x
  obtain rfl : b = a := hx
  exact hfree stage' k'

/-- A thread that owned nothing allocates an object. -/
theorem CtlOwners.alloc (h : CtlOwners heap ptr bound own d) (ha : heap a = none) (ht : own t = none) (obj : CtlObj) :
    CtlOwners (Function.update heap a (some obj)) ptr bound
      (Function.update own t (some (.allocated, obj.kind, a))) d := by
  have hown := held_update (t := t) h.once (some (.allocated, obj.kind, a))
  have hfree : ∀ stage k, ¬ Held own (stage, k, a) := fun stage k ho => by simpa [ha] using h.owned stage k a ho
  have hptr : ∀ k, ptr k ≠ some a := fun k hk => by simpa [ha] using h.pointed k a hk
  have hbound : a ∉ bound := fun hb => by simpa [ha] using h.probed a hb
  obtain ⟨honce, hpub, hhid, hwait, hptd, howned, hunpub, hprobed, hnodup, hunbound, hdev, hacc⟩ := h
  refine ⟨once_take honce hfree, hpub, ?_, ?_, ?_, ?_, ?_, ?_, hnodup, ?_, hdev, ?_⟩
  all_goals grind

/-- An object that has not been published is freed by its owner. -/
theorem CtlOwners.drop (h : CtlOwners heap ptr bound own d) (ht : own t = some (.allocated, k, a)) :
    CtlOwners (Function.update heap a none) ptr bound (Function.update own t none) d := by
  have hown := held_update (t := t) h.once none
  have ho : Held own (.allocated, k, a) := ⟨t, ht⟩
  have honly : ∀ stage k', Held own (stage, k', a) → (stage, k', a) = (.allocated, k, a) :=
    fun stage k' ho' => h.once.only ht ho' rfl
  obtain ⟨honce, hpub, hhid, hwait, hptd, howned, hunpub, hprobed, hnodup, hunbound, hdev, hacc⟩ := h
  refine ⟨honce.give, hpub, ?_, ?_, ?_, ?_, ?_, ?_, hnodup, ?_, hdev, ?_⟩
  all_goals grind

/-- A client is published by its owner. -/
theorem CtlOwners.assignClient (h : CtlOwners heap ptr bound own d) (ht : own t = some (.allocated, .client, a))
    (hk : ptr .client = none) :
    CtlOwners heap (Function.update ptr .client (some a)) bound (Function.update own t none) (d.publish a) := by
  have hown := held_update (t := t) h.once none
  have ho : Held own (.allocated, .client, a) := ⟨t, ht⟩
  have honly : ∀ stage k', Held own (stage, k', a) → (stage, k', a) = (.allocated, .client, a) :=
    fun stage k' ho' => h.once.only ht ho' rfl
  obtain ⟨honce, hpub, hhid, hwait, hptd, howned, hunpub, hprobed, hnodup, hunbound, hdev, hacc⟩ := h
  refine ⟨honce.give, ?_, ?_, ?_, ?_, ?_, ?_, hprobed, hnodup, ?_, ?_, ?_⟩
  all_goals grind

/-- A device is published by its owner, when there is none. -/
theorem CtlOwners.assignDev (h : CtlOwners heap ptr bound own d) (ht : own t = some (.allocated, .dev, a))
    (hk : ptr .dev = none) :
    CtlOwners heap (Function.update ptr .dev (some a)) (a :: bound) (Function.update own t none) (d.publish a) := by
  have hown := held_update (t := t) h.once none
  have ho : Held own (.allocated, .dev, a) := ⟨t, ht⟩
  have honly : ∀ stage k', Held own (stage, k', a) → (stage, k', a) = (.allocated, .dev, a) :=
    fun stage k' ho' => h.once.only ht ho' rfl
  obtain ⟨honce, hpub, hhid, hwait, hptd, howned, hunpub, hprobed, hnodup, hunbound, hdev, hacc⟩ := h
  refine ⟨honce.give, ?_, ?_, ?_, ?_, ?_, ?_, ?_, ?_, ?_, ?_, ?_⟩
  all_goals grind

/-- The client is hidden by a thread that owned nothing. -/
theorem CtlOwners.hideClient (h : CtlOwners heap ptr bound own d) (hd : Sound d) (ht : own t = none)
    (hk : ptr .client = some a) :
    CtlOwners heap (Function.update ptr .client none) bound (Function.update own t (some (.hidden, .client, a)))
      (d.hide a) := by
  have hown := held_update (t := t) h.once (some (.hidden, .client, a))
  have hfree : ∀ stage k, ¬ Held own (stage, k, a) := fun stage k ho => h.unpublished stage k a ho .client hk
  have hhide : ∀ b, b ∈ (d.hide a).published ↔ b ≠ a ∧ b ∈ d.published := fun b => hd.published.mem_erase_iff
  obtain ⟨honce, hpub, hhid, hwait, hptd, howned, hunpub, hprobed, hnodup, hunbound, hdev, hacc⟩ := h
  refine ⟨once_take honce hfree, ?_, ?_, ?_, ?_, ?_, ?_, hprobed, hnodup, ?_, ?_, ?_⟩
  all_goals grind

/-- The device is hidden. -/
theorem CtlOwners.hideDev (h : CtlOwners heap ptr bound own d) (hd : Sound d) (hk : ptr .dev = some a) :
    CtlOwners heap (Function.update ptr .dev none) bound own (d.hide a) := by
  have hhide : ∀ b, b ∈ (d.hide a).published ↔ b ≠ a ∧ b ∈ d.published := fun b => hd.published.mem_erase_iff
  obtain ⟨honce, hpub, hhid, hwait, hptd, howned, hunpub, hprobed, hnodup, hunbound, hdev, hacc⟩ := h
  refine ⟨honce, ?_, ?_, hwait, ?_, howned, ?_, hprobed, hnodup, hunbound, ?_, ?_⟩
  all_goals grind

/-- A device that is hidden is removed, by a thread that owned nothing. -/
theorem CtlOwners.remove (h : CtlOwners heap ptr bound own d) (ht : own t = none) (ha : a ∈ bound)
    (hk : ptr .dev = none) :
    CtlOwners heap ptr (bound.erase a) (Function.update own t (some (.hidden, .dev, a))) d := by
  have hown := held_update (t := t) h.once (some (.hidden, .dev, a))
  have hfree : ∀ stage k, ¬ Held own (stage, k, a) := fun stage k ho => h.unbound stage k a ho ha
  have herase : ∀ b, b ∈ bound.erase a ↔ b ≠ a ∧ b ∈ bound := fun b => h.nodup.mem_erase_iff
  have hnodup' := h.nodup.erase a
  obtain ⟨honce, hpub, hhid, hwait, hptd, howned, hunpub, hprobed, hnodup, hunbound, hdev, hacc⟩ := h
  refine ⟨once_take honce hfree, hpub, ?_, ?_, hptd, ?_, ?_, ?_, hnodup', ?_, ?_, ?_⟩
  all_goals grind

/-- The owner of a hidden object begins to wait. -/
theorem CtlOwners.synchronize (h : CtlOwners heap ptr bound own d) (hd : Sound d) (ht : own t = some (.hidden, k, a)) :
    CtlOwners heap ptr bound (Function.update own t (some (.waiting, k, a))) (d.synchronize a) := by
  have hown := held_update (t := t) h.once (some (.waiting, k, a))
  have ho : Held own (.hidden, k, a) := ⟨t, ht⟩
  have honly : ∀ stage k', Held own (stage, k', a) → (stage, k', a) = (.hidden, k, a) :=
    fun stage k' ho' => h.once.only ht ho' rfl
  have hhide : ∀ b, b ∈ (d.synchronize a).hidden ↔ b ≠ a ∧ b ∈ d.hidden := fun b => hd.hidden.mem_erase_iff
  obtain ⟨honce, hpub, hhid, hwait, hptd, howned, hunpub, hprobed, hnodup, hunbound, hdev, hacc⟩ := h
  refine ⟨honce.move ht rfl, hpub, ?_, ?_, hptd, ?_, ?_, hprobed, hnodup, ?_, hdev, ?_⟩
  all_goals grind

/-- The owner of an object frees it when the wait is over. -/
theorem CtlOwners.reclaim (h : CtlOwners heap ptr bound own d) (hd : Sound d) (ht : own t = some (.waiting, k, a))
    (hw : (a, []) ∈ d.waiting) :
    CtlOwners (Function.update heap a none) ptr bound (Function.update own t none) (d.reclaim a) := by
  have hown := held_update (t := t) h.once none
  have ho : Held own (.waiting, k, a) := ⟨t, ht⟩
  have honly : ∀ stage k', Held own (stage, k', a) → (stage, k', a) = (.waiting, k, a) :=
    fun stage k' ho' => h.once.only ht ho' rfl
  have hwaits : ∀ b, (d.reclaim a).Waits b ↔ b ≠ a ∧ d.Waits b := fun b => hd.reclaim_waits hw
  obtain ⟨honce, hpub, hhid, hwait, hptd, howned, hunpub, hprobed, hnodup, hunbound, hdev, hacc⟩ := h
  refine ⟨honce.give, hpub, ?_, ?_, ?_, ?_, ?_, ?_, hnodup, ?_, hdev, ?_⟩
  all_goals grind

end

/-! ### Readers -/

/-- The call is between `rcu_read_lock` and `rcu_read_unlock`. -/
def CtlCall.reading : CtlCall → Bool
  | .locked _ => true
  | .found _ _ => true
  | .calling _ _ _ => true
  | _ => false

/-- The object that the call has found. -/
def CtlCall.held : CtlCall → List ℕ
  | .found _ (some (a, _)) => [a]
  | .calling _ a _ => [a]
  | _ => []

/-- What the call has found is still what it was, and a function that runs is that of the object. -/
def CtlCall.Sees (heap : ℕ → Option CtlObj) : CtlCall → Prop
  | .found use (some (a, was)) => heap a = was ∧ was.map CtlObj.kind = some use.kind
  | .calling use a fn => (heap a).map CtlObj.kind = some use.kind ∧ (heap a).bind CtlObj.fn = some fn
  | _ => True

/-- What the readers' domain says of the calls. -/
structure CtlReaders (heap : ℕ → Option CtlObj) (call : ℕ → CtlCall) (d : Domain ℕ ℕ) : Prop where
  active : ∀ t, t ∈ d.active ↔ (call t).reading = true
  holds : ∀ t, d.holds t = (call t).held
  sees : ∀ t, (call t).Sees heap

section

variable {heap heap' : ℕ → Option CtlObj} {call : ℕ → CtlCall} {d d' : Domain ℕ ℕ} {t a : ℕ} {c : CtlCall}

/-- A call sees the same while the object that it has found is the same. -/
theorem CtlCall.Sees.same (h : c.Sees heap) (hsame : ∀ a ∈ c.held, heap' a = heap a) : c.Sees heap' := by
  cases c with
  | found use ptr =>
    cases ptr with
    | none => trivial
    | some x =>
      refine ⟨?_, h.2⟩
      rw [hsame x.1 (List.mem_singleton.mpr rfl)]
      exact h.1
  | calling use a fn =>
    rw [Sees, hsame a (List.mem_singleton.mpr rfl)]
    exact h
  | returned ret => trivial
  | entering use => trivial
  | locked use => trivial
  | owner stage kind a => trivial

/-- The readers see the same when a thread that does not read goes on and no object that is held changes. -/
theorem CtlReaders.write (h : CtlReaders heap call d) (hact : d'.active = d.active) (hholds : d'.holds = d.holds)
    (hsame : ∀ t, ∀ a ∈ d.holds t, heap' a = heap a) (hr : (call t).reading = false) (hc : c.reading = false) :
    CtlReaders heap' (Function.update call t c) d' where
  active := by
    intro t'
    rw [hact, h.active]
    by_cases htt : t' = t
    · rw [htt, Function.update_self, hr, hc]
    · rw [Function.update_of_ne htt]
  holds := by
    have hnone : ∀ {c : CtlCall}, c.reading = false → c.held = [] := by
      intro c hc
      cases c with
      | returned ret => rfl
      | entering use => rfl
      | owner stage kind a => rfl
      | locked use => cases hc
      | found use ptr => cases hc
      | calling use a fn => cases hc
    intro t'
    rw [hholds, h.holds]
    by_cases htt : t' = t
    · rw [htt, Function.update_self, hnone hr, hnone hc]
    · rw [Function.update_of_ne htt]
  sees := by
    refine (Function.forall_update_iff _ fun _ (c : CtlCall) => c.Sees heap').mpr ⟨?_, fun t' _ => ?_⟩
    · cases c with
      | returned ret => trivial
      | entering use => trivial
      | owner stage kind a => trivial
      | locked use => cases hc
      | found use ptr => cases hc
      | calling use a fn => cases hc
    · exact (h.sees t').same fun a ha => hsame t' a (by rw [h.holds]; exact ha)

/-- `rcu_read_lock`. -/
theorem CtlReaders.enter (h : CtlReaders heap call d) (use : CtlUse) :
    CtlReaders heap (Function.update call t (.locked use)) (d.enter t) where
  active := by
    intro t'
    by_cases htt : t' = t
    · rw [htt, Function.update_self]
      exact ⟨fun _ => rfl, fun _ => List.mem_cons_self⟩
    · rw [Function.update_of_ne htt, ← h.active]
      exact ⟨fun ht' => List.mem_of_ne_of_mem htt ht', List.mem_cons_of_mem t⟩
  holds := by
    intro t'
    by_cases htt : t' = t
    · rw [htt, Function.update_self, enter_holds, Function.update_self]
      rfl
    · rw [Function.update_of_ne htt, enter_holds, Function.update_of_ne htt]
      exact h.holds t'
  sees := (Function.forall_update_iff _ fun _ (c : CtlCall) => c.Sees heap).mpr ⟨trivial, fun t' _ => h.sees t'⟩

/-- `rcu_read_unlock`. -/
theorem CtlReaders.leave (h : CtlReaders heap call d) (hd : Sound d) (ret : CtlRet) :
    CtlReaders heap (Function.update call t (.returned ret)) (d.leave t) where
  active := by
    intro t'
    by_cases htt : t' = t
    · rw [htt, Function.update_self]
      exact ⟨fun ht => absurd ht hd.active.not_mem_erase, fun ht => by cases ht⟩
    · rw [Function.update_of_ne htt, ← h.active]
      exact List.mem_erase_of_ne htt
  holds := by
    intro t'
    by_cases htt : t' = t
    · rw [htt, Function.update_self, leave_holds, Function.update_self]
      rfl
    · rw [Function.update_of_ne htt, leave_holds, Function.update_of_ne htt]
      exact h.holds t'
  sees := (Function.forall_update_iff _ fun _ (c : CtlCall) => c.Sees heap).mpr ⟨trivial, fun t' _ => h.sees t'⟩

/-- A reader goes on with what it has found. -/
theorem CtlReaders.goto (h : CtlReaders heap call d) (hr : (call t).reading = true) (hc : c.reading = true)
    (hheld : c.held = (call t).held) (hsees : c.Sees heap) : CtlReaders heap (Function.update call t c) d where
  active := by
    intro t'
    rw [h.active]
    by_cases htt : t' = t
    · rw [htt, Function.update_self, hr, hc]
    · rw [Function.update_of_ne htt]
  holds := by
    intro t'
    rw [h.holds]
    by_cases htt : t' = t
    · rw [htt, Function.update_self, hheld]
    · rw [Function.update_of_ne htt]
  sees := (Function.forall_update_iff _ fun _ (c : CtlCall) => c.Sees heap).mpr ⟨hsees, fun t' _ => h.sees t'⟩

/-- `rcu_dereference`, by a reader that has found nothing yet. -/
theorem CtlReaders.find (h : CtlReaders heap call d) {use : CtlUse} (ht : call t = .locked use)
    (ha : (heap a).map CtlObj.kind = some use.kind) :
    CtlReaders heap (Function.update call t (.found use (some (a, heap a)))) (d.find t a) where
  active := by
    intro t'
    by_cases htt : t' = t
    · rw [htt, Function.update_self]
      exact ⟨fun _ => rfl, fun _ => (h.active t).mpr (by rw [ht]; rfl)⟩
    · rw [Function.update_of_ne htt]
      exact h.active t'
  holds := by
    intro t'
    by_cases htt : t' = t
    · rw [htt, Function.update_self, find_holds, Function.update_self, h.holds, ht]
      rfl
    · rw [Function.update_of_ne htt, find_holds, Function.update_of_ne htt]
      exact h.holds t'
  sees := (Function.forall_update_iff _ fun _ (c : CtlCall) => c.Sees heap).mpr ⟨⟨rfl, ha⟩, fun t' _ => h.sees t'⟩

end

/-! ### The invariant -/

/-- What holds in every state. -/
structure CtlInv (ep : CtlEp) : Prop where
  rcu : Sound ep.rcu
  owners : CtlOwners ep.heap ep.ptr ep.bound (fun t => (ep.call t).owns) ep.rcu
  readers : CtlReaders ep.heap ep.call ep.rcu
  fault : ep.fault = false

section

variable {ep ep' : CtlEp} {t a : ℕ}

theorem ctlInit_inv (h : CtlInit ep) : CtlInv ep := by
  obtain ⟨ipcLogLvl, rfl⟩ := h
  have hown : ∀ x, ¬ Held (fun _ : ℕ => CtlCall.owns (.returned .void)) x := by
    rintro x ⟨t, ht⟩
    cases ht
  refine ⟨sound_empty, ?_, ⟨by simp [CtlEp.unset, Domain.empty, CtlCall.reading],
    fun _ => rfl, fun _ => trivial⟩, rfl⟩
  refine ⟨fun t _ _ _ ht => (by cases ht), ?_, ?_, ?_, ?_, ?_, ?_, ?_, ?_, ?_, ?_, ?_⟩
  all_goals simp [CtlEp.unset, Domain.empty, Domain.Waits, hown]

/-- What the threads own, when one goes on. -/
theorem owns_update (call : ℕ → CtlCall) (t : ℕ) (c : CtlCall) :
    (fun t' => (Function.update call t c t').owns) = Function.update (fun t' => (call t').owns) t c.owns :=
  Function.comp_update CtlCall.owns call t c

/-- A thread goes on and owns what it owned. -/
theorem owns_same {call : ℕ → CtlCall} {c : CtlCall} (h : c.owns = (call t).owns) :
    (fun t' => (Function.update call t c t').owns) = fun t' => (call t').owns := by
  rw [owns_update, h]
  exact Function.update_eq_self t _

/-- Objects stay where they are when readers come, find objects, and go. -/
theorem CtlOwners.domain {heap : ℕ → Option CtlObj} {ptr : CtlKind → Option ℕ} {bound : List ℕ}
    {own : ℕ → Option (CtlStage × CtlKind × ℕ)} {d d' : Domain ℕ ℕ} (h : CtlOwners heap ptr bound own d)
    (hp : d'.published = d.published) (hh : d'.hidden = d.hidden) (hw : ∀ b, d'.Waits b ↔ d.Waits b) :
    CtlOwners heap ptr bound own d' where
  once := h.once
  published := fun b => by rw [hp]; exact h.published b
  hidden := fun b => by rw [hh]; exact h.hidden b
  waiting := fun b => (hw b).trans (h.waiting b)
  pointed := h.pointed
  owned := h.owned
  unpublished := h.unpublished
  probed := h.probed
  nodup := h.nodup
  unbound := h.unbound
  dev := h.dev
  accounted := h.accounted

/-- What is not free for the readers has not been freed. -/
theorem CtlInv.live (h : CtlInv ep) (ha : ep.rcu.Live a) : ep.heap a ≠ none := by
  have hkind : ∀ k, (ep.heap a).map CtlObj.kind = some k → ep.heap a ≠ none := by
    intro k hk hnone
    rw [hnone] at hk
    cases hk
  rcases ha with hp | hh | hw
  · rcases (h.owners.published a).mp hp with hc | hd
    · exact hkind _ (h.owners.pointed .client a hc)
    · exact hkind _ (h.owners.pointed .dev a hd)
  · rcases (h.owners.hidden a).mp hh with hb | ⟨k, ho⟩
    · exact hkind _ (h.owners.probed a hb.1)
    · exact hkind _ (h.owners.owned _ k a ho)
  · obtain ⟨k, ho⟩ := (h.owners.waiting a).mp hw
    exact hkind _ (h.owners.owned _ k a ho)

/-- The call neither reads nor owns anything. -/
def CtlCall.Outside (c : CtlCall) : Prop := c.reading = false ∧ c.owns = none

/-- A call that neither reads nor owns anything goes on like that, or returns. -/
theorem CtlInv.outside (h : CtlInv ep) (ht : (ep.call t).Outside) {c : CtlCall} (hc : c.Outside) :
    CtlInv (ep.goto t c) where
  rcu := h.rcu
  owners := by
    have hsame : (fun t' => (Function.update ep.call t c t').owns) = fun t' => (ep.call t').owns :=
      owns_same (hc.2.trans ht.2.symm)
    rw [CtlEp.goto, hsame]
    exact h.owners
  readers := h.readers.write rfl rfl (fun _ _ _ => rfl) ht.1 hc.1
  fault := h.fault

/-- `rcu_read_lock`. -/
theorem CtlInv.readLock (h : CtlInv ep) (ht : (ep.call t).Outside) (use : CtlUse) : CtlInv (ep.readLock t use) where
  rcu := by
    refine h.rcu.enter fun hact => ?_
    have hr := (h.readers.active t).mp hact
    rw [ht.1] at hr
    cases hr
  owners := by
    have hsame : (fun t' => (Function.update ep.call t (CtlCall.locked use) t').owns) = fun t' => (ep.call t').owns :=
      owns_same ht.2.symm
    rw [CtlEp.readLock, CtlEp.goto, hsame]
    exact h.owners.domain rfl rfl fun _ => Iff.rfl
  readers := h.readers.enter use
  fault := h.fault

/-- A thread that reads owns nothing. -/
theorem owns_of_reading {c : CtlCall} (hr : c.reading = true) : c.owns = none := by
  cases c with
  | owner stage kind a => cases hr
  | returned ret => rfl
  | entering use => rfl
  | locked use => rfl
  | found use ptr => rfl
  | calling use a fn => rfl

/-- `rcu_read_unlock`. -/
theorem CtlInv.readUnlock (h : CtlInv ep) (ht : (ep.call t).reading = true) (ret : CtlRet) :
    CtlInv (ep.readUnlock t ret) where
  rcu := h.rcu.leave
  owners := by
    have hsame : (fun t' => (Function.update ep.call t (CtlCall.returned ret) t').owns) = fun t' => (ep.call t').owns :=
      owns_same (owns_of_reading ht).symm
    rw [CtlEp.readUnlock, CtlEp.goto, hsame]
    exact h.owners.domain rfl rfl fun _ => leave_waits
  readers := h.readers.leave h.rcu ret
  fault := h.fault

/-- A thread begins with a function of the log. -/
theorem CtlInv.begin (h : CtlInv ep) (t : ℕ) (c : DbgCall) : CtlInv (ep.begin t c) :=
  ⟨h.rcu, h.owners, h.readers, h.fault⟩

/-- The end of a send. -/
theorem CtlInv.sent (h : CtlInv ep) (ht : (ep.call t).reading = true) (rc : ℤ) : CtlInv (ep.sent t rc) := by
  unfold CtlEp.sent
  split
  · exact h.readUnlock ht _
  · exact (h.readUnlock ht _).begin t _

/-- A reader goes on. -/
theorem CtlInv.goto (h : CtlInv ep) {c : CtlCall} (ht : (ep.call t).reading = true) (hc : c.reading = true)
    (hheld : c.held = (ep.call t).held) (hsees : c.Sees ep.heap) : CtlInv (ep.goto t c) where
  rcu := h.rcu
  owners := by
    have hsame : (fun t' => (Function.update ep.call t c t').owns) = fun t' => (ep.call t').owns :=
      owns_same ((owns_of_reading hc).trans (owns_of_reading ht).symm)
    rw [CtlEp.goto, hsame]
    exact h.owners
  readers := h.readers.goto ht hc hheld hsees
  fault := h.fault

/-- `rcu_dereference`. -/
theorem CtlInv.dereference (h : CtlInv ep) {use : CtlUse} (ht : ep.call t = .locked use) :
    CtlInv (ep.dereference t use) := by
  have hr : (ep.call t).reading = true := by rw [ht]; rfl
  unfold CtlEp.dereference
  split
  · exact h.goto hr rfl (by rw [ht]; rfl) trivial
  · rename_i a hptr
    have hpub : a ∈ ep.rcu.published := by
      rw [h.owners.published]
      cases hk : use.kind with
      | client => exact .inl (hk ▸ hptr)
      | dev => exact .inr (hk ▸ hptr)
    refine ⟨h.rcu.find ((h.readers.active t).mpr hr) hpub, ?_, h.readers.find ht (h.owners.pointed _ a hptr), h.fault⟩
    have hsame : (fun t' => (Function.update ep.call t (CtlCall.found use (some (a, ep.heap a))) t').owns) =
        fun t' => (ep.call t').owns := owns_same (by rw [ht]; rfl)
    rw [CtlEp.goto, hsame]
    exact h.owners.domain rfl rfl fun _ => Iff.rfl

/-- The call through a pointer. -/
theorem CtlInv.use (h : CtlInv ep) {alloc : Bool} {use : CtlUse} {ptr : Option (ℕ × Option CtlObj)}
    (ht : ep.call t = .found use ptr) : CtlInv (ep.use t alloc use ptr) := by
  have hr : (ep.call t).reading = true := by rw [ht]; rfl
  have hsees := h.readers.sees t
  rw [ht] at hsees
  cases ptr with
  | none =>
    cases use with
    | post data isSkb => exact h.readUnlock hr _
    | send skb => exact h.sent hr _
  | some x =>
    obtain ⟨a, was⟩ := x
    obtain ⟨hwas, hkind⟩ := hsees
    rw [← hwas] at hkind
    have hcall : ∀ fn, (ep.heap a).bind CtlObj.fn = some fn → CtlInv (ep.goto t (.calling use a fn)) :=
      fun fn hfn => h.goto hr rfl (by rw [ht]; rfl) ⟨hkind, hfn⟩
    obtain ⟨obj, hobj, hk⟩ := Option.map_eq_some_iff.mp hkind
    cases use with
    | post data isSkb =>
      cases obj with
      | dev xmit => cases hk
      | client hooks =>
        unfold CtlEp.use
        simp only [hobj]
        split
        · exact h.readUnlock hr _
        · rename_i fn hfn
          split
          · exact hcall fn (by rw [hobj]; exact hfn)
          · exact h.readUnlock hr _
    | send skb =>
      cases obj with
      | client hooks => cases hk
      | dev xmit =>
        unfold CtlEp.use
        simp only [hobj]
        split
        · exact h.sent hr _
        · rename_i fn
          exact hcall fn (by rw [hobj]; rfl)

/-- `kzalloc`. -/
theorem CtlInv.kzalloc (h : CtlInv ep) (ht : (ep.call t).Outside) {obj : CtlObj}
    (hs : ep.kzalloc t a obj = some ep') : CtlInv ep' := by
  unfold CtlEp.kzalloc at hs
  split at hs
  · rename_i ha
    obtain rfl := Option.some.inj hs
    refine ⟨h.rcu, ?_, ?_, h.fault⟩
    · show CtlOwners _ ep.ptr ep.bound (fun t' => (Function.update ep.call t _ t').owns) ep.rcu
      rw [owns_update]
      exact h.owners.alloc ha ht.2 obj
    · refine h.readers.write rfl rfl (fun t' b hb => Function.update_of_ne ?_ _ _) ht.1 rfl
      rintro rfl
      exact h.live (h.rcu.live hb) ha
  · cases hs

/-- A thread that owns an object is in the call that says so. -/
theorem owner_of_owns {c : CtlCall} {stage : CtlStage} {kind : CtlKind} (hc : c.owns = some (stage, kind, a)) :
    c = .owner stage kind a := by
  cases c with
  | owner stage' kind' a' =>
    obtain ⟨rfl, rfl, rfl⟩ : stage' = stage ∧ kind' = kind ∧ a' = a := by simpa [CtlCall.owns] using hc
    rfl
  | returned ret => cases hc
  | entering use => cases hc
  | locked use => cases hc
  | found use ptr => cases hc
  | calling use a fn => cases hc

/-- A thread that owns an object does not read. -/
theorem reading_of_owns {c : CtlCall} {stage : CtlStage} {kind : CtlKind} (hc : c = .owner stage kind a) :
    c.reading = false := by
  rw [hc]
  rfl

/-- An object that has not been published cannot be found. -/
theorem CtlInv.unknown (h : CtlInv ep) {k : CtlKind} (ht : ep.call t = .owner .allocated k a) : ¬ ep.rcu.Live a := by
  have hown : (ep.call t).owns = some (.allocated, k, a) := by rw [ht]; rfl
  rintro (hp | hh | hw)
  · rcases (h.owners.published a).mp hp with hc | hd
    · exact h.owners.unpublished _ _ a ⟨t, hown⟩ .client hc
    · exact h.owners.unpublished _ _ a ⟨t, hown⟩ .dev hd
  · rcases (h.owners.hidden a).mp hh with hbound | ⟨k', ho⟩
    · exact h.owners.unbound _ _ a ⟨t, hown⟩ hbound.1
    · cases h.owners.once.only hown ho rfl
  · obtain ⟨k', ho⟩ := (h.owners.waiting a).mp hw
    cases h.owners.once.only hown ho rfl

/-- A client that is one too many is freed. -/
theorem CtlInv.dropClient (h : CtlInv ep) {k : CtlKind} (ht : ep.call t = .owner .allocated k a) (ret : CtlRet) :
    CtlInv ((ep.kfree a).goto t (.returned ret)) := by
  have hown : (ep.call t).owns = some (.allocated, k, a) := by rw [ht]; rfl
  have hobj := h.owners.owned _ _ _ ⟨t, hown⟩
  have hlive : ep.heap a ≠ none := by
    intro hnone
    rw [hnone] at hobj
    cases hobj
  rw [CtlEp.kfree, if_neg hlive]
  refine ⟨h.rcu, ?_, ?_, h.fault⟩
  · show CtlOwners _ ep.ptr ep.bound (fun t' => (Function.update ep.call t _ t').owns) ep.rcu
    rw [owns_update]
    exact h.owners.drop hown
  · refine h.readers.write rfl rfl (fun t' b hb => Function.update_of_ne ?_ _ _) (reading_of_owns ht) rfl
    rintro rfl
    exact h.unknown ht (h.rcu.live hb)

/-- The device pointer is cleared. -/
theorem CtlInv.clearDev (h : CtlInv ep) : CtlInv (ep.clear .dev) ∧ (ep.clear .dev).ptr .dev = none := by
  unfold CtlEp.clear
  split
  · rename_i hk
    exact ⟨h, hk⟩
  · rename_i b hk
    refine ⟨⟨?_, h.owners.hideDev h.rcu hk, ⟨h.readers.active, h.readers.holds, h.readers.sees⟩, h.fault⟩, ?_⟩
    · exact h.rcu.hide ((h.owners.published b).mpr (.inr hk))
    · show Function.update ep.ptr .dev none .dev = none
      exact Function.update_self ..

@[simp] theorem clear_call (kind : CtlKind) : (ep.clear kind).call = ep.call := by
  unfold CtlEp.clear
  split <;> rfl

/-- `rmnet_ctl_register_client`, under `client_lock`. -/
theorem CtlInv.assignClient (h : CtlInv ep) (ht : ep.call t = .owner .allocated .client a) (hk : ep.ptr .client = none)
    (ret : CtlRet) : CtlInv ((ep.assign .client a).goto t (.returned ret)) := by
  refine ⟨h.rcu.publish (h.unknown ht), ?_, ?_, h.fault⟩
  · show CtlOwners ep.heap _ ep.bound (fun t' => (Function.update ep.call t _ t').owns) _
    rw [owns_update]
    exact h.owners.assignClient (by rw [ht]; rfl) hk
  · exact h.readers.write rfl rfl (fun _ _ _ => rfl) (reading_of_owns ht) rfl

/-- `rmnet_ctl_endpoint_setdev`, by `rmnet_ctl_probe`. -/
theorem CtlInv.setdev (h : CtlInv ep) (ht : ep.call t = .owner .allocated .dev a) (ret : CtlRet) :
    CtlInv ({ rmnetCtlEndpointSetdev ep (some a) with bound := a :: ep.bound }.goto t (.returned ret)) := by
  obtain ⟨hc, hk⟩ := h.clearDev
  have hbound : (ep.clear .dev).bound = ep.bound := by
    unfold CtlEp.clear
    split <;> rfl
  have ht' : (ep.clear .dev).call t = .owner .allocated .dev a := by rw [clear_call, ht]
  refine ⟨hc.rcu.publish (hc.unknown ht'), ?_, ?_, hc.fault⟩
  · show CtlOwners (ep.clear .dev).heap _ (a :: ep.bound)
      (fun t' => (Function.update (ep.clear .dev).call t _ t').owns) _
    rw [owns_update, ← hbound]
    exact hc.owners.assignDev (by rw [ht']; rfl) hk
  · exact hc.readers.write rfl rfl (fun _ _ _ => rfl) (reading_of_owns ht') rfl

/-- `rmnet_ctl_unregister_client`, under `client_lock`. -/
theorem CtlInv.unregister (h : CtlInv ep) (ht : (ep.call t).Outside) (handle : Option ℕ) :
    CtlInv (rmnetCtlUnregisterClient ep t handle) := by
  unfold rmnetCtlUnregisterClient
  split
  · exact h.outside ht ⟨rfl, rfl⟩
  · rename_i hk
    cases handle with
    | none => exact (h.outside ht ⟨rfl, rfl⟩).begin t _
    | some a =>
      have hk := not_not.mp hk
      simp only [CtlEp.clear, hk]
      refine ⟨h.rcu.hide ((h.owners.published a).mpr (.inl hk)), ?_, ?_, h.fault⟩
      · show CtlOwners ep.heap _ ep.bound (fun t' => (Function.update ep.call t _ t').owns) _
        rw [owns_update]
        exact h.owners.hideClient h.rcu ht.2 hk
      · exact h.readers.write rfl rfl (fun _ _ _ => rfl) ht.1 rfl

/-- `rmnet_ctl_remove`, with `rmnet_ctl_endpoint_setdev`. -/
theorem CtlInv.remove (h : CtlInv ep) (ht : (ep.call t).Outside) (hs : rmnetCtlRemove ep t a = some ep') :
    CtlInv ep' := by
  unfold rmnetCtlRemove at hs
  split at hs
  · rename_i ha
    obtain rfl := Option.some.inj hs
    obtain ⟨hc, hk⟩ := h.clearDev
    have hclear : rmnetCtlEndpointSetdev { ep with bound := ep.bound.erase a } none =
        { ep.clear .dev with bound := ep.bound.erase a } := by
      unfold rmnetCtlEndpointSetdev CtlEp.clear
      dsimp only
      split <;> rfl
    have hbound : (ep.clear .dev).bound = ep.bound := by
      unfold CtlEp.clear
      split <;> rfl
    have ht' : ((ep.clear .dev).call t).Outside := by rw [clear_call]; exact ht
    rw [hclear]
    refine ⟨hc.rcu, ?_, ?_, hc.fault⟩
    · show CtlOwners (ep.clear .dev).heap _ (ep.bound.erase a)
        (fun t' => (Function.update (ep.clear .dev).call t _ t').owns) _
      rw [owns_update, ← hbound]
      exact hc.owners.remove ht'.2 (by rw [hbound]; exact ha) hk
    · exact hc.readers.write rfl rfl (fun _ _ _ => rfl) ht'.1 rfl
  · cases hs

/-- `synchronize_rcu` begins. -/
theorem CtlInv.synchronize (h : CtlInv ep) {k : CtlKind} (ht : ep.call t = .owner .hidden k a) :
    CtlInv ({ ep with rcu := ep.rcu.synchronize a }.goto t (.owner .waiting k a)) := by
  have hown : (ep.call t).owns = some (.hidden, k, a) := by rw [ht]; rfl
  refine ⟨h.rcu.synchronize ((h.owners.hidden a).mpr (.inr ⟨k, t, hown⟩)), ?_, ?_, h.fault⟩
  · show CtlOwners ep.heap ep.ptr ep.bound (fun t' => (Function.update ep.call t _ t').owns) _
    rw [owns_update]
    exact h.owners.synchronize h.rcu hown
  · exact h.readers.write rfl rfl (fun _ _ _ => rfl) (reading_of_owns ht) rfl

/-- `synchronize_rcu` returns, and the object is freed. -/
theorem CtlInv.reclaim (h : CtlInv ep) {k : CtlKind} (ht : ep.call t = .owner .waiting k a)
    (hw : (a, []) ∈ ep.rcu.waiting) (ret : CtlRet) :
    CtlInv (({ ep with rcu := ep.rcu.reclaim a }.kfree a).goto t (.returned ret)) := by
  have hown : (ep.call t).owns = some (.waiting, k, a) := by rw [ht]; rfl
  have hlive : ep.heap a ≠ none := h.live (.inr (.inr ⟨[], hw⟩))
  rw [CtlEp.kfree, if_neg hlive]
  refine ⟨h.rcu.reclaim hw, ?_, ?_, h.fault⟩
  · show CtlOwners _ ep.ptr ep.bound (fun t' => (Function.update ep.call t _ t').owns) _
    rw [owns_update]
    exact h.owners.reclaim h.rcu hown hw
  · refine h.readers.write rfl rfl (fun t' b hb => Function.update_of_ne ?_ _ _) (reading_of_owns ht) rfl
    rintro rfl
    exact h.rcu.unheld hw t' hb

/-- The owner of an object goes on. -/
theorem CtlInv.own (h : CtlInv ep) {stage : CtlStage} {k : CtlKind} (ht : ep.call t = .owner stage k a)
    (hs : ep.own t stage k a = some ep') : CtlInv ep' := by
  cases stage with
  | allocated =>
    cases k with
    | client =>
      rw [CtlEp.own] at hs
      split at hs
      · obtain rfl := Option.some.inj hs
        exact h.dropClient ht _
      · rename_i hk
        obtain rfl := Option.some.inj hs
        exact (h.assignClient ht (Option.not_isSome_iff_eq_none.mp hk) _).begin t _
    | dev =>
      obtain rfl := Option.some.inj hs
      exact h.setdev ht _
  | hidden =>
    obtain rfl := Option.some.inj hs
    exact h.synchronize ht
  | waiting =>
    unfold CtlEp.own at hs
    dsimp only at hs
    split at hs
    · rename_i hw
      cases k with
      | client =>
        obtain rfl := Option.some.inj hs
        exact (h.reclaim ht hw _).begin t _
      | dev =>
        obtain rfl := Option.some.inj hs
        exact h.reclaim ht hw _
    · cases hs

/-- The next step of a call. -/
theorem CtlInv.go (h : CtlInv ep) {alloc : Bool} {rc : ℤ} (hs : ep.go t alloc rc = some ep') : CtlInv ep' := by
  unfold CtlEp.go at hs
  split at hs
  · cases hs
  · rename_i use ht
    obtain rfl := Option.some.inj hs
    exact h.readLock (by rw [ht]; exact ⟨rfl, rfl⟩) use
  · rename_i use ht
    obtain rfl := Option.some.inj hs
    exact h.dereference ht
  · rename_i use ptr ht
    obtain rfl := Option.some.inj hs
    exact h.use ht
  · rename_i ht
    obtain rfl := Option.some.inj hs
    exact h.readUnlock (by rw [ht]; rfl) _
  · rename_i ht
    obtain rfl := Option.some.inj hs
    exact h.sent (by rw [ht]; rfl) _
  · rename_i stage k a ht
    exact h.own ht hs

/-- **The step lemma.** -/
theorem CtlInv.step (h : CtlInv ep) {e : ℕ × CtlAction} (hs : CtlStep ep e ep') : CtlInv ep' := by
  obtain ⟨t, act⟩ := e
  unfold CtlStep ctlStep at hs
  split at hs
  · exact h.go hs
  · -- the log
    obtain ⟨x, -, rfl⟩ := Option.map_eq_some_iff.mp hs
    exact ⟨h.rcu, h.owners, h.readers, h.fault⟩
  · obtain rfl := Option.some.inj hs
    exact ⟨h.rcu, h.owners, h.readers, h.fault⟩
  · obtain rfl := Option.some.inj hs
    exact h.begin t _
  · obtain rfl := Option.some.inj hs
    exact h.begin t _
  · obtain rfl := Option.some.inj hs
    exact h.begin t _
  · rename_i data len r _ ht _
    have ht : (ep.call t).Outside := by rw [ht]; exact ⟨rfl, rfl⟩
    obtain rfl := Option.some.inj hs
    unfold rmnetCtlEndpointPost
    split
    · exact h.outside ht ⟨rfl, rfl⟩
    · split
      · exact h.outside ht ⟨rfl, rfl⟩
      · split
        · exact (h.outside ht ⟨rfl, rfl⟩).begin t _
        · exact (h.outside ht ⟨rfl, rfl⟩).begin t _
  · rename_i handle skb r _ ht _
    have ht : (ep.call t).Outside := by rw [ht]; exact ⟨rfl, rfl⟩
    obtain rfl := Option.some.inj hs
    unfold rmnetCtlSendClient
    split
    · exact h.outside ht ⟨rfl, rfl⟩
    · exact (h.outside ht ⟨rfl, rfl⟩).begin t _
  · rename_i hook kzalloc r _ ht _
    have ht : (ep.call t).Outside := by rw [ht]; exact ⟨rfl, rfl⟩
    unfold rmnetCtlRegisterClient at hs
    split at hs
    · obtain rfl := Option.some.inj hs
      exact h.outside ht ⟨rfl, rfl⟩
    · obtain rfl := Option.some.inj hs
      exact h.outside ht ⟨rfl, rfl⟩
    · exact h.kzalloc ht hs
  · rename_i handle r _ ht _
    obtain rfl := Option.some.inj hs
    exact h.unregister (by rw [ht]; exact ⟨rfl, rfl⟩) handle
  · rename_i xmit devmKzalloc prepared r _ ht _
    have ht : (ep.call t).Outside := by rw [ht]; exact ⟨rfl, rfl⟩
    unfold rmnetCtlProbe at hs
    split at hs
    · obtain rfl := Option.some.inj hs
      exact h.outside ht ⟨rfl, rfl⟩
    · split at hs
      · exact h.kzalloc ht hs
      · obtain rfl := Option.some.inj hs
        exact h.outside ht ⟨rfl, rfl⟩
  · rename_i a r _ ht _
    exact h.remove (by rw [ht]; exact ⟨rfl, rfl⟩) hs
  · cases hs

/-- **The run lemma.** -/
theorem ctlRun_inv {h : List (CtlEp × (ℕ × CtlAction))} (hex : Exec CtlInit CtlStep h ep) :
    ∀ x ∈ h.map Prod.fst ++ [ep], CtlInv x :=
  hex.invariant (fun _ hi => ctlInit_inv hi) (fun _ _ _ hI hs (_ : True) => hI.step hs) fun _ _ => trivial

/-- A call that can go on does so when it has done with the log. -/
theorem ctlStep_go {alloc : Bool} {rc : ℤ} (hgo : (ep.go t alloc rc).isSome = true) :
    (ctlStep ep (t, .go alloc rc .null)).isSome = true := by
  cases haux : ep.aux t with
  | idle => simpa only [ctlStep, haux] using hgo
  | _ => simp [ctlStep, haux, dbgStep, CtlDbg.create]

/-- A thread that waits goes on, or waits for a call that goes on. -/
theorem CtlInv.progress (h : CtlInv ep) {k : CtlKind} (ht : ep.call t = .owner .waiting k a) :
    (∀ alloc rc, (ctlStep ep (t, .go alloc rc .null)).isSome = true) ∨
      ∃ t', (ep.call t').reading = true ∧ ∀ alloc rc, (ctlStep ep (t', .go alloc rc .null)).isSome = true := by
  have hown : (ep.call t).owns = some (.waiting, k, a) := by rw [ht]; rfl
  obtain ⟨rs, hw⟩ := (h.owners.waiting a).mpr ⟨k, t, hown⟩
  cases rs with
  | nil =>
    refine .inl fun alloc rc => ctlStep_go ?_
    rw [CtlEp.go, ht]
    dsimp only [CtlEp.own]
    rw [if_pos hw]
    cases k with
    | client => rfl
    | dev => rfl
  | cons t' rs =>
    have hr := (h.readers.active t').mp ((h.rcu.awaited _ hw).2 t' List.mem_cons_self)
    refine .inr ⟨t', hr, fun alloc rc => ctlStep_go ?_⟩
    unfold CtlEp.go
    cases hc : ep.call t' with
    | returned ret => rw [hc] at hr; cases hr
    | entering use => rw [hc] at hr; cases hr
    | owner stage kind a => rw [hc] at hr; cases hr
    | locked use => rfl
    | found use ptr => rfl
    | calling use a fn => cases use <;> rfl

/-- A function that runs is that of an object that has not been freed, and which is still pointed to, or is being taken
away by a thread that waits for the call. -/
theorem CtlInv.calling (h : CtlInv ep) {use : CtlUse} {fn : ℕ} (ht : ep.call t = .calling use a fn) :
    (ep.heap a).map CtlObj.kind = some use.kind ∧ (ep.heap a).bind CtlObj.fn = some fn ∧
      (ep.ptr .client = some a ∨ a ∈ ep.bound ∨
        ∃ t' stage, ep.call t' = .owner stage use.kind a ∧ stage ≠ .allocated) := by
  have hsees := h.readers.sees t
  rw [ht] at hsees
  have hheld : a ∈ ep.rcu.holds t := by
    rw [h.readers.holds, ht]
    exact List.mem_singleton.mpr rfl
  have hlive := h.rcu.live hheld
  refine ⟨hsees.1, hsees.2, ?_⟩
  rcases h.owners.accounted a (h.live hlive) with hc | hb | ⟨stage, k, t', ht'⟩
  · exact .inl hc
  · exact .inr (.inl hb)
  · have hk : k = use.kind := Option.some.inj ((h.owners.owned _ _ _ ⟨t', ht'⟩).symm.trans hsees.1)
    have hcall := owner_of_owns ht'
    refine .inr (.inr ⟨t', stage, hk ▸ hcall, ?_⟩)
    rintro rfl
    exact h.unknown hcall hlive

end

/-! ### The log -/

/-- What a step does to the log whose thread was in none of its functions: the thread begins with one, or does not. -/
def CtlEp.Begins (ep : CtlEp) (t : ℕ) (ep' : CtlEp) : Prop :=
  ∃ c, (∀ ipcLog, c ≠ .logWrite ipcLog) ∧ ep'.dbg = ep.dbg ∧ ep'.aux = Function.update ep.aux t c

section

variable {ep ep₁ ep' : CtlEp} {t a : ℕ}

/-- The step has nothing to do with the log. -/
theorem begins_same (haux : ep.aux t = .idle) (hd : ep'.dbg = ep.dbg) (ha : ep'.aux = ep.aux) : ep.Begins t ep' := by
  refine ⟨.idle, nofun, hd, ?_⟩
  rw [ha, ← haux, Function.update_eq_self]

/-- The step ends with a call into the log. -/
theorem begins_begin {c : DbgCall} (hc : ∀ ipcLog, c ≠ .logWrite ipcLog) (hd : ep₁.dbg = ep.dbg)
    (ha : ep₁.aux = ep.aux) : ep.Begins t (ep₁.begin t c) :=
  ⟨c, hc, hd, by rw [CtlEp.begin, ha]⟩

theorem setDbgfs_ne (enable : Bool) (ipcLog : DbgPtr) : rmnetCtlSetDbgfs enable ≠ .logWrite ipcLog := by
  cases enable with
  | false => nofun
  | true => nofun

@[simp] theorem kfree_dbg : (ep.kfree a).dbg = ep.dbg := by
  unfold CtlEp.kfree
  split <;> rfl

@[simp] theorem kfree_aux : (ep.kfree a).aux = ep.aux := by
  unfold CtlEp.kfree
  split <;> rfl

@[simp] theorem clear_dbg (kind : CtlKind) : (ep.clear kind).dbg = ep.dbg := by
  unfold CtlEp.clear
  split <;> rfl

@[simp] theorem clear_aux (kind : CtlKind) : (ep.clear kind).aux = ep.aux := by
  unfold CtlEp.clear
  split <;> rfl

/-- The end of a send. -/
theorem sent_begins (haux : ep.aux t = .idle) (rc : ℤ) : ep.Begins t (ep.sent t rc) := by
  unfold CtlEp.sent
  split
  · exact begins_same haux rfl rfl
  · exact begins_begin nofun rfl rfl

/-- The call through a pointer. -/
theorem use_begins (haux : ep.aux t = .idle) (alloc : Bool) (use : CtlUse) (ptr : Option (ℕ × Option CtlObj)) :
    ep.Begins t (ep.use t alloc use ptr) := by
  unfold CtlEp.use
  split
  · exact begins_same haux rfl rfl
  · exact sent_begins haux _
  · split
    · split
      · exact begins_same haux rfl rfl
      · split
        · exact begins_same haux rfl rfl
        · exact begins_same haux rfl rfl
    · exact begins_same haux rfl rfl
  · split
    · split
      · exact sent_begins haux _
      · exact begins_same haux rfl rfl
    · exact begins_same haux rfl rfl

/-- The owner of an object goes on. -/
theorem own_begins (haux : ep.aux t = .idle) {stage : CtlStage} {k : CtlKind}
    (hs : ep.own t stage k a = some ep') : ep.Begins t ep' := by
  unfold CtlEp.own at hs
  split at hs
  · split at hs
    · obtain rfl := Option.some.inj hs
      exact begins_same haux kfree_dbg kfree_aux
    · obtain rfl := Option.some.inj hs
      exact begins_begin (setDbgfs_ne true) rfl rfl
  · obtain rfl := Option.some.inj hs
    exact begins_same haux (clear_dbg _) (clear_aux _)
  · obtain rfl := Option.some.inj hs
    exact begins_same haux rfl rfl
  · split at hs
    · dsimp only at hs
      split at hs
      · obtain rfl := Option.some.inj hs
        exact begins_begin (setDbgfs_ne false) kfree_dbg kfree_aux
      · obtain rfl := Option.some.inj hs
        exact begins_same haux kfree_dbg kfree_aux
    · cases hs

/-- The next step of a call. -/
theorem go_begins (haux : ep.aux t = .idle) {alloc : Bool} {rc : ℤ} (hs : ep.go t alloc rc = some ep') :
    ep.Begins t ep' := by
  unfold CtlEp.go at hs
  split at hs
  · cases hs
  · obtain rfl := Option.some.inj hs
    exact begins_same haux rfl rfl
  · obtain rfl := Option.some.inj hs
    unfold CtlEp.dereference
    split
    · exact begins_same haux rfl rfl
    · exact begins_same haux rfl rfl
  · obtain rfl := Option.some.inj hs
    exact use_begins haux ..
  · obtain rfl := Option.some.inj hs
    exact begins_same haux rfl rfl
  · obtain rfl := Option.some.inj hs
    exact sent_begins haux _
  · exact own_begins haux hs

/-- A new object. -/
theorem kzalloc_begins (haux : ep.aux t = .idle) {obj : CtlObj} (hs : ep.kzalloc t a obj = some ep') :
    ep.Begins t ep' := by
  unfold CtlEp.kzalloc at hs
  split at hs
  · obtain rfl := Option.some.inj hs
    exact begins_same haux rfl rfl
  · cases hs

/-- **What a step does to the log.**  Its thread was in none of the functions, or goes on in one, or the level is
set. -/
theorem ctlStep_log {e : ℕ × CtlAction} (hs : CtlStep ep e ep') :
    (ep.aux e.1 = .idle ∧ ep.Begins e.1 ep') ∨
      (∃ made c, dbgStep ep.dbg made (ep.aux e.1) = some (ep'.dbg, c) ∧ ep'.aux = Function.update ep.aux e.1 c) ∨
      ∃ n, ep'.dbg = { ep.dbg with ipcLogLvl := n } ∧ ep'.aux = ep.aux := by
  obtain ⟨t, act⟩ := e
  unfold CtlStep ctlStep at hs
  split at hs
  · rename_i haux
    exact .inl ⟨haux, go_begins haux hs⟩
  · rename_i made _ _
    obtain ⟨x, hx, rfl⟩ := Option.map_eq_some_iff.mp hs
    exact .inr (.inl ⟨made, x.2, hx, rfl⟩)
  · rename_i n _
    obtain rfl := Option.some.inj hs
    exact .inr (.inr ⟨n, rfl, rfl⟩)
  · rename_i haux
    obtain rfl := Option.some.inj hs
    exact .inl ⟨haux, begins_begin nofun rfl rfl⟩
  · rename_i haux
    obtain rfl := Option.some.inj hs
    exact .inl ⟨haux, begins_begin nofun rfl rfl⟩
  · rename_i enable _ _ _ haux
    obtain rfl := Option.some.inj hs
    exact .inl ⟨haux, begins_begin (setDbgfs_ne enable) rfl rfl⟩
  · rename_i haux
    obtain rfl := Option.some.inj hs
    refine .inl ⟨haux, ?_⟩
    unfold rmnetCtlEndpointPost
    split
    · exact begins_same haux rfl rfl
    · split
      · exact begins_same haux rfl rfl
      · split
        · exact begins_begin nofun rfl rfl
        · exact begins_begin nofun rfl rfl
  · rename_i haux
    obtain rfl := Option.some.inj hs
    refine .inl ⟨haux, ?_⟩
    unfold rmnetCtlSendClient
    split
    · exact begins_same haux rfl rfl
    · exact begins_begin nofun rfl rfl
  · rename_i haux
    refine .inl ⟨haux, ?_⟩
    unfold rmnetCtlRegisterClient at hs
    split at hs
    · obtain rfl := Option.some.inj hs
      exact begins_same haux rfl rfl
    · obtain rfl := Option.some.inj hs
      exact begins_same haux rfl rfl
    · exact kzalloc_begins haux hs
  · rename_i haux
    obtain rfl := Option.some.inj hs
    refine .inl ⟨haux, ?_⟩
    unfold rmnetCtlUnregisterClient
    split
    · exact begins_same haux rfl rfl
    · split
      · exact begins_begin (setDbgfs_ne false) rfl rfl
      · exact begins_same haux (clear_dbg _) (clear_aux _)
  · rename_i haux
    refine .inl ⟨haux, ?_⟩
    unfold rmnetCtlProbe at hs
    split at hs
    · obtain rfl := Option.some.inj hs
      exact begins_same haux rfl rfl
    · split at hs
      · exact kzalloc_begins haux hs
      · obtain rfl := Option.some.inj hs
        exact begins_same haux rfl rfl
  · rename_i haux
    refine .inl ⟨haux, ?_⟩
    unfold rmnetCtlRemove at hs
    split at hs
    · obtain rfl := Option.some.inj hs
      exact begins_same haux (clear_dbg _) (clear_aux _)
    · cases hs
  · cases hs

/-- The log, over a step in which nobody disturbs its removal. -/
theorem DbgInv.ctlStep (h : DbgInv ep.dbg ep.aux) {e : ℕ × CtlAction} (hs : CtlStep ep e ep')
    (hq : DbgQuiet ep.aux) : DbgInv ep'.dbg ep'.aux := by
  rcases ctlStep_log hs with ⟨haux, c, hc, hd, ha⟩ | ⟨made, c, hstep, ha⟩ | ⟨n, hd, ha⟩
  · rw [hd, ha]
    exact h.enter haux hc
  · rw [ha]
    exact h.step hq hstep
  · rw [hd, ha]
    exact ⟨h.fault, h.dir, h.log, h.held⟩

/-- The log, over a run. -/
theorem ctlRun_log {h : List (CtlEp × (ℕ × CtlAction))} (hex : Exec CtlInit CtlStep h ep)
    (hq : ∀ y ∈ h, DbgQuiet y.1.aux) : ∀ x ∈ h.map Prod.fst ++ [ep], DbgInv x.dbg x.aux := by
  refine hex.invariant (fun s hi => ?_) (fun _ _ _ hI hs hok => hI.ctlStep hs hok) hq
  obtain ⟨ipcLogLvl, rfl⟩ := hi
  exact ⟨rfl, .inr nofun, .inr nofun, nofun⟩

/-- **Calls through the endpoint are safe.**  In every state of every run, whatever the threads do and whatever memory
is allocated again: no step has used or freed a client or a device that was free; a hook of the client or `xmit` of the
device that is running is the one of an object that has not been freed, and so is what a call has found and is about to
look at; every object that has not been freed is the client, a device that has been probed, or in the hands of a thread;
and a thread that waits in `synchronize_rcu` can go on, or a call between `rcu_read_lock` and `rcu_read_unlock` can.
The log and its directory are neither used nor freed when they are free, as long as nobody else is in
`rmnet_ctl_set_dbgfs` or `rmnet_ctl_log` while a thread removes them. -/
theorem ctl_calls_safe {h : List (CtlEp × (ℕ × CtlAction))} (hex : Exec CtlInit CtlStep h ep) :
    (∀ x ∈ h.map Prod.fst ++ [ep], x.fault = false ∧
      (∀ t use a fn, x.call t = .calling use a fn →
        (x.heap a).map CtlObj.kind = some use.kind ∧ (x.heap a).bind CtlObj.fn = some fn ∧
          (x.ptr .client = some a ∨ a ∈ x.bound ∨
            ∃ t' stage, x.call t' = .owner stage use.kind a ∧ stage ≠ .allocated)) ∧
      (∀ t use a was, x.call t = .found use (some (a, was)) →
        x.heap a = was ∧ was.map CtlObj.kind = some use.kind) ∧
      (∀ a, x.heap a ≠ none →
        x.ptr .client = some a ∨ a ∈ x.bound ∨ ∃ t stage k, x.call t = .owner stage k a) ∧
      (∀ t k a, x.call t = .owner .waiting k a → (∀ alloc rc, (ctlStep x (t, .go alloc rc .null)).isSome = true) ∨
        ∃ t', (x.call t').reading = true ∧ ∀ alloc rc, (ctlStep x (t', .go alloc rc .null)).isSome = true)) ∧
    ((∀ y ∈ h, DbgQuiet y.1.aux) → ∀ x ∈ h.map Prod.fst ++ [ep], x.dbg.fault = false) := by
  refine ⟨fun x hx => ?_, fun hq x hx => (ctlRun_log hex hq x hx).fault⟩
  have hinv := ctlRun_inv hex x hx
  refine ⟨hinv.fault, fun t use a fn ht => hinv.calling ht, fun t use a was ht => ?_, fun a ha => ?_,
    fun t k a ht => hinv.progress ht⟩
  · have hsees := hinv.readers.sees t
    rw [ht] at hsees
    exact hsees
  · rcases hinv.owners.accounted a ha with hc | hb | ⟨stage, k, t, ht⟩
    · exact .inl hc
    · exact .inr (.inl hb)
    · exact .inr (.inr ⟨t, stage, k, owner_of_owns ht⟩)

end

/-! ### A client that goes while its hook runs -/

/-- A client is registered at address 7, its hook 3 is called by a post, and it is unregistered.  The log is created at
address 9, without a directory, and removed again; at its level messages of the modem are not written to it. -/
def goingEvents : List (ℕ × CtlAction) :=
  [(0, .register (some ⟨some 3⟩) (some 7)), (0, .go true 0 .null), (0, .go true 0 .null), (0, .go true 0 .err),
    (0, .go true 0 .null), (0, .go true 0 .null), (0, .go true 0 (.mem 9)), (1, .post (some [1, 2]) 2),
    (1, .go true 0 .null), (1, .go true 0 .null), (1, .go true 0 .null), (1, .go true 0 .null),
    (2, .unregister (some 7)), (2, .go true 0 .null)]

/-- Then the post ends, the client is freed, and the log is removed. -/
def goneEvents : List (ℕ × CtlAction) :=
  [(1, .go true 0 .null), (2, .go true 0 .null), (2, .go true 0 .null), (2, .go true 0 .null)]

/-- The log is written to by a message that was not sent while the client is unregistered. -/
example : ∃ ep, runList ctlStep (CtlEp.unset rmnetCtlLogErr) ((goingEvents.take 7) ++
    [(1, .send (some 7) [5]), (1, .go true 0 .null), (1, .go true 0 .null), (1, .go true 0 .null),
      (1, .go true 0 .null), (1, .go true 0 .null), (1, .go true 0 .null), (2, .unregister (some 7)),
      (2, .go true 0 .null), (2, .go true 0 .null), (2, .go true 0 .null), (2, .go true 0 .null),
      (1, .go true 0 .null)]) = some ep ∧ ep.dbg.fault = true := ⟨_, rfl, rfl⟩

/-- A step of one of three threads while the others are outside the functions of the log. -/
def quietStep (ep : CtlEp) (e : ℕ × CtlAction) : Option CtlEp :=
  if e.1 < 3 ∧ ∀ t ∈ List.range 3, t ≠ e.1 → ep.aux t = .idle then ctlStep ep e else none

/-- A run of these steps. -/
theorem quiet_run {es : List (ℕ × CtlAction)} {ep : CtlEp}
    (hrun : runList quietStep (CtlEp.unset rmnetCtlLogErr) es = some ep) :
    ∃ h, Exec CtlInit CtlStep h ep ∧ ∀ y ∈ h, DbgQuiet y.1.aux := by
  have hquiet : ∀ {ep ep' e}, quietStep ep e = some ep' →
      CtlStep ep e ep' ∧ e.1 < 3 ∧ ∀ t < 3, t ≠ e.1 → ep.aux t = .idle := by
    intro ep ep' e hs
    unfold quietStep at hs
    split at hs
    · rename_i hok
      exact ⟨hs, hok.1, fun t ht => hok.2 t (List.mem_range.mpr ht)⟩
    · cases hs
  have hstart : Exec CtlInit (fun ep e ep' => quietStep ep e = some ep') [] (CtlEp.unset rmnetCtlLogErr) :=
    Exec.start ⟨_, rfl⟩
  obtain ⟨h, hex, -⟩ := Exec.extend (k := fun _ _ => True) es (fun _ _ _ => trivial) hstart (fun _ _ => trivial) hrun
  have hidle : ∀ x ∈ h.map Prod.fst ++ [ep], ∀ t, 3 ≤ t → x.aux t = .idle := by
    refine hex.invariant (fun s hi t _ => ?_) (fun s e s' hI hs (_ : True) t ht => ?_) fun _ _ => trivial
    · obtain ⟨_, rfl⟩ := hi
      rfl
    · obtain ⟨hstep, hthree, -⟩ := hquiet hs
      have hne : t ≠ e.1 := by omega
      rcases ctlStep_log hstep with ⟨-, c, -, -, ha⟩ | ⟨-, c, -, ha⟩ | ⟨-, -, ha⟩
      · rw [ha, Function.update_of_ne hne]
        exact hI t ht
      · rw [ha, Function.update_of_ne hne]
        exact hI t ht
      · rw [ha]
        exact hI t ht
  refine ⟨h, hex.mono fun _ _ _ hs => (hquiet hs).1, fun y hy => ?_⟩
  obtain ⟨s', hs⟩ := hex.taken y hy
  have hothers : ∀ t, t ≠ y.2.1 → y.1.aux t = .idle := by
    intro t hne
    rcases Nat.lt_or_ge t 3 with ht | ht
    · exact (hquiet hs).2.2 t ht hne
    · exact hidle y.1 (List.mem_append_left _ (List.mem_map_of_mem hy)) t ht
  intro t hr t' hne
  have ht : t = y.2.1 := by
    by_contra hno
    rw [hothers t hno] at hr
    cases hr
  exact hothers t' (by rw [← ht]; exact hne)

/-- The hook runs, and the client, which is not registered any more, has not been freed; later the log is removed. -/
theorem ctl_calls_safe_going :
    (∃ h ep, Exec CtlInit CtlStep h ep ∧ ep.ptr .client = none ∧ ep.call 1 = .calling (.post [1, 2] false) 7 3 ∧
      (ep.heap 7).map CtlObj.kind = some .client) ∧
    ∃ h ep, Exec CtlInit CtlStep h ep ∧ ep.heap 7 = none ∧ ep.dbg.live 9 = none ∧ ep.dbg.fault = false := by
  have hgoing : ∃ ep, runList quietStep (CtlEp.unset rmnetCtlLogErr) goingEvents = some ep ∧ ep.ptr .client = none ∧
      ep.call 1 = .calling (.post [1, 2] false) 7 3 := ⟨_, rfl, rfl, rfl⟩
  have hgone : ∃ ep, runList quietStep (CtlEp.unset rmnetCtlLogErr) (goingEvents ++ goneEvents) = some ep ∧
      ep.heap 7 = none ∧ ep.dbg.live 9 = none := ⟨_, rfl, rfl, rfl⟩
  obtain ⟨ep, hrun, hptr, hcall⟩ := hgoing
  obtain ⟨ep', hrun', hheap, hlive⟩ := hgone
  obtain ⟨h, hex, -⟩ := quiet_run hrun
  obtain ⟨h', hex', hq⟩ := quiet_run hrun'
  exact ⟨⟨h, ep, hex, hptr, hcall, (((ctl_calls_safe hex).1 ep (by simp)).2.1 1 _ 7 3 hcall).1⟩,
    h', ep', hex', hheap, hlive, (ctl_calls_safe hex').2 hq ep' (by simp)⟩

end Rmnet
