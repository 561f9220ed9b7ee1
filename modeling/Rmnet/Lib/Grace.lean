import Mathlib.Data.List.Nodup
import Mathlib.Logic.Function.Basic

/-!
# Objects that are read without a lock

Readers come and go, and find objects that are published.  Whoever takes an object out of sight waits until the
readers that were there have gone, and frees the object then.  A `Domain` keeps the readers with what they have found,
and what is published, hidden, or waiting for readers to go.

* `Sound.enter`, `Sound.find`, `Sound.leave`, `Sound.publish`, `Sound.hide`, `Sound.synchronize`, `Sound.reclaim` — the
  operations.
* `Sound.hideAll`, `Sound.synchronizeAll`, `Sound.reclaimAll` — several objects with one wait.
* `Sound.unheld` — an object whose wait is over is held by no reader.
* `Sound.awaited` — the readers that a wait is for are there, so that the wait ends when they leave.
-/

namespace Grace

variable {ρ α : Type*}

/-- The readers that are there, what each has found, the objects that can be found, those that cannot be any more, and
those being waited for, each with the readers that have still to go. -/
structure Domain (ρ α : Type*) where
  active : List ρ
  holds : ρ → List α
  published : List α
  hidden : List α
  waiting : List (α × List ρ)

/-- Nobody reads and there is nothing to find. -/
def Domain.empty : Domain ρ α := { active := [], holds := fun _ => [], published := [], hidden := [], waiting := [] }

/-- Somebody waits to free the object. -/
def Domain.Waits (d : Domain ρ α) (a : α) : Prop := ∃ rs, (a, rs) ∈ d.waiting

/-- The object is not free. -/
def Domain.Live (d : Domain ρ α) (a : α) : Prop :=
  a ∈ d.published ∨ a ∈ d.hidden ∨ d.Waits a

/-- What holds after every operation. -/
structure Sound (d : Domain ρ α) : Prop where
  active : d.active.Nodup
  held : ∀ r, ∀ a ∈ d.holds r,
    r ∈ d.active ∧ (a ∈ d.published ∨ a ∈ d.hidden ∨ ∃ rs, (a, rs) ∈ d.waiting ∧ r ∈ rs)
  awaited : ∀ w ∈ d.waiting, w.2.Nodup ∧ ∀ r ∈ w.2, r ∈ d.active
  published : d.published.Nodup
  hidden : d.hidden.Nodup
  waiting : (d.waiting.map Prod.fst).Nodup
  unhidden : ∀ a ∈ d.published, a ∉ d.hidden ∧ ∀ rs, (a, rs) ∉ d.waiting
  unwaiting : ∀ a ∈ d.hidden, ∀ rs, (a, rs) ∉ d.waiting

theorem sound_empty : Sound (Domain.empty : Domain ρ α) where
  active := List.nodup_nil
  held := fun _ _ h => absurd h List.not_mem_nil
  awaited := fun _ h => absurd h List.not_mem_nil
  published := List.nodup_nil
  hidden := List.nodup_nil
  waiting := List.nodup_nil
  unhidden := fun _ h => absurd h List.not_mem_nil
  unwaiting := fun _ h => absurd h List.not_mem_nil

/-! ### What is found -/

section

variable {d : Domain ρ α} {r : ρ} {a : α}

/-- What a reader has found is not free. -/
theorem Sound.live (h : Sound d) (ha : a ∈ d.holds r) : d.Live a := by
  rcases (h.held r a ha).2 with hp | hh | ⟨rs, hw, -⟩
  · exact .inl hp
  · exact .inr (.inl hh)
  · exact .inr (.inr ⟨rs, hw⟩)

/-- An object is waited for once. -/
theorem Sound.wait_unique (h : Sound d) {rs rs' : List ρ} (hw : (a, rs) ∈ d.waiting) (hw' : (a, rs') ∈ d.waiting) :
    rs = rs' :=
  congrArg Prod.snd (List.inj_on_of_nodup_map h.waiting hw hw' rfl)

/-- **An object whose wait is over** is held by no reader. -/
theorem Sound.unheld (h : Sound d) (hw : (a, []) ∈ d.waiting) (r : ρ) : a ∉ d.holds r := by
  intro ha
  rcases (h.held r a ha).2 with hp | hh | ⟨rs, hrs, hr⟩
  · exact (h.unhidden a hp).2 _ hw
  · exact h.unwaiting a hh _ hw
  · rw [h.wait_unique hrs hw] at hr
    exact List.not_mem_nil hr

end

/-! ### Readers -/

section

variable [DecidableEq ρ]

/-- A reader comes. -/
def Domain.enter (d : Domain ρ α) (r : ρ) : Domain ρ α :=
  { d with active := r :: d.active, holds := Function.update d.holds r [] }

/-- A reader finds an object. -/
def Domain.find (d : Domain ρ α) (r : ρ) (a : α) : Domain ρ α :=
  { d with holds := Function.update d.holds r (a :: d.holds r) }

/-- A reader goes. -/
def Domain.leave (d : Domain ρ α) (r : ρ) : Domain ρ α :=
  { d with
    active := d.active.erase r
    holds := Function.update d.holds r []
    waiting := d.waiting.map fun w => (w.1, w.2.erase r) }

variable {d : Domain ρ α} {r : ρ} {a : α}

@[simp] theorem enter_holds : (d.enter r).holds = Function.update d.holds r [] := rfl

@[simp] theorem find_holds : (d.find r a).holds = Function.update d.holds r (a :: d.holds r) := rfl

@[simp] theorem leave_holds : (d.leave r).holds = Function.update d.holds r [] := rfl

@[simp, grind =] theorem enter_published : (d.enter r).published = d.published := rfl

@[simp, grind =] theorem enter_hidden : (d.enter r).hidden = d.hidden := rfl

@[simp, grind =] theorem enter_waits : (d.enter r).Waits a ↔ d.Waits a := Iff.rfl

@[simp, grind =] theorem find_published : (d.find r a).published = d.published := rfl

@[simp, grind =] theorem find_hidden : (d.find r a).hidden = d.hidden := rfl

@[simp, grind =] theorem find_waits {b : α} : (d.find r a).Waits b ↔ d.Waits b := Iff.rfl

@[simp, grind =] theorem leave_published : (d.leave r).published = d.published := rfl

@[simp, grind =] theorem leave_hidden : (d.leave r).hidden = d.hidden := rfl

/-- Whoever waits goes on waiting when a reader goes. -/
@[simp, grind =] theorem leave_waits : (d.leave r).Waits a ↔ d.Waits a := by
  constructor
  · rintro ⟨rs, hw⟩
    obtain ⟨⟨b, rs'⟩, hw', heq⟩ := List.mem_map.mp hw
    obtain rfl : b = a := congrArg Prod.fst heq
    exact ⟨rs', hw'⟩
  · rintro ⟨rs, hw⟩
    exact ⟨rs.erase r, List.mem_map.mpr ⟨(a, rs), hw, rfl⟩⟩

/-- A reader comes. -/
theorem Sound.enter (h : Sound d) (hr : r ∉ d.active) : Sound (d.enter r) where
  active := List.nodup_cons.mpr ⟨hr, h.active⟩
  held := by
    intro r' a ha
    by_cases hrr : r' = r
    · subst hrr
      rw [enter_holds, Function.update_self] at ha
      exact absurd ha List.not_mem_nil
    · rw [enter_holds, Function.update_of_ne hrr] at ha
      exact ⟨List.mem_cons_of_mem _ (h.held r' a ha).1, (h.held r' a ha).2⟩
  awaited := fun w hw => ⟨(h.awaited w hw).1, fun r' hr' => List.mem_cons_of_mem _ ((h.awaited w hw).2 r' hr')⟩
  published := h.published
  hidden := h.hidden
  waiting := h.waiting
  unhidden := h.unhidden
  unwaiting := h.unwaiting

/-- A reader finds what is published. -/
theorem Sound.find (h : Sound d) (hr : r ∈ d.active) (ha : a ∈ d.published) : Sound (d.find r a) :=
  { h with
    held := by
      intro r' b hb
      by_cases hrr : r' = r
      · subst hrr
        rw [find_holds, Function.update_self] at hb
        rcases List.mem_cons.mp hb with rfl | hb
        · exact ⟨hr, .inl ha⟩
        · exact h.held r' b hb
      · rw [find_holds, Function.update_of_ne hrr] at hb
        exact h.held r' b hb }

/-- A reader goes, and nobody waits for it any more. -/
theorem Sound.leave (h : Sound d) : Sound (d.leave r) where
  active := h.active.erase r
  held := by
    intro r' b hb
    by_cases hrr : r' = r
    · subst hrr
      rw [leave_holds, Function.update_self] at hb
      exact absurd hb List.not_mem_nil
    · rw [leave_holds, Function.update_of_ne hrr] at hb
      obtain ⟨hact, hwhere⟩ := h.held r' b hb
      refine ⟨(List.mem_erase_of_ne hrr).mpr hact, ?_⟩
      rcases hwhere with hp | hh | ⟨rs, hw, hr'⟩
      · exact .inl hp
      · exact .inr (.inl hh)
      · exact .inr (.inr ⟨rs.erase r, List.mem_map.mpr ⟨(b, rs), hw, rfl⟩, (List.mem_erase_of_ne hrr).mpr hr'⟩)
  awaited := by
    intro w hw
    obtain ⟨⟨b, rs⟩, hw', rfl⟩ := List.mem_map.mp hw
    obtain ⟨hnodup, hact⟩ := h.awaited (b, rs) hw'
    refine ⟨hnodup.erase r, fun r' hr' => ?_⟩
    -- the reader that goes is not among those that are left
    have hne : r' ≠ r := by
      rintro rfl
      exact hnodup.not_mem_erase hr'
    exact (List.mem_erase_of_ne hne).mpr (hact r' (List.mem_of_mem_erase hr'))
  published := h.published
  hidden := h.hidden
  waiting := by
    have hfst : (d.leave r).waiting.map Prod.fst = d.waiting.map Prod.fst := by
      rw [Domain.leave, List.map_map]
      rfl
    rw [hfst]
    exact h.waiting
  unhidden := by
    intro b hb
    refine ⟨(h.unhidden b hb).1, fun rs hw => ?_⟩
    obtain ⟨⟨b', rs'⟩, hw', heq⟩ := List.mem_map.mp hw
    obtain rfl : b' = b := congrArg Prod.fst heq
    exact (h.unhidden b' hb).2 rs' hw'
  unwaiting := by
    intro b hb rs hw
    obtain ⟨⟨b', rs'⟩, hw', heq⟩ := List.mem_map.mp hw
    obtain rfl : b' = b := congrArg Prod.fst heq
    exact h.unwaiting b' hb rs' hw'

end

/-! ### Objects -/

/-- An object can be found. -/
def Domain.publish (d : Domain ρ α) (a : α) : Domain ρ α := { d with published := a :: d.published }

@[simp, grind =] theorem publish_mem {d : Domain ρ α} {a b : α} :
    b ∈ (d.publish a).published ↔ b = a ∨ b ∈ d.published := List.mem_cons

@[simp, grind =] theorem publish_hidden {d : Domain ρ α} {a : α} : (d.publish a).hidden = d.hidden := rfl

@[simp, grind =] theorem publish_waits {d : Domain ρ α} {a b : α} : (d.publish a).Waits b ↔ d.Waits b := Iff.rfl

/-- A free object is published. -/
theorem Sound.publish {d : Domain ρ α} {a : α} (h : Sound d) (ha : ¬ d.Live a) : Sound (d.publish a) where
  active := h.active
  held := fun r b hb => ⟨(h.held r b hb).1, (h.held r b hb).2.imp_left (List.mem_cons_of_mem _)⟩
  awaited := h.awaited
  published := List.nodup_cons.mpr ⟨fun hp => ha (.inl hp), h.published⟩
  hidden := h.hidden
  waiting := h.waiting
  unhidden := by
    intro b hb
    rcases List.mem_cons.mp hb with rfl | hb
    · exact ⟨fun hh => ha (.inr (.inl hh)), fun rs hw => ha (.inr (.inr ⟨rs, hw⟩))⟩
    · exact h.unhidden b hb
  unwaiting := h.unwaiting

section

variable [DecidableEq α]

/-- An object cannot be found any more. -/
def Domain.hide (d : Domain ρ α) (a : α) : Domain ρ α :=
  { d with published := d.published.erase a, hidden := a :: d.hidden }

/-- The wait for the readers that are there begins. -/
def Domain.synchronize (d : Domain ρ α) (a : α) : Domain ρ α :=
  { d with hidden := d.hidden.erase a, waiting := (a, d.active) :: d.waiting }

/-- The wait is over. -/
def Domain.reclaim [DecidableEq ρ] (d : Domain ρ α) (a : α) : Domain ρ α :=
  { d with waiting := d.waiting.erase (a, []) }

variable {d : Domain ρ α} {r : ρ} {a : α}

@[simp, grind =] theorem hide_mem {b : α} : b ∈ (d.hide a).hidden ↔ b = a ∨ b ∈ d.hidden := List.mem_cons

@[simp, grind =] theorem hide_waits {b : α} : (d.hide a).Waits b ↔ d.Waits b := Iff.rfl

@[simp, grind =] theorem synchronize_published : (d.synchronize a).published = d.published := rfl

@[simp, grind =] theorem reclaim_published [DecidableEq ρ] : (d.reclaim a).published = d.published := rfl

@[simp, grind =] theorem reclaim_hidden [DecidableEq ρ] : (d.reclaim a).hidden = d.hidden := rfl

/-- A published object is hidden. -/
theorem Sound.hide (h : Sound d) (ha : a ∈ d.published) : Sound (d.hide a) where
  active := h.active
  held := by
    intro r b hb
    obtain ⟨hact, hwhere⟩ := h.held r b hb
    refine ⟨hact, ?_⟩
    rcases hwhere with hp | hh | hw
    · by_cases hba : b = a
      · subst hba
        exact .inr (.inl List.mem_cons_self)
      · exact .inl ((List.mem_erase_of_ne hba).mpr hp)
    · exact .inr (.inl (List.mem_cons_of_mem _ hh))
    · exact .inr (.inr hw)
  awaited := h.awaited
  published := h.published.erase a
  hidden := List.nodup_cons.mpr ⟨(h.unhidden a ha).1, h.hidden⟩
  waiting := h.waiting
  unhidden := by
    intro b hb
    obtain ⟨hh, hw⟩ := h.unhidden b (List.mem_of_mem_erase hb)
    refine ⟨fun hb' => ?_, hw⟩
    rcases List.mem_cons.mp hb' with rfl | hb'
    · exact h.published.not_mem_erase hb
    · exact hh hb'
  unwaiting := by
    intro b hb
    rcases List.mem_cons.mp hb with rfl | hb
    · exact (h.unhidden b ha).2
    · exact h.unwaiting b hb

/-- The wait for a hidden object begins. -/
theorem Sound.synchronize (h : Sound d) (ha : a ∈ d.hidden) : Sound (d.synchronize a) where
  active := h.active
  held := by
    intro r b hb
    obtain ⟨hact, hwhere⟩ := h.held r b hb
    refine ⟨hact, ?_⟩
    rcases hwhere with hp | hh | ⟨rs, hw, hr⟩
    · exact .inl hp
    · by_cases hba : b = a
      · subst hba
        exact .inr (.inr ⟨d.active, List.mem_cons_self, hact⟩)
      · exact .inr (.inl ((List.mem_erase_of_ne hba).mpr hh))
    · exact .inr (.inr ⟨rs, List.mem_cons_of_mem _ hw, hr⟩)
  awaited := by
    intro w hw
    rcases List.mem_cons.mp hw with rfl | hw
    · exact ⟨h.active, fun _ hr => hr⟩
    · exact h.awaited w hw
  published := h.published
  hidden := h.hidden.erase a
  waiting := by
    refine List.nodup_cons.mpr ⟨fun hw => ?_, h.waiting⟩
    obtain ⟨⟨b, rs⟩, hw', heq⟩ := List.mem_map.mp hw
    obtain rfl : b = a := heq
    exact h.unwaiting b ha rs hw'
  unhidden := by
    intro b hb
    refine ⟨fun hh => (h.unhidden b hb).1 (List.mem_of_mem_erase hh), fun rs hw => ?_⟩
    rcases List.mem_cons.mp hw with heq | hw
    · obtain rfl : b = a := congrArg Prod.fst heq
      exact (h.unhidden b hb).1 ha
    · exact (h.unhidden b hb).2 rs hw
  unwaiting := by
    intro b hb rs hw
    rcases List.mem_cons.mp hw with heq | hw
    · obtain rfl : b = a := congrArg Prod.fst heq
      exact h.hidden.not_mem_erase hb
    · exact h.unwaiting b (List.mem_of_mem_erase hb) rs hw

/-- A wait that is over ends. -/
theorem Sound.reclaim [DecidableEq ρ] (h : Sound d) (hw : (a, []) ∈ d.waiting) : Sound (d.reclaim a) where
  active := h.active
  held := by
    intro r b hb
    obtain ⟨hact, hwhere⟩ := h.held r b hb
    refine ⟨hact, hwhere.imp_right fun hwhere => hwhere.imp_right ?_⟩
    rintro ⟨rs, hrs, hr⟩
    have hne : (b, rs) ≠ (a, []) := by
      rintro heq
      obtain rfl : b = a := congrArg Prod.fst heq
      exact h.unheld hw r hb
    exact ⟨rs, (List.mem_erase_of_ne hne).mpr hrs, hr⟩
  awaited := fun w hw' => h.awaited w (List.mem_of_mem_erase hw')
  published := h.published
  hidden := h.hidden
  waiting := h.waiting.sublist (List.erase_sublist.map Prod.fst)
  unhidden := fun b hb => ⟨(h.unhidden b hb).1, fun rs hrs => (h.unhidden b hb).2 rs (List.mem_of_mem_erase hrs)⟩
  unwaiting := fun b hb rs hrs => h.unwaiting b hb rs (List.mem_of_mem_erase hrs)

/-- The wait for an object has begun. -/
@[simp, grind =] theorem synchronize_waits {b : α} : (d.synchronize a).Waits b ↔ b = a ∨ d.Waits b := by
  constructor
  · rintro ⟨rs, hw⟩
    rcases List.mem_cons.mp hw with heq | hw
    · exact .inl (congrArg Prod.fst heq)
    · exact .inr ⟨rs, hw⟩
  · rintro (rfl | ⟨rs, hw⟩)
    · exact ⟨d.active, List.mem_cons_self⟩
    · exact ⟨rs, List.mem_cons_of_mem _ hw⟩

/-- The wait for an object is over. -/
theorem Sound.reclaim_waits [DecidableEq ρ] (h : Sound d) (hw : (a, []) ∈ d.waiting) {b : α} :
    (d.reclaim a).Waits b ↔ b ≠ a ∧ d.Waits b := by
  constructor
  · rintro ⟨rs, hrs⟩
    refine ⟨?_, rs, List.mem_of_mem_erase hrs⟩
    rintro rfl
    obtain rfl := h.wait_unique (List.mem_of_mem_erase hrs) hw
    exact (List.Nodup.of_map Prod.fst h.waiting).not_mem_erase hrs
  · rintro ⟨hne, rs, hrs⟩
    refine ⟨rs, (List.mem_erase_of_ne fun heq => hne (congrArg Prod.fst heq)).mpr hrs⟩

end

/-! ### Several objects at once -/

section

variable [DecidableEq α]

/-- Several objects cannot be found any more. -/
def Domain.hideAll (d : Domain ρ α) (l : List α) : Domain ρ α := l.foldl Domain.hide d

/-- One wait for several objects. -/
def Domain.synchronizeAll (d : Domain ρ α) (l : List α) : Domain ρ α := l.foldl Domain.synchronize d

/-- The wait for several objects is over. -/
def Domain.reclaimAll [DecidableEq ρ] (d : Domain ρ α) (l : List α) : Domain ρ α := l.foldl Domain.reclaim d

/-- Several published objects are hidden. -/
theorem Sound.hideAll (l : List α) : ∀ {d : Domain ρ α}, Sound d → l.Nodup →
    (∀ a ∈ l, a ∈ d.published) → Sound (d.hideAll l) ∧ (∀ a, a ∈ (d.hideAll l).published ↔ a ∈ d.published ∧ a ∉ l) ∧
      (∀ a, a ∈ (d.hideAll l).hidden ↔ a ∈ d.hidden ∨ a ∈ l) ∧ ∀ a, (d.hideAll l).Waits a ↔ d.Waits a := by
  induction l with
  | nil => exact fun h _ _ => ⟨h, by simp [Domain.hideAll], by simp [Domain.hideAll], fun _ => Iff.rfl⟩
  | cons b l ih =>
    intro d h hnodup hl
    obtain ⟨hb, hnodup⟩ := List.nodup_cons.mp hnodup
    have hpub : ∀ a, a ∈ (d.hide b).published ↔ a ≠ b ∧ a ∈ d.published := fun a => h.published.mem_erase_iff
    have hl' : ∀ a ∈ l, a ∈ (d.hide b).published := fun a ha =>
      (hpub a).mpr ⟨fun heq => hb (heq ▸ ha), hl a (List.mem_cons_of_mem b ha)⟩
    obtain ⟨hs, hp, hh, hw⟩ := ih (h.hide (hl b List.mem_cons_self)) hnodup hl'
    refine ⟨hs, fun a => ?_, fun a => ?_, hw⟩
    · rw [Domain.hideAll, List.foldl_cons, ← Domain.hideAll, hp, hpub, List.mem_cons]
      tauto
    · rw [Domain.hideAll, List.foldl_cons, ← Domain.hideAll, hh, hide_mem, List.mem_cons]
      tauto

/-- The wait for several hidden objects begins. -/
theorem Sound.synchronizeAll (l : List α) : ∀ {d : Domain ρ α}, Sound d → l.Nodup →
    (∀ a ∈ l, a ∈ d.hidden) → Sound (d.synchronizeAll l) ∧ (d.synchronizeAll l).published = d.published ∧
      (∀ a, a ∈ (d.synchronizeAll l).hidden ↔ a ∈ d.hidden ∧ a ∉ l) ∧
      ∀ a, (d.synchronizeAll l).Waits a ↔ d.Waits a ∨ a ∈ l := by
  induction l with
  | nil => exact fun h _ _ => ⟨h, rfl, by simp [Domain.synchronizeAll], by simp [Domain.synchronizeAll]⟩
  | cons b l ih =>
    intro d h hnodup hl
    obtain ⟨hb, hnodup⟩ := List.nodup_cons.mp hnodup
    have hhid : ∀ a, a ∈ (d.synchronize b).hidden ↔ a ≠ b ∧ a ∈ d.hidden := fun a => h.hidden.mem_erase_iff
    have hl' : ∀ a ∈ l, a ∈ (d.synchronize b).hidden := fun a ha =>
      (hhid a).mpr ⟨fun heq => hb (heq ▸ ha), hl a (List.mem_cons_of_mem b ha)⟩
    obtain ⟨hs, hp, hh, hw⟩ := ih (h.synchronize (hl b List.mem_cons_self)) hnodup hl'
    refine ⟨hs, hp, fun a => ?_, fun a => ?_⟩
    · rw [Domain.synchronizeAll, List.foldl_cons, ← Domain.synchronizeAll, hh, hhid, List.mem_cons]
      tauto
    · rw [Domain.synchronizeAll, List.foldl_cons, ← Domain.synchronizeAll, hw, synchronize_waits, List.mem_cons]
      tauto

/-- The wait for several objects is over. -/
theorem Sound.reclaimAll [DecidableEq ρ] (l : List α) : ∀ {d : Domain ρ α}, Sound d → l.Nodup →
    (∀ a ∈ l, (a, []) ∈ d.waiting) →
    Sound (d.reclaimAll l) ∧ (d.reclaimAll l).published = d.published ∧ (d.reclaimAll l).hidden = d.hidden ∧
      ∀ a, (d.reclaimAll l).Waits a ↔ d.Waits a ∧ a ∉ l := by
  induction l with
  | nil => exact fun h _ _ => ⟨h, rfl, rfl, by simp [Domain.reclaimAll]⟩
  | cons b l ih =>
    intro d h hnodup hl
    obtain ⟨hb, hnodup⟩ := List.nodup_cons.mp hnodup
    have hwb := hl b List.mem_cons_self
    have hl' : ∀ a ∈ l, (a, []) ∈ (d.reclaim b).waiting := by
      intro a ha
      have hne : (a, ([] : List ρ)) ≠ (b, []) := by
        rintro heq
        obtain rfl : a = b := congrArg Prod.fst heq
        exact hb ha
      exact (List.mem_erase_of_ne hne).mpr (hl a (List.mem_cons_of_mem b ha))
    obtain ⟨hs, hp, hh, hw⟩ := ih (h.reclaim hwb) hnodup hl'
    refine ⟨hs, hp, hh, fun a => ?_⟩
    rw [Domain.reclaimAll, List.foldl_cons, ← Domain.reclaimAll, hw, h.reclaim_waits hwb, List.mem_cons]
    tauto

end

end Grace
