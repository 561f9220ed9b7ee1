import Mathlib.Logic.Function.Basic

/-!
# Partial pairings

A partial map `peer` that goes both ways: who has a peer is the peer of its peer, and not its own.  Two free
elements can be linked, and a pair can be dissolved.
-/

namespace Pairing

variable {ι : Type*}

/-- Peers name each other. -/
structure Paired (peer : ι → Option ι) : Prop where
  symm : ∀ {a b}, peer a = some b → peer b = some a
  ne : ∀ {a b}, peer a = some b → a ≠ b

theorem paired_none : Paired fun _ : ι => none := ⟨nofun, nofun⟩

/-- A free element is nobody's peer. -/
theorem Paired.not_named {peer : ι → Option ι} (h : Paired peer) {a : ι} (ha : peer a = none) (b : ι) :
    peer b ≠ some a := by
  intro hb
  rw [h.symm hb] at ha
  cases ha

/-- An element has one peer. -/
theorem Paired.unique {peer : ι → Option ι} (h : Paired peer) {a b c : ι} (hac : peer a = some c)
    (hbc : peer b = some c) : a = b := by
  have ha := h.symm hac
  rw [h.symm hbc, Option.some.injEq] at ha
  exact ha.symm

variable [DecidableEq ι]

theorem Paired.link {peer : ι → Option ι} (h : Paired peer) {a b : ι} (hab : a ≠ b) (ha : peer a = none)
    (hb : peer b = none) : Paired (Function.update (Function.update peer a (some b)) b (some a)) := by
  have hval : ∀ c, c ≠ a → c ≠ b →
      Function.update (Function.update peer a (some b)) b (some a) c = peer c := by
    intro c hca hcb
    rw [Function.update_of_ne hcb, Function.update_of_ne hca]
  have hvb : Function.update (Function.update peer a (some b)) b (some a) b = some a :=
    Function.update_self ..
  have hva : Function.update (Function.update peer a (some b)) b (some a) a = some b := by
    rw [Function.update_of_ne hab, Function.update_self]
  -- the two cases are those of the new pair; the others are untouched and do not name it
  have hcases : ∀ c d, Function.update (Function.update peer a (some b)) b (some a) c = some d →
      (c = a ∧ d = b) ∨ (c = b ∧ d = a) ∨ (c ≠ a ∧ c ≠ b ∧ peer c = some d) := by
    intro c d hcd
    by_cases hcb : c = b
    · rw [hcb, hvb, Option.some.injEq] at hcd
      exact .inr (.inl ⟨hcb, hcd.symm⟩)
    · by_cases hca : c = a
      · rw [hca, hva, Option.some.injEq] at hcd
        exact .inl ⟨hca, hcd.symm⟩
      · rw [hval c hca hcb] at hcd
        exact .inr (.inr ⟨hca, hcb, hcd⟩)
  refine ⟨fun {c d} hcd => ?_, fun {c d} hcd => ?_⟩
  · rcases hcases c d hcd with ⟨rfl, rfl⟩ | ⟨rfl, rfl⟩ | ⟨-, -, hold⟩
    · exact hvb
    · exact hva
    · have hda : d ≠ a := fun hda => h.not_named ha c (hda ▸ hold)
      have hdb : d ≠ b := fun hdb => h.not_named hb c (hdb ▸ hold)
      rw [hval d hda hdb]
      exact h.symm hold
  · rcases hcases c d hcd with ⟨rfl, rfl⟩ | ⟨rfl, rfl⟩ | ⟨-, -, hold⟩
    · exact hab
    · exact hab.symm
    · exact h.ne hold

theorem Paired.unlink {peer : ι → Option ι} (h : Paired peer) {a b : ι} (hab : peer a = some b) :
    Paired (Function.update (Function.update peer a none) b none) := by
  have hcases : ∀ c d, Function.update (Function.update peer a none) b none c = some d →
      c ≠ a ∧ c ≠ b ∧ peer c = some d := by
    intro c d hcd
    by_cases hcb : c = b
    · rw [hcb, Function.update_self] at hcd
      cases hcd
    · rw [Function.update_of_ne hcb] at hcd
      by_cases hca : c = a
      · rw [hca, Function.update_self] at hcd
        cases hcd
      · rw [Function.update_of_ne hca] at hcd
        exact ⟨hca, hcb, hcd⟩
  refine ⟨fun {c d} hcd => ?_, fun {c d} hcd => h.ne (hcases c d hcd).2.2⟩
  obtain ⟨hca, hcb, hold⟩ := hcases c d hcd
  have hda : d ≠ a := by
    rintro rfl
    exact hcb (h.unique hold (h.symm hab))
  have hdb : d ≠ b := by
    rintro rfl
    exact hca (h.unique hold hab)
  rw [Function.update_of_ne hdb, Function.update_of_ne hda]
  exact h.symm hold

end Pairing
