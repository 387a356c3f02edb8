import Mathlib.Logic.Function.Basic

/-!
# Mutual pointers

Two families of objects, each of which may point at one object of the other family. The
pointers are mutual when every pointer is answered by the one that points back. Linking
two free objects and unlinking two linked ones keep them mutual; setting one pointer
alone does not.
-/

namespace Barbarossa.Base

universe u v

variable {α : Type u} {β : Type v}

/-- Every pointer is answered by the one that points back. -/
def Mutual (f : α → Option β) (g : β → Option α) : Prop := ∀ a b, f a = some b ↔ g b = some a

namespace Mutual

variable {f : α → Option β} {g : β → Option α} {a : α} {b : β}

/-- Nothing points anywhere. -/
theorem of_none (hf : ∀ a, f a = none) (hg : ∀ b, g b = none) : Mutual f g := by
  intro a b
  rw [hf, hg]
  exact iff_of_false (by simp) (by simp)

/-- No two objects point at one. -/
theorem unique (h : Mutual f g) {a' : α} (ha : f a = some b) (ha' : f a' = some b) : a = a' := by
  have hb := (h a b).mp ha
  rw [(h a' b).mp ha'] at hb
  exact (Option.some.inj hb).symm

variable [DecidableEq α]

/-- A free object that starts to point is not answered by itself. -/
theorem not_half_link (h : Mutual f g) (ha : f a = none) :
    ¬ Mutual (Function.update f a (some b)) g := by
  intro hm
  have hba : g b = some a := (hm a b).mp (by simp)
  rw [(h a b).mpr hba] at ha
  cases ha

variable [DecidableEq β]

/-- Two free objects may point at each other. -/
theorem link (h : Mutual f g) (ha : f a = none) (hb : g b = none) :
    Mutual (Function.update f a (some b)) (Function.update g b (some a)) := by
  intro a' b'
  by_cases haa : a' = a
  · subst haa
    by_cases hbb : b' = b
    · subst hbb
      simp
    · have hne : g b' ≠ some a' := fun hg => by simp [(h a' b').mpr hg] at ha
      simp [hbb, hne, Ne.symm hbb]
  · by_cases hbb : b' = b
    · subst hbb
      have hne : f a' ≠ some b' := fun hf => by simp [(h a' b').mp hf] at hb
      simp [haa, hne, Ne.symm haa]
    · simpa [haa, hbb] using h a' b'

/-- Two linked objects may let go of each other. -/
theorem unlink (h : Mutual f g) (hab : f a = some b) :
    Mutual (Function.update f a none) (Function.update g b none) := by
  intro a' b'
  by_cases haa : a' = a
  · subst haa
    by_cases hbb : b' = b
    · subst hbb
      simp
    · have hne : g b' ≠ some a' := by
        intro hg
        have hf := (h a' b').mpr hg
        rw [hab] at hf
        exact hbb (Option.some.inj hf).symm
      simp [hbb, hne]
  · by_cases hbb : b' = b
    · subst hbb
      have hne : f a' ≠ some b' := fun hf => haa (h.unique hf hab)
      simp [haa, hne]
    · simpa [haa, hbb] using h a' b'

end Mutual

end Barbarossa.Base
