import Barbarossa.Base.Run

/-!
# Refinement mappings and variants

Two general arguments about runs. A refinement mapping takes the states of a concrete system to
those of an abstract one, and each of its steps to a step of the abstract system or to none; then
what a run shows of the abstract system is a run of it. A variant is a number that every step makes
smaller, so that runs are short and, where some step can always be taken, come to an end. Without
one, a step that can always be taken makes runs of any length.
-/

namespace Barbarossa.Base

universe u v w

variable {σ : Type u} {α : Type v} {β : Type w}

/-! ### Refinement mappings -/

section Refinement

variable {σ' : Type u} {α' : Type v} {β' : Type w}

/-- Under an invariant of the concrete system, `view` shows of each of its steps a step of the
abstract system between the abstractions of its states, or nothing when they are the same. -/
structure RefinementMapping (step : Step σ α β) (step' : Step σ' α' β') (Inv : σ → Prop)
    (abstraction : σ → σ') (view : Entry σ α β → Option (Entry σ' α' β')) : Prop where
  keeps : ∀ s a o s', Inv s → step s a = some (o, s') → Inv s'
  idle : ∀ s a o s', Inv s → step s a = some (o, s') → view ⟨s, a, o, s'⟩ = none →
    abstraction s' = abstraction s
  moves : ∀ s a o s' e, Inv s → step s a = some (o, s') → view ⟨s, a, o, s'⟩ = some e →
    e.before = abstraction s ∧ step' e.before e.action = some (e.output, e.after) ∧
      e.after = abstraction s'

variable {step : Step σ α β} {step' : Step σ' α' β'} {Inv : σ → Prop} {abstraction : σ → σ'}
  {view : Entry σ α β → Option (Entry σ' α' β')} {s₀ s : σ} {h : History σ α β}

/-- The invariant of a refinement mapping holds at the end of every run. -/
theorem RefinementMapping.inv (hm : RefinementMapping step step' Inv abstraction view)
    (hi : Inv s₀) (hr : Run step s₀ h s) : Inv s :=
  hr.invariant (fun _ s => Inv s) hi fun _ s a o s' hi hs => hm.keeps s a o s' hi hs

/-- What a run shows of the abstract system is a run of it. -/
theorem RefinementMapping.run (hm : RefinementMapping step step' Inv abstraction view)
    (hi : Inv s₀) (hr : Run step s₀ h s) :
    Run step' (abstraction s₀) (h.filterMap view) (abstraction s) := by
  induction hr with
  | nil => exact .nil
  | @cons h s s' a o hr hs ih =>
    have hinv := hm.inv hi hr
    cases hv : view ⟨s, a, o, s'⟩ with
    | none =>
      rw [List.filterMap_cons_none hv, hm.idle s a o s' hinv hs hv]
      exact ih
    | some e =>
      obtain ⟨hbefore, hstep, hafter⟩ := hm.moves s a o s' e hinv hs hv
      rw [List.filterMap_cons_some hv, ← hafter]
      obtain ⟨before, b, o', after⟩ := e
      subst hbefore
      exact .cons ih hstep

end Refinement

/-! ### Variants -/

/-- Every step from a state with the invariant keeps it and makes the variant smaller. -/
def Decreases (step : Step σ α β) (Inv : σ → Prop) (variant : σ → Nat) : Prop :=
  ∀ s a o s', Inv s → step s a = some (o, s') → Inv s' ∧ variant s' < variant s

namespace Decreases

variable {step : Step σ α β} {Inv : σ → Prop} {variant : σ → Nat} {s₀ s : σ} {h : History σ α β}

/-- A run is no longer than the variant it starts with, and keeps the invariant. -/
theorem length_le (hd : Decreases step Inv variant) (hr : Run step s₀ h s) (hi : Inv s₀) :
    Inv s ∧ h.length + variant s ≤ variant s₀ := by
  induction hr with
  | nil => exact ⟨hi, by simp⟩
  | cons _ hs ih =>
    obtain ⟨hi', hlength⟩ := ih
    obtain ⟨hi'', hless⟩ := hd _ _ _ _ hi' hs
    refine ⟨hi'', ?_⟩
    rw [List.length_cons]
    omega

/-- Where a step can be taken from every state that is not final, every state comes to a final
one. -/
theorem exists_final (hd : Decreases step Inv variant) {Final : σ → Prop}
    (hprogress : ∀ s, Inv s → ¬ Final s → ∃ a o s', step s a = some (o, s')) (hi : Inv s) :
    ∃ h s', Run step s h s' ∧ Final s' := by
  induction hn : variant s using Nat.strongRecOn generalizing s with
  | ind n ih =>
    subst hn
    by_cases hf : Final s
    · exact ⟨[], s, .nil, hf⟩
    · obtain ⟨a, o, s', hs⟩ := hprogress s hi hf
      obtain ⟨hi', hless⟩ := hd s a o s' hi hs
      obtain ⟨h, s'', hr, hfinal⟩ := ih (variant s') hless hi' rfl
      exact ⟨_, s'', Run.trans (.cons .nil hs) hr, hfinal⟩

end Decreases

/-- Where every step keeps an invariant under which some step can be taken, runs go on for ever. -/
theorem exists_run_of_length {step : Step σ α β} {Inv : σ → Prop} {s : σ}
    (hkeeps : ∀ s a o s', Inv s → step s a = some (o, s') → Inv s')
    (hprogress : ∀ s, Inv s → ∃ a o s', step s a = some (o, s')) (hi : Inv s) (n : Nat) :
    ∃ h s', Run step s h s' ∧ h.length = n := by
  induction n with
  | zero => exact ⟨[], s, .nil, rfl⟩
  | succ n ih =>
    obtain ⟨h, s', hr, hlength⟩ := ih
    have hi' : Inv s' := hr.invariant (fun _ s => Inv s) hi fun _ s a o s' => hkeeps s a o s'
    obtain ⟨a, o, s'', hs⟩ := hprogress s' hi'
    exact ⟨_, s'', .cons hr hs, by rw [List.length_cons, hlength]⟩

end Barbarossa.Base
