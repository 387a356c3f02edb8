import Mathlib.Data.List.Basic

/-!
# Histories of guarded executable transition systems

A system is a partial step function: `step s a` is `none` when action `a` is not
enabled in `s`. A run records every step it took, newest first, with the states on
both sides, the action and what the step gave out. Temporal statements are
recursions over that history, and the rules below turn one step lemma into a
statement about all runs.
-/

namespace Barbarossa.Base

universe u v w

/-- Guarded executable step function with an observable output. -/
abbrev Step (σ : Type u) (α : Type v) (β : Type w) := σ → α → Option (β × σ)

/-- One recorded step. -/
structure Entry (σ : Type u) (α : Type v) (β : Type w) where
  before : σ
  action : α
  output : β
  after : σ

/-- The steps of a run, newest first. -/
abbrev History (σ : Type u) (α : Type v) (β : Type w) := List (Entry σ α β)

variable {σ : Type u} {α : Type v} {β : Type w}

/-- `Run step s₀ h s`: the steps recorded in `h` lead from `s₀` to `s`. -/
inductive Run (step : Step σ α β) (s₀ : σ) : History σ α β → σ → Prop
  | nil : Run step s₀ [] s₀
  | cons {h : History σ α β} {s s' : σ} {a : α} {o : β} :
      Run step s₀ h s → step s a = some (o, s') → Run step s₀ (⟨s, a, o, s'⟩ :: h) s'

/-- Everything that the steps of a history gave out beside their outcomes, oldest first. -/
def emitted {ω : Type w} (h : History σ α (β × List ω)) : List ω :=
  h.reverse.flatMap fun e => e.output.2

/-- The last step gives out its own effects behind the ones before. -/
theorem emitted_cons {ω : Type w} (e : Entry σ α (β × List ω)) (h : History σ α (β × List ω)) :
    emitted (e :: h) = emitted h ++ e.output.2 := by
  simp [emitted]

/-- Every step was taken under `cond`, which sees the history and the state before the step
and the action. -/
def Meets (cond : History σ α β → σ → α → Prop) : History σ α β → Prop
  | [] => True
  | e :: h => cond h e.before e.action ∧ Meets cond h

instance instDecidableMeets {cond : History σ α β → σ → α → Prop}
    [∀ h s a, Decidable (cond h s a)] : (h : History σ α β) → Decidable (Meets cond h)
  | [] => isTrue trivial
  | e :: h =>
    have : Decidable (Meets cond h) := instDecidableMeets h
    inferInstanceAs (Decidable (cond h e.before e.action ∧ Meets cond h))

/-- A step of a run whose steps were all taken under `cond`. -/
theorem Meets.of_mem {cond : History σ α β → σ → α → Prop} {h : History σ α β} {e : Entry σ α β}
    (hm : Meets cond h) (he : e ∈ h) : ∃ older, cond older e.before e.action := by
  induction h with
  | nil => cases he
  | cons e' h ih =>
    rcases List.mem_cons.mp he with rfl | he
    · exact ⟨h, hm.1⟩
    · exact ih hm.2 he

/-- Two conditions that every step was taken under. -/
theorem Meets.and {cond cond' : History σ α β → σ → α → Prop} {h : History σ α β}
    (hm : Meets cond h) (hm' : Meets cond' h) :
    Meets (fun h s a => cond h s a ∧ cond' h s a) h := by
  induction h with
  | nil => trivial
  | cons e h ih => exact ⟨⟨hm.1, hm'.1⟩, ih hm.2 hm'.2⟩

/-- What a guard admits is what stands behind it. -/
theorem guard_eq_some {c : Prop} [Decidable c] {x y : α}
    (h : (if c then some x else none) = some y) : c ∧ x = y := by
  obtain ⟨hc, he⟩ := Option.ite_none_right_eq_some.mp h
  exact ⟨hc, Option.some.inj he⟩

/-- `P` holds in every state a run went through, its last one included. -/
def Always (P : σ → Prop) (h : History σ α β) (s : σ) : Prop :=
  (∀ e ∈ h, P e.before) ∧ P s

namespace Run

variable {step : Step σ α β} {s₀ s : σ} {h : History σ α β}

/-- The newest entry of a run is an enabled step taken from the end of the shorter run. -/
theorem head {e : Entry σ α β} (hr : Run step s₀ (e :: h) s) :
    Run step s₀ h e.before ∧ step e.before e.action = some (e.output, e.after) ∧ e.after = s := by
  cases hr with
  | cons hr hs => exact ⟨hr, hs, rfl⟩

/-- Every prefix of a run is a run, and its next entry is a step from where it ended. -/
theorem of_append {newer older : History σ α β} {e : Entry σ α β}
    (hr : Run step s₀ (newer ++ e :: older) s) :
    Run step s₀ older e.before ∧ step e.before e.action = some (e.output, e.after) := by
  induction newer generalizing s with
  | nil => exact ⟨hr.head.1, hr.head.2.1⟩
  | cons n newer ih => exact ih hr.head.1

/-- Every recorded step is an enabled step of the system, taken at the end of a run. -/
theorem of_mem {e : Entry σ α β} (hr : Run step s₀ h s) (he : e ∈ h) :
    ∃ older, Run step s₀ older e.before ∧ step e.before e.action = some (e.output, e.after) := by
  obtain ⟨newer, older, rfl⟩ := List.append_of_mem he
  exact ⟨older, hr.of_append⟩

/-- Runs compose; the newer history stands in front. -/
theorem trans {s₁ : σ} {h' : History σ α β} (hr : Run step s₀ h s₁) (hr' : Run step s₁ h' s) :
    Run step s₀ (h' ++ h) s := by
  induction hr' with
  | nil => exact hr
  | cons _ hs ih => exact .cons ih hs

/-- A run is determined by its actions. -/
theorem eq_of_actions {s' : σ} {h' : History σ α β} (hr : Run step s₀ h s)
    (hr' : Run step s₀ h' s') (he : h.map Entry.action = h'.map Entry.action) :
    h = h' ∧ s = s' := by
  induction hr generalizing h' s' with
  | nil =>
    cases hr' with
    | nil => exact ⟨rfl, rfl⟩
    | cons _ _ => cases he
  | cons _ hs ih =>
    cases hr' with
    | nil => cases he
    | cons hr' hs' =>
      simp only [List.map_cons, List.cons.injEq] at he
      obtain ⟨rfl, he⟩ := he
      obtain ⟨rfl, rfl⟩ := ih hr' he
      rw [hs] at hs'
      cases hs'
      exact ⟨rfl, rfl⟩

/-- What holds at the end of a run and not at its start was brought about by one of its steps. -/
theorem exists_becomes {P : σ → Prop} (hr : Run step s₀ h s) (hinit : ¬ P s₀) (hs : P s) :
    ∃ e ∈ h, ¬ P e.before ∧ P e.after := by
  induction hr with
  | nil => exact absurd hs hinit
  | @cons h s s' a o _ _ ih =>
    by_cases hp : P s
    · obtain ⟨e, he, hbecomes⟩ := ih hp
      exact ⟨e, List.mem_cons_of_mem _ he, hbecomes⟩
    · exact ⟨_, List.mem_cons_self, hp, hs⟩

/-- Steps that leave the state as it is may be left out of a run. -/
theorem filter_idle {keep : Entry σ α β → Bool} (hr : Run step s₀ h s)
    (hidle : ∀ e ∈ h, keep e = false → e.after = e.before) :
    Run step s₀ (h.filter keep) s := by
  induction hr with
  | nil => exact .nil
  | @cons h s s' a o _ hs ih =>
    obtain ⟨he, hh⟩ := List.forall_mem_cons.mp hidle
    cases hk : keep ⟨s, a, o, s'⟩ with
    | true =>
      rw [List.filter_cons_of_pos hk]
      exact .cons (ih hh) hs
    | false =>
      rw [List.filter_cons_of_neg (by simp [hk]), show s' = s from he hk]
      exact ih hh

/-- An invariant of history and state that every step keeps under `cond` holds at the end of
every run whose steps meet `cond`. -/
theorem invariant_of_meets (cond : History σ α β → σ → α → Prop)
    (Inv : History σ α β → σ → Prop) (hinit : Inv [] s₀)
    (hstep : ∀ h s a o s', Inv h s → cond h s a → step s a = some (o, s') →
      Inv (⟨s, a, o, s'⟩ :: h) s')
    (hr : Run step s₀ h s) (hm : Meets cond h) : Inv h s := by
  induction hr with
  | nil => exact hinit
  | cons _ hs ih => exact hstep _ _ _ _ _ (ih hm.2) hm.1 hs

/-- An invariant of history and state that every step keeps holds at the end of every run. -/
theorem invariant (Inv : History σ α β → σ → Prop) (hinit : Inv [] s₀)
    (hstep : ∀ h s a o s', Inv h s → step s a = some (o, s') → Inv (⟨s, a, o, s'⟩ :: h) s')
    (hr : Run step s₀ h s) : Inv h s := by
  induction hr with
  | nil => exact hinit
  | cons _ hs ih => exact hstep _ _ _ _ _ ih hs

/-- When one step from a good state keeps it good exactly under `cond`, a run stays good exactly
when all its steps meet `cond`. -/
theorem always_iff (P : σ → Prop) (cond : σ → α → Prop) (hinit : P s₀)
    (hstep : ∀ s a o s', step s a = some (o, s') → P s → (P s' ↔ cond s a))
    (hr : Run step s₀ h s) : Always P h s ↔ ∀ e ∈ h, cond e.before e.action := by
  induction hr with
  | nil => simp [Always, hinit]
  | @cons h s s' a o _ hs ih =>
    simp only [Always, List.forall_mem_cons]
    constructor
    · rintro ⟨⟨hb, hall⟩, ha⟩
      exact ⟨(hstep s a o s' hs hb).mp ha, ih.mp ⟨hall, hb⟩⟩
    · rintro ⟨hc, hall⟩
      obtain ⟨hbefore, hb⟩ := ih.mpr hall
      exact ⟨⟨hb, hbefore⟩, (hstep s a o s' hs hb).mpr hc⟩

end Run

/-- Execute a list of actions, recording the history. -/
def replay (step : Step σ α β) (s₀ : σ) : List α → Option (History σ α β × σ)
  | [] => some ([], s₀)
  | a :: rest =>
    match step s₀ a with
    | none => none
    | some (o, s') => (replay step s' rest).map fun r => (r.1 ++ [⟨s₀, a, o, s'⟩], r.2)

/-- A successful replay is a run. -/
theorem replay_run {step : Step σ α β} {s₀ s : σ} {acts : List α} {h : History σ α β}
    (hr : replay step s₀ acts = some (h, s)) : Run step s₀ h s := by
  induction acts generalizing s₀ h s with
  | nil =>
    simp only [replay, Option.some.injEq, Prod.mk.injEq] at hr
    obtain ⟨rfl, rfl⟩ := hr
    exact .nil
  | cons a rest ih =>
    simp only [replay] at hr
    split at hr
    · cases hr
    · next o s' hs =>
      obtain ⟨⟨h', t⟩, ht, he⟩ := Option.map_eq_some_iff.mp hr
      simp only [Prod.mk.injEq] at he
      obtain ⟨rfl, rfl⟩ := he
      exact (Run.cons .nil hs).trans (ih ht)

/-- A replay records its actions. -/
theorem replay_actions {step : Step σ α β} {s₀ s : σ} {acts : List α} {h : History σ α β}
    (hr : replay step s₀ acts = some (h, s)) : h.map Entry.action = acts.reverse := by
  induction acts generalizing s₀ h s with
  | nil =>
    simp only [replay, Option.some.injEq, Prod.mk.injEq] at hr
    obtain ⟨rfl, rfl⟩ := hr
    rfl
  | cons a rest ih =>
    simp only [replay] at hr
    split at hr
    · cases hr
    · obtain ⟨⟨h', t⟩, ht, he⟩ := Option.map_eq_some_iff.mp hr
      simp only [Prod.mk.injEq] at he
      obtain ⟨rfl, rfl⟩ := he
      simp [ih ht]

/-- Actions that can be replayed are the actions of some run. -/
theorem exists_run_of_actions (step : Step σ α β) (s₀ : σ) (acts : List α)
    (hc : (replay step s₀ acts).isSome = true) :
    ∃ h s, Run step s₀ h s ∧ h.map Entry.action = acts.reverse := by
  obtain ⟨⟨h, s⟩, hr⟩ := Option.isSome_iff_exists.mp hc
  exact ⟨h, s, replay_run hr, replay_actions hr⟩

/-- A check that a replay passes is passed at the end of some run. -/
theorem exists_run_of_replay (step : Step σ α β) (s₀ : σ) (acts : List α)
    (check : History σ α β → σ → Bool)
    (hc : (replay step s₀ acts).any (fun r => check r.1 r.2) = true) :
    ∃ h s, Run step s₀ h s ∧ check h s = true := by
  cases hr : replay step s₀ acts with
  | none => simp [hr] at hc
  | some r => exact ⟨r.1, r.2, replay_run hr, by simpa [hr] using hc⟩

/-- A check that a replay and its continuation pass is passed by some run and a run from its
end. -/
theorem exists_continuation_of_replay (step : Step σ α β) (s₀ : σ) (acts acts' : List α)
    (check : History σ α β → σ → History σ α β → σ → Bool)
    (hc : (replay step s₀ acts).any (fun r => (replay step r.2 acts').any
      fun r' => check r.1 r.2 r'.1 r'.2) = true) :
    ∃ h₀ s h s', Run step s₀ h₀ s ∧ Run step s h s' ∧ check h₀ s h s' = true := by
  obtain ⟨h₀, s, hr₀, hs⟩ := exists_run_of_replay step s₀ acts
    (fun h₀ s => (replay step s acts').any fun r' => check h₀ s r'.1 r'.2) hc
  obtain ⟨h, s', hr, hs'⟩ := exists_run_of_replay step s acts' (check h₀ s) hs
  exact ⟨h₀, s, h, s', hr₀, hr, hs'⟩

end Barbarossa.Base
