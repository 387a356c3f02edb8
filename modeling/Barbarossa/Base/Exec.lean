import Barbarossa.Base.Run

/-!
# Statements with state, output, exceptions and crashes

The meaning of an imperative statement: it reads and writes a state, gives out
observable effects, and ends with a value, an exception or a crash of the process.
As in C++, an exception does not undo the writes made before it, and a crash cannot
be caught. A process runs one such program for each action until one of them
crashes it.
-/

namespace Barbarossa.Base

universe u

/-- How a statement ended: normally, by an exception, or with the process gone. -/
inductive Outcome (ε φ α : Type u) where
  | value (a : α)
  | thrown (e : ε)
  | crashed (f : φ)
  deriving DecidableEq, Repr

namespace Outcome

variable {ε φ α : Type u}

/-- The fault that ended the process, if any. -/
def fault? : Outcome ε φ α → Option φ
  | .crashed f => some f
  | _ => none

/-- The statement ended normally. -/
def isValue : Outcome ε φ α → Bool
  | .value _ => true
  | _ => false

/-- A normal ending is no fault. -/
@[simp] theorem fault?_value (a : α) : (value a : Outcome ε φ α).fault? = none := rfl

/-- An exception is no fault. -/
@[simp] theorem fault?_thrown (e : ε) : (thrown e : Outcome ε φ α).fault? = none := rfl

/-- A crash is its fault. -/
@[simp] theorem fault?_crashed (f : φ) : (crashed f : Outcome ε φ α).fault? = some f := rfl

end Outcome

/-- What running a statement left behind. -/
structure Ran (ε φ ω σ α : Type u) where
  outcome : Outcome ε φ α
  state : σ
  output : List ω

/-- A statement over a state `σ`, with effects `ω`, exceptions `ε` and faults `φ`. -/
def Exec (ε φ ω σ α : Type u) := σ → Ran ε φ ω σ α

/-- A readable and writable part of a state, with the three laws of a record field. -/
structure Lens (σ τ : Type u) where
  get : σ → τ
  set : τ → σ → σ
  get_set : ∀ s a, get (set a s) = a
  set_get : ∀ s, set (get s) s = s
  set_set : ∀ s a b, set b (set a s) = set b s

namespace Lens

variable {ρ σ τ : Type u}

/-- A part of a part. -/
def comp (l : Lens ρ σ) (k : Lens σ τ) : Lens ρ τ where
  get s := k.get (l.get s)
  set a s := l.set (k.set a (l.get s)) s
  get_set s a := by rw [l.get_set, k.get_set]
  set_get s := by rw [k.set_get, l.set_get]
  set_set s a b := by rw [l.get_set, l.set_set, k.set_set]

/-- One component of a family. -/
def component {ι : Type u} [DecidableEq ι] (i : ι) : Lens (ι → τ) τ where
  get s := s i
  set a s := Function.update s i a
  get_set s a := by simp
  set_get s := by simp
  set_set s a b := by simp

end Lens

namespace Ran

variable {ε φ ω σ α β : Type u}

/-- Effects given out earlier stand in front. -/
def after (out : List ω) (r : Ran ε φ ω σ α) : Ran ε φ ω σ α :=
  { r with output := out ++ r.output }

/-- Continue after a normal end; an exception or a crash ends the sequence. -/
def andThen (r : Ran ε φ ω σ α) (f : α → Exec ε φ ω σ β) : Ran ε φ ω σ β :=
  match r.outcome with
  | .value a => (f a r.state).after r.output
  | .thrown e => ⟨.thrown e, r.state, r.output⟩
  | .crashed c => ⟨.crashed c, r.state, r.output⟩

/-- The earlier effects come first. -/
@[simp] theorem after_mk (out : List ω) (x : Outcome ε φ α) (s : σ) (o : List ω) :
    (⟨x, s, o⟩ : Ran ε φ ω σ α).after out = ⟨x, s, out ++ o⟩ := rfl

/-- Without earlier effects a run stays the same. -/
@[simp] theorem after_nil (r : Ran ε φ ω σ α) : r.after [] = r := rfl

/-- Behind a normal ending the rest is run. -/
@[simp] theorem andThen_value (a : α) (s : σ) (o : List ω) (f : α → Exec ε φ ω σ β) :
    (⟨.value a, s, o⟩ : Ran ε φ ω σ α).andThen f = (f a s).after o := rfl

/-- An exception is passed on. -/
@[simp] theorem andThen_thrown (e : ε) (s : σ) (o : List ω) (f : α → Exec ε φ ω σ β) :
    (⟨.thrown e, s, o⟩ : Ran ε φ ω σ α).andThen f = ⟨.thrown e, s, o⟩ := rfl

/-- A crash is passed on. -/
@[simp] theorem andThen_crashed (c : φ) (s : σ) (o : List ω) (f : α → Exec ε φ ω σ β) :
    (⟨.crashed c, s, o⟩ : Ran ε φ ω σ α).andThen f = ⟨.crashed c, s, o⟩ := rfl

end Ran

namespace Exec

variable {ε φ ω σ τ α β : Type u}

instance : Monad (Exec ε φ ω σ) where
  pure a := fun s => ⟨.value a, s, []⟩
  bind x f := fun s => (x s).andThen f

/-- Throw an exception. -/
def throw (e : ε) : Exec ε φ ω σ α := fun s => ⟨.thrown e, s, []⟩

/-- End the process. -/
def crash (c : φ) : Exec ε φ ω σ α := fun s => ⟨.crashed c, s, []⟩

/-- Give out one effect. -/
def emit (o : ω) : Exec ε φ ω σ PUnit := fun s => ⟨.value ⟨⟩, s, [o]⟩

/-- Read the state. -/
def get : Exec ε φ ω σ σ := fun s => ⟨.value s, s, []⟩

/-- Write the state. -/
def modify (f : σ → σ) : Exec ε φ ω σ PUnit := fun s => ⟨.value ⟨⟩, f s, []⟩

/-- Run a value that may be an exception. -/
def ofExcept : Except ε α → Exec ε φ ω σ α
  | .ok a => fun s => ⟨.value a, s, []⟩
  | .error e => throw e

/-- Run `x`; an exception for which `catches` holds is handled in the state it left. -/
def catching (catches : ε → Bool) (x : Exec ε φ ω σ α) (handler : ε → Exec ε φ ω σ α) :
    Exec ε φ ω σ α := fun s =>
  match x s with
  | ⟨.thrown e, s', o⟩ => if catches e then (handler e s').after o else ⟨.thrown e, s', o⟩
  | r => r

/-- A boundary no exception may cross: one that does ends the process. -/
def noexcept (f : ε → φ) (x : Exec ε φ ω σ α) : Exec ε φ ω σ α := fun s =>
  match x s with
  | ⟨.thrown e, s', o⟩ => ⟨.crashed (f e), s', o⟩
  | r => r

/-- Run a statement on a value of its own, and return that value, too. -/
def runOn {φ' ω' : Type u} (fault : φ' → φ) (effect : ω' → ω) (t : τ) (x : Exec ε φ' ω' τ α) :
    Exec ε φ ω σ (α × τ) := fun s =>
  match x t with
  | ⟨.value a, t', o⟩ => ⟨.value (a, t'), s, o.map effect⟩
  | ⟨.thrown e, _, o⟩ => ⟨.thrown e, s, o.map effect⟩
  | ⟨.crashed f, _, o⟩ => ⟨.crashed (fault f), s, o.map effect⟩

/-- Rename the faults of a statement. -/
def mapFault {φ' : Type u} (fault : φ → φ') (x : Exec ε φ ω σ α) : Exec ε φ' ω σ α := fun s =>
  match x s with
  | ⟨.value a, s', o⟩ => ⟨.value a, s', o⟩
  | ⟨.thrown e, s', o⟩ => ⟨.thrown e, s', o⟩
  | ⟨.crashed f, s', o⟩ => ⟨.crashed (fault f), s', o⟩

/-- Run a statement on a part of the state. -/
def zoom (l : Lens σ τ) (x : Exec ε φ ω τ α) : Exec ε φ ω σ α := fun s =>
  let r := x (l.get s)
  ⟨r.outcome, l.set r.state s, r.output⟩

/-- `pure` changes nothing and gives nothing out. -/
@[simp] theorem pure_apply (a : α) (s : σ) :
    (pure a : Exec ε φ ω σ α) s = ⟨.value a, s, []⟩ := rfl

/-- A sequence runs the rest behind its first part. -/
@[simp] theorem bind_apply (x : Exec ε φ ω σ α) (f : α → Exec ε φ ω σ β) (s : σ) :
    (x >>= f) s = (x s).andThen f := rfl

/-- `throw` changes nothing and gives nothing out. -/
@[simp] theorem throw_apply (e : ε) (s : σ) :
    (throw e : Exec ε φ ω σ α) s = ⟨.thrown e, s, []⟩ := rfl

/-- `crash` changes nothing and gives nothing out. -/
@[simp] theorem crash_apply (c : φ) (s : σ) :
    (crash c : Exec ε φ ω σ α) s = ⟨.crashed c, s, []⟩ := rfl

/-- `emit` gives its effect out and changes nothing. -/
@[simp] theorem emit_apply (o : ω) (s : σ) :
    (emit o : Exec ε φ ω σ PUnit) s = ⟨.value ⟨⟩, s, [o]⟩ := rfl

/-- `get` returns the state. -/
@[simp] theorem get_apply (s : σ) : (get : Exec ε φ ω σ σ) s = ⟨.value s, s, []⟩ := rfl

/-- `modify` only changes the state. -/
@[simp] theorem modify_apply (f : σ → σ) (s : σ) :
    (modify f : Exec ε φ ω σ PUnit) s = ⟨.value ⟨⟩, f s, []⟩ := rfl

/-- A result without an error is returned. -/
@[simp] theorem ofExcept_ok (a : α) (s : σ) :
    (ofExcept (.ok a) : Exec ε φ ω σ α) s = ⟨.value a, s, []⟩ := rfl

/-- A result with an error is thrown. -/
@[simp] theorem ofExcept_error (e : ε) (s : σ) :
    (ofExcept (.error e) : Exec ε φ ω σ α) s = ⟨.thrown e, s, []⟩ := rfl

/-- A choice of code is a choice of its runs. -/
@[simp] theorem ite_apply (c : Prop) [Decidable c] (x y : Exec ε φ ω σ α) (s : σ) :
    (if c then x else y) s = if c then x s else y s := by
  split <;> rfl

/-- A handler is not reached by a normal end. -/
theorem catching_value {catches : ε → Bool} {x : Exec ε φ ω σ α}
    {handler : ε → Exec ε φ ω σ α} {s s' : σ} {a : α} {o : List ω}
    (hx : x s = ⟨.value a, s', o⟩) : catching catches x handler s = ⟨.value a, s', o⟩ := by
  simp only [catching, hx]

/-- A handler takes over from the state at the throw. -/
theorem catching_thrown {catches : ε → Bool} {x : Exec ε φ ω σ α}
    {handler : ε → Exec ε φ ω σ α} {s s' : σ} {e : ε} {o : List ω}
    (hx : x s = ⟨.thrown e, s', o⟩) : catching catches x handler s =
      if catches e then (handler e s').after o else ⟨.thrown e, s', o⟩ := by
  simp only [catching, hx]

/-- A boundary changes only how an exception ends. -/
theorem noexcept_apply (f : ε → φ) (x : Exec ε φ ω σ α) (s : σ) :
    noexcept f x s =
      ⟨match (x s).outcome with
        | .thrown e => .crashed (f e)
        | r => r, (x s).state, (x s).output⟩ := by
  unfold noexcept
  generalize x s = r
  obtain ⟨x, s, o⟩ := r
  cases x <;> rfl

/-- Running on a part keeps the outcome and the effects and writes only that part. -/
@[simp] theorem zoom_apply (l : Lens σ τ) (x : Exec ε φ ω τ α) (s : σ) :
    zoom l x s = ⟨(x (l.get s)).outcome, l.set (x (l.get s)).state s, (x (l.get s)).output⟩ := rfl

/-- Running on a value of its own leaves the state as it is. -/
theorem runOn_apply {φ' ω' : Type u} (fault : φ' → φ) (effect : ω' → ω) (t : τ)
    (x : Exec ε φ' ω' τ α) (s : σ) :
    runOn fault effect t x s =
      ⟨match (x t).outcome with
        | .value a => .value (a, (x t).state)
        | .thrown e => .thrown e
        | .crashed f => .crashed (fault f), s, (x t).output.map effect⟩ := by
  unfold runOn
  generalize x t = r
  obtain ⟨y, t', o⟩ := r
  cases y <;> rfl

/-! ### Statements without effects -/

/-- The statement gives out nothing, wherever it starts. -/
def Silent (x : Exec ε φ ω σ α) : Prop := ∀ s, (x s).output = []

/-- `pure` is silent. -/
theorem silent_pure (a : α) : Silent (pure a : Exec ε φ ω σ α) := fun _ => rfl

/-- `throw` is silent. -/
theorem silent_throw (e : ε) : Silent (throw e : Exec ε φ ω σ α) := fun _ => rfl

/-- `crash` is silent. -/
theorem silent_crash (c : φ) : Silent (crash c : Exec ε φ ω σ α) := fun _ => rfl

/-- `get` is silent. -/
theorem silent_get : Silent (get : Exec ε φ ω σ σ) := fun _ => rfl

/-- `modify` is silent. -/
theorem silent_modify (f : σ → σ) : Silent (modify f : Exec ε φ ω σ PUnit) := fun _ => rfl

/-- A sequence of silent parts is silent. -/
theorem Silent.bind {x : Exec ε φ ω σ α} {f : α → Exec ε φ ω σ β} (hx : Silent x)
    (hf : ∀ a, Silent (f a)) : Silent (x >>= f) := by
  intro s
  have h := hx s
  rw [bind_apply]
  generalize x s = r at h
  obtain ⟨y, t, o⟩ := r
  dsimp only at h
  subst h
  cases y with
  | value a => exact hf a t
  | thrown e => rfl
  | crashed c => rfl

/-- A choice of silent parts is silent. -/
theorem Silent.ite {c : Prop} [Decidable c] {x y : Exec ε φ ω σ α} (hx : Silent x)
    (hy : Silent y) : Silent (if c then x else y) := by
  split
  · exact hx
  · exact hy

/-- Silent code of a part is silent in the whole. -/
theorem Silent.zoom {l : Lens σ τ} {x : Exec ε φ ω τ α} (hx : Silent x) :
    Silent (Exec.zoom l x) := fun s => hx (l.get s)

/-- A try block of silent parts is silent. -/
theorem Silent.catching {catches : ε → Bool} {x : Exec ε φ ω σ α}
    {handler : ε → Exec ε φ ω σ α} (hx : Silent x) (hh : ∀ e, Silent (handler e)) :
    Silent (Exec.catching catches x handler) := by
  intro s
  have h := hx s
  unfold Exec.catching
  generalize x s = r at h
  obtain ⟨y, t, o⟩ := r
  dsimp only at h
  subst h
  cases y with
  | value a => rfl
  | crashed c => rfl
  | thrown e =>
    dsimp only
    split
    · exact hh e t
    · rfl

/-- A boundary keeps silent code silent. -/
theorem Silent.noexcept {f : ε → φ} {x : Exec ε φ ω σ α} (hx : Silent x) :
    Silent (Exec.noexcept f x) := by
  intro s
  rw [noexcept_apply]
  exact hx s

/-! ### What a statement yields -/

/-- Wherever it starts, the statement returns only values with a property, if it returns. -/
def Yields (x : Exec ε φ ω σ α) (good : α → Prop) : Prop :=
  ∀ s a, (x s).outcome = .value a → good a

/-- Code yields something. -/
theorem yields_true (x : Exec ε φ ω σ α) : Yields x fun _ => True := fun _ _ _ => trivial

/-- `pure` yields its argument. -/
theorem yields_pure {good : α → Prop} {a : α} (ha : good a) :
    Yields (pure a : Exec ε φ ω σ α) good := by
  intro s b hb
  cases hb
  exact ha

/-- A sequence yields what its rest yields behind its first part. -/
theorem Yields.bind {x : Exec ε φ ω σ α} {f : α → Exec ε φ ω σ β} {fine : α → Prop}
    {good : β → Prop} (hx : Yields x fine) (hf : ∀ a, fine a → Yields (f a) good) :
    Yields (x >>= f) good := by
  intro s b hb
  have h := hx s
  rw [bind_apply] at hb
  generalize x s = r at h hb
  obtain ⟨y, t, o⟩ := r
  cases y with
  | value a => exact hf a (h a rfl) t b hb
  | thrown e => cases hb
  | crashed c => cases hb

end Exec

/-- A state and the fault that ended the process, if one did. -/
structure Process (σ φ : Type u) where
  state : σ
  fault : Option φ := none

namespace Process

variable {ε φ ω σ α : Type u}

/-- One action of a process: `act` names the program it runs, or none when the action is not
enabled; nothing runs after a fault. -/
def step (act : σ → α → Option (Exec ε φ ω σ PUnit)) :
    Step (Process σ φ) α (Outcome ε φ PUnit × List ω)
  | ⟨_, some _⟩, _ => none
  | ⟨s, none⟩, a =>
    (act s a).map fun x =>
      (((x s).outcome, (x s).output), ⟨(x s).state, (x s).outcome.fault?⟩)

/-- An enabled action of a running process can be taken. -/
theorem step_of_act {act : σ → α → Option (Exec ε φ ω σ PUnit)} {p : Process σ φ} {a : α}
    {x : Exec ε φ ω σ PUnit} (hf : p.fault = none) (hx : act p.state a = some x) :
    step act p a = some (((x p.state).outcome, (x p.state).output),
      ⟨(x p.state).state, (x p.state).outcome.fault?⟩) := by
  obtain ⟨s, fault⟩ := p
  cases hf
  simp only [step, hx, Option.map_some]

/-- An enabled step runs the program of its action, and nothing else. -/
theorem step_eq_some {act : σ → α → Option (Exec ε φ ω σ PUnit)} {p p' : Process σ φ} {a : α}
    {o : Outcome ε φ PUnit × List ω} (h : step act p a = some (o, p')) :
    p.fault = none ∧ ∃ x, act p.state a = some x ∧ o = ((x p.state).outcome, (x p.state).output) ∧
      p'.state = (x p.state).state ∧ p'.fault = (x p.state).outcome.fault? := by
  obtain ⟨s, fault⟩ := p
  cases fault with
  | some f => simp [step] at h
  | none =>
    simp only [step] at h
    obtain ⟨x, hx, he⟩ := Option.map_eq_some_iff.mp h
    simp only [Prod.mk.injEq] at he
    obtain ⟨rfl, rfl⟩ := he
    exact ⟨rfl, x, hx, rfl, rfl, rfl⟩

end Process

end Barbarossa.Base
