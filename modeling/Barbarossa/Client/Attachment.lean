import Barbarossa.Base.Pairing
import Barbarossa.Session.Session

/-!
# Attaching sessions and transports

`Attach` and `Detach` over any number of transports and sessions. A transport sets its
`handler_` before it calls `OnAttach`, and nothing resets it when the session refuses, so
the two pointers answer each other exactly as long as no free transport is attached to a
session that has one.
-/

namespace Barbarossa
open Barbarossa.Base

/-- The objects that are wired together. -/
structure Wiring where
  sessions : HandlerId → Session := fun _ => {}
  transports : TransportId → WebSocketTransport := fun _ => {}

/-- The calls that wire them. -/
inductive WiringAction where
  | attach (transport : TransportId) (handler : HandlerId)
  | detach (transport : TransportId)
  deriving DecidableEq

/-- Code over all objects. -/
abbrev WiringM := Exec Exception Fault Effect Wiring

namespace Wiring

/-- One session. -/
def sessionLens (s : HandlerId) : Lens Wiring Session :=
  .comp
    { get := sessions
      set := fun x w => { w with sessions := x }
      get_set := fun _ _ => rfl
      set_get := fun _ => rfl
      set_set := fun _ _ _ => rfl }
    (.component s)

/-- One transport. -/
def transportLens (t : TransportId) : Lens Wiring WebSocketTransport :=
  .comp
    { get := transports
      set := fun x w => { w with transports := x }
      get_set := fun _ _ => rfl
      set_get := fun _ => rfl
      set_set := fun _ _ _ => rfl }
    (.component t)

/-- `Attach`; `websocket_transport.ipp:106`. -/
def attach (t : TransportId) (s : HandlerId) : WiringM PUnit := do
  Exec.zoom (transportLens t) (WebSocketTransport.attach s)
  Exec.zoom (sessionLens s) (Session.onAttach t)

/-- `Detach`; `websocket_transport.ipp:119`. -/
def detach (t : TransportId) : WiringM PUnit := do
  let s ← Exec.zoom (transportLens t) WebSocketTransport.detach
  Exec.zoom (sessionLens s) Session.onDetach
  Exec.zoom (transportLens t) WebSocketTransport.detached

/-- The program of each call; every call can be made at any time. -/
def act (_ : Wiring) : WiringAction → Option (WiringM PUnit)
  | .attach t s => some (attach t s)
  | .detach t => some (detach t)

/-- One call. -/
def step : Step (Process Wiring Fault) WiringAction (Outcome Exception Fault PUnit × List Effect) :=
  Process.step act

/-- The `handler_` of a transport. -/
def handler (w : Wiring) (t : TransportId) : Option HandlerId := (w.transports t).handler

/-- The `transport_` of a session. -/
def attached (w : Wiring) (s : HandlerId) : Option TransportId := (w.sessions s).transport

/-- Write one `handler_`. -/
def setHandler (t : TransportId) (s : Option HandlerId) (w : Wiring) : Wiring :=
  { w with transports := Function.update w.transports t { w.transports t with handler := s } }

/-- Write one `transport_`. -/
def setAttached (s : HandlerId) (t : Option TransportId) (w : Wiring) : Wiring :=
  { w with sessions := Function.update w.sessions s { w.sessions s with transport := t } }

/-- The handler of a transport is the one set last. -/
@[simp] theorem handler_setHandler (w : Wiring) (t : TransportId) (s : Option HandlerId) :
    (w.setHandler t s).handler = Function.update w.handler t s := by
  funext u
  unfold handler setHandler
  by_cases hu : u = t
  · subst hu
    simp
  · simp [hu]

/-- Setting a handler attaches nothing. -/
@[simp] theorem attached_setHandler (w : Wiring) (t : TransportId) (s : Option HandlerId) :
    (w.setHandler t s).attached = w.attached := rfl

/-- The transport of a session is the one set last. -/
@[simp] theorem attached_setAttached (w : Wiring) (s : HandlerId) (t : Option TransportId) :
    (w.setAttached s t).attached = Function.update w.attached s t := by
  funext r
  unfold attached setAttached
  by_cases hr : r = s
  · subst hr
    simp
  · simp [hr]

/-- Attaching sets no handler. -/
@[simp] theorem handler_setAttached (w : Wiring) (s : HandlerId) (t : Option TransportId) :
    (w.setAttached s t).handler = w.handler := rfl

/-- What `Attach` does. The session's refusal leaves the `handler_` that was just set. -/
theorem attach_eq (t : TransportId) (s : HandlerId) (w : Wiring) :
    attach t s w =
      if w.handler t ≠ none then
        ⟨.thrown (.logicError ErrorMessages.transportHandlerAlreadyAttached), w, []⟩
      else if w.attached s ≠ none then
        ⟨.thrown (.logicError ErrorMessages.sessionTransportAlreadyAttached),
          w.setHandler t (some s), []⟩
      else ⟨.value ⟨⟩, (w.setHandler t (some s)).setAttached s (some t), []⟩ := by
  unfold attach WebSocketTransport.attach Session.onAttach handler attached
  cases hh : (w.transports t).handler with
  | some r => simp [transportLens, Lens.comp, Lens.component, hh]
  | none =>
    cases ha : (w.sessions s).transport <;>
      simp [transportLens, sessionLens, Lens.comp, Lens.component, hh, ha, setHandler, setAttached]

/-- What `Detach` does. The session's refusal leaves everything as it was. -/
theorem detach_eq (t : TransportId) (w : Wiring) :
    detach t w =
      match w.handler t with
      | none => ⟨.thrown (.logicError ErrorMessages.transportHandlerAlreadyDetached), w, []⟩
      | some s =>
        if w.attached s = none then
          ⟨.thrown (.logicError ErrorMessages.sessionTransportAlreadyDetached), w, []⟩
        else ⟨.value ⟨⟩, (w.setAttached s none).setHandler t none, []⟩ := by
  unfold detach WebSocketTransport.detach Session.onDetach WebSocketTransport.detached handler
    attached
  cases hh : (w.transports t).handler with
  | none => simp [transportLens, Lens.comp, Lens.component, hh]
  | some s =>
    cases ha : (w.sessions s).transport <;>
      simp [transportLens, sessionLens, Lens.comp, Lens.component, hh, ha, setHandler, setAttached]

/-! ### Over any sequence of calls -/

/-- The recorded calls. -/
abbrev Calls :=
  History (Process Wiring Fault) WiringAction (Outcome Exception Fault PUnit × List Effect)

/-- Nothing is attached yet. -/
def Unattached (w : Wiring) : Prop := (∀ t, w.handler t = none) ∧ ∀ s, w.attached s = none

/-- A transport points at a session exactly when the session points back. -/
def Answered (w : Wiring) : Prop := Mutual w.handler w.attached

/-- The pointers answer each other in every state, a call that throws changes nothing, and a
detached transport takes itself from no session that has another one. -/
structure MutualAttachment (h : Calls) (p : Process Wiring Fault) : Prop where
  answered : Always (fun p => p.state.Answered) h p
  thrown : ∀ e ∈ h, ∀ x, e.output.1 = .thrown x → e.after.state = e.before.state
  detached : ∀ e ∈ h, ∀ t, e.action = .detach t → ∀ s, e.before.state.attached s ≠ some t →
    e.after.state.attached s = e.before.state.attached s

/-- A free transport is attached only to a free session. -/
def AttachesFree (w : Wiring) : WiringAction → Prop
  | .attach t s => w.handler t = none → w.attached s = none
  | .detach _ => True

instance (w : Wiring) : (a : WiringAction) → Decidable (w.AttachesFree a)
  | .attach _ _ => inferInstanceAs (Decidable (_ → _))
  | .detach _ => isTrue trivial

variable {h : Calls} {p p' : Process Wiring Fault} {a : WiringAction} {w₀ : Wiring}
  {o : Outcome Exception Fault PUnit × List Effect}

private theorem step_attach {t : TransportId} {s : HandlerId}
    (hs : step p (.attach t s) = some (o, p')) :
    o.1 = (attach t s p.state).outcome ∧ p'.state = (attach t s p.state).state := by
  obtain ⟨-, x, hx, rfl, hstate, -⟩ := Process.step_eq_some hs
  cases hx
  exact ⟨rfl, hstate⟩

private theorem step_detach {t : TransportId} (hs : step p (.detach t) = some (o, p')) :
    o.1 = (detach t p.state).outcome ∧ p'.state = (detach t p.state).state := by
  obtain ⟨-, x, hx, rfl, hstate, -⟩ := Process.step_eq_some hs
  cases hx
  exact ⟨rfl, hstate⟩

/-- One call keeps the pointers mutual exactly when it attaches no taken session. -/
theorem answered_step (hs : step p a = some (o, p')) (hm : p.state.Answered) :
    p'.state.Answered ↔ p.state.AttachesFree a := by
  cases a with
  | attach t s =>
    obtain ⟨-, hstate⟩ := step_attach hs
    rw [hstate, attach_eq]
    unfold AttachesFree
    by_cases hh : p.state.handler t = none
    · rw [if_neg (by simp [hh])]
      by_cases ha : p.state.attached s = none
      · rw [if_neg (by simp [ha])]
        simp only [Answered, attached_setAttached, handler_setAttached, handler_setHandler,
          attached_setHandler]
        exact iff_of_true (hm.link hh ha) fun _ => ha
      · rw [if_pos ha]
        simp only [Answered, handler_setHandler, attached_setHandler]
        exact iff_of_false (hm.not_half_link hh) fun hfree => ha (hfree hh)
    · rw [if_pos hh]
      exact iff_of_true hm fun hn => absurd hn hh
  | detach t =>
    obtain ⟨-, hstate⟩ := step_detach hs
    rw [hstate, detach_eq]
    refine iff_of_true ?_ trivial
    cases hh : p.state.handler t with
    | none => exact hm
    | some s =>
      have ha : p.state.attached s = some t := (hm t s).mp hh
      simp only [ha, reduceCtorEq, ite_false, Answered, handler_setHandler, attached_setHandler,
        attached_setAttached, handler_setAttached]
      exact hm.unlink hh

private theorem thrown_step (hs : step p a = some (o, p')) (hm : p.state.Answered)
    (hc : p.state.AttachesFree a) {x : Exception} (ho : o.1 = .thrown x) : p'.state = p.state := by
  cases a with
  | attach t s =>
    obtain ⟨hout, hstate⟩ := step_attach hs
    rw [hout] at ho
    rw [hstate]
    rw [attach_eq] at ho ⊢
    by_cases hh : p.state.handler t = none
    · have ha : p.state.attached s = none := hc hh
      simp [hh, ha] at ho
    · rw [if_pos hh]
  | detach t =>
    obtain ⟨hout, hstate⟩ := step_detach hs
    rw [hout] at ho
    rw [hstate]
    rw [detach_eq] at ho ⊢
    cases hh : p.state.handler t with
    | none => rfl
    | some s =>
      have ha : p.state.attached s = some t := (hm t s).mp hh
      simp [hh, ha] at ho

private theorem detached_step {t : TransportId} (hs : step p (.detach t) = some (o, p'))
    (hm : p.state.Answered) {s : HandlerId} (ha : p.state.attached s ≠ some t) :
    p'.state.attached s = p.state.attached s := by
  obtain ⟨-, hstate⟩ := step_detach hs
  rw [hstate, detach_eq]
  cases hh : p.state.handler t with
  | none => rfl
  | some r =>
    have hr : p.state.attached r = some t := (hm t r).mp hh
    have hne : s ≠ r := by
      rintro rfl
      exact ha hr
    simp [hr, hne]

/-- In a run, the pointers are mutual, and what follows from that holds, exactly when no free
transport is attached to a session that has one. -/
theorem attachment_mutual_iff (hr : Run step { state := w₀ } h p) (hfree : w₀.Unattached) :
    MutualAttachment h p ↔ ∀ e ∈ h, e.before.state.AttachesFree e.action := by
  have halways := hr.always_iff (fun p => p.state.Answered) (fun p a => p.state.AttachesFree a)
    (Mutual.of_none hfree.1 hfree.2) fun _ _ _ _ hs hm => answered_step hs hm
  constructor
  · intro hm
    exact halways.mp hm.answered
  · intro hc
    have hm := halways.mpr hc
    constructor
    · exact hm
    · intro e he x ho
      obtain ⟨-, -, hs⟩ := hr.of_mem he
      exact thrown_step hs (hm.1 e he) (hc e he) ho
    · intro e he t ht s ha
      obtain ⟨-, -, hs⟩ := hr.of_mem he
      rw [ht] at hs
      exact detached_step hs (hm.1 e he) ha

/-- Two sessions change their transports over. -/
theorem attachment_mutual_swap : ∃ h p, Run step { state := {} } h p ∧ MutualAttachment h p ∧
    p.state.attached 0 = some 1 := by
  obtain ⟨h, p, hr, hc⟩ := exists_run_of_replay step { state := {} }
    [.attach 0 0, .attach 1 1, .attach 0 1, .detach 0, .detach 1, .detach 1, .attach 1 0,
      .attach 0 1]
    (fun h p => decide (∀ e ∈ h, e.before.state.AttachesFree e.action) &&
      decide (p.state.attached 0 = some 1)) (by decide)
  simp only [Bool.and_eq_true, decide_eq_true_eq] at hc
  exact ⟨h, p, hr, (attachment_mutual_iff hr ⟨fun _ => rfl, fun _ => rfl⟩).mpr hc.1, hc.2⟩

/-- A second transport that is attached to a session keeps it as its handler although the session
refuses. -/
theorem not_attachment_mutual :
    ¬ ∀ h p, Run step { state := {} } h p → MutualAttachment h p := by
  intro hall
  obtain ⟨h, p, hr, hc⟩ := exists_run_of_replay step { state := {} } [.attach 0 0, .attach 1 0]
    (fun _ p => decide (p.state.handler 1 = some 0) && decide (p.state.attached 0 = some 0))
    (by decide)
  simp only [Bool.and_eq_true, decide_eq_true_eq] at hc
  have hback := ((hall h p hr).answered.2 1 0).mp hc.1
  rw [hc.2] at hback
  cases hback

end Wiring
end Barbarossa
