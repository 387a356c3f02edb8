import Barbarossa.Client.Outcomes
import Barbarossa.Transport.Lifetime

/-!
# What one step of the client does to its transports

`Leave`, `Attach`, `Detach` and a transport's own actions are all that reach a transport. With the
equations of `Client.Steps` these are all parts of a client after a step.
-/

namespace Barbarossa
open Barbarossa.Base

namespace Client

/-- A transport after an action. -/
def transportAfter (c : Client) (t : TransportId) : Action → WebSocketTransport
  | .leaveDisconnect close =>
    match c.leaves with
    | some (.leaving worker) =>
      if c.session.transport = some t then
        (c.transports t).after (.disconnect (callerOn worker t) close)
      else c.transports t
    | _ => c.transports t
  | .attach u =>
    if t = u ∧ (c.transports t).handler = none then { c.transports t with handler := some self }
    else c.transports t
  | .detach u =>
    if t = u ∧ c.session.transport ≠ none then { c.transports t with handler := none }
    else c.transports t
  | .transport u a => if t = u then (c.transports t).after a else c.transports t
  | _ => c.transports t

private theorem disconnect_after (caller : Caller) (close : Option Exception)
    (t : WebSocketTransport) :
    (WebSocketTransport.disconnect caller close t).state = t.after (.disconnect caller close) :=
  WebSocketTransport.disconnect_lifetime caller close t

private theorem transports_leaveDisconnect {c : Client} {worker : Option TransportId}
    (hl : c.leaves = some (.leaving worker)) (close : Option Exception) (t : TransportId) :
    (leaveDisconnect worker close c).state.transports t =
      c.transportAfter t (.leaveDisconnect close) := by
  unfold leaveDisconnect Session.leaveTransport setLeave transportAfter
  rw [hl]
  cases ht : c.session.transport with
  | none => simp [onSession, sessionLens, ht]
  | some u =>
    have hafter := disconnect_after (callerOn worker u) close (c.transports u)
    generalize hrun : WebSocketTransport.disconnect (callerOn worker u) close (c.transports u) = r
      at hafter
    obtain ⟨x, u', o⟩ := r
    have hu : u = t ∨ t ≠ u := (eq_or_ne t u).imp Eq.symm id
    rcases hu with rfl | hu
    · cases x with
      | value =>
        cases hd : (c.transports u).done <;>
          simp [onSession, sessionLens, onTransport, transportLens, ht, hrun, hd, ← hafter]
      | _ => simp [onSession, sessionLens, onTransport, transportLens, ht, hrun, ← hafter]
    · cases x with
      | value =>
        cases hd : (c.transports u).done <;>
          simp [onSession, sessionLens, onTransport, transportLens, ht, hrun, hd, hu, hu.symm]
      | _ => simp [onSession, sessionLens, onTransport, transportLens, ht, hrun, hu, hu.symm]

private theorem transports_leave (c : Client) (worker : Option TransportId) (t : TransportId) :
    (leave worker c).state.transports t = c.transports t := by
  unfold leave setLeave
  have houtcome := c.session.leave_outcome
  generalize hrun : Session.leave c.session = r at houtcome
  obtain ⟨x, s, o⟩ := r
  cases x <;> simp [onSession, sessionLens, hrun]

private theorem transports_attach (c : Client) (u t : TransportId) :
    (attach u c).state.transports t = c.transportAfter t (.attach u) := by
  unfold attach WebSocketTransport.attach Session.onAttach transportAfter
  by_cases hu : t = u
  · subst hu
    cases hh : (c.transports t).handler <;> cases ht : c.session.transport <;>
      simp [onTransport, transportLens, onSession, sessionLens, hh, ht]
  · cases hh : (c.transports u).handler <;> cases ht : c.session.transport <;>
      simp [onTransport, transportLens, onSession, sessionLens, hh, ht, hu]

private theorem clear_handler {t : WebSocketTransport} (h : t.handler = none) :
    t = { t with handler := none } := by
  cases t
  cases h
  rfl

private theorem transports_detach (c : Client) (u t : TransportId) :
    (detach u c).state.transports t = c.transportAfter t (.detach u) := by
  unfold detach WebSocketTransport.detach Session.onDetach WebSocketTransport.detached
    transportAfter
  by_cases hu : t = u
  · subst hu
    have hclear := @clear_handler (c.transports t)
    cases hh : (c.transports t).handler <;> cases ht : c.session.transport <;>
      simp [onTransport, transportLens, onSession, sessionLens, hh, ht]
    exact hclear hh
  · cases hh : (c.transports u).handler <;> cases ht : c.session.transport <;>
      simp [onTransport, transportLens, onSession, sessionLens, hh, ht, hu]

/-- Every enabled action leaves the transports that the equations say. -/
theorem act_transports {c : Client} {a : Action} {x : ClientM PUnit} (hx : c.act a = some x)
    (t : TransportId) : (x c).state.transports t = c.transportAfter t a := by
  cases a with
  | transport u b =>
    obtain ⟨-, hx⟩ := Option.ite_none_right_eq_some.mp hx
    obtain ⟨y, hy, rfl⟩ := Option.map_eq_some_iff.mp hx
    have hafter := WebSocketTransport.act_after hy
    by_cases hu : t = u
    · subst hu
      simpa [onTransport, transportLens, transportAfter] using hafter
    · simp [onTransport, transportLens, transportAfter, hu]
  | leave worker =>
    obtain ⟨-, rfl⟩ := guard_eq_some hx
    exact transports_leave c worker t
  | leaveDisconnect close =>
    simp only [act] at hx
    split at hx
    · next hl =>
      cases hx
      exact transports_leaveDisconnect hl close t
    · cases hx
  | leaveJoined =>
    simp only [act] at hx
    split at hx
    · obtain ⟨-, hx⟩ := Option.ite_none_left_eq_some.mp hx
      cases hx
      rfl
    · cases hx
  | attach u =>
    obtain ⟨-, rfl⟩ := guard_eq_some hx
    exact transports_attach c u t
  | detach u =>
    cases hx
    exact transports_detach c u t
  | join realm =>
    cases hx
    rfl
  | joinFuture i =>
    simp only [act] at hx
    split at hx
    · cases hx
      rw [joinFuture_apply]
      rfl
    · cases hx
  | joinReady i | joinTimeout i | listenReady i =>
    simp only [act] at hx
    split at hx
    · cases hx
      rfl
    · cases hx
  | listen =>
    cases hx
    rw [listen_apply]
    rfl
  | registerOperation operation fn =>
    cases hx
    rfl
  | runDispatched ec =>
    simp only [act] at hx
    split at hx
    · cases hx
    · cases hx
      rfl
  | message u m ec =>
    obtain ⟨-, rfl⟩ := guard_eq_some hx
    rfl
  | hearbeat | hearbeatWoken =>
    obtain ⟨y, -, rfl⟩ := Option.map_eq_some_iff.mp hx
    rfl

variable {p p' : Process Client Fault} {a : Action}
  {o : Outcome Exception Fault PUnit × List Effect}

/-- A step leaves the transports that the equations say. -/
theorem transports_step (hs : step p a = some (o, p')) (t : TransportId) :
    p'.state.transports t = p.state.transportAfter t a := by
  obtain ⟨-, x, hx, -, hstate, -⟩ := Process.step_eq_some hs
  rw [hstate]
  exact act_transports hx t

/-- The session is the only handler of the transports. -/
def HandlersKnown (c : Client) : Prop := ∀ t s, (c.transports t).handler = some s → s = self

/-- A step makes no other handler. -/
theorem handlersKnown_step (hs : step p a = some (o, p')) (hk : p.state.HandlersKnown) :
    p'.state.HandlersKnown := by
  intro t s hh
  rw [transports_step hs] at hh
  cases a with
  | attach u =>
    simp only [transportAfter] at hh
    split at hh
    · exact (Option.some.inj hh).symm
    · exact hk t s hh
  | detach u =>
    simp only [transportAfter] at hh
    split at hh
    · cases hh
    · exact hk t s hh
  | leaveDisconnect close =>
    simp only [transportAfter] at hh
    split at hh
    · split at hh <;> exact hk t s hh
    · exact hk t s hh
  | transport u b =>
    simp only [transportAfter] at hh
    split at hh <;> exact hk t s hh
  | _ => exact hk t s hh

end Client
end Barbarossa
