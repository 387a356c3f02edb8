import Barbarossa.Client.Heartbeat

/-!
# Traffic and control

A CALL, an ERROR, a PUBLISH, a PUBLISHED or a message of an unknown type does not write any member
that the handshake, the heartbeat or the end of a session depends on. Two runs that differ only in
such messages go through the same states and send the same HELLO and PING frames.
-/

namespace Barbarossa
open Barbarossa.Base

/-- A CALL, or one of the types that are ignored. -/
def Received.isTraffic : Received → Bool
  | .call _ | .ignored => true
  | _ => false

/-- The members of a session that decide about its handshake, its heartbeat and its end. -/
structure Control where
  state : SessionState
  sessionId : UInt32
  hearbeatThread : Option HearbeatPoint
  joined : Promise Exception UInt32
  leaved : Promise Exception Bool
  pongReceived : Promise Exception Bool

namespace Session

/-- The control state of a session. -/
def control (s : Session) : Control where
  state := s.state
  sessionId := s.sessionId
  hearbeatThread := s.hearbeatThread
  joined := s.joined
  leaved := s.leaved
  pongReceived := s.pongReceived

/-- Traffic leaves the session as it is. -/
theorem after_of_isTraffic {r : Received} (h : r.isTraffic = true) (s : Session) :
    s.after r = s := by
  cases r with
  | call request | ignored => rfl
  | _ => cases h

/-- Traffic does not end the process. -/
theorem fault?_of_isTraffic {r : Received} (h : r.isTraffic = true) (net : Net) (s : Session) :
    (s.onMessageOutcome net r).fault? = none := by
  have hsend : ∀ m b, (s.sendOutcome net m b).fault? = none := by
    intro m b
    rcases s.sendOutcome_cases net m b with hv | ⟨e, he, -⟩
    · rw [hv, Outcome.fault?_value]
    · rw [he, Outcome.fault?_thrown]
  cases r with
  | call request =>
    cases request with
    | error e => rfl
    | ok request =>
      change (s.callOutcome net request).fault? = none
      unfold callOutcome
      split
      · exact hsend _ _
      · split
        · rfl
        · split
          · exact hsend _ _
          · rfl
  | ignored => rfl
  | _ => cases h

end Session

/-- The delivery of a message that is traffic. -/
def Action.isTraffic : Action → Bool
  | .message _ m _ => m.received.isTraffic
  | _ => false

/-- A HELLO or a PING on its way out. -/
def Effect.isControl : Effect → Bool
  | .send _ frame _ => decide (frame.head? = some (.integer 1) ∨ frame.head? = some (.integer 4))
  | _ => false

namespace Client

variable {h h₁ h₂ : ClientHistory} {p p' p₁ p₂ : Process Client Fault} {a : Action}
  {o : Outcome Exception Fault PUnit × List Effect}

/-- The actions of a run without the traffic, newest first. -/
def essential (h : ClientHistory) : List Action :=
  (h.map Entry.action).filter fun a => !a.isTraffic

/-- The control states before and after each step that is no traffic. -/
def controlPoints (h : ClientHistory) : List (Control × Control) :=
  (h.filter fun e => !e.action.isTraffic).map fun e =>
    (e.before.state.session.control, e.after.state.session.control)

/-- The HELLO and PING frames of a run. -/
def controlFrames (h : ClientHistory) : List Effect :=
  h.flatMap fun e => e.output.2.filter Effect.isControl

/-- Two runs go through the same control states, apart from traffic that changes none, and send the
same HELLO and PING frames. -/
structure Undisturbed (h₁ h₂ : ClientHistory) (p₁ p₂ : Process Client Fault) : Prop where
  points : controlPoints h₁ = controlPoints h₂
  ended : p₁.state.session.control = p₂.state.session.control
  traffic : ∀ e ∈ h₁ ++ h₂, e.action.isTraffic = true →
    e.after.state.session.control = e.before.state.session.control
  frames : controlFrames h₁ = controlFrames h₂

/-- A step of traffic leaves the client as it is. -/
theorem eq_of_isTraffic (ht : a.isTraffic = true) (hs : step p a = some (o, p')) : p' = p := by
  cases a with
  | message t m ec =>
    obtain ⟨hf, x, hx, -, hstate, hfault⟩ := Process.step_eq_some hs
    obtain ⟨-, rfl⟩ := guard_eq_some hx
    have hm : m.received.isTraffic = true := ht
    simp only [onSession, Exec.zoom_apply, Session.onMessage_eq, Session.after_of_isTraffic hm,
      sessionLens.set_get] at hstate
    simp only [onSession, Exec.zoom_apply, Session.onMessage_eq,
      Session.fault?_of_isTraffic hm] at hfault
    obtain ⟨c, f⟩ := p
    obtain ⟨c', f'⟩ := p'
    cases hf
    cases hstate
    cases hfault
    rfl
  | _ => cases ht

/-- A step of traffic sends no HELLO and no PING. -/
theorem frames_of_isTraffic (ht : a.isTraffic = true) (hs : step p a = some (o, p')) :
    o.2.filter Effect.isControl = [] := by
  rw [(step_facts hs).output, List.filter_eq_nil_iff]
  intro x hx hcontrol
  cases a with
  | message t m ec =>
    cases x with
    | invoked operation arguments => cases hcontrol
    | send u frame ec' =>
      have hx : .send u frame ec' ∈ p.state.session.onMessageOutput (p.state.net ec) m.received :=
        hx
      unfold Session.onMessageOutput at hx
      split at hx
      · rcases (Session.send_mem_callOutput hx).2 with rfl | ⟨result, rfl⟩ <;> cases hcontrol
      · cases hx
  | _ => cases ht

/-- The run without its traffic is a run to the same state. -/
theorem run_without_traffic (hr : ClientRun h p) :
    ClientRun (h.filter fun e => !e.action.isTraffic) p := by
  apply hr.filter_idle
  intro e he hk
  obtain ⟨older, -, hs⟩ := hr.of_mem he
  exact eq_of_isTraffic (by simpa using hk) hs

/-- The HELLO and PING frames are sent by the steps that are no traffic. -/
theorem controlFrames_filter (hr : ClientRun h p) :
    controlFrames (h.filter fun e => !e.action.isTraffic) = controlFrames h := by
  induction hr with
  | nil => rfl
  | @cons h s s' a o _ hs ih =>
    cases ht : a.isTraffic with
    | true =>
      rw [List.filter_cons_of_neg (by simp [ht]), ih]
      simp [controlFrames, frames_of_isTraffic ht hs]
    | false =>
      rw [List.filter_cons_of_pos (by simp [ht])]
      simp only [controlFrames, List.flatMap_cons] at ih ⊢
      rw [ih]

/-- Two runs that differ only in traffic are the same but for it. -/
theorem undisturbed (hr₁ : ClientRun h₁ p₁) (hr₂ : ClientRun h₂ p₂)
    (he : essential h₁ = essential h₂) : Undisturbed h₁ h₂ p₁ p₂ := by
  have hactions : (h₁.filter fun e => !e.action.isTraffic).map Entry.action =
      (h₂.filter fun e => !e.action.isTraffic).map Entry.action := by
    rw [essential, essential, List.filter_map, List.filter_map] at he
    exact he
  obtain ⟨hh, hp⟩ :=
    (run_without_traffic hr₁).eq_of_actions (run_without_traffic hr₂) hactions
  have htraffic : ∀ {h p}, ClientRun h p → ∀ e ∈ h, e.action.isTraffic = true →
      e.after.state.session.control = e.before.state.session.control := by
    intro h p hr e he ht
    obtain ⟨older, -, hs⟩ := hr.of_mem he
    rw [eq_of_isTraffic ht hs]
  constructor
  · simp only [controlPoints, hh]
  · rw [hp]
  · intro e he
    rcases List.mem_append.mp he with he | he
    · exact htraffic hr₁ e he
    · exact htraffic hr₂ e he
  · rw [← controlFrames_filter hr₁, ← controlFrames_filter hr₂, hh]

/-- A CALL and a message of an unknown type. -/
def trafficSteps : List Action :=
  [.message 0 ⟨[.integer 10, .integer 1, .string (utf8 "f"), .null]⟩ none,
    .message 0 ⟨[.integer 77]⟩ none]

/-- A heartbeat cycle with and without a CALL and an unknown message in it. -/
theorem undisturbed_cycle : ∃ h₁ p₁ h₂ p₂, ClientRun h₁ p₁ ∧ ClientRun h₂ p₂ ∧
    h₁.length = 7 ∧ h₂.length = 9 ∧ Undisturbed h₁ h₂ p₁ p₂ := by
  obtain ⟨h₁, p₁, hr₁, ha₁⟩ := exists_run_of_actions step init
    (joinSteps ++ [.hearbeat, .runDispatched none]) (by decide)
  obtain ⟨h₂, p₂, hr₂, ha₂⟩ := exists_run_of_actions step init
    (joinSteps ++ .hearbeat :: trafficSteps ++ [.runDispatched none]) (by decide)
  have hlength₁ := congrArg List.length ha₁
  have hlength₂ := congrArg List.length ha₂
  rw [List.length_map] at hlength₁ hlength₂
  have he : essential h₁ = essential h₂ := by
    rw [essential, essential, ha₁, ha₂]
    rfl
  exact ⟨h₁, p₁, h₂, p₂, hr₁, hr₂, hlength₁, hlength₂, undisturbed hr₁ hr₂ he⟩

end Client
end Barbarossa
