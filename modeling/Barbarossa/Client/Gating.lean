import Barbarossa.Client.Binding
import Barbarossa.Client.Transports

/-!
# What `SendMessage` lets through

`SendMessage` asks whether a transport is attached, whether it is connected, and whether
there is a session id. A transport is connected by its flags, and its flags remember which
callbacks ran: `open_` is set only by the open callback, and `done_` is unset only while
neither the close nor the fail callback ran. All three sending paths go through the guard.
-/

namespace Barbarossa
open Barbarossa.Base

namespace Client

variable {h : ClientHistory} {p p' : Process Client Fault} {a : Action}
  {o : Outcome Exception Fault PUnit × List Effect}

/-! ### What a step does to a transport -/

private theorem sameFlags_step (hs : step p a = some (o, p')) {t : TransportId}
    (ha : ∀ b, a ≠ .transport t b) :
    (p'.state.transports t).HasFlags (p.state.transports t).opened (p.state.transports t).done
      (p.state.transports t).connected.satisfied (p.state.transports t).running
      (p.state.transports t).failing := by
  rw [transports_step hs]
  have hsame := (p.state.transports t).hasFlags_self
  cases a with
  | transport u b =>
    have hu : t ≠ u := by
      rintro rfl
      exact ha b rfl
    rwa [transportAfter, if_neg hu]
  | leaveDisconnect close =>
    simp only [transportAfter]
    split
    · split
      · exact ⟨rfl, rfl, rfl, rfl, rfl⟩
      · exact hsame
    · exact hsame
  | attach u | detach u =>
    simp only [transportAfter]
    split
    · exact ⟨rfl, rfl, rfl, rfl, rfl⟩
    · exact hsame
  | _ => exact hsame

private theorem hasFlags_step {t : TransportId} {b : TransportAction}
    (hs : step p (.transport t b) = some (o, p')) : (p.state.transports t).WorkerAgrees b ∧
      (p'.state.transports t).HasFlags ((p.state.transports t).openedAfter b)
        ((p.state.transports t).doneAfter b) ((p.state.transports t).satisfiedAfter b)
        ((p.state.transports t).runningAfter b) ((p.state.transports t).failingAfter b) := by
  obtain ⟨-, x, hx, -, hstate, -⟩ := Process.step_eq_some hs
  rw [hstate]
  obtain ⟨-, -, y, hy, rfl⟩ := act_transport hx
  simpa [onTransport, transportLens] using WebSocketTransport.act_hasFlags hy

/-! ### What the flags remember -/

/-- The transport's own actions that a history recorded for which `ran` holds. -/
def callbackRan (ran : TransportAction → Bool) (h : ClientHistory) (t : TransportId) : Bool :=
  h.any fun e =>
    match e.action with
    | .transport u b => u = t && ran b
    | _ => false

/-- The open callback of the transport has run. -/
def openRan : ClientHistory → TransportId → Bool :=
  callbackRan fun
    | .onClientOpen => true
    | _ => false

/-- The close or the fail callback of the transport has run, or begun to. -/
def closeOrFailRan : ClientHistory → TransportId → Bool :=
  callbackRan fun
    | .onClientClose | .onClientFail => true
    | _ => false

/-- What the flags of a transport remember of its callbacks. Behind its promise, a fail callback has
not yet set `done_`, but then the connection is not open. The third field is why a fail callback
that throws finds `done_` set. -/
structure Remembers (h : ClientHistory) (t : TransportId) (x : WebSocketTransport) : Prop where
  opened : x.opened = true → openRan h t = true
  unbroken : x.done = false → x.failing = false → closeOrFailRan h t = false
  settled : x.connected.satisfied = true →
    x.opened = true ∨ x.done = true ∨ x.running = false ∨ x.failing = true
  failing : x.failing = true → x.opened = false

private theorem callbackRan_own (ran : TransportAction → Bool) (t : TransportId)
    (b : TransportAction) :
    callbackRan ran (⟨p, .transport t b, o, p'⟩ :: h) t = (ran b || callbackRan ran h t) := by
  simp [callbackRan]

private theorem callbackRan_other (ran : TransportAction → Bool) {t : TransportId}
    (ha : ∀ b, a ≠ .transport t b) :
    callbackRan ran (⟨p, a, o, p'⟩ :: h) t = callbackRan ran h t := by
  unfold callbackRan
  rw [List.any_cons]
  cases a with
  | transport u b =>
    have hu : u ≠ t := by
      rintro rfl
      exact ha b rfl
    simp [hu]
  | _ => rfl

private theorem Remembers.own {t : TransportId} {b : TransportAction}
    (hm : Remembers h t (p.state.transports t)) (hs : step p (.transport t b) = some (o, p')) :
    Remembers (⟨p, .transport t b, o, p'⟩ :: h) t (p'.state.transports t) := by
  obtain ⟨hw, hf⟩ := hasFlags_step hs
  obtain ⟨hopened, hunbroken, hsettled, hfailing⟩ := hm
  have htakes : (p.state.transports t).takesCallbacks = true →
      (p.state.transports t).running = true ∧ (p.state.transports t).failing = false := by
    intro htakes
    simpa [WebSocketTransport.takesCallbacks] using htakes
  constructor
  · rw [hf.opened, openRan, callbackRan_own]
    cases b with
    | onClientOpen => exact fun _ => rfl
    | disconnectJoined =>
      intro hc
      cases hc
    | _ => exact hopened
  · rw [hf.done, hf.failing, closeOrFailRan, callbackRan_own]
    cases b with
    | onClientClose | onClientFailed =>
      intro hd
      cases hd
    | onClientFail =>
      -- The flag stays unset only when the callback threw, and then it was set before.
      obtain ⟨hrun, hnot⟩ := htakes hw
      simp only [WebSocketTransport.doneAfter, WebSocketTransport.failingAfter]
      cases ho : (p.state.transports t).opened <;>
        cases hc : (p.state.transports t).connected.satisfied <;>
          simp_all
    | _ => exact hunbroken
  · rw [hf.satisfied, hf.opened, hf.done, hf.running, hf.failing]
    cases b with
    | onClientOpen => exact fun _ => .inl rfl
    | onClientFail =>
      obtain ⟨hrun, hnot⟩ := htakes hw
      simp only [WebSocketTransport.satisfiedAfter, WebSocketTransport.openedAfter,
        WebSocketTransport.doneAfter, WebSocketTransport.runningAfter,
        WebSocketTransport.failingAfter]
      cases ho : (p.state.transports t).opened <;>
        cases hc : (p.state.transports t).connected.satisfied <;>
          simp_all
    | disconnectJoined => exact fun _ => .inr (.inr (.inl hw))
    | workerExit => exact fun _ => .inr (.inr (.inl rfl))
    | onClientClose | onClientFailed => exact fun _ => .inr (.inl rfl)
    | _ => exact hsettled
  · rw [hf.failing, hf.opened]
    cases b with
    | onClientOpen =>
      intro hfail
      have hnot : (p.state.transports t).failing = true := hfail
      rw [(htakes hw).2] at hnot
      cases hnot
    | onClientFail =>
      simp only [WebSocketTransport.failingAfter, WebSocketTransport.openedAfter, (htakes hw).2]
      cases (p.state.transports t).opened <;> simp
    | onClientFailed =>
      intro hfail
      cases hfail
    | disconnectJoined => exact fun _ => rfl
    | _ => exact hfailing

/-- The flags of every transport remember its callbacks. -/
theorem remembers (hr : ClientRun h p) (t : TransportId) :
    Remembers h t (p.state.transports t) := by
  refine hr.invariant (fun h p => Remembers h t (p.state.transports t)) ?_ ?_
  · constructor
    · intro ho
      cases ho
    · exact fun _ _ => rfl
    · intro hc
      cases hc
    · intro hfail
      cases hfail
  · intro h p a o p' hm hs
    by_cases ha : ∃ b, a = .transport t b
    · obtain ⟨b, rfl⟩ := ha
      exact hm.own hs
    · have ha : ∀ b, a ≠ .transport t b := fun b he => ha ⟨b, he⟩
      have hf := sameFlags_step hs ha
      constructor
      · rw [hf.opened, openRan, callbackRan_other _ ha]
        exact hm.opened
      · rw [hf.done, hf.failing, closeOrFailRan, callbackRan_other _ ha]
        exact hm.unbroken
      · rw [hf.satisfied, hf.opened, hf.done, hf.running, hf.failing]
        exact hm.settled
      · rw [hf.failing, hf.opened]
        exact hm.failing

/-! ### The guard -/

/-- A frame is let through to transport `t`: it is attached, it was opened and neither closed nor
failed, and there is a session id where one is required. -/
structure Admitted (h : ClientHistory) (s : Session) (sessionEstablished : Bool)
    (t : TransportId) : Prop where
  attached : s.transport = some t
  opened : openRan h t = true
  unbroken : closeOrFailRan h t = false
  session : sessionEstablished = true → s.sessionId ≠ 0

/-- Every frame of a history was let through when it was handed over; only a HELLO needs no
session id. -/
def SendsGated : ClientHistory → Prop
  | [] => True
  | e :: h =>
    (∀ t frame ec, .send t frame ec ∈ e.output.2 →
      Admitted h e.before.state.session (!isHello frame) t) ∧ SendsGated h

/-- `SendMessage` fails, and neither sends nor writes anything. -/
def Refuses (c : Client) (m : Message) (sessionEstablished : Bool) (ec : Option Bytes) : Prop :=
  ∃ x, (x = .noTransportError ∨ x = .noSessionError) ∧
    onSession (Session.sendMessage (c.net ec) m sessionEstablished) c = ⟨.thrown x, c, []⟩

private theorem admitted_of_route (hr : ClientRun h p) {ec : Option Bytes} {b : Bool}
    {t : TransportId} (hroute : p.state.session.route (p.state.net ec) b = .ok t) :
    Admitted h p.state.session b t := by
  obtain ⟨ht, hc, hid⟩ := Session.route_eq_ok.mp hroute
  have hm := remembers hr t
  have hc : (p.state.transports t).opened = true ∧ (p.state.transports t).done = false := by
    simpa [net, WebSocketTransport.isConnected] using hc
  have hnot : (p.state.transports t).failing = false := by
    by_contra hfail
    have hclosed := hm.failing (by simpa using hfail)
    rw [hc.1] at hclosed
    cases hclosed
  exact ⟨ht, hm.opened hc.1, hm.unbroken hc.2 hnot, hid⟩

private theorem admitted_of_send (hr : ClientRun h p) {t : TransportId} {frame : List Json}
    {ec : Option Bytes} (hx : .send t frame ec ∈ p.state.outputAfter a) :
    Admitted h p.state.session (!isHello frame) t := by
  rcases route_of_send_mem hx with ⟨m, hm, rfl, hroute⟩ | hroute
  · obtain ⟨realm, rfl⟩ := built_of_mem_ioContext hr _ hm
    exact admitted_of_route hr hroute
  · have ha := admitted_of_route hr hroute
    exact ⟨ha.attached, ha.opened, ha.unbroken, fun _ => ha.session rfl⟩

private theorem refuses_of_not_admitted (hr : ClientRun h p) (m : Message) (b : Bool)
    (ec : Option Bytes) (hn : ∀ t, ¬ Admitted h p.state.session b t) :
    Refuses p.state m b ec := by
  have hrun := Session.sendMessage_eq (p.state.net ec) m b p.state.session
  cases hroute : p.state.session.route (p.state.net ec) b with
  | ok t => exact absurd (admitted_of_route hr hroute) (hn t)
  | error x =>
    refine ⟨x, Session.route_eq_error hroute, ?_⟩
    simp only [Session.sendOutcome, Session.sendOutput, hroute] at hrun
    simp [onSession, sessionLens, hrun]

/-- In every run, each frame was let through when it was handed over, and whenever one would not
be, `SendMessage` refuses. -/
theorem sends_gated (hr : ClientRun h p) : SendsGated h ∧
    ∀ m sessionEstablished ec, (∀ t, ¬ Admitted h p.state.session sessionEstablished t) →
      Refuses p.state m sessionEstablished ec := by
  refine ⟨?_, fun m b ec hn => refuses_of_not_admitted hr m b ec hn⟩
  induction hr with
  | nil => trivial
  | @cons h p p' a o hr hs ih =>
    refine ⟨fun t frame ec hx => ?_, ih⟩
    have hx : .send t frame ec ∈ o.2 := hx
    rw [(step_facts hs).output] at hx
    exact admitted_of_send hr hx

/-- A session that sent a HELLO, an ERROR and a PING before its transport closed. -/
theorem sends_gated_closed : ∃ h p, ClientRun h p ∧ SendsGated h ∧
    (h.filter fun e => !e.output.2.isEmpty).length = 3 ∧
    ∀ m ec, Refuses p.state m true ec := by
  obtain ⟨h, p, hr, hc⟩ := exists_run_of_replay step init
    [.attach 0, .transport 0 .onClientOpen, .join (utf8 "realm"), .runDispatched none,
      .message 0 ⟨[.integer 2, .integer 7]⟩ none,
      .message 0 ⟨[.integer 10, .integer 1, .string (utf8 "f"), .null]⟩ none, .hearbeat,
      .runDispatched none, .transport 0 .onClientClose]
    (fun h p => decide ((h.filter fun e => !e.output.2.isEmpty).length = 3) &&
      decide (p.state.session.transport = some 0) && closeOrFailRan h 0) (by decide)
  simp only [Bool.and_eq_true, decide_eq_true_eq] at hc
  obtain ⟨⟨hcount, htransport⟩, hclosed⟩ := hc
  refine ⟨h, p, hr, (sends_gated hr).1, hcount, fun m ec => (sends_gated hr).2 m true ec ?_⟩
  intro t ha
  have ht := ha.attached
  rw [htransport] at ht
  cases ht
  have hunbroken := ha.unbroken
  rw [hclosed] at hunbroken
  cases hunbroken

end Client
end Barbarossa
