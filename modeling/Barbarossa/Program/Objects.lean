import Barbarossa.Program.Refinement

/-!
# The objects of the program

What holds of the session and the transport of `main` wherever its threads stand: who is attached to
whom, which calls were made, how far the transport is destroyed. Only the main thread moves these,
and a second cause of its end never survives.
-/

namespace Barbarossa
open Barbarossa.Base

namespace Program

variable {text : JsonText} {realm : Bytes} {h : ProgramHistory}
  {p p' : Process Program ProgramFault} {a : ProgramAction}
  {o : Outcome Exception ProgramFault PUnit × List Effect}

/-! ### Steps that the program survives -/

/-- What an action that ended normally left of a client. -/
structure Survives (c : Client) (b : Action) (c' : Client) : Prop where
  enabled : c.Enabled b
  ran : ∃ x, c.act b = some x ∧ (x c).outcome = .value ⟨⟩ ∧ (x c).state = c'
  session : c'.session = c.sessionAfter b
  joins : c'.joins = c.joinsAfter b
  listens : c'.listens = c.listensAfter b
  leaves : c'.leaves = c.leavesAfter b
  transport : c'.transports transport = c.transportAfter transport b

/-- An action that the program survives is a step of its client that ends normally. -/
theorem client_step_of_survived (hr : ProgramRun text realm h p)
    (hs : step text p a = some (o, p')) (hf : p'.fault = none) {b : Action}
    (hb : p.state.clientAction text a = some b) :
    Client.step ⟨p.state.client, none⟩ b =
      some ((.value ⟨⟩, o.2), ⟨p'.state.client, none⟩) := by
  obtain ⟨out, hstep, hfault⟩ := (step_facts_of_run hr hs).performs b hb
  have hvalue : out = .value ⟨⟩ := by
    rw [← outcomeOf_faultOf out, ← hfault, hf]
    rfl
  rw [hstep, hvalue]
  rfl

/-- An action that the program survives ended normally. -/
theorem survives (hr : ProgramRun text realm h p) (hs : step text p a = some (o, p'))
    (hf : p'.fault = none) {b : Action} (hb : p.state.clientAction text a = some b) :
    Survives p.state.client b p'.state.client := by
  have hstep := client_step_of_survived hr hs hf hb
  have hfacts := Client.step_facts hstep
  obtain ⟨-, x, hx, ho, hstate, -⟩ := Process.step_eq_some hstep
  refine ⟨hfacts.enabled, ⟨x, hx, ?_, hstate.symm⟩, hfacts.session, hfacts.joins, hfacts.listens,
    hfacts.leaves, Client.transports_step hstep transport⟩
  exact (congrArg Prod.fst ho).symm

/-- A step of the main thread that the program survives. -/
inductive MainStep (p p' : Program) (ec : Option Bytes) : Prop
  | call (b : Action) (next : MainPoint) (hc : MainCall p ec b next)
      (hb : Survives p.client b p'.client) (hpoint : p'.point = next)
      (hstopped : p'.stopped = p.stopped)
  | returned (next : MainPoint) (hc : MainReturn p none next) (hclient : p'.client = p.client)
      (hpoint : p'.point = next) (hstopped : p'.stopped = p.stopped)
  | caught (e : Exception) (next : MainPoint) (hc : MainReturn p (some e) next)
      (hhandled : handled e = true) (hclient : p'.client = p.client)
      (hpoint : p'.point = .detaching) (hstopped : p'.stopped = true)
  | move (next : MainPoint) (hc : MainMove p next) (hclient : p'.client = p.client)
      (hpoint : p'.point = next) (hstopped : p'.stopped = p.stopped)

/-- A step of the main thread is one of these. -/
theorem mainStep_of_step {ec : Option Bytes} (hr : ProgramRun text realm h p)
    (hs : step text p (.main ec) = some (o, p')) (hf : p'.fault = none) :
    MainStep p.state p'.state ec := by
  have hfacts := step_facts_of_run hr hs
  have henabled := hfacts.enabled
  have hcaught := hfacts.caught hf
  have hpoint := hfacts.point hf
  have hstopped := hfacts.stopped hf
  simp only [Enabled, Caught, pointAfter, stoppedAfter] at henabled hcaught hpoint hstopped
  cases hc : p.state.statement ec with
  | call b next =>
    rw [hc] at hpoint hstopped
    have hb : p.state.clientAction text (.main ec) = some b := by simp only [clientAction, hc]
    exact .call b next (mainCall_of_statement hc) (survives hr hs hf hb) hpoint hstopped
  | returned failure next =>
    rw [hc] at hpoint hstopped
    have hclient := (hfacts.idle (by simp only [clientAction, hc])).1
    cases failure with
    | none => exact .returned next (mainReturn_of_statement hc) hclient hpoint hstopped
    | some e =>
      exact .caught e next (mainReturn_of_statement hc) (hcaught e next hc) hclient hpoint hstopped
  | goOn next =>
    rw [hc] at hpoint hstopped
    have hclient := (hfacts.idle (by simp only [clientAction, hc])).1
    exact .move next (mainMove_of_statement hc) hclient hpoint hstopped
  | blocked => exact absurd hc henabled

/-- What every survived step keeps of a history and a state holds while the program runs. -/
theorem invariant_of_running (Inv : ProgramHistory → Program → Prop)
    (hinit : Inv [] { realm := realm })
    (hstep : ∀ h p a o p', ProgramRun text realm h p → p.fault = none → Inv h p.state →
      step text p a = some (o, p') → p'.fault = none → Inv (⟨p, a, o, p'⟩ :: h) p'.state)
    (hr : ProgramRun text realm h p) (hf : p.fault = none) : Inv h p.state := by
  induction hr with
  | nil => exact hinit
  | cons hr hs ih =>
    have hrunning := (step_facts_of_run hr hs).running
    exact hstep _ _ _ _ _ hr hrunning (ih hrunning) hs hf

/-- A thread other than the main thread. -/
def isOther : ProgramAction → Bool
  | .main _ => false
  | _ => true

/-- The other threads do not move the main thread. -/
theorem point_of_other (hr : ProgramRun text realm h p) (hs : step text p a = some (o, p'))
    (hf : p'.fault = none) (ha : isOther a = true) : p'.state.point = p.state.point := by
  rw [(step_facts_of_run hr hs).point hf]
  cases a with
  | main ec => cases ha
  | _ => rfl

/-! ### What only the main thread moves -/

/-- The calls of `Connect`, the handler, the thread object and the stage of the transport, and the
transport of the session are the same. -/
structure SamePlace (c c' : Client) : Prop where
  connects : (c'.transports transport).connects = (c.transports transport).connects
  handler : (c'.transports transport).handler = (c.transports transport).handler
  joinable : (c'.transports transport).joinable = (c.transports transport).joinable
  stage : (c'.transports transport).stage = (c.transports transport).stage
  attached : c'.session.transport = c.session.transport

/-- A client keeps its place. -/
theorem SamePlace.rfl {c : Client} : SamePlace c c := ⟨.refl _, .refl _, .refl _, .refl _, .refl _⟩

/-- The actions that move one of these. -/
def places : Action → Bool
  | .attach _ | .detach _ => true
  | .transport _ .onClientOpen | .transport _ .onClientClose | .transport _ .onClientFail
  | .transport _ .onClientFailed | .transport _ .workerExit => false
  | .transport _ _ => true
  | _ => false

private theorem transportAfter_of_not_places {c : Client} {b : Action} (hb : places b = false) :
    (c.transportAfter transport b).connects = (c.transports transport).connects ∧
      (c.transportAfter transport b).handler = (c.transports transport).handler ∧
      (c.transportAfter transport b).joinable = (c.transports transport).joinable ∧
      (c.transportAfter transport b).stage = (c.transports transport).stage := by
  cases b with
  | attach t | detach t => cases hb
  | transport t b =>
    simp only [Client.transportAfter]
    cases b with
    | onClientOpen | onClientClose | onClientFail | onClientFailed | workerExit =>
      split <;> exact ⟨rfl, rfl, rfl, rfl⟩
    | _ => cases hb
  | leaveDisconnect close =>
    simp only [Client.transportAfter]
    split
    · split <;> exact ⟨rfl, rfl, rfl, rfl⟩
    · exact ⟨rfl, rfl, rfl, rfl⟩
  | _ => exact ⟨rfl, rfl, rfl, rfl⟩

private theorem attached_of_not_places {c : Client} {b : Action} (hb : places b = false) :
    (c.sessionAfter b).transport = c.session.transport := by
  cases b with
  | attach t | detach t => cases hb
  | runDispatched ec =>
    simp only [Client.sessionAfter]
    split <;> simp
  | message t m ec => simp [Client.sessionAfter]
  | hearbeat => simp [Client.sessionAfter]
  | _ => rfl

/-- A survived action that moves none of these. -/
theorem Survives.samePlace {c c' : Client} {b : Action} (hv : Survives c b c')
    (hb : places b = false) : SamePlace c c' := by
  obtain ⟨hconnects, hhandler, hjoinable, hstage⟩ := transportAfter_of_not_places (c := c) hb
  rw [← hv.transport] at hconnects hhandler hjoinable hstage
  refine ⟨hconnects, hhandler, hjoinable, hstage, ?_⟩
  rw [hv.session]
  exact attached_of_not_places hb

/-- What the other threads perform moves none of these. -/
theorem samePlace_of_other (hr : ProgramRun text realm h p) (hs : step text p a = some (o, p'))
    (hf : p'.fault = none) (ha : isOther a = true) : SamePlace p.state.client p'.state.client := by
  cases hb : p.state.clientAction text a with
  | none =>
    rw [((step_facts_of_run hr hs).idle hb).1]
    exact .rfl
  | some b =>
    apply (survives hr hs hf hb).samePlace
    cases performs_of_clientAction hb with
    | call ec b next hc => cases ha
    | _ => rfl

end Program

namespace MainPoint

/-- The session is attached to the transport: from `Attach` to `Detach`. -/
def attached : MainPoint → Bool
  | .connecting | .connectFuture | .connectWait | .joining | .joinFuture | .joinWait
  | .listening | .listenWait | .detaching => true
  | _ => false

/-- The calls of `Connect` that the main thread has made. -/
def Connects : MainPoint → List ConnectCall → Prop
  | .registering, cs | .wiring, cs | .attaching, cs | .connecting, cs => cs = []
  | .connectFuture, cs => cs = [.queued]
  | .connectWait, cs => cs = [.waiting] ∨ ∃ r, cs = [.finished r]
  | _, cs => ∃ r, cs = [.finished r]

/-- How far the transport is destroyed. -/
def Destroys : MainPoint → Stage → Prop
  | .joiningWorker, s => s = .destroying ∨ s = .destroyed
  | .exited, s => s = .destroyed
  | _, s => s = .alive

end MainPoint

namespace Program

variable {text : JsonText} {realm : Bytes} {h : ProgramHistory}
  {p p' : Process Program ProgramFault} {a : ProgramAction}
  {o : Outcome Exception ProgramFault PUnit × List Effect}

/-- Where the main thread is, the objects are. -/
structure Placed (p : Program) : Prop where
  connects : p.point.Connects (p.client.transports transport).connects
  handler : (p.client.transports transport).handler =
    if p.point.attached then some Client.self else none
  attached : p.client.session.transport = if p.point.attached then some transport else none
  stage : p.point.Destroys (p.client.transports transport).stage
  joinable : (p.client.transports transport).joinable = true ↔
    (p.client.transports transport).stage ≠ .destroyed

/-- The main thread goes on to a point where the same holds. -/
theorem Placed.of_same {p p' : Program} (hi : Placed p) (hsame : SamePlace p.client p'.client)
    (hconnects : ∀ cs, p.point.Connects cs → p'.point.Connects cs)
    (hattached : p'.point.attached = p.point.attached)
    (hstage : ∀ s, p.point.Destroys s → p'.point.Destroys s) : Placed p' := by
  constructor
  · rw [hsame.connects]
    exact hconnects _ hi.connects
  · rw [hsame.handler, hattached]
    exact hi.handler
  · rw [hsame.attached, hattached]
    exact hi.attached
  · rw [hsame.stage]
    exact hstage _ hi.stage
  · rw [hsame.joinable, hsame.stage]
    exact hi.joinable

private theorem Placed.linked {p p' : Program} (hi : Placed p) {handler : Option HandlerId}
    (htransport : p'.client.transports transport =
      { p.client.transports transport with handler := handler })
    (hhandler : handler = if p'.point.attached then some Client.self else none)
    (hattached : p'.client.session.transport = if p'.point.attached then some transport else none)
    (hconnects : ∀ cs, p.point.Connects cs → p'.point.Connects cs)
    (hstage : ∀ s, p.point.Destroys s → p'.point.Destroys s) : Placed p' := by
  constructor
  · rw [htransport]
    exact hconnects _ hi.connects
  · rw [htransport]
    exact hhandler
  · exact hattached
  · rw [htransport]
    exact hstage _ hi.stage
  · rw [htransport]
    exact hi.joinable

private theorem Placed.own {p p' : Program} {b : TransportAction} (hi : Placed p)
    (hv : Survives p.client (.transport transport b) p'.client)
    (hconnects : p'.point.Connects ((p.client.transports transport).connectsAfter b))
    (hattached : p'.point.attached = p.point.attached)
    (hstage : p'.point.Destroys ((p.client.transports transport).stageAfter b))
    (hjoinable : (p.client.transports transport).joinableAfter b = true ↔
      (p.client.transports transport).stageAfter b ≠ .destroyed) : Placed p' := by
  have htransport := hv.transport
  simp only [Client.transportAfter, if_true] at htransport
  constructor
  · rw [htransport]
    exact hconnects
  · rw [htransport, hattached]
    exact hi.handler
  · rw [hv.session, hattached]
    exact hi.attached
  · rw [htransport]
    exact hstage
  · rw [htransport]
    exact hjoinable

/-- The program of a transport's own action ended normally. -/
theorem Survives.own {c c' : Client} {t : TransportId} {b : TransportAction}
    (hv : Survives c (.transport t b) c') : ∃ y, (c.transports t).act b = some y ∧
      (y (c.transports t)).outcome = .value ⟨⟩ := by
  obtain ⟨x, hx, hvalue, -⟩ := hv.ran
  obtain ⟨-, -, y, hy, rfl⟩ := Client.act_transport hx
  exact ⟨y, hy, hvalue⟩

private theorem connectsAfter_connect {t : WebSocketTransport} {ec : Option Bytes}
    {y : TransportM PUnit} (hy : t.act (.connect ec) = some y)
    (hvalue : (y t).outcome = .value ⟨⟩) :
    t.connectsAfter (.connect ec) = t.connects ++ [.queued] := by
  obtain ⟨-, rfl⟩ := guard_eq_some hy
  unfold WebSocketTransport.connect at hvalue
  cases ho : t.opened with
  | true => simp [ho] at hvalue
  | false =>
    cases ec with
    | some text => simp [ho] at hvalue
    | none => simp [WebSocketTransport.connectsAfter, ho]

/-- A destructor of a transport with a joinable thread gets to its wait only while `done_` is not
set. -/
theorem stageAfter_destroy {t : WebSocketTransport} {y : TransportM PUnit}
    (hy : t.act (.destroy .other) = some y) (hvalue : (y t).outcome = .value ⟨⟩)
    (hj : t.joinable = true) : t.done = false ∧ t.stageAfter (.destroy .other) = .destroying := by
  obtain ⟨-, rfl⟩ := guard_eq_some hy
  rw [WebSocketTransport.destroy_eq] at hvalue
  unfold WebSocketTransport.stageAfter
  cases hd : t.done with
  | true => simp [hd, hj] at hvalue
  | false =>
    cases hw : t.disconnecting with
    | true => simp [hd, hw] at hvalue
    | false => simp [hj]

private theorem Placed.call {p p' : Program} {ec : Option Bytes} {b : Action} {next : MainPoint}
    (hi : Placed p) (hc : MainCall p ec b next) (hv : Survives p.client b p'.client)
    (hpoint : p'.point = next) : Placed p' := by
  have hconnects := hi.connects
  have hhandler := hi.handler
  have hattached := hi.attached
  have hstage := hi.stage
  cases hc with
  | registerOperation hp | join hp | joinFuture hp | joinReady hp | joinTimeout hp | listen hp
  | listenReady hp =>
    apply hi.of_same (hv.samePlace rfl)
    all_goals simp [hp, hpoint, MainPoint.Connects, MainPoint.attached, MainPoint.Destroys]
  | attach hp =>
    rw [hp] at hhandler hattached
    have htransport := hv.transport
    have hsession := hv.session
    have hhandler : (p.client.transports transport).handler = none := hhandler
    have hattached : p.client.session.transport = none := hattached
    simp only [Client.transportAfter, hhandler, and_self, if_true] at htransport
    simp only [Client.sessionAfter, hhandler, hattached, and_self, if_true] at hsession
    apply hi.linked htransport
    · rw [hpoint]
      rfl
    · rw [hpoint, hsession]
      rfl
    all_goals simp [hp, hpoint, MainPoint.Connects, MainPoint.Destroys]
  | detach hp =>
    rw [hp] at hhandler hattached
    have htransport := hv.transport
    have hsession := hv.session
    have hhandler : (p.client.transports transport).handler = some Client.self := hhandler
    have hattached : p.client.session.transport = some transport := hattached
    simp only [Client.transportAfter, hattached, ne_eq, reduceCtorEq, not_false_eq_true, and_self,
      if_true] at htransport
    simp only [Client.sessionAfter, hhandler, reduceCtorEq, if_false] at hsession
    apply hi.linked htransport
    · rw [hpoint]
      rfl
    · rw [hpoint, hsession]
      rfl
    all_goals simp [hp, hpoint, MainPoint.Connects, MainPoint.Destroys]
  | connect hp =>
    rw [hp] at hconnects hstage
    obtain ⟨y, hy, hvalue⟩ := hv.own
    apply hi.own hv
    · rw [hpoint, connectsAfter_connect hy hvalue, hconnects]
      rfl
    · rw [hpoint, hp]
      rfl
    · rw [hpoint]
      exact hstage
    · exact hi.joinable
  | connectFuture hp =>
    rw [hp] at hconnects hstage
    apply hi.own hv
    · rw [hpoint]
      simp only [WebSocketTransport.connectsAfter, MainPoint.Connects] at hconnects ⊢
      rw [hconnects]
      split
      · exact .inr ⟨_, rfl⟩
      · exact .inl rfl
    · rw [hpoint, hp]
      rfl
    · rw [hpoint]
      exact hstage
    · exact hi.joinable
  | connectReady hp =>
    rw [hp] at hconnects hstage
    apply hi.own hv
    · rw [hpoint]
      simp only [WebSocketTransport.connectsAfter, MainPoint.Connects] at hconnects ⊢
      split
      · rcases hconnects with hc | ⟨r, hc⟩
        · rw [hc]
          exact .inr ⟨_, rfl⟩
        · rw [hc]
          exact .inr ⟨_, rfl⟩
      · exact hconnects
    · rw [hpoint, hp]
    · rw [hpoint]
      exact hstage
    · exact hi.joinable
  | destroy hp =>
    rw [hp] at hconnects hstage
    have hj : (p.client.transports transport).joinable = true := by
      rw [hi.joinable]
      have halive : (p.client.transports transport).stage = .alive := hstage
      simp [halive]
    obtain ⟨y, hy, hvalue⟩ := hv.own
    have hdestroying := (stageAfter_destroy hy hvalue hj).2
    apply hi.own hv
    · rw [hpoint]
      exact hconnects
    · rw [hpoint, hp]
      rfl
    · rw [hpoint, hdestroying]
      exact .inl rfl
    · rw [hdestroying]
      exact iff_of_true hj (by simp)
  | destroyJoined hp =>
    rw [hp] at hconnects hstage
    apply hi.own hv
    · rw [hpoint]
      exact hconnects
    · rw [hpoint, hp]
    · rw [hpoint]
      exact .inr rfl
    · simp [WebSocketTransport.joinableAfter, WebSocketTransport.stageAfter]

private theorem Placed.goOn {p p' : Program} (hi : Placed p) (hclient : p'.client = p.client)
    (hconnects : ∀ cs, p.point.Connects cs → cs = (p.client.transports transport).connects →
      p'.point.Connects cs)
    (hattached : p'.point.attached = p.point.attached)
    (hstage : ∀ s, p.point.Destroys s → s = (p.client.transports transport).stage →
      p'.point.Destroys s) : Placed p' := by
  constructor
  · rw [hclient]
    exact hconnects _ hi.connects rfl
  · rw [hclient, hattached]
    exact hi.handler
  · rw [hclient, hattached]
    exact hi.attached
  · rw [hclient]
    exact hstage _ hi.stage rfl
  · rw [hclient]
    exact hi.joinable

private theorem Placed.returned {p p' : Program} {failure : Option Exception} {next : MainPoint}
    (hi : Placed p) (hc : MainReturn p failure next) (hclient : p'.client = p.client)
    (hpoint : p'.point = next ∨ p'.point = .detaching) : Placed p' := by
  cases hc with
  | connect r hp hr =>
    have hfinished : ∃ r, (p.client.transports transport).connects = [.finished r] := by
      have hconnects := hi.connects
      rw [hp] at hconnects
      rcases hconnects with hw | hf
      · rw [hw] at hr
        cases hr
      · exact hf
    apply hi.goOn hclient
    · rintro cs - rfl
      rcases hpoint with hpoint | hpoint <;> rw [hpoint] <;> exact hfinished
    · rcases hpoint with hpoint | hpoint <;> rw [hpoint, hp] <;> rfl
    · rw [hp]
      rcases hpoint with hpoint | hpoint <;> rw [hpoint] <;> exact fun _ hs _ => hs
  | join r hp hr | listen r hp hr =>
    apply hi.goOn hclient
    · rw [hp]
      rcases hpoint with hpoint | hpoint <;> rw [hpoint] <;> exact fun _ hs _ => hs
    · rcases hpoint with hpoint | hpoint <;> rw [hpoint, hp] <;> rfl
    · rw [hp]
      rcases hpoint with hpoint | hpoint <;> rw [hpoint] <;> exact fun _ hs _ => hs

/-- A step keeps the objects in their place. -/
theorem Placed.step (hr : ProgramRun text realm h p) (hs : step text p a = some (o, p'))
    (hf : p'.fault = none) (hi : Placed p.state) : Placed p'.state := by
  cases ha : isOther a with
  | true =>
    have hpoint := point_of_other hr hs hf ha
    apply hi.of_same (samePlace_of_other hr hs hf ha)
    all_goals simp [hpoint]
  | false =>
    cases a with
    | main ec =>
      cases mainStep_of_step hr hs hf with
      | call b next hc hb hpoint hstopped => exact hi.call hc hb hpoint
      | returned next hc hclient hpoint hstopped => exact hi.returned hc hclient (.inl hpoint)
      | caught e next hc hhandled hclient hpoint hstopped =>
        exact hi.returned hc hclient (.inr hpoint)
      | move next hc hclient hpoint hstopped =>
        cases hc with
        | wiring hp | running hp hstopped hfree | releasingSession hp hover =>
          apply hi.goOn hclient
          all_goals simp [hp, hpoint, MainPoint.Connects, MainPoint.attached, MainPoint.Destroys]
        | joiningWorker hp hdestroyed =>
          apply hi.goOn hclient
          · simp [hp, hpoint, MainPoint.Connects]
          · simp [hp, hpoint, MainPoint.attached]
          · rintro s - rfl
            rw [hpoint]
            exact hdestroyed
    | _ => cases ha

/-- While the program runs, the objects are in their place. -/
theorem placed (hr : ProgramRun text realm h p) (hf : p.fault = none) : Placed p.state := by
  refine invariant_of_running (fun _ p => Placed p) ?_ ?_ hr hf
  · exact ⟨rfl, rfl, rfl, rfl, iff_of_true rfl (by simp)⟩
  · exact fun _ _ _ _ _ hr _ hi hs hf => hi.step hr hs hf

end Program
end Barbarossa
