import Barbarossa.Program.Handlers

/-!
# How the program exits

A signal that is handled and a connection that is closed or fails leave `done_` set, and then the
destructor of the transport ends the process. What is left are the errors that `main` catches, among
them the one of a failed connection whose callback sets `done_` behind the destructor's look at it.
-/

namespace Barbarossa
open Barbarossa.Base

namespace Program

variable {text : JsonText} {realm : Bytes} {h : ProgramHistory}
  {p p' : Process Program ProgramFault} {a : ProgramAction}
  {o : Outcome Exception ProgramFault PUnit × List Effect}

/-! ### Behind `io_context.run()` -/

/-- What the other threads can still do then, while the process goes on. -/
inductive BehindStep (p p' : Program) : ProgramAction → Prop
  | signalStop (hclient : p'.client = p.client) (hfinished : p.client.leaves = some .finished) :
      BehindStep p p' .signalStop
  | pingFailed (hv : Survives p.client (.runDispatched none) p'.client)
      (hfailure : p.client.failure.isSome = true) : BehindStep p p' .pingFailed
  | pingOver (hclient : p'.client = p.client) (hpinging : p.pinging.isSome = true)
      (hover : p.point.released = true → p.hearbeatOver = true) : BehindStep p p' .pingOver
  | onClientFailed (hv : Survives p.client (.transport transport .onClientFailed) p'.client) :
      BehindStep p p' .onClientFailed
  | workerExit (hv : Survives p.client (.transport transport .workerExit) p'.client) :
      BehindStep p p' .workerExit
  | hearbeat (hv : Survives p.client .hearbeat p'.client)
      (howned : p.owned = false → p.client.session.hearbeatThread ≠ some .idle) :
      BehindStep p p' .hearbeat
  | hearbeatWoken (hv : Survives p.client .hearbeatWoken p'.client) :
      BehindStep p p' .hearbeatWoken

/-- A session that is detached has no transport any more. -/
theorem detached_of_behind (hr : ProgramRun text realm h p) (hf : p.fault = none)
    (hbehind : p.state.point.behindRun = true) : p.state.client.session.transport = none := by
  rw [(placed hr hf).attached]
  cases hp : p.state.point with
  | releasingSession | releasingTransport | joiningWorker | exited => rfl
  | _ =>
    rw [hp] at hbehind
    cases hbehind

private theorem survives_hearbeat (hr : ProgramRun text realm h p)
    (hs : step text p .hearbeat = some (o, p')) (hf : p'.fault = none) :
    Survives p.state.client .hearbeat p'.state.client ∧
      (p.state.owned = false → p.state.client.session.hearbeatThread ≠ some .idle) := by
  by_cases hidle : p.state.owned = false ∧ p.state.client.session.hearbeatThread = some .idle
  · obtain ⟨-, y, hy, -, -, hfault⟩ := Process.step_eq_some hs
    have hy : p.state.hearbeat = some y := hy
    unfold hearbeat at hy
    rw [if_pos hidle] at hy
    cases hy
    rw [hf] at hfault
    cases hfault
  · have hb : p.state.clientAction text .hearbeat = some .hearbeat := by
      simp only [clientAction, hidle, if_false]
    exact ⟨survives hr hs hf hb, fun howned ht => hidle ⟨howned, ht⟩⟩

/-- Then no thread takes handlers any more. -/
theorem not_runs_of_behind (hr : ProgramRun text realm h p) (hf : p.fault = none)
    (hbehind : p.state.point.behindRun = true) (caller : Caller) :
    ¬ p.state.runsHandlers caller = true := by
  intro hruns
  have hstopped := (stopping hr hf).behind hbehind
  rw [(runsHandlers_iff.mp hruns).1] at hstopped
  cases hstopped

/-- Then no callback is taken any more. -/
theorem not_takes_of_behind (hr : ProgramRun text realm h p) (hf : p.fault = none)
    (hbehind : p.state.point.behindRun = true) : ¬ p.state.takesHandlers = true := by
  rw [takesHandlers, Bool.or_eq_true]
  have hruns := not_runs_of_behind hr hf hbehind
  exact not_or.mpr ⟨hruns .worker, hruns .other⟩

/-- Nor does `Leave` get to a transport. -/
theorem behindStep_of_step (hr : ProgramRun text realm h p) (hs : step text p a = some (o, p'))
    (hf : p'.fault = none) (hbehind : p.state.point.behindRun = true) (ha : isOther a = true) :
    BehindStep p.state p'.state a := by
  have hfacts := step_facts_of_run hr hs
  have henabled := hfacts.enabled
  have hruns := not_runs_of_behind hr hfacts.running hbehind
  cases a with
  | main ec => cases ha
  | signal caller => exact absurd henabled.1 (hruns caller)
  | runDispatched caller ec => exact absurd henabled.1 (hruns caller)
  | onClientFail caller => exact absurd henabled (hruns caller)
  | signalDisconnect close =>
    obtain ⟨x, hx, hvalue, -⟩ := (survives hr hs hf (b := .leaveDisconnect close) rfl).ran
    simp only [Client.act] at hx
    split at hx
    · next worker hl =>
      cases hx
      rw [Client.leaveDisconnect_outcome, Client.leaveOutcome,
        detached_of_behind hr hfacts.running hbehind] at hvalue
      cases hvalue
    · cases hx
  | signalJoined =>
    obtain ⟨caller, hleaving⟩ := henabled
    have hsignalled := (stopping hr hfacts.running).signalled
    unfold Signalled at hsignalled
    rw [hleaving] at hsignalled
    obtain ⟨x, hx, -⟩ := (survives hr hs hf (b := .leaveJoined) rfl).ran
    rcases hsignalled.2 with hl | hl <;> simp [Client.act, hl] at hx
  | signalStop => exact .signalStop (hfacts.idle rfl).1 henabled.2
  | pingFailed => exact .pingFailed (survives hr hs hf rfl) henabled.2
  | pingOver => exact .pingOver (hfacts.idle rfl).1 henabled.1 henabled.2.2
  | onClientFailed => exact .onClientFailed (survives hr hs hf rfl)
  | workerExit => exact .workerExit (survives hr hs hf rfl)
  | hearbeat =>
    obtain ⟨hv, howned⟩ := survives_hearbeat hr hs hf
    exact .hearbeat hv howned
  | hearbeatWoken => exact .hearbeatWoken (survives hr hs hf rfl)
  | onClientOpen | onClientClose | onClientMessage opcode payload ec =>
    exact absurd henabled (not_takes_of_behind hr hfacts.running hbehind)

/-- What the main thread can still do then, while the process goes on. -/
inductive BehindMain (p p' : Program) : Prop
  | releasingSession (hp : p.point = .releasingSession)
      (hover : p.pinging.isSome = true ∨ p.hearbeatOver = true) (hclient : p'.client = p.client)
      (hpoint : p'.point = .releasingTransport)
  | destroy (hp : p.point = .releasingTransport)
      (hdone : (p.client.transports transport).done = false)
      (hdestroying : (p.client.transports transport).stageAfter (.destroy .other) = .destroying)
      (hv : Survives p.client (.transport transport (.destroy .other)) p'.client)
      (hpoint : p'.point = .joiningWorker)
  | destroyJoined (hp : p.point = .joiningWorker)
      (hstage : (p.client.transports transport).stage = .destroying)
      (hover : (p.client.transports transport).running = false)
      (hv : Survives p.client (.transport transport .destroyJoined) p'.client)
      (hpoint : p'.point = .joiningWorker)
  | joiningWorker (hp : p.point = .joiningWorker)
      (hdestroyed : (p.client.transports transport).stage = .destroyed)
      (hclient : p'.client = p.client) (hpoint : p'.point = .exited)

/-- Its statements are those of the destructors. -/
theorem behindMain_of_step {ec : Option Bytes} (hr : ProgramRun text realm h p)
    (hs : step text p (.main ec) = some (o, p')) (hf : p'.fault = none)
    (hbehind : p.state.point.behindRun = true) : BehindMain p.state p'.state := by
  cases mainStep_of_step hr hs hf with
  | call b next hc hv hpoint hstopped =>
    cases hc with
    | destroy hp =>
      obtain ⟨y, hy, hvalue⟩ := hv.own
      have hplaced := placed hr (step_facts_of_run hr hs).running
      have hstage := hplaced.stage
      rw [hp] at hstage
      have halive : (p.state.client.transports transport).stage = .alive := hstage
      obtain ⟨hdone, hdestroying⟩ :=
        stageAfter_destroy hy hvalue (hplaced.joinable.mpr (by simp [halive]))
      exact .destroy hp hdone hdestroying hv hpoint
    | destroyJoined hp =>
      obtain ⟨y, hy, -⟩ := hv.own
      obtain ⟨⟨hstage, hover⟩, -⟩ := guard_eq_some hy
      exact .destroyJoined hp hstage (by simpa using hover) hv hpoint
    | _ hp =>
      rw [hp] at hbehind
      cases hbehind
  | returned next hc hclient hpoint hstopped | caught e next hc hhandled hclient hpoint hstopped =>
    rw [not_behind_of_return hc] at hbehind
    cases hbehind
  | move next hc hclient hpoint hstopped =>
    cases hc with
    | releasingSession hp hover => exact .releasingSession hp hover hclient hpoint
    | joiningWorker hp hdestroyed => exact .joiningWorker hp hdestroyed hclient hpoint
    | wiring hp | running hp =>
      rw [hp] at hbehind
      cases hbehind

/-- Only from there the main thread comes to the destructor of the transport. -/
theorem behind_of_released {ec : Option Bytes} (hr : ProgramRun text realm h p)
    (hs : step text p (.main ec) = some (o, p')) (hf : p'.fault = none)
    (hreleased : p'.state.point.released = true) : p.state.point.behindRun = true := by
  cases mainStep_of_step hr hs hf with
  | call b next hc hv hpoint hstopped =>
    rw [hpoint] at hreleased
    cases hc with
    | destroy hp | destroyJoined hp =>
      rw [hp]
      rfl
    | _ => cases hreleased
  | returned next hc hclient hpoint hstopped =>
    rw [hpoint] at hreleased
    generalize (none : Option Exception) = failure at hc
    cases hc <;> cases hreleased
  | caught e next hc hhandled hclient hpoint hstopped =>
    rw [hpoint] at hreleased
    cases hreleased
  | move next hc hclient hpoint hstopped =>
    rw [hpoint] at hreleased
    cases hc with
    | releasingSession hp | joiningWorker hp =>
      rw [hp]
      rfl
    | _ => cases hreleased

private theorem looping_of_enabled {c : Client} (he : c.Enabled .hearbeat) :
    c.session.looping = true := by
  unfold Client.Enabled at he
  unfold Session.looping
  cases ht : c.session.hearbeatThread with
  | none =>
    rw [ht] at he
    cases he
  | some point =>
    cases point with
    | ended =>
      rw [ht] at he
      cases he
    | _ => rfl

/-- The heartbeat is over exactly when its thread is not in the loop. -/
theorem hearbeatOver_eq (p : Program) : p.hearbeatOver = !p.client.session.looping := by
  unfold hearbeatOver Session.looping
  cases p.client.session.hearbeatThread with
  | none => rfl
  | some point => cases point <;> rfl

/-- The heartbeat thread goes on in its loop only. -/
theorem looping_of_hearbeat {c : Client} (he : c.Enabled .hearbeat ∨ c.Enabled .hearbeatWoken) :
    c.session.looping = true := by
  rcases he with he | he
  · exact looping_of_enabled he
  · have hidle : c.session.hearbeatThread = some .idle := he
    unfold Session.looping
    rw [hidle]

/-- A heartbeat that is over does not go on. -/
theorem not_over_of_enabled {p : Program}
    (he : p.client.Enabled .hearbeat ∨ p.client.Enabled .hearbeatWoken) :
    p.hearbeatOver = false := by
  rw [hearbeatOver_eq, looping_of_hearbeat he]
  rfl

/-- A heartbeat that is over stays so. -/
theorem over_step (hr : ProgramRun text realm h p) (hs : step text p a = some (o, p'))
    (hf : p'.fault = none) (hbehind : p.state.point.behindRun = true) (ha : isOther a = true)
    (hover : p.state.hearbeatOver = true) : p'.state.hearbeatOver = true := by
  have hsame : p'.state.client.session.hearbeatThread = p.state.client.session.hearbeatThread →
      p'.state.hearbeatOver = true := by
    intro hthread
    unfold hearbeatOver at hover ⊢
    rwa [hthread]
  cases behindStep_of_step hr hs hf hbehind ha with
  | signalStop hclient | pingOver hclient => exact hsame (by rw [hclient])
  | pingFailed hv =>
    apply hsame
    rw [hv.session]
    simp only [Client.sessionAfter]
    split <;> simp
  | onClientFailed hv | workerExit hv => exact hsame (by rw [hv.session]; rfl)
  | hearbeat hv howned =>
    rw [not_over_of_enabled (.inl hv.enabled)] at hover
    cases hover
  | hearbeatWoken hv =>
    rw [not_over_of_enabled (.inr hv.enabled)] at hover
    cases hover

/-- What holds in the destructors. -/
structure Releasing (p : Program) : Prop where
  ended : p.point.released = true → p.hearbeatOver = true ∨ p.pinging.isSome = true
  left : p.point = .joiningWorker ∨ p.point = .exited → p.client.leaves ≠ some .finished
  joined : (p.client.transports transport).stage = .destroyed →
    (p.client.transports transport).running = false

private theorem behindRun_of_released {point : MainPoint} (h : point.released = true) :
    point.behindRun = true := by
  cases point <;> first | rfl | cases h

private theorem released_of_looked {point : MainPoint}
    (h : point = .joiningWorker ∨ point = .exited) : point.released = true := by
  rcases h with rfl | rfl <;> rfl

private theorem Releasing.other (hr : ProgramRun text realm h p)
    (hs : step text p a = some (o, p')) (hf : p'.fault = none) (hi : Releasing p.state)
    (ha : isOther a = true) : Releasing p'.state := by
  have hfacts := step_facts_of_run hr hs
  have hpoint := point_of_other hr hs hf ha
  constructor
  · intro hp
    rw [hpoint] at hp
    have hbehind := behindRun_of_released hp
    rcases hi.ended hp with hover | hpinging
    · exact .inl (over_step hr hs hf hbehind ha hover)
    · rw [hfacts.pinging hf]
      cases behindStep_of_step hr hs hf hbehind ha with
      | pingOver hclient _ hreleased =>
        left
        unfold hearbeatOver
        rw [hclient]
        exact hreleased hp
      | _ => exact .inr hpinging
  · intro hp
    rw [hpoint] at hp
    have hbehind := behindRun_of_released (released_of_looked hp)
    have hold := hi.left hp
    cases behindStep_of_step hr hs hf hbehind ha with
    | signalStop hclient | pingOver hclient =>
      rw [hclient]
      exact hold
    | pingFailed hv | onClientFailed hv | workerExit hv | hearbeat hv | hearbeatWoken hv =>
      rw [hv.leaves]
      exact hold
  · intro hd
    rw [(samePlace_of_other hr hs hf ha).stage] at hd
    exact (flags_step hr hs hf).2 (hi.joined hd)

private theorem Releasing.main {ec : Option Bytes} (hr : ProgramRun text realm h p)
    (hs : step text p (.main ec) = some (o, p')) (hf : p'.fault = none) (hi : Releasing p.state) :
    Releasing p'.state := by
  have hfacts := step_facts_of_run hr hs
  have hbehind := behind_of_released hr hs hf
  constructor
  · intro hreleased
    rw [hfacts.pinging hf]
    unfold hearbeatOver
    cases behindMain_of_step hr hs hf (hbehind hreleased) with
    | releasingSession hp hover hclient =>
      rw [hclient]
      exact hover.symm
    | destroy hp hdone hdestroying hv | destroyJoined hp hstage hover hv =>
      rw [hv.session]
      exact hi.ended (by rw [hp]; rfl)
    | joiningWorker hp hdestroyed hclient =>
      rw [hclient]
      exact hi.ended (by rw [hp]; rfl)
  · intro hlooked
    cases behindMain_of_step hr hs hf (hbehind (released_of_looked hlooked)) with
    | releasingSession hp hover hclient hpoint =>
      rw [hpoint] at hlooked
      simp at hlooked
    | destroy hp hdone hdestroying hv =>
      intro hl
      rw [hv.leaves] at hl
      rw [(stopping hr hfacts.running).finished hl] at hdone
      cases hdone
    | destroyJoined hp hstage hover hv =>
      rw [hv.leaves]
      exact hi.left (.inl hp)
    | joiningWorker hp hdestroyed hclient =>
      rw [hclient]
      exact hi.left (.inl hp)
  · intro hd
    have hstage := (placed (.cons hr hs) hf).stage
    have hlooked : p'.state.point = .joiningWorker ∨ p'.state.point = .exited := by
      cases hpoint : p'.state.point with
      | joiningWorker => exact .inl rfl
      | exited => exact .inr rfl
      | _ =>
        rw [hpoint, hd] at hstage
        cases hstage
    cases behindMain_of_step hr hs hf (hbehind (released_of_looked hlooked)) with
    | releasingSession hp hover hclient | joiningWorker hp hdestroyed hclient =>
      rw [hclient] at hd ⊢
      exact hi.joined hd
    | destroy hp hdone hdestroying hv =>
      rw [hv.transport] at hd
      simp only [Client.transportAfter, if_true, WebSocketTransport.after, hdestroying] at hd
      cases hd
    | destroyJoined hp hstage hover hv => exact (flags_step hr hs hf).2 hover

private theorem Releasing.step (hr : ProgramRun text realm h p)
    (hs : step text p a = some (o, p')) (hf : p'.fault = none) (hi : Releasing p.state) :
    Releasing p'.state := by
  cases ha : isOther a with
  | true => exact hi.other hr hs hf ha
  | false =>
    cases a with
    | main ec => exact hi.main hr hs hf
    | _ => cases ha

/-- While the program runs, its destructors go on only over a heartbeat that has ended or a lambda
that holds the session, and behind the one of the transport no call of `Leave` is over. -/
theorem releasing (hr : ProgramRun text realm h p) (hf : p.fault = none) : Releasing p.state := by
  refine invariant_of_running (fun _ p => Releasing p) ?_ ?_ hr hf
  · constructor
    · intro hp
      cases hp
    · intro hp
      simp at hp
    · intro hd
      cases hd
  · exact fun _ _ _ _ _ hr _ hi hs hf => hi.step hr hs hf

end Program

/-! ### What a run remembers -/

namespace MainPoint

/-- The connection is open: `Connect` has returned, and the try block is not over. -/
def connected : MainPoint → Bool
  | .joining | .joinFuture | .joinWait | .listening | .listenWait => true
  | _ => false

end MainPoint

namespace Program

variable {text : JsonText} {realm : Bytes} {h : ProgramHistory}
  {p p' : Process Program ProgramFault} {a : ProgramAction}
  {o : Outcome Exception ProgramFault PUnit × List Effect}

/-- One recorded step of a program. -/
abbrev ProgramEntry :=
  Entry (Process Program ProgramFault) ProgramAction
    (Outcome Exception ProgramFault PUnit × List Effect)

/-- The fail callback runs, up to its promise if it sets one. -/
def fails : ProgramAction → Bool
  | .onClientFail _ => true
  | _ => false

/-- The signal handler runs. -/
def signals : ProgramAction → Bool
  | .signal _ => true
  | _ => false

/-- A step sets `done_`: the close callback, the end of the fail callback, and all of it when the
connection is open. -/
def setsDone (e : ProgramEntry) : Bool :=
  match e.action with
  | .onClientClose | .onClientFailed => true
  | .onClientFail _ => (e.before.state.client.transports transport).opened
  | _ => false

/-- The main thread catches `x`, with which one of its calls has ended. -/
def Catches (e : ProgramEntry) (x : Exception) : Prop :=
  ∃ ec next, e.action = .main ec ∧ MainReturn e.before.state (some x) next ∧ handled x = true

/-- The error that the fail callback gives to `connected_`. -/
def connectionFailed : Exception := .networkError ErrorMessages.transportConnectionFailed

private theorem connect_returned (hr : ProgramRun text realm h p) (hf : p.fault = none)
    (hp : p.state.point.connected = true) :
    (p.state.client.transports transport).connects[mainCall]? = some (.finished (.ok ⟨⟩)) := by
  refine invariant_of_running (fun _ p => p.point.connected = true →
    (p.client.transports transport).connects[mainCall]? = some (.finished (.ok ⟨⟩))) ?_ ?_ hr hf hp
  · intro hp
    cases hp
  · intro h p a o p' hr hrunning hi hs hf hp
    cases ha : isOther a with
    | true =>
      rw [point_of_other hr hs hf ha] at hp
      rw [(samePlace_of_other hr hs hf ha).connects]
      exact hi hp
    | false =>
      cases a with
      | main ec =>
        cases mainStep_of_step hr hs hf with
        | call b next hc hv hpoint hstopped =>
          rw [hpoint] at hp
          cases hc with
          | join hp' | joinFuture hp' | joinReady hp' | joinTimeout hp' | listen hp'
          | listenReady hp' =>
            rw [(hv.samePlace rfl).connects]
            exact hi (by rw [hp']; rfl)
          | _ => cases hp
        | returned next hc hclient hpoint hstopped =>
          rw [hpoint] at hp
          rw [hclient]
          generalize hfailure : (none : Option Exception) = failure at hc
          cases hc with
          | connect r hp' hcall =>
            cases r with
            | error e => cases hfailure
            | ok r => exact hcall
          | join r hp' hcall => exact hi (by rw [hp']; rfl)
          | listen r hp' hcall => cases hp
        | caught e next hc hhandled hclient hpoint hstopped =>
          rw [hpoint] at hp
          cases hp
        | move next hc hclient hpoint hstopped =>
          rw [hpoint] at hp
          cases hc <;> cases hp
      | _ => cases ha

/-- What a program that runs remembers. -/
structure Remembers (h : ProgramHistory) (p : Program) : Prop where
  broken : ∀ e ∈ h, setsDone e = true → (p.client.transports transport).done = true
  late : p.point = .joiningWorker ∨ p.point = .exited → ∀ e ∈ h, setsDone e = true →
    e.action = .onClientFailed ∧ e.before.state.point = .joiningWorker
  failed : ∀ e ∈ h, fails e.action = true → setsDone e = true ∨
    .error connectionFailed ∈ (p.client.transports transport).connected.offers
  signalled : ∀ e ∈ h, signals e.action = true → p.signal ≠ .awaited
  caught : p.stopped = true → p.signal = .awaited → ∃ e ∈ h, ∃ x, Catches e x
  returned : ∀ e ∈ h, ∀ x, Catches e x →
    .error x ∈ (p.client.transports transport).connected.offers ∨
      .ok ⟨⟩ ∈ (p.client.transports transport).connected.offers

private theorem connected_mem (hr : ProgramRun text realm h p) (hs : step text p a = some (o, p'))
    (hf : p'.fault = none) {r : Except Exception PUnit}
    (hold : r ∈ (p.state.client.transports transport).connected.offers) :
    r ∈ (p'.state.client.transports transport).connected.offers := by
  cases hb : p.state.clientAction text a with
  | none =>
    rw [((step_facts_of_run hr hs).idle hb).1]
    exact hold
  | some b =>
    rw [(survives hr hs hf hb).transport, Client.connected_offers_after]
    exact List.mem_append_left _ hold

private theorem done_of_setsDone (hr : ProgramRun text realm h p)
    (hs : step text p a = some (o, p')) (hf : p'.fault = none)
    (hsets : setsDone ⟨p, a, o, p'⟩ = true) :
    (p'.state.client.transports transport).done = true := by
  cases a with
  | onClientClose | onClientFailed =>
    rw [(survives hr hs hf rfl).transport]
    rfl
  | onClientFail caller =>
    have ho : (p.state.client.transports transport).opened = true := hsets
    rw [(survives hr hs hf (b := .transport transport .onClientFail) rfl).transport]
    simp [Client.transportAfter, WebSocketTransport.after, WebSocketTransport.doneAfter, ho]
  | _ => cases hsets

private theorem offered_of_fails (hr : ProgramRun text realm h p)
    (hs : step text p a = some (o, p')) (hf : p'.fault = none) (hfails : fails a = true) :
    setsDone ⟨p, a, o, p'⟩ = true ∨
      .error connectionFailed ∈ (p'.state.client.transports transport).connected.offers := by
  cases a with
  | onClientFail caller =>
    cases ho : (p.state.client.transports transport).opened with
    | true => exact .inl ho
    | false =>
      right
      rw [(survives hr hs hf (b := .transport transport .onClientFail) rfl).transport,
        Client.connected_offers_after]
      simp [Client.connectOffers, WebSocketTransport.connectOffers, ho, connectionFailed]
  | _ => cases hfails

private theorem exited_idle (hr : ProgramRun text realm h p) (hf : p.fault = none)
    (hp : p.state.point = .exited) (caller : Caller) : p.state.busy caller = false := by
  have hhandling := handling hr hf
  have hstage := (placed hr hf).stage
  rw [hp] at hstage
  rw [← Bool.not_eq_true]
  intro hbusy
  cases caller with
  | worker =>
    have hrunning := hhandling.worker hbusy
    rw [(releasing hr hf).joined hstage] at hrunning
    cases hrunning
  | other =>
    have hmain := hhandling.main hbusy
    rw [hp] at hmain
    cases hmain

private theorem Remembers.late_step (hr : ProgramRun text realm h p)
    (hs : step text p a = some (o, p')) (hf : p'.fault = none) (hi : Remembers h p.state)
    (hp' : p'.state.point = .joiningWorker ∨ p'.state.point = .exited) :
    ∀ e ∈ (⟨p, a, o, p'⟩ : ProgramEntry) :: h, setsDone e = true →
      e.action = .onClientFailed ∧ e.before.state.point = .joiningWorker := by
  have hrunning := (step_facts_of_run hr hs).running
  intro e he hsets
  cases ha : isOther a with
  | true =>
    rw [point_of_other hr hs hf ha] at hp'
    rcases List.mem_cons.mp he with rfl | he
    · have hbehind := behindRun_of_released (released_of_looked hp')
      cases behindStep_of_step hr hs hf hbehind ha with
      | onClientFailed hv =>
        refine ⟨rfl, hp'.resolve_right fun hexited => ?_⟩
        obtain ⟨caller, hcaller⟩ :=
          Option.isSome_iff_exists.mp (step_facts_of_run hr hs).enabled
        have hbusy := busy_iff.mpr (.inr (.inr hcaller))
        rw [exited_idle hr hrunning hexited] at hbusy
        cases hbusy
      | _ => cases hsets
    · exact hi.late hp' e he hsets
  | false =>
    cases a with
    | main ec =>
      rcases List.mem_cons.mp he with rfl | he
      · cases hsets
      have hbehind := behind_of_released hr hs hf (released_of_looked hp')
      cases behindMain_of_step hr hs hf hbehind with
      | releasingSession hp hover hclient hpoint =>
        rw [hpoint] at hp'
        simp at hp'
      | destroy hp hdone =>
        rw [hi.broken e he hsets] at hdone
        cases hdone
      | destroyJoined hp | joiningWorker hp => exact hi.late (.inl hp) e he hsets
    | _ => cases ha

private theorem Remembers.caught_step (hr : ProgramRun text realm h p)
    (hs : step text p a = some (o, p')) (hf : p'.fault = none) (hi : Remembers h p.state)
    (hstopped : p'.state.stopped = true) (hawaited : p'.state.signal = .awaited) :
    ∃ e ∈ (⟨p, a, o, p'⟩ : ProgramEntry) :: h, ∃ x, Catches e x := by
  have hfacts := step_facts_of_run hr hs
  have hbefore : p.state.signal = .awaited := by
    by_contra hne
    exact signal_ne_awaited_step hr hs hf hne hawaited
  by_cases hold : p.state.stopped = true
  · obtain ⟨e, he, x, hx⟩ := hi.caught hold hbefore
    exact ⟨e, List.mem_cons_of_mem _ he, x, hx⟩
  · cases a with
    | main ec =>
      cases mainStep_of_step hr hs hf with
      | caught x next hc hhandled hclient hpoint hstopped' =>
        exact ⟨_, List.mem_cons_self, x, ec, next, rfl, hc, hhandled⟩
      | call b next hc hb hpoint hsame | returned next hc hclient hpoint hsame
      | move next hc hclient hpoint hsame =>
        rw [hsame] at hstopped
        exact absurd hstopped hold
    | signalStop =>
      rw [hfacts.signal hf] at hawaited
      cases hawaited
    | _ =>
      rw [hfacts.stopped hf] at hstopped
      exact absurd hstopped hold

private theorem returned_of_catches (hr : ProgramRun text realm h p) (hf : p.fault = none)
    {x : Exception} {next : MainPoint} (hc : MainReturn p.state (some x) next) :
    .error x ∈ (p.state.client.transports transport).connected.offers ∨
      .ok ⟨⟩ ∈ (p.state.client.transports transport).connected.offers := by
  have hsettled := (settles hr hf).2.1
  have hopen : p.state.point.connected = true →
      .ok ⟨⟩ ∈ (p.state.client.transports transport).connected.offers := by
    intro hp
    rw [hsettled _ (connect_returned hr hf hp)]
    exact List.mem_singleton_self _
  generalize hfailure : some x = failure at hc
  cases hc with
  | connect r hp hcall =>
    cases r with
    | ok r => cases hfailure
    | error e =>
      cases hfailure
      rw [hsettled _ hcall]
      exact .inl (List.mem_singleton_self _)
  | join r hp hcall | listen r hp hcall => exact .inr (hopen (by rw [hp]; rfl))

private theorem Remembers.step (hr : ProgramRun text realm h p)
    (hs : step text p a = some (o, p')) (hf : p'.fault = none) (hi : Remembers h p.state) :
    Remembers (⟨p, a, o, p'⟩ :: h) p'.state := by
  have hfacts := step_facts_of_run hr hs
  have hkeep := fun r => connected_mem hr hs hf (r := r)
  refine ⟨?_, hi.late_step hr hs hf, ?_, ?_, hi.caught_step hr hs hf, ?_⟩
  · intro e he hsets
    rcases List.mem_cons.mp he with rfl | he
    · exact done_of_setsDone hr hs hf hsets
    · exact (flags_step hr hs hf).1 (hi.broken e he hsets)
  · intro e he hfails
    rcases List.mem_cons.mp he with rfl | he
    · exact offered_of_fails hr hs hf hfails
    · exact (hi.failed e he hfails).imp id (hkeep _)
  · intro e he hsignal
    rcases List.mem_cons.mp he with rfl | he
    · rw [hfacts.signal hf]
      dsimp only at hsignal
      cases a with
      | signal caller => simp [signalAfter]
      | _ => cases hsignal
    · exact signal_ne_awaited_step hr hs hf (hi.signalled e he hsignal)
  · intro e he x hx
    rcases List.mem_cons.mp he with rfl | he
    · obtain ⟨ec, next, -, hc, -⟩ := hx
      exact (returned_of_catches hr hfacts.running hc).imp (hkeep _) (hkeep _)
    · exact (hi.returned e he x hx).imp (hkeep _) (hkeep _)

/-- While the program runs, it remembers what its callbacks, its signal handler and its main thread
did. -/
theorem remembers (hr : ProgramRun text realm h p) (hf : p.fault = none) :
    Remembers h p.state := by
  refine invariant_of_running Remembers ?_ ?_ hr hf
  · constructor <;> simp
  · exact fun _ _ _ _ _ hr _ hi hs hf => hi.step hr hs hf

/-! ### The end of `main` -/

/-- Everything of `main` is released: no thread is left, and nothing refers to anything. -/
structure Released (p : Program) : Prop where
  stopped : p.stopped = true
  handlers : p.signal = .awaited ∧ p.pinging = none ∧ p.failing = none
  session : p.hearbeatOver = true ∧ p.client.session.transport = none
  destroyed : (p.client.transports transport).stage = .destroyed ∧
    (p.client.transports transport).handler = none
  worker : (p.client.transports transport).running = false ∧
    (p.client.transports transport).joinable = false

private theorem no_handler_of_exited (hr : ProgramRun text realm h p) (hf : p.fault = none)
    (hp : p.state.point = .exited) :
    p.state.signal = .awaited ∧ p.state.pinging = none ∧ p.state.failing = none := by
  have hidle : ∀ caller, ¬ p.state.busy caller = true := by
    intro caller hbusy
    rw [exited_idle hr hf hp] at hbusy
    cases hbusy
  refine ⟨?_, ?_, ?_⟩
  · have hsignalled := (stopping hr hf).signalled
    unfold Signalled at hsignalled
    cases hsignal : p.state.signal with
    | awaited => rfl
    | leaving caller => exact absurd (busy_iff.mpr (.inl hsignal)) (hidle caller)
    | handled =>
      rw [hsignal] at hsignalled
      exact absurd hsignalled.1 ((releasing hr hf).left (.inr hp))
  · by_contra hne
    obtain ⟨caller, hcaller⟩ := Option.ne_none_iff_exists'.mp hne
    exact hidle caller (busy_iff.mpr (.inr (.inl hcaller)))
  · by_contra hne
    obtain ⟨caller, hcaller⟩ := Option.ne_none_iff_exists'.mp hne
    exact hidle caller (busy_iff.mpr (.inr (.inr hcaller)))

private theorem released_of_exited (hr : ProgramRun text realm h p) (hf : p.fault = none)
    (hp : p.state.point = .exited) : Released p.state := by
  have hplaced := placed hr hf
  have hreleasing := releasing hr hf
  have hhandlers := no_handler_of_exited hr hf hp
  have hdestroyed : (p.state.client.transports transport).stage = .destroyed := by
    have hstage := hplaced.stage
    rw [hp] at hstage
    exact hstage
  constructor
  · exact (stopping hr hf).behind (by rw [hp]; rfl)
  · exact hhandlers
  · constructor
    · have hover := hreleasing.ended (by rw [hp]; rfl)
      rw [hhandlers.2.1] at hover
      exact hover.resolve_right (by simp)
    · rw [hplaced.attached, hp]
      rfl
  · refine ⟨hdestroyed, ?_⟩
    rw [hplaced.handler, hp]
    rfl
  · refine ⟨hreleasing.joined hdestroyed, ?_⟩
    cases hj : (p.state.client.transports transport).joinable with
    | false => rfl
    | true => exact absurd hdestroyed (hplaced.joinable.mp hj)

/-- What a program does whose connection fails, with its callback between the promise and the flag
until the destructor waits for the worker. -/
def failedLate : List ProgramAction :=
  List.replicate 5 (.main none) ++ [.onClientFail .worker] ++ List.replicate 6 (.main none) ++
    [.onClientFailed, .workerExit, .main none, .main none]

end Program
end Barbarossa
