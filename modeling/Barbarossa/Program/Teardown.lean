import Barbarossa.Base.Refinement
import Barbarossa.Client.Stopping
import Barbarossa.Program.Exit

/-!
# The end of the program

Behind `io_context.run()` the main thread waits twice: for the heartbeat thread, which nobody
notifies, and for the worker, which may still be in a handler. Both waits end, so that the process
does, one way or the other.
-/

namespace Barbarossa
open Barbarossa.Base

namespace Session

/-- The steps that the heartbeat loop can take before it has to send another PING, or to its end if
its promise is false. -/
def hearbeatRemaining (s : Session) : Nat :=
  match s.hearbeatThread with
  | some .dispatched => 6
  | some .waiting => 5
  | some .expired => 4
  | some .judging => 3
  | some .resetting => 2
  | some .idle => if s.pongReceived.result = some (.ok false) then 7 else 1
  | some .ended | none => 0

/-- A step of the loop that ends normally leaves fewer, unless it begins a cycle with a promise that
is not yet false. -/
theorem hearbeatRemaining_lt {s : Session} (hvalue : s.hearbeatOutcome = .value ⟨⟩)
    (hidle : s.hearbeatThread = some .idle → s.pongReceived.result = some (.ok false))
    (hlooping : s.looping = true)
    (hjudged : s.hearbeatThread = some .judging → s.pongReceived.offers ≠ []) :
    s.afterHearbeat.hearbeatRemaining < s.hearbeatRemaining := by
  unfold hearbeatOutcome at hvalue
  unfold hearbeatRemaining afterHearbeat
  cases ht : s.hearbeatThread with
  | none => simp [looping, ht] at hlooping
  | some point =>
    cases point with
    | idle => simp [hidle ht]
    | ended => simp [looping, ht] at hlooping
    | dispatched =>
      cases hp : s.pongReceived.retrieved with
      | true => simp [ht, hp] at hvalue
      | false => simp
    | waiting => cases s.pongReceived.satisfied <;> simp
    | expired =>
      cases hp : s.pongReceived.satisfied with
      | true => simp [ht, hp] at hvalue
      | false => simp
    | resetting => simp [Promise.result]
    | judging =>
      cases hres : s.pongReceived.result with
      | none => exact absurd (Promise.result_eq_none.mp hres) (hjudged ht)
      | some r =>
        cases r with
        | ok alive =>
          cases alive with
          | true => simp
          | false =>
            cases hl : s.leaved.satisfied with
            | true => simp [ht, hres, hl] at hvalue
            | false => simp
        | error e =>
          cases hn : e.isNetworkError with
          | false => simp [ht, hres, hn] at hvalue
          | true =>
            cases hl : s.leaved.satisfied with
            | true => simp [ht, hres, hn, hl] at hvalue
            | false => simp [hn]

end Session

namespace Program

variable {text : JsonText} {realm : Bytes} {h : ProgramHistory}
  {p p' : Process Program ProgramFault} {a : ProgramAction}
  {o : Outcome Exception ProgramFault PUnit × List Effect}

/-! ### What is left to do -/

/-- The statements that the main thread still has to execute. -/
def mainRemaining (p : Program) : Nat :=
  match p.point with
  | .releasingSession => 4
  | .releasingTransport => 3
  | .joiningWorker => if (p.client.transports transport).stage = .destroyed then 1 else 2
  | _ => 0

/-- What the signal handler has still to do. Behind `io_context.run()` a call of `Leave` gets to no
transport, so it goes on only to its end. -/
def signalRemaining : SignalPoint → Nat
  | .leaving _ => 1
  | .awaited | .handled => 0

/-- What the lambda of a failed PING has still to do. -/
def pingRemaining : Option Caller → Option (Except Exception Bool) → Nat
  | none, _ => 0
  | some _, none => 1
  | some _, some _ => 2

/-- What the handlers that are under way have still to do. -/
def handlersRemaining (p : Program) : Nat :=
  signalRemaining p.signal + pingRemaining p.pinging p.client.failure + p.failing.isSome.toNat

/-- The end of the worker. -/
def workerRemaining (p : Program) : Nat := (p.client.transports transport).running.toNat

/-- A bound on the steps that a program takes in its destructors. -/
def remaining (p : Process Program ProgramFault) : Nat :=
  match p.fault with
  | some _ => 0
  | none => p.state.mainRemaining + p.state.handlersRemaining + p.state.workerRemaining +
      p.state.client.session.hearbeatRemaining + 1

/-- The program is in its destructors, or was terminated there. -/
def TearsDown (text : JsonText) (p : Process Program ProgramFault) : Prop :=
  (∃ realm h, ProgramRun text realm h p) ∧ (p.fault = none → p.state.point.behindRun = true)

/-- The process has ended. -/
def Final (p : Process Program ProgramFault) : Prop := p.fault ≠ none ∨ p.state.point = .exited

private theorem mainRemaining_lt {ec : Option Bytes} (hr : ProgramRun text realm h p)
    (hs : step text p (.main ec) = some (o, p')) (hf : p'.fault = none)
    (hp : p.state.point.behindRun = true) :
    p'.state.mainRemaining < p.state.mainRemaining ∧
      p'.state.client.session = p.state.client.session ∧
      (p'.state.client.transports transport).running =
        (p.state.client.transports transport).running ∧ p'.state.point.behindRun = true := by
  unfold mainRemaining
  cases behindMain_of_step hr hs hf hp with
  | releasingSession hp' hover hclient hpoint =>
    refine ⟨?_, by rw [hclient], by rw [hclient], by rw [hpoint]; rfl⟩
    rw [hpoint, hp']
    dsimp only
    omega
  | destroy hp' hdone hdestroying hv hpoint =>
    refine ⟨?_, hv.session, by rw [hv.transport]; rfl, by rw [hpoint]; rfl⟩
    rw [hpoint, hp']
    dsimp only
    split <;> omega
  | destroyJoined hp' hstage hover hv hpoint =>
    refine ⟨?_, hv.session, by rw [hv.transport]; rfl, by rw [hpoint]; rfl⟩
    rw [hpoint, hp', hv.transport]
    simp [Client.transportAfter, WebSocketTransport.after, WebSocketTransport.stageAfter, hstage]
  | joiningWorker hp' hdestroyed hclient hpoint =>
    refine ⟨?_, by rw [hclient], by rw [hclient], by rw [hpoint]; rfl⟩
    rw [hpoint, hp']
    simp [hdestroyed]

private theorem mainRemaining_of_other (hr : ProgramRun text realm h p)
    (hs : step text p a = some (o, p')) (hf : p'.fault = none) (ha : isOther a = true) :
    p'.state.mainRemaining = p.state.mainRemaining := by
  unfold mainRemaining
  rw [point_of_other hr hs hf ha, (samePlace_of_other hr hs hf ha).stage]

private theorem handlersRemaining_eq {p p' : Program} (hsignal : p'.signal = p.signal)
    (hpinging : p'.pinging = p.pinging) (hfailing : p'.failing = p.failing)
    (hfailure : p'.client.failure = p.client.failure) :
    p'.handlersRemaining = p.handlersRemaining := by
  unfold handlersRemaining
  rw [hsignal, hpinging, hfailing, hfailure]

/-- The step is one of a handler that is under way. -/
def isHandler : ProgramAction → Bool
  | .signalStop | .pingFailed | .pingOver | .onClientFailed => true
  | _ => false

/-- The step is one of the heartbeat thread. -/
def isHearbeat : ProgramAction → Bool
  | .hearbeat | .hearbeatWoken => true
  | _ => false

/-- The step is the end of the worker. -/
def isWorkerExit : ProgramAction → Bool
  | .workerExit => true
  | _ => false

private theorem pingFailed_failure (hr : ProgramRun text realm h p)
    (hv : Survives p.state.client (.runDispatched none) p'.state.client)
    (hfailure : p.state.client.failure.isSome = true) : p'.state.client.failure = none := by
  have hfront := Client.restsInFront_of_run (clientRun hr)
  have hafter := Client.failure_sessionAfter hv.session hfront
  simp only [Client.failure] at hfailure
  split at hfailure
  · next e rest hq => simp [hafter, Client.cause, Client.pingError, hq]
  · cases hfailure

private theorem handlersRemaining_step (hr : ProgramRun text realm h p)
    (hs : step text p a = some (o, p')) (hf : p'.fault = none)
    (hp : p.state.point.behindRun = true) (ha : isOther a = true) :
    p'.state.handlersRemaining + (isHandler a).toNat ≤ p.state.handlersRemaining := by
  have hfacts := step_facts_of_run hr hs
  have hsignal := hfacts.signal hf
  have hpinging := hfacts.pinging hf
  have hfailing := hfacts.failing hf
  have henabled := hfacts.enabled
  cases behindStep_of_step hr hs hf hp ha with
  | signalStop hclient hfinished =>
    obtain ⟨⟨caller, hleaving⟩, -⟩ := henabled
    unfold handlersRemaining
    rw [hsignal, hpinging, hfailing, hclient, hleaving]
    dsimp only [signalAfter, pingingAfter, failingAfter, isHandler, signalRemaining,
      Bool.toNat_true]
    omega
  | pingFailed hv hfailure =>
    obtain ⟨caller, hcaller⟩ := Option.isSome_iff_exists.mp henabled.1
    obtain ⟨r, hr'⟩ := Option.isSome_iff_exists.mp hfailure
    have hold : p.state.pingingAfter p'.state.client .pingFailed = some caller := hcaller
    unfold handlersRemaining
    rw [hsignal, hpinging, hfailing, pingFailed_failure hr hv hfailure, hold, hcaller, hr']
    dsimp only [signalAfter, failingAfter, isHandler, pingRemaining, Bool.toNat_true]
    omega
  | pingOver hclient hold hover =>
    obtain ⟨caller, hcaller⟩ := Option.isSome_iff_exists.mp hold
    unfold handlersRemaining
    rw [hsignal, hpinging, hfailing, hclient, hcaller, henabled.2.1]
    dsimp only [signalAfter, pingingAfter, failingAfter, isHandler, pingRemaining, Bool.toNat_true]
    omega
  | onClientFailed hv =>
    have hold : p.state.failing.isSome = true := henabled
    unfold handlersRemaining
    rw [hsignal, hpinging, hfailing, failure_of_other hr hs rfl, hold]
    exact Nat.le_refl _
  | workerExit hv | hearbeat hv howned | hearbeatWoken hv =>
    exact Nat.le_of_eq
      (handlersRemaining_eq hsignal hpinging hfailing (failure_of_other hr hs rfl))

private theorem workerRemaining_step (hr : ProgramRun text realm h p)
    (hs : step text p a = some (o, p')) (hf : p'.fault = none)
    (hp : p.state.point.behindRun = true) (ha : isOther a = true) :
    p'.state.workerRemaining + (isWorkerExit a).toNat ≤ p.state.workerRemaining := by
  unfold workerRemaining
  cases behindStep_of_step hr hs hf hp ha with
  | signalStop hclient | pingOver hclient =>
    rw [hclient]
    exact Nat.le_refl _
  | workerExit hv =>
    obtain ⟨y, hy, -⟩ := hv.own
    obtain ⟨hg, -⟩ := guard_eq_some hy
    rw [hv.transport, WebSocketTransport.running_of_takesCallbacks hg]
    exact Nat.le_refl _
  | pingFailed hv | onClientFailed hv | hearbeat hv | hearbeatWoken hv =>
    rw [hv.transport]
    exact Nat.le_refl _

private theorem hearbeatRemaining_lt (hr : ProgramRun text realm h p) (hf : p.fault = none)
    (hp : p.state.point.behindRun = true) {c' : Client}
    (hv : Survives p.state.client .hearbeat c')
    (howned : p.state.owned = false → p.state.client.session.hearbeatThread ≠ some .idle) :
    c'.session.hearbeatRemaining < p.state.client.session.hearbeatRemaining := by
  have hhealthy : p.state.client.session.Healthy := Client.healthy (clientRun hr)
  have hpings := pinging_of_run hr hf
  obtain ⟨x, hx, hvalue, -⟩ := hv.ran
  obtain ⟨y, hy, rfl⟩ := Option.map_eq_some_iff.mp hx
  have hvalue : (Exec.noexcept Fault.uncaught y p.state.client.session).outcome = .value ⟨⟩ :=
    hvalue
  rw [Session.hearbeatController_outcome hy] at hvalue
  rw [hv.session]
  apply Session.hearbeatRemaining_lt hvalue _ (looping_of_hearbeat (.inl hv.enabled))
    hhealthy.judged
  intro hidle
  have howner : p.state.owned = true := by
    by_contra hnot
    exact howned (Bool.not_eq_true _ ▸ hnot) hidle
  apply (hpings.refused _).1
  unfold owned at howner
  cases hpoint : p.state.point with
  | releasingSession => simpa [hpoint] using howner
  | releasingTransport | joiningWorker | exited =>
    exact hpings.recorded (by simpa [hpoint, MainPoint.released] using howner)
  | _ =>
    rw [hpoint] at hp
    cases hp

private theorem hearbeatRemaining_step (hr : ProgramRun text realm h p)
    (hs : step text p a = some (o, p')) (hf : p'.fault = none)
    (hp : p.state.point.behindRun = true) (ha : isOther a = true) :
    p'.state.client.session.hearbeatRemaining + (isHearbeat a).toNat ≤
      p.state.client.session.hearbeatRemaining := by
  have hrunning := (step_facts_of_run hr hs).running
  cases behindStep_of_step hr hs hf hp ha with
  | signalStop hclient | pingOver hclient =>
    rw [hclient]
    exact Nat.le_refl _
  | pingFailed hv hfailure =>
    simp only [Client.failure] at hfailure
    split at hfailure
    · next e rest hq =>
      rw [hv.session]
      simp [Client.sessionAfter, hq, Session.hearbeatRemaining, isHearbeat]
    · cases hfailure
  | onClientFailed hv | workerExit hv =>
    rw [hv.session]
    exact Nat.le_refl _
  | hearbeat hv howned => exact hearbeatRemaining_lt hr hrunning hp hv howned
  | hearbeatWoken hv =>
    have hidle : p.state.client.session.hearbeatThread = some .idle := hv.enabled
    rw [hv.session]
    unfold Session.hearbeatRemaining
    rw [hidle]
    dsimp only [Client.sessionAfter, isHearbeat]
    split <;> simp

/-- Every step in the destructors leaves fewer. -/
theorem decreases (text : JsonText) : Decreases (step text) (TearsDown text) remaining := by
  rintro p a o p' ⟨⟨realm, h, hr⟩, hpoint⟩ hs
  have hfacts := step_facts_of_run hr hs
  have hrunning := hfacts.running
  have hp := hpoint hrunning
  have hrun' : ∃ realm h, ProgramRun text realm h p' := ⟨realm, _, .cons hr hs⟩
  cases hf : p'.fault with
  | some f =>
    refine ⟨⟨hrun', fun hnone => ?_⟩, ?_⟩
    · rw [hf] at hnone
      cases hnone
    · unfold remaining
      rw [hf, hrunning]
      dsimp only
      omega
  | none =>
    unfold TearsDown remaining
    rw [hf, hrunning]
    dsimp only
    cases ha : isOther a with
    | false =>
      cases a with
      | main ec =>
        obtain ⟨hless, hsession, hworker, hp'⟩ := mainRemaining_lt hr hs hf hp
        have hhandlers := handlersRemaining_eq (hfacts.signal hf) (hfacts.pinging hf)
          (hfacts.failing hf) (failure_of_other hr hs rfl)
        refine ⟨⟨hrun', fun _ => hp'⟩, ?_⟩
        unfold workerRemaining
        rw [hsession, hworker]
        omega
      | _ => cases ha
    | true =>
      have hmain := mainRemaining_of_other hr hs hf ha
      have hp' : p'.state.point.behindRun = true := by rwa [point_of_other hr hs hf ha]
      have hhandlers := handlersRemaining_step hr hs hf hp ha
      have hworker := workerRemaining_step hr hs hf hp ha
      have hhearbeat := hearbeatRemaining_step hr hs hf hp ha
      -- Each step is one of the three kinds.
      have hone : 1 ≤ (isHandler a).toNat + (isWorkerExit a).toNat + (isHearbeat a).toNat := by
        cases behindStep_of_step hr hs hf hp ha <;> exact Nat.le_refl 1
      refine ⟨⟨hrun', fun _ => hp'⟩, ?_⟩
      omega

/-! ### Something can always be done -/

private theorem exists_step_of_act {y : ProgramM PUnit} (hf : p.fault = none)
    (hy : act text p.state a = some y) : ∃ o p', step text p a = some (o, p') :=
  ⟨_, _, Process.step_of_act hf hy⟩

private theorem exists_step_hearbeat (hr : ProgramRun text realm h p) (hf : p.fault = none)
    (hover : p.state.hearbeatOver = false) : ∃ o p', step text p .hearbeat = some (o, p') := by
  have hlooping : p.state.client.session.looping = true := by
    rw [hearbeatOver_eq] at hover
    simpa using hover
  have hhealthy : (clientOf p).state.session.Healthy := Client.healthy (clientRun hr)
  have hclient : (clientOf p).fault = none := by rw [clientOf_of_running hf]
  have hsome := Client.enabled_of_looping hhealthy hclient hlooping
  obtain ⟨⟨out, q⟩, hstep⟩ := Option.isSome_iff_exists.mp hsome
  obtain ⟨-, x, hx, -, -, -⟩ := Process.step_eq_some hstep
  have hx : p.state.client.act .hearbeat = some x := hx
  by_cases hc : p.state.owned = false ∧ p.state.client.session.hearbeatThread = some .idle
  · apply exists_step_of_act hf (y := Exec.crash .badWeakPtr)
    simp only [act, hearbeat, hc, and_self, if_true]
  · apply exists_step_of_act hf (y := outermost (onClient x))
    simp only [act, hearbeat, hc, if_false, perform, hx, Option.map_some]

private theorem exists_step_goOn {n : MainPoint} (hf : p.fault = none)
    (hc : p.state.statement none = .goOn n) : ∃ o p', step text p (.main none) = some (o, p') := by
  apply exists_step_of_act hf (y := goto n)
  simp only [act, mainStep, hc]

private theorem exists_step_call {b : Action} {n : MainPoint} {x : ClientM PUnit}
    (hf : p.fault = none) (hc : p.state.statement none = .call b n)
    (hx : p.state.client.act b = some x) : ∃ o p', step text p (.main none) = some (o, p') := by
  apply exists_step_of_act hf (y := scope p.state.point (onClient x >>= fun _ => goto n))
  simp only [act, mainStep, hc, hx, Option.map_some]

private theorem exists_step_destroy (hr : ProgramRun text realm h p) (hf : p.fault = none)
    (hp : p.state.point = .releasingTransport) :
    ∃ o p', step text p (.main none) = some (o, p') := by
  have hplaced := placed hr hf
  have hconnects := hplaced.connects
  have hattached := hplaced.attached
  have hstage := hplaced.stage
  rw [hp] at hconnects hattached hstage
  obtain ⟨r, hr'⟩ := hconnects
  have hstage : (p.state.client.transports transport).stage = .alive := hstage
  have hattached : p.state.client.session.transport = none := hattached
  apply exists_step_call hf (b := .transport transport (.destroy .other)) (n := .joiningWorker)
    (x := Client.onTransport transport (WebSocketTransport.destroy .other))
  · simp only [statement, hp]
  · simp [Client.act, Client.canRelease, hattached, Client.workerFree, TransportAction.onWorker,
      WebSocketTransport.act, hstage, WebSocketTransport.canCall, (stopping hr hf).free,
      WebSocketTransport.connectsFinished, hr']

private theorem exists_step_ping (hr : ProgramRun text realm h p) (hf : p.fault = none)
    (hpinging : p.state.pinging.isSome = true) : ∃ a o p', step text p a = some (o, p') := by
  cases hfailure : p.state.client.failure with
  | some r =>
    have hsome : p.state.client.failure.isSome = true := by rw [hfailure]; rfl
    simp only [Client.failure] at hfailure
    split at hfailure
    · next e rest hq =>
      refine ⟨.pingFailed, exists_step_of_act hf (y := outermost (onClient (Client.onSession
        (Client.runDispatched (p.state.client.net none) (.pingFailed e) rest)))) ?_⟩
      simp [act, pingFailed, hpinging, hsome, perform, Client.act, hq]
    · cases hfailure
  | none =>
    cases hover : p.state.hearbeatOver with
    | true =>
      refine ⟨.pingOver, exists_step_of_act hf
        (y := Exec.modify fun p => { p with pinging := none }) ?_⟩
      simp [act, pingOver, hpinging, hfailure, hover]
    | false => exact ⟨.hearbeat, exists_step_hearbeat hr hf hover⟩

private theorem exists_step_signal (hr : ProgramRun text realm h p) (hf : p.fault = none)
    {caller : Caller} (hleaving : p.state.signal = .leaving caller) :
    ∃ a o p', step text p a = some (o, p') := by
  have hsignalled := (stopping hr hf).signalled
  unfold Signalled at hsignalled
  rw [hleaving] at hsignalled
  rcases hsignalled.2 with hl | hl
  · refine ⟨.signalDisconnect none, exists_step_of_act hf
      (y := outermost (onClient (Client.leaveDisconnect (some transport) none))) ?_⟩
    simp [act, signalGoesOn, hleaving, perform, Client.act, hl]
  · refine ⟨.signalStop, exists_step_of_act hf (y := stop >>= fun _ =>
      Exec.modify fun p => { p with signal := .handled }) ?_⟩
    simp only [act, signalStop, hleaving, hl, if_true]

private theorem exists_step_fail (hr : ProgramRun text realm h p) (hf : p.fault = none)
    (hfailing : p.state.failing.isSome = true) : ∃ a o p', step text p a = some (o, p') := by
  have hfails := (handling hr hf).fails
  rw [hfailing] at hfails
  refine ⟨.onClientFailed, exists_step_of_act hf (y := outermost (onClient
    (Client.onTransport transport WebSocketTransport.onClientFailed) >>= fun _ =>
      Exec.modify fun p => { p with failing := none })) ?_⟩
  simp [act, onClientFailed, hfailing, performThen, Client.act, Client.canRelease,
    Client.workerFree, TransportAction.onWorker, WebSocketTransport.act, hfails]

private theorem exists_step_exit (hr : ProgramRun text realm h p) (hf : p.fault = none)
    (hstopped : p.state.stopped = true) (hfree : p.state.busy .worker = false)
    (hfailing : p.state.failing = none)
    (hrunning : (p.state.client.transports transport).running = true) :
    ∃ a o p', step text p a = some (o, p') := by
  have hfails := (handling hr hf).fails
  rw [hfailing] at hfails
  have hleft : p.state.client.leavesOn transport = false := by
    have hsignalled := (stopping hr hf).signalled
    unfold Signalled at hsignalled
    unfold Client.leavesOn
    split at hsignalled
    · simp [hsignalled]
    · next caller hleaving =>
      rw [hsignalled.1] at hleaving
      rw [busy_iff.mpr (.inl hleaving)] at hfree
      cases hfree
    · simp [hsignalled.1]
  have htakes : (p.state.client.transports transport).takesCallbacks = true := by
    simp [WebSocketTransport.takesCallbacks, hrunning, hfails]
  refine ⟨.workerExit, exists_step_of_act hf (y := outermost (onClient
    (Client.onTransport transport (Exec.modify fun t => { t with running := false })))) ?_⟩
  simp [act, workerExit, hstopped, hfree, perform, Client.act, Client.canRelease,
    Client.workerFree, hleft, WebSocketTransport.act, htakes]

private theorem exists_step_join (hr : ProgramRun text realm h p) (hf : p.fault = none)
    (hp : p.state.point = .joiningWorker) : ∃ a o p', step text p a = some (o, p') := by
  have hstage := (placed hr hf).stage
  rw [hp] at hstage
  rcases hstage with hdestroying | hdestroyed
  · have hcall : p.state.statement none =
        .call (.transport transport .destroyJoined) .joiningWorker := by
      simp [statement, hp, hdestroying]
    cases hrunning : (p.state.client.transports transport).running with
    | false =>
      refine ⟨.main none, exists_step_call hf hcall
        (x := Client.onTransport transport WebSocketTransport.destroyJoined) ?_⟩
      simp [Client.act, Client.canRelease, Client.workerFree, TransportAction.onWorker,
        WebSocketTransport.act, hdestroying, hrunning]
    | true =>
      -- The worker is in a handler, or it returns.
      have hstopped : p.state.stopped = true := (stopping hr hf).behind (by rw [hp]; rfl)
      cases hpinging : p.state.pinging with
      | some caller => exact exists_step_ping hr hf (by rw [hpinging]; rfl)
      | none =>
        cases hfailing : p.state.failing with
        | some caller => exact exists_step_fail hr hf (by rw [hfailing]; rfl)
        | none =>
          by_cases hleaving : p.state.signal = .leaving .worker
          · exact exists_step_signal hr hf hleaving
          · apply exists_step_exit hr hf hstopped _ hfailing hrunning
            simp [busy, hleaving, hpinging, hfailing]
  · refine ⟨.main none, exists_step_goOn hf (n := .exited) ?_⟩
    simp [statement, hp, hdestroyed]

/-- A program in its destructors that has not ended can take a step. -/
theorem progress (hd : TearsDown text p) (hn : ¬ Final p) :
    ∃ a o p', step text p a = some (o, p') := by
  obtain ⟨⟨realm, h, hr⟩, hpoint⟩ := hd
  have hf : p.fault = none := by
    by_contra hne
    exact hn (.inl hne)
  have hp := hpoint hf
  cases hmain : p.state.point with
  | releasingSession =>
    cases hover : p.state.hearbeatOver with
    | true =>
      refine ⟨.main none, exists_step_goOn hf (n := .releasingTransport) ?_⟩
      simp only [statement, hmain, hover, or_true, if_true]
    | false => exact ⟨.hearbeat, exists_step_hearbeat hr hf hover⟩
  | releasingTransport => exact ⟨.main none, exists_step_destroy hr hf hmain⟩
  | joiningWorker => exact exists_step_join hr hf hmain
  | exited => exact absurd (.inr hmain) hn
  | _ =>
    rw [hmain] at hp
    cases hp

/-! ### How it ends -/

/-- The destructor of the transport has looked at `done_`. -/
def looked (p : Program) : Prop := p.point = .joiningWorker ∨ p.point = .exited

/-- A signal was handled, or the connection was closed or failed before the destructor looks. -/
def Doomed (p : Program) : Prop :=
  p.signal ≠ .awaited ∨ (p.client.transports transport).done = true ∧ ¬ p.looked

/-- The heartbeat is over, no thread is in a handler, and the connection was neither closed nor
failed, or the destructor has looked before it was. -/
def Clean (p : Program) : Prop :=
  p.point.behindRun = true ∧ p.hearbeatOver = true ∧ p.signal = .awaited ∧ p.pinging = none ∧
    ((p.client.transports transport).done = false ∧ p.failing = none ∨ p.looked)

private theorem doomed_step (hr : ProgramRun text realm h p) (hs : step text p a = some (o, p'))
    (hf : p'.fault = none) (hp : p.state.point.behindRun = true) (hd : Doomed p.state) :
    Doomed p'.state := by
  rcases hd with hsignal | ⟨hdone, hlooked⟩
  · exact .inl (signal_ne_awaited_step hr hs hf hsignal)
  · refine .inr ⟨(flags_step hr hs hf).1 hdone, fun hlooked' => ?_⟩
    unfold looked at hlooked hlooked'
    cases ha : isOther a with
    | true =>
      rw [point_of_other hr hs hf ha] at hlooked'
      exact hlooked hlooked'
    | false =>
      cases a with
      | main ec =>
        cases behindMain_of_step hr hs hf hp with
        | releasingSession hp' hover hclient hpoint =>
          rw [hpoint] at hlooked'
          simp at hlooked'
        | destroy hp' hunset =>
          rw [hunset] at hdone
          cases hdone
        | destroyJoined hp' | joiningWorker hp' => exact hlooked (.inl hp')
      | _ => cases ha

private theorem doomed_of_run {h' : ProgramHistory} (hr : ProgramRun text realm h p)
    (ht : TearsDown text p) (hd : p.fault = none → Doomed p.state)
    (hr' : Run (step text) p h' p') (hf : p'.fault = none) : Doomed p'.state := by
  induction hr' with
  | nil => exact hd hf
  | cons hr' hs ih =>
    have hbefore := Run.trans hr hr'
    have hrunning := (step_facts_of_run hbefore hs).running
    exact doomed_step hbefore hs hf (((decreases text).length_le hr' ht).1.2 hrunning)
      (ih hrunning)

private theorem clean_call (hr : ProgramRun text realm h p) (hf : p.fault = none)
    (hc : Clean p.state) {ec : Option Bytes} {b : Action} {next : MainPoint}
    (hcall : MainCall p.state ec b next) {x : ClientM PUnit} (hx : p.state.client.act b = some x) :
    (x p.state.client).outcome = .value ⟨⟩ := by
  obtain ⟨hbehind, -, -, -, hunset⟩ := hc
  have hplaced := placed hr hf
  have hstage := hplaced.stage
  cases hcall with
  | destroy hp =>
    have hdone : (p.state.client.transports transport).done = false := by
      rcases hunset with ⟨hdone, -⟩ | hlooked
      · exact hdone
      · simp [looked, hp] at hlooked
    rw [hp] at hstage
    have halive : (p.state.client.transports transport).stage = .alive := hstage
    have hjoinable : (p.state.client.transports transport).joinable = true :=
      hplaced.joinable.mpr (by simp [halive])
    obtain ⟨-, -, y, hy, rfl⟩ := Client.act_transport hx
    obtain ⟨-, rfl⟩ := guard_eq_some hy
    simp [Client.onTransport, Client.transportLens, WebSocketTransport.destroy_eq, hdone,
      (stopping hr hf).free, hjoinable]
  | destroyJoined hp =>
    obtain ⟨-, -, y, hy, rfl⟩ := Client.act_transport hx
    obtain ⟨-, rfl⟩ := guard_eq_some hy
    simp [Client.onTransport, WebSocketTransport.destroyJoined_eq]
  | _ hp =>
    rw [hp] at hbehind
    cases hbehind

private theorem survived_of_value (hr : ProgramRun text realm h p)
    (hs : step text p a = some (o, p')) {b : Action} (hb : p.state.clientAction text a = some b)
    (hvalue : ∀ x, p.state.client.act b = some x → (x p.state.client).outcome = .value ⟨⟩) :
    p'.fault = none := by
  obtain ⟨out, hstep, hfault⟩ := (step_facts_of_run hr hs).performs b hb
  obtain ⟨-, x, hx, ho, -, -⟩ := Process.step_eq_some hstep
  have hout : out = (x p.state.client).outcome := congrArg Prod.fst ho
  rw [hfault, hout, hvalue x hx]
  rfl

private theorem not_hearbeat_of_over (hr : ProgramRun text realm h p)
    (hs : step text p a = some (o, p')) (hover : p.state.hearbeatOver = true) :
    isHearbeat a = false := by
  have hfacts := step_facts_of_run hr hs
  have hthread : p.state.client.session.hearbeatThread ≠ some .idle := by
    intro hidle
    rw [hearbeatOver_eq] at hover
    simp [Session.looping, hidle] at hover
  have henabled : ¬ (p.state.client.Enabled .hearbeat ∨ p.state.client.Enabled .hearbeatWoken) := by
    intro henabled
    rw [not_over_of_enabled henabled] at hover
    cases hover
  cases a with
  | hearbeat =>
    have hb : p.state.clientAction text .hearbeat = some .hearbeat := by
      simp only [clientAction, hthread, and_false, if_false]
    obtain ⟨out, hstep, -⟩ := hfacts.performs _ hb
    exact absurd (.inl (Client.step_facts hstep).enabled) henabled
  | hearbeatWoken =>
    obtain ⟨out, hstep, -⟩ := hfacts.performs _ rfl
    exact absurd (.inr (Client.step_facts hstep).enabled) henabled
  | _ => rfl

private theorem clean_survives (hr : ProgramRun text realm h p) (hs : step text p a = some (o, p'))
    (hc : Clean p.state) : p'.fault = none := by
  have hfacts := step_facts_of_run hr hs
  have hf := hfacts.running
  have henabled := hfacts.enabled
  obtain ⟨hbehind, hover, hawaited, hpinging, -⟩ := id hc
  have hruns := not_runs_of_behind hr hf hbehind
  have hunsignalled : ¬ ∃ caller, p.state.signal = .leaving caller := by
    rintro ⟨caller, hleaving⟩
    cases hawaited.symm.trans hleaving
  obtain ⟨-, y, hy, -, -, hfault⟩ := Process.step_eq_some hs
  cases a with
  | main ec =>
    have hy : p.state.mainStep ec = some y := hy
    unfold mainStep at hy
    cases hst : p.state.statement ec with
    | call b next =>
      have hb : p.state.clientAction text (.main ec) = some b := by simp only [clientAction, hst]
      have hcall := mainCall_of_statement hst
      exact survived_of_value hr hs hb fun x hx => clean_call hr hf hc hcall hx
    | goOn next =>
      rw [hst] at hy
      cases hy
      exact hfault
    | returned failure next =>
      rw [not_behind_of_return (mainReturn_of_statement hst)] at hbehind
      cases hbehind
    | blocked => exact absurd hst henabled
  | signal caller => exact absurd henabled.1 (hruns caller)
  | runDispatched caller ec => exact absurd henabled.1 (hruns caller)
  | onClientFail caller => exact absurd henabled (hruns caller)
  | signalDisconnect close | signalJoined => exact absurd henabled hunsignalled
  | signalStop => exact absurd henabled.1 hunsignalled
  | pingFailed | pingOver =>
    have hsome := henabled.1
    rw [hpinging] at hsome
    cases hsome
  | onClientFailed | workerExit =>
    refine survived_of_value hr hs rfl fun x hx => ?_
    obtain ⟨-, -, z, hz, rfl⟩ := Client.act_transport hx
    obtain ⟨-, rfl⟩ := guard_eq_some hz
    rfl
  | hearbeat | hearbeatWoken =>
    have hnot := not_hearbeat_of_over hr hs hover
    cases hnot
  | onClientOpen | onClientClose | onClientMessage opcode payload ec =>
    exact absurd henabled (not_takes_of_behind hr hf hbehind)

private theorem clean_step (hr : ProgramRun text realm h p) (hs : step text p a = some (o, p'))
    (hc : Clean p.state) : Clean p'.state := by
  have hf := clean_survives hr hs hc
  have hfacts := step_facts_of_run hr hs
  obtain ⟨hbehind, hover, hawaited, hpinging, hunset⟩ := hc
  unfold Clean
  rw [hfacts.signal hf, hfacts.pinging hf, hfacts.failing hf]
  cases ha : isOther a with
  | false =>
    cases a with
    | main ec =>
      obtain ⟨-, hsession, -, hbehind'⟩ := mainRemaining_lt hr hs hf hbehind
      refine ⟨hbehind', ?_, hawaited, hpinging, ?_⟩
      · unfold hearbeatOver
        rw [hsession]
        exact hover
      · unfold looked at hunset ⊢
        cases behindMain_of_step hr hs hf hbehind with
        | releasingSession hp hover hclient hpoint =>
          rw [hclient]
          refine .inl (hunset.resolve_right ?_)
          simp [hp]
        | destroy hp hdone hdestroying hv hpoint | destroyJoined hp hstage hdown hv hpoint =>
          exact .inr (.inl hpoint)
        | joiningWorker hp hdestroyed hclient hpoint => exact .inr (.inr hpoint)
    | _ => cases ha
  | true =>
    have hpoint := point_of_other hr hs hf ha
    refine ⟨by rwa [hpoint], over_step hr hs hf hbehind ha hover, ?_⟩
    have hkeeps : p'.state.looked ↔ p.state.looked := by
      unfold looked
      rw [hpoint]
    rw [hkeeps]
    have henabled := hfacts.enabled
    cases behindStep_of_step hr hs hf hbehind ha with
    | signalStop hclient =>
      obtain ⟨⟨caller, hleaving⟩, -⟩ := henabled
      cases hawaited.symm.trans hleaving
    | pingFailed hv | pingOver hclient =>
      have hsome := henabled.1
      rw [hpinging] at hsome
      cases hsome
    | onClientFailed hv =>
      have hfailing : p.state.failing.isSome = true := henabled
      refine ⟨hawaited, hpinging, .inr (hunset.resolve_left fun hnone => ?_)⟩
      rw [hnone.2] at hfailing
      cases hfailing
    | workerExit hv =>
      rw [hv.transport]
      exact ⟨hawaited, hpinging, hunset⟩
    | hearbeat hv | hearbeatWoken hv =>
      have hnot := not_hearbeat_of_over hr hs hover
      cases hnot

private theorem clean_of_run {h' : ProgramHistory} (hr : ProgramRun text realm h p)
    (hf : p.fault = none) (hc : Clean p.state) (hr' : Run (step text) p h' p') :
    Clean p'.state ∧ p'.fault = none := by
  induction hr' with
  | nil => exact ⟨hc, hf⟩
  | cons hr' hs ih =>
    have hbefore := Run.trans hr hr'
    exact ⟨clean_step hbefore hs ih.1, clean_survives hbefore hs ih.1⟩

private theorem handlersRemaining_le (hr : ProgramRun text realm h p) (hf : p.fault = none)
    (hp : p.state.point.behindRun = true) : p.state.handlersRemaining ≤ 2 := by
  have hi := handling hr hf
  have hmain : p.state.busy .other = false := by
    rw [← Bool.not_eq_true]
    intro hbusy
    rw [hi.main hbusy] at hp
    cases hp
  have hworker : ∀ caller, p.state.busy caller = true → caller = .worker := by
    rintro (_ | _) hbusy
    · rfl
    · rw [hmain] at hbusy
      cases hbusy
  have hsignal : signalRemaining p.state.signal ≤ 1 := by
    unfold signalRemaining
    split <;> omega
  have hfailing : p.state.failing.isSome.toNat ≤ 1 := Bool.toNat_le _
  unfold handlersRemaining
  cases hpinging : p.state.pinging with
  | none =>
    dsimp only [pingRemaining]
    omega
  | some caller =>
    obtain rfl := hworker caller (busy_iff.mpr (.inr (.inl hpinging)))
    obtain ⟨hnofail, hnoleave⟩ := hi.pinging .worker hpinging
    have hnone : p.state.failing = none := by
      by_contra hne
      obtain ⟨d, hd⟩ := Option.ne_none_iff_exists'.mp hne
      obtain rfl := hworker d (busy_iff.mpr (.inr (.inr hd)))
      exact hnofail hd
    have hzero : signalRemaining p.state.signal = 0 := by
      cases hsig : p.state.signal with
      | leaving d =>
        obtain rfl := hworker d (busy_iff.mpr (.inl hsig))
        exact absurd hsig hnoleave
      | awaited | handled => rfl
    have hping : pingRemaining (some Caller.worker) p.state.client.failure ≤ 2 := by
      unfold pingRemaining
      split <;> omega
    rw [hnone, hzero]
    dsimp only [Option.isSome_none, Bool.toNat_false]
    omega

private theorem remaining_le (hr : ProgramRun text realm h p) (hf : p.fault = none)
    (hp : p.state.point.behindRun = true) : remaining p ≤ 15 := by
  have hmain : p.state.mainRemaining ≤ 4 := by
    unfold mainRemaining
    split
    · exact Nat.le_refl _
    · omega
    · split <;> omega
    · omega
  have hhandlers := handlersRemaining_le hr hf hp
  have hworker : p.state.workerRemaining ≤ 1 := Bool.toNat_le _
  have hhearbeat : p.state.client.session.hearbeatRemaining ≤ 7 := by
    unfold Session.hearbeatRemaining
    split
    all_goals first | omega | (split <;> omega)
  unfold remaining
  rw [hf]
  dsimp only
  omega

end Program
end Barbarossa
