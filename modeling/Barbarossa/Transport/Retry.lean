import Barbarossa.Transport.Flags

/-!
# Retrying `Connect`

One promise, one future and two flags serve every call of `Connect`, and the callbacks do not say
which call they belong to. Here each accepted call is an attempt of its own, and each callback is
recorded with its attempt, so that what a call returns can be compared with its own connection.
-/

namespace Barbarossa
open Barbarossa.Base

namespace WebSocketTransport

/-! ### The promise and the calls -/

/-- `connected_` after an action. -/
def connectedAfter (t : WebSocketTransport) : TransportAction → Promise Exception PUnit
  | .onClientOpen => t.connected.offer (.ok ⟨⟩)
  | .onClientFail =>
    if t.opened then t.connected
    else t.connected.offer (.error (.networkError ErrorMessages.transportConnectionFailed))
  | .connectFuture _ => { t.connected with retrieved := true }
  | _ => t.connected

/-- The calls of `Connect` after an action. -/
def connectsAfter (t : WebSocketTransport) : TransportAction → List ConnectCall
  | .connect none => if t.opened then t.connects else t.connects ++ [.queued]
  | .connectFuture i => t.connects.set i (if t.connected.retrieved then
      .finished (.error (.futureError .futureAlreadyRetrieved)) else .waiting)
  | .connectReady i =>
    match t.connected.result with
    | some r => t.connects.set i (.finished r)
    | none => t.connects
  | _ => t.connects

/-- What is needed of the call that an action goes on with. -/
def CallAgrees (t : WebSocketTransport) : TransportAction → Prop
  | .connectFuture i => t.connects[i]? = some .queued
  | .connectReady i => t.connects[i]? = some .waiting ∧ t.connected.result.isSome = true
  | _ => True

/-- Every enabled action leaves the promise and the calls that the equations say. -/
theorem act_calls {t : WebSocketTransport} {a : TransportAction} {x : TransportM PUnit}
    (hx : t.act a = some x) : t.CallAgrees a ∧
      (x t).state.connected = t.connectedAfter a ∧ (x t).state.connects = t.connectsAfter a := by
  cases a with
  | onClientOpen =>
    obtain ⟨-, rfl⟩ := guard_eq_some hx
    refine ⟨trivial, ?_⟩
    unfold onClientOpen
    cases hc : t.connected.satisfied <;>
      simp [connectedLens, Promise.setResult, hc, connectedAfter, connectsAfter]
  | onClientClose | onClientFailed =>
    obtain ⟨-, rfl⟩ := guard_eq_some hx
    exact ⟨trivial, rfl, rfl⟩
  | onClientFail =>
    obtain ⟨-, rfl⟩ := guard_eq_some hx
    refine ⟨trivial, ?_⟩
    unfold onClientFail
    cases ho : t.opened <;> cases hc : t.connected.satisfied <;>
      simp [ho, hc, connectedLens, Promise.setResult, connectedAfter, connectsAfter]
  | connect ec =>
    obtain ⟨-, rfl⟩ := guard_eq_some hx
    refine ⟨trivial, ?_⟩
    unfold connect
    cases ho : t.opened <;> cases ec <;> simp [ho, connectedAfter, connectsAfter]
  | connectFuture i =>
    simp only [act] at hx
    split at hx
    · next hqueued =>
      cases hx
      rw [connectFuture_eq]
      exact ⟨hqueued, rfl, rfl⟩
    · cases hx
  | connectReady i =>
    simp only [act] at hx
    split at hx
    · next r hwaiting hr =>
      cases hx
      refine ⟨⟨hwaiting, by simp [hr]⟩, rfl, ?_⟩
      simp [setConnect, connectsAfter, hr]
    · cases hx
  | disconnect caller close =>
    obtain ⟨-, rfl⟩ := guard_eq_some hx
    obtain ⟨waits, hstate, -⟩ := disconnect_state caller close t
    rw [hstate]
    exact ⟨trivial, rfl, rfl⟩
  | disconnectJoined =>
    obtain ⟨-, rfl⟩ := guard_eq_some hx
    exact ⟨trivial, rfl, rfl⟩
  | workerExit =>
    obtain ⟨-, rfl⟩ := guard_eq_some hx
    exact ⟨trivial, rfl, rfl⟩
  | destroy caller =>
    obtain ⟨-, rfl⟩ := guard_eq_some hx
    obtain ⟨stage, hstate⟩ := destroy_state caller t
    rw [hstate]
    exact ⟨trivial, rfl, rfl⟩
  | destroyJoined =>
    obtain ⟨-, rfl⟩ := guard_eq_some hx
    rw [destroyJoined_eq]
    exact ⟨trivial, rfl, rfl⟩

variable {h : TransportHistory} {p : Process WebSocketTransport Fault}

/-- A call that is past its queue has taken the future, or found it taken. -/
theorem retrieved_of_run (hr : TransportRun h p) : ∀ (i : Nat) c,
    p.state.connects[i]? = some c → c ≠ .queued → p.state.connected.retrieved = true := by
  refine hr.invariant (fun _ p => ∀ (i : Nat) c, p.state.connects[i]? = some c → c ≠ .queued →
    p.state.connected.retrieved = true) (by simp) ?_
  intro h p a o p' ih hs
  obtain ⟨-, x, hx, -, hstate, -⟩ := Process.step_eq_some hs
  obtain ⟨hcall, hconnected, hconnects⟩ := act_calls hx
  rw [hstate, hconnected, hconnects]
  cases a with
  | connectFuture j => exact fun _ _ _ _ => rfl
  | connectReady j => exact fun _ _ _ _ => ih j .waiting hcall.1 (by simp)
  | connect ec =>
    cases ec with
    | some text => exact ih
    | none =>
      intro k c hk hne
      cases ho : p.state.opened with
      | true => exact ih k c (by simpa [connectsAfter, ho] using hk) hne
      | false =>
        simp only [connectsAfter, ho, Bool.false_eq_true, if_false] at hk
        rcases List.mem_append.mp (List.mem_of_getElem? hk) with hmem | hmem
        · obtain ⟨j, hj⟩ := List.mem_iff_getElem?.mp hmem
          exact ih j c hj hne
        · exact absurd (List.mem_singleton.mp hmem) hne
  | onClientFail =>
    simp only [connectedAfter]
    split
    · exact ih
    · exact ih
  | _ => exact ih

end WebSocketTransport

/-- How a call ended. -/
def ConnectCall.result? : ConnectCall → Option (Except Exception PUnit)
  | .finished r => some r
  | _ => none

/-- A call with a result is finished. -/
theorem ConnectCall.eq_finished {c : ConnectCall} {r : Except Exception PUnit}
    (h : c.result? = some r) : c = .finished r := by
  cases c with
  | finished r' => exact congrArg ConnectCall.finished (Option.some.inj h)
  | _ => cases h

/-! ### Attempts -/

/-- What happened to the connection of an accepted call of `Connect`. -/
inductive Attempt where
  | pending
  | opened
  | failed
  | closed
  deriving DecidableEq, Repr

namespace Attempt

/-- What the call has to end with. -/
def outcome : Attempt → Option (Except Exception PUnit)
  | .pending => none
  | .opened | .closed => some (.ok ⟨⟩)
  | .failed => some (.error (.networkError ErrorMessages.transportConnectionFailed))

/-- The worker has returned, so no connection is open. -/
def stopped : Attempt → Attempt
  | .opened => .closed
  | a => a

/-- A stopped attempt has the outcome it had. -/
@[simp] theorem outcome_stopped (a : Attempt) : a.stopped.outcome = a.outcome := by
  cases a <;> rfl

/-- A stopped attempt is not open. -/
theorem stopped_ne_opened (a : Attempt) : a.stopped ≠ .opened := by
  cases a <;> simp [stopped]

/-- Only a pending attempt is stopped as a pending one. -/
theorem stopped_eq_pending {a : Attempt} (h : a.stopped = .pending) : a = .pending := by
  cases a <;> simp_all [stopped]

end Attempt

/-- A transport with one attempt for each of its calls of `Connect`. -/
structure Attempts where
  process : Process WebSocketTransport Fault := { state := {} }
  attempts : List Attempt := []

/-- An action, and the attempt it belongs to when it is a callback. -/
abbrev AttemptAction := TransportAction × Nat

namespace Attempts

/-- What happened to attempt `i` decides what its call has to end with. -/
def outcome? (s : Attempts) (i : Nat) : Option (Except Exception PUnit) :=
  s.attempts[i]?.bind Attempt.outcome

/-- `Connect` is called while no connection is open, and each attempt is opened or fails once, and
is closed after it was opened. -/
def admits (s : Attempts) : AttemptAction → Bool
  | (.connect _, _) => s.attempts.all fun x => decide (x ≠ .opened)
  | (.onClientOpen, i) | (.onClientFail, i) => decide (s.attempts[i]? = some .pending)
  | (.onClientClose, i) => decide (s.attempts[i]? = some .opened)
  | _ => true

/-- The attempts after an action. -/
def attemptsAfter (s : Attempts) : AttemptAction → List Attempt
  | (.connect none, _) =>
    if s.process.state.opened then s.attempts else s.attempts ++ [.pending]
  | (.onClientOpen, i) => s.attempts.set i .opened
  | (.onClientFail, i) => s.attempts.set i .failed
  | (.onClientClose, i) => s.attempts.set i .closed
  | (.disconnectJoined, _) => s.attempts.map Attempt.stopped
  | _ => s.attempts

/-- The transport's own step, recorded with its attempt. -/
def step : Step Attempts AttemptAction (Outcome Exception Fault PUnit × List Effect) := fun s a =>
  if s.admits a then
    (WebSocketTransport.step s.process a.1).map fun r => (r.1, ⟨r.2, s.attemptsAfter a⟩)
  else none

/-- The recorded steps of a transport and its attempts. -/
abbrev AttemptHistory :=
  History Attempts AttemptAction (Outcome Exception Fault PUnit × List Effect)

/-- A run from the construction of the transport. -/
abbrev AttemptRun (h : AttemptHistory) (s : Attempts) : Prop := Run step {} h s

variable {h : AttemptHistory} {s s' : Attempts} {a : AttemptAction}
  {o : Outcome Exception Fault PUnit × List Effect}

/-- A recorded step is admitted, and it is a step of the transport. -/
theorem step_cases (hs : step s a = some (o, s')) : s.admits a = true ∧
    WebSocketTransport.step s.process a.1 = some (o, s'.process) ∧
    s'.attempts = s.attemptsAfter a := by
  obtain ⟨ha, hx⟩ := Option.ite_none_right_eq_some.mp hs
  obtain ⟨r, hr, he⟩ := Option.map_eq_some_iff.mp hx
  cases he
  exact ⟨ha, hr, rfl⟩

/-- An admitted step of the transport is a recorded one. -/
theorem step_of_transport {p' : Process WebSocketTransport Fault} (ha : s.admits a = true)
    (hs : WebSocketTransport.step s.process a.1 = some (o, p')) :
    step s a = some (o, ⟨p', s.attemptsAfter a⟩) := by
  rw [step, if_pos ha, hs]
  rfl

/-- Without the attempts, a run is one of the transport. -/
theorem transportRun (hr : AttemptRun h s) : TransportRun
    (h.map fun e => ⟨e.before.process, e.action.1, e.output, e.after.process⟩) s.process := by
  induction hr with
  | nil => exact .nil
  | cons _ hs ih => exact .cons ih (step_cases hs).2.1

/-! ### What a retry needs -/

/-- Every call that ended ended as its own attempt did, and one that waits finds that outcome once
it is there; `connected_` is not satisfied twice; and after a call that returned, the transport is
connected until its own connection closes. -/
structure Matches (s : Attempts) : Prop where
  ended : ∀ (i : Nat) r, s.process.state.connects[i]? = some (.finished r) → s.outcome? i = some r
  ready : ∀ (i : Nat) r, s.process.state.connects[i]? = some .waiting → s.outcome? i = some r →
    s.process.state.connected.result = some r
  once : s.process.state.connected.offers.length ≤ 1
  connected : ∀ i : Nat, s.process.state.connects[i]? = some (.finished (.ok ⟨⟩)) →
    s.attempts[i]? = some .opened → s.process.state.isConnected = true

/-- An action that makes no new attempt. -/
def NoAttempt (_ : AttemptHistory) (_ : Attempts) (a : AttemptAction) : Prop :=
  ∀ ec, a.1 ≠ .connect ec

/-- The calls match their attempts, whatever happens before the next attempt. -/
def StaysMatched (s : Attempts) : Prop :=
  ∀ h s', Run step s h s' → Meets NoAttempt h → s'.Matches

/-- `Connect` can be retried: no attempt is refused, and the calls match their attempts. -/
def Retries (h : AttemptHistory) : Prop :=
  ∀ e ∈ h, (e.action.1 = .connect none → e.output.1 = .value ⟨⟩) ∧ e.after.StaysMatched

/-- No attempt was made before. -/
def firstAttempt (s : Attempts) : AttemptAction → Bool
  | (.connect none, _) => s.attempts.isEmpty
  | _ => true

/-! ### A single attempt -/

/-- A call of `Connect` with its attempt `x`. -/
structure Follows (t : WebSocketTransport) (x : Attempt) (c : ConnectCall) : Prop where
  offers : t.connected.offers = x.outcome.toList
  call : c = .queued ∧ t.connected.retrieved = false ∨ c = .waiting ∨
    ∃ r, c = .finished r ∧ x.outcome = some r
  pending : x = .pending → t.opened = false ∧ t.done = false
  opened : x = .opened → t.opened = true ∧ t.done = false
  failing : t.failing = true → x = .failed

/-- No attempt was made. -/
structure Untried (s : Attempts) : Prop where
  attempts : s.attempts = []
  connects : s.process.state.connects = []
  connected : s.process.state.connected = {}
  opened : s.process.state.opened = false
  done : s.process.state.done = false
  failing : s.process.state.failing = false

/-- At most one attempt was made. -/
def Single (s : Attempts) : Prop :=
  s.Untried ∨ ∃ x c, s.attempts = [x] ∧ s.process.state.connects = [c] ∧
    Follows s.process.state x c

/-- What a step leaves of the transport. -/
structure StepFacts (s : Attempts) (a : AttemptAction) (s' : Attempts) : Prop where
  admitted : s.admits a = true
  worker : s.process.state.WorkerAgrees a.1
  call : s.process.state.CallAgrees a.1
  attempts : s'.attempts = s.attemptsAfter a
  opened : s'.process.state.opened = s.process.state.openedAfter a.1
  done : s'.process.state.done = s.process.state.doneAfter a.1
  failing : s'.process.state.failing = s.process.state.failingAfter a.1
  connected : s'.process.state.connected = s.process.state.connectedAfter a.1
  connects : s'.process.state.connects = s.process.state.connectsAfter a.1

/-- Every step leaves what the equations say. -/
theorem step_facts (hs : step s a = some (o, s')) : StepFacts s a s' := by
  obtain ⟨hadmitted, hstep, hattempts⟩ := step_cases hs
  obtain ⟨hworker, hflags⟩ := WebSocketTransport.step_hasFlags hstep
  obtain ⟨-, x, hx, -, hstate, -⟩ := Process.step_eq_some hstep
  obtain ⟨hcall, hconnected, hconnects⟩ := WebSocketTransport.act_calls hx
  rw [← hstate] at hconnected hconnects
  exact ⟨hadmitted, hworker, hcall, hattempts, hflags.opened, hflags.done, hflags.failing,
    hconnected, hconnects⟩

private theorem eq_of_getElem?_singleton {α : Type} {x y : α} {i : Nat}
    (h : ([x] : List α)[i]? = some y) : i = 0 ∧ x = y := by
  cases i with
  | zero => exact ⟨rfl, by simpa using h⟩
  | succ i => simp at h

/-- A call is followed from its attempt on, until it has ended as the attempt did. -/
theorem Single.matches (hi : s.Single) : s.Matches := by
  rcases hi with hu | ⟨x, c, hattempts, hconnects, hf⟩
  · constructor
    · simp [hu.connects]
    · simp [hu.connects]
    · simp [hu.connected]
    · simp [hu.connects]
  · have hindex : ∀ (i : Nat) d, s.process.state.connects[i]? = some d → i = 0 ∧ c = d := by
      intro i d hd
      rw [hconnects] at hd
      exact eq_of_getElem?_singleton hd
    have hresult : s.process.state.connected.result = x.outcome := by
      rw [Promise.result, hf.offers]
      cases x.outcome <;> rfl
    constructor
    · intro i r hd
      obtain ⟨rfl, rfl⟩ := hindex i _ hd
      rcases hf.call with ⟨hc, -⟩ | hc | ⟨r', hc, hr'⟩
      · cases hc
      · cases hc
      · cases hc
        simpa [outcome?, hattempts] using hr'
    · intro i r hd hr
      obtain ⟨rfl, rfl⟩ := hindex i _ hd
      rw [hresult]
      simpa [outcome?, hattempts] using hr
    · rw [hf.offers]
      cases x.outcome <;> simp
    · intro i hd hx
      obtain ⟨rfl, rfl⟩ := hindex i _ hd
      have hopened := hf.opened (by simpa [hattempts] using hx)
      simp [WebSocketTransport.isConnected, hopened]

private theorem Untried.step (hu : s.Untried) (hs : Attempts.step s a = some (o, s')) :
    s'.Single := by
  obtain ⟨hadmitted, hworker, hcall, hattempts, hopened, hdone, hfailing, hconnected,
    hconnects⟩ := step_facts hs
  obtain ⟨a, i⟩ := a
  have hsame : s.attemptsAfter (a, i) = [] → s.process.state.connectsAfter a = [] →
      s.process.state.connectedAfter a = {} → s.process.state.openedAfter a = false →
      s.process.state.doneAfter a = false → s.process.state.failingAfter a = false →
      s'.Single := by
    intro h₁ h₂ h₃ h₄ h₅ h₆
    exact .inl ⟨hattempts.trans h₁, hconnects.trans h₂, hconnected.trans h₃, hopened.trans h₄,
      hdone.trans h₅, hfailing.trans h₆⟩
  cases a with
  | onClientOpen => simp [admits, hu.attempts] at hadmitted
  | onClientFail => simp [admits, hu.attempts] at hadmitted
  | onClientClose => simp [admits, hu.attempts] at hadmitted
  | onClientFailed => simp [WebSocketTransport.WorkerAgrees, hu.failing] at hworker
  | connectFuture i => simp [WebSocketTransport.CallAgrees, hu.connects] at hcall
  | connectReady i => simp [WebSocketTransport.CallAgrees, hu.connects] at hcall
  | connect ec =>
    cases ec with
    | some text => exact hsame hu.attempts hu.connects hu.connected hu.opened hu.done hu.failing
    | none =>
      refine .inr ⟨.pending, .queued, ?_, ?_, ?_⟩
      · simp [hattempts, attemptsAfter, hu.opened, hu.attempts]
      · simp [hconnects, WebSocketTransport.connectsAfter, hu.opened, hu.connects]
      · constructor
        · rw [hconnected]
          exact congrArg _ hu.connected
        · left
          rw [hconnected]
          exact ⟨rfl, congrArg _ hu.connected⟩
        · exact fun _ => ⟨hopened.trans hu.opened, hdone.trans hu.done⟩
        · intro hx
          cases hx
        · rw [hfailing.trans hu.failing]
          intro hx
          cases hx
  | disconnectJoined =>
    exact hsame (by simp [attemptsAfter, hu.attempts]) hu.connects hu.connected rfl hu.done
      hu.failing
  | disconnect caller close =>
    exact hsame hu.attempts hu.connects hu.connected hu.opened hu.done hu.failing
  | workerExit => exact hsame hu.attempts hu.connects hu.connected hu.opened hu.done hu.failing
  | destroy caller => exact hsame hu.attempts hu.connects hu.connected hu.opened hu.done hu.failing
  | destroyJoined => exact hsame hu.attempts hu.connects hu.connected hu.opened hu.done hu.failing

private theorem Follows.of_call {t t' : WebSocketTransport} {x : Attempt} {c c' : ConnectCall}
    (hi : Follows t x c) (hoffers : t'.connected.offers = t.connected.offers)
    (hopened : t'.opened = t.opened) (hdone : t'.done = t.done) (hfailing : t'.failing = t.failing)
    (hcall : c' = .waiting ∨ ∃ r, c' = .finished r ∧ x.outcome = some r) : Follows t' x c' := by
  constructor
  · rw [hoffers]
    exact hi.offers
  · exact .inr hcall
  · rw [hopened, hdone]
    exact hi.pending
  · rw [hopened, hdone]
    exact hi.opened
  · rw [hfailing]
    exact hi.failing

private theorem Follows.of_attempt {t t' : WebSocketTransport} {x y : Attempt} {c : ConnectCall}
    (hi : Follows t x c) (hoffers : t'.connected.offers = y.outcome.toList)
    (hretrieved : t'.connected.retrieved = t.connected.retrieved)
    (houtcome : ∀ r : Except Exception PUnit.{1}, x.outcome = some r → y.outcome = some r)
    (hpending : y = .pending → t'.opened = false ∧ t'.done = false)
    (hopened : y = .opened → t'.opened = true ∧ t'.done = false)
    (hfailing : t'.failing = true → y = .failed) : Follows t' y c := by
  refine ⟨hoffers, ?_, hpending, hopened, hfailing⟩
  rcases hi.call with ⟨hq, hr⟩ | hw | ⟨r, hc, hr⟩
  · exact .inl ⟨hq, hretrieved.trans hr⟩
  · exact .inr (.inl hw)
  · exact .inr (.inr ⟨r, hc, houtcome r hr⟩)

private theorem attempt_eq {x y : Attempt} {i : Nat} (hx : s.attempts = [x])
    (hy : s.attempts[i]? = some y) : i = 0 ∧ x = y := by
  rw [hx] at hy
  exact eq_of_getElem?_singleton hy

private theorem follows_connectFuture {x : Attempt} {c : ConnectCall} {i j : Nat}
    (hx : s.attempts = [x]) (hc : s.process.state.connects = [c])
    (hi : Follows s.process.state x c) (hf : StepFacts s (.connectFuture j, i) s') :
    s'.Single := by
  obtain ⟨-, -, hcall, hattempts, hopened, hdone, hfailing, hconnected, hconnects⟩ := hf
  rw [WebSocketTransport.CallAgrees, hc] at hcall
  obtain ⟨rfl, rfl⟩ := eq_of_getElem?_singleton hcall
  have hretrieved : s.process.state.connected.retrieved = false := by
    rcases hi.call with ⟨-, hq⟩ | hw | ⟨r, hr, -⟩
    · exact hq
    · cases hw
    · cases hr
  refine .inr ⟨x, .waiting, hattempts.trans hx, ?_, ?_⟩
  · simp [hconnects, WebSocketTransport.connectsAfter, hretrieved, hc]
  · exact hi.of_call (by rw [hconnected]; rfl) hopened hdone hfailing (.inl rfl)

private theorem follows_connectReady {x : Attempt} {c : ConnectCall} {i j : Nat}
    (hx : s.attempts = [x]) (hc : s.process.state.connects = [c])
    (hi : Follows s.process.state x c) (hf : StepFacts s (.connectReady j, i) s') :
    s'.Single := by
  obtain ⟨-, -, hcall, hattempts, hopened, hdone, hfailing, hconnected, hconnects⟩ := hf
  obtain ⟨hwaiting, hsome⟩ := hcall
  obtain ⟨r, hr⟩ := Option.isSome_iff_exists.mp hsome
  rw [hc] at hwaiting
  obtain ⟨rfl, rfl⟩ := eq_of_getElem?_singleton hwaiting
  have houtcome : x.outcome = some r := by
    rw [Promise.result, hi.offers] at hr
    cases ho : x.outcome with
    | none => simp [ho] at hr
    | some r' => simpa [ho] using hr
  refine .inr ⟨x, .finished r, hattempts.trans hx, ?_, ?_⟩
  · simp [hconnects, WebSocketTransport.connectsAfter, hr, hc]
  · exact hi.of_call (by rw [hconnected]; rfl) hopened hdone hfailing (.inr ⟨r, rfl, houtcome⟩)

private theorem follows_step {x : Attempt} {c : ConnectCall} (hx : s.attempts = [x])
    (hc : s.process.state.connects = [c]) (hi : Follows s.process.state x c)
    (hfirst : s.firstAttempt a = true) (hs : Attempts.step s a = some (o, s')) :
    s'.Single := by
  have hfacts := step_facts hs
  obtain ⟨hadmitted, hworker, -, hattempts, hopened, hdone, hfailing, hconnected, hconnects⟩ :=
    step_facts hs
  obtain ⟨a, i⟩ := a
  have hsame : s.attemptsAfter (a, i) = [x] → s.process.state.connectsAfter a = [c] →
      s.process.state.connectedAfter a = s.process.state.connected →
      s.process.state.openedAfter a = s.process.state.opened →
      s.process.state.doneAfter a = s.process.state.done →
      s.process.state.failingAfter a = s.process.state.failing → s'.Single := by
    intro h₁ h₂ h₃ h₄ h₅ h₆
    have hconnected' := hconnected.trans h₃
    refine .inr ⟨x, c, hattempts.trans h₁, hconnects.trans h₂, hi.of_attempt ?_
      (congrArg Promise.retrieved hconnected') (fun _ hr => hr) ?_ ?_ ?_⟩
    · rw [hconnected']
      exact hi.offers
    · rw [hopened, hdone, h₄, h₅]
      exact hi.pending
    · rw [hopened, hdone, h₄, h₅]
      exact hi.opened
    · rw [hfailing, h₆]
      exact hi.failing
  cases a with
  | connect ec =>
    cases ec with
    | some text => exact hsame hx hc rfl rfl rfl rfl
    | none => simp [firstAttempt, hx] at hfirst
  | disconnect caller close => exact hsame hx hc rfl rfl rfl rfl
  | workerExit => exact hsame hx hc rfl rfl rfl rfl
  | destroy caller => exact hsame hx hc rfl rfl rfl rfl
  | destroyJoined => exact hsame hx hc rfl rfl rfl rfl
  | connectFuture j => exact follows_connectFuture hx hc hi hfacts
  | connectReady j => exact follows_connectReady hx hc hi hfacts
  | onClientOpen =>
    obtain ⟨rfl, rfl⟩ := attempt_eq hx (by simpa [admits] using hadmitted)
    obtain ⟨-, hd⟩ := hi.pending rfl
    refine .inr ⟨.opened, c, by simp [hattempts, attemptsAfter, hx], hconnects.trans hc,
      hi.of_attempt ?_ (by rw [hconnected]; rfl) ?_ ?_ (fun _ => ⟨hopened, hdone.trans hd⟩) ?_⟩
    · rw [hconnected]
      simp [WebSocketTransport.connectedAfter, hi.offers, Attempt.outcome]
    · intro r hr
      cases hr
    · intro hf
      cases hf
    · rw [hfailing]
      intro hf
      cases hi.failing hf
  | onClientFail =>
    obtain ⟨rfl, rfl⟩ := attempt_eq hx (by simpa [admits] using hadmitted)
    obtain ⟨ho, -⟩ := hi.pending rfl
    refine .inr ⟨.failed, c, by simp [hattempts, attemptsAfter, hx], hconnects.trans hc,
      hi.of_attempt ?_ ?_ ?_ ?_ ?_ fun _ => rfl⟩
    · rw [hconnected]
      simp [WebSocketTransport.connectedAfter, ho, hi.offers, Attempt.outcome]
    · rw [hconnected]
      simp [WebSocketTransport.connectedAfter, ho]
    · intro r hr
      cases hr
    · intro hf
      cases hf
    · intro hf
      cases hf
  | onClientFailed =>
    obtain rfl := hi.failing hworker
    refine .inr ⟨.failed, c, hattempts.trans hx, hconnects.trans hc,
      hi.of_attempt ?_ (congrArg Promise.retrieved hconnected) (fun _ hr => hr) ?_ ?_
        fun _ => rfl⟩
    · rw [hconnected]
      exact hi.offers
    · intro hf
      cases hf
    · intro hf
      cases hf
  | onClientClose =>
    obtain ⟨rfl, rfl⟩ := attempt_eq hx (by simpa [admits] using hadmitted)
    refine .inr ⟨.closed, c, by simp [hattempts, attemptsAfter, hx], hconnects.trans hc,
      hi.of_attempt ?_ (congrArg Promise.retrieved hconnected) (fun _ hr => hr) ?_ ?_ ?_⟩
    · rw [hconnected]
      exact hi.offers
    · intro hf
      cases hf
    · intro hf
      cases hf
    · rw [hfailing]
      intro hf
      cases hi.failing hf
  | disconnectJoined =>
    refine .inr ⟨x.stopped, c, by simp [hattempts, attemptsAfter, hx], hconnects.trans hc,
      hi.of_attempt ?_ (congrArg Promise.retrieved hconnected) ?_ ?_ ?_ ?_⟩
    · rw [hconnected, Attempt.outcome_stopped]
      exact hi.offers
    · intro r hr
      exact x.outcome_stopped.trans hr
    · intro hp
      exact ⟨hopened, hdone.trans (hi.pending (Attempt.stopped_eq_pending hp)).2⟩
    · intro hf
      exact absurd hf x.stopped_ne_opened
    · rw [hfailing]
      intro hf
      rw [hi.failing hf]
      rfl

/-- A step that makes no second attempt. -/
theorem Single.step (hi : s.Single) (hfirst : s.firstAttempt a = true)
    (hs : Attempts.step s a = some (o, s')) : s'.Single := by
  rcases hi with hu | ⟨x, c, hx, hc, hf⟩
  · exact hu.step hs
  · exact follows_step hx hc hf hfirst hs

/-- Without a new attempt, a single one stays single. -/
theorem Single.staysMatched (hi : s.Single) : s.StaysMatched := by
  intro h s' hr hm
  have hi' : s'.Single := hr.invariant_of_meets NoAttempt (fun _ s => s.Single) hi
    (fun h s a o s' hi ha hs => by
      refine hi.step ?_ hs
      obtain ⟨a, i⟩ := a
      cases a with
      | connect ec => exact absurd rfl (ha ec)
      | _ => rfl) hm
  exact hi'.matches

/-- The construction of a transport. -/
theorem single_init : ({} : Attempts).Single :=
  .inl ⟨rfl, rfl, rfl, rfl, rfl, rfl⟩

/-! ### A second attempt -/

/-- Each call has its attempt. -/
theorem length_attempts (hr : AttemptRun h s) :
    s.attempts.length = s.process.state.connects.length := by
  refine hr.invariant (fun _ s => s.attempts.length = s.process.state.connects.length) rfl ?_
  intro h s a o s' ih hs
  obtain ⟨-, -, hcall, hattempts, -, -, -, -, hconnects⟩ := step_facts hs
  obtain ⟨a, i⟩ := a
  rw [hattempts, hconnects]
  cases a with
  | connect ec =>
    cases ec with
    | some text => exact ih
    | none =>
      cases ho : s.process.state.opened <;>
        simp [attemptsAfter, WebSocketTransport.connectsAfter, ho, ih]
  | connectReady j =>
    obtain ⟨r, hr⟩ := Option.isSome_iff_exists.mp hcall.2
    simp [attemptsAfter, WebSocketTransport.connectsAfter, hr, ih]
  | _ => simp [attemptsAfter, WebSocketTransport.connectsAfter, ih]

private theorem exists_step_connectFuture {i : Nat} (hf : s.process.fault = none)
    (hq : s.process.state.connects[i]? = some .queued) :
    ∃ o s', Attempts.step s (.connectFuture i, i) = some (o, s') ∧ s'.process.fault = none := by
  have hx : s.process.state.act (.connectFuture i) =
      some (WebSocketTransport.connectFuture i) := by simp only [WebSocketTransport.act, hq]
  refine ⟨_, _, step_of_transport rfl (Process.step_of_act hf hx), ?_⟩
  rw [WebSocketTransport.connectFuture_eq]
  rfl

private theorem not_staysMatched {s₁ : Attempts} {i : Nat} (hr : Run Attempts.step s h s₁)
    (hm : Meets NoAttempt h) (hf : s₁.process.fault = none)
    (hq : s₁.process.state.connects[i]? = some .queued)
    (htaken : s₁.process.state.connected.retrieved = true) : ¬ s.StaysMatched := by
  intro hstays
  obtain ⟨o, s₂, hs, -⟩ := exists_step_connectFuture hf hq
  have hend : s₂.process.state.connects[i]? =
      some (.finished (.error (.futureError .futureAlreadyRetrieved))) := by
    have hlength := (List.getElem?_eq_some_iff.mp hq).1
    simp [(step_facts hs).connects, WebSocketTransport.connectsAfter, htaken, hlength]
  have hmeets : Meets NoAttempt (⟨s₁, (.connectFuture i, i), o, s₂⟩ :: h) := by
    refine ⟨?_, hm⟩
    intro ec hec
    cases hec
  have houtcome := (hstays _ s₂ (.cons hr hs) hmeets).ended i _ hend
  unfold outcome? at houtcome
  obtain ⟨x, -, hx⟩ := Option.bind_eq_some_iff.mp houtcome
  cases x <;> cases hx

/-- The second of two attempts ends with the error of a future that was taken before. -/
theorem not_staysMatched_of_second {i : Nat} (hr : AttemptRun h s)
    (hs : Attempts.step s (.connect none, i) = some (o, s')) (ho : o.1 = .value ⟨⟩)
    (hsecond : s.attempts ≠ []) : ¬ s'.StaysMatched := by
  obtain ⟨-, hstep, -⟩ := step_cases hs
  obtain ⟨-, x, hx, rfl, -, hfault⟩ := Process.step_eq_some hstep
  obtain ⟨-, rfl⟩ := guard_eq_some hx
  have hopened : s.process.state.opened = false := by
    cases hopen : s.process.state.opened with
    | false => rfl
    | true =>
      have hrefuses := (WebSocketTransport.connect_refuses_iff none _).mpr hopen
      rw [hrefuses] at ho
      cases ho
  have hlive : s'.process.fault = none := hfault.trans (congrArg Outcome.fault? ho)
  have hconnects : s'.process.state.connects = s.process.state.connects ++ [.queued] := by
    rw [(step_facts hs).connects]
    simp [WebSocketTransport.connectsAfter, hopened]
  have htaken : s'.process.state.connected = s.process.state.connected :=
    (step_facts hs).connected
  have hpos : 0 < s.process.state.connects.length := by
    rw [← length_attempts hr]
    exact List.length_pos_of_ne_nil hsecond
  have hlast : s'.process.state.connects[s.process.state.connects.length]? = some .queued := by
    simp [hconnects]
  have hfirst := List.getElem?_eq_getElem hpos
  by_cases hq : s.process.state.connects[0] = .queued
  · -- Both calls are queued: the first one takes the future from the second.
    rw [hq] at hfirst
    have hfirst' : s'.process.state.connects[0]? = some .queued := by
      rw [hconnects, List.getElem?_append_left hpos]
      exact hfirst
    obtain ⟨o₁, s₁, hs₁, hlive₁⟩ := exists_step_connectFuture hlive hfirst'
    refine not_staysMatched (.cons .nil hs₁) ⟨?_, trivial⟩ hlive₁
      (i := s.process.state.connects.length) ?_ ?_
    · intro ec hec
      cases hec
    · rw [(step_facts hs₁).connects]
      simp only [WebSocketTransport.connectsAfter]
      rw [List.getElem?_set_ne (Nat.ne_of_lt hpos)]
      exact hlast
    · rw [(step_facts hs₁).connected]
      rfl
  · refine not_staysMatched .nil trivial hlive hlast ?_
    rw [htaken]
    exact WebSocketTransport.retrieved_of_run (transportRun hr) 0 _ hfirst hq

private theorem Single.accepts {i : Nat} (hi : s.Single)
    (hfirst : s.firstAttempt (.connect none, i) = true)
    (hs : Attempts.step s (.connect none, i) = some (o, s')) : o.1 = .value ⟨⟩ := by
  have hempty : s.attempts = [] := by simpa [firstAttempt] using hfirst
  have hopened : s.process.state.opened = false := by
    rcases hi with hu | ⟨x, c, hx, -, -⟩
    · exact hu.opened
    · rw [hempty] at hx
      cases hx
  obtain ⟨-, hstep, -⟩ := step_cases hs
  obtain ⟨-, x, hx, rfl, -, -⟩ := Process.step_eq_some hstep
  obtain ⟨-, rfl⟩ := guard_eq_some hx
  simp [WebSocketTransport.connect, hopened]

/-- Under the condition, a run has a single attempt and `Connect` can be retried. -/
theorem retries_of_first (hr : AttemptRun h s)
    (hc : ∀ e ∈ h, e.before.firstAttempt e.action = true) : s.Single ∧ Retries h := by
  induction hr with
  | nil => exact ⟨single_init, by simp [Retries]⟩
  | @cons h s s' a o _ hs ih =>
    obtain ⟨hfirst, hc⟩ := List.forall_mem_cons.mp hc
    obtain ⟨hi, hretries⟩ := ih hc
    have hi' := hi.step hfirst hs
    refine ⟨hi', List.forall_mem_cons.mpr ⟨⟨?_, hi'.staysMatched⟩, hretries⟩⟩
    intro ha
    obtain ⟨a, i⟩ := a
    cases ha
    exact hi.accepts hfirst hs

/-- `Connect` can be retried in a run exactly when the run does not retry it. -/
theorem retries_iff (hr : AttemptRun h s) :
    Retries h ↔ ∀ e ∈ h, e.before.firstAttempt e.action = true := by
  constructor
  · rintro hretries ⟨s, ⟨a, i⟩, o, s'⟩ he
    obtain ⟨older, hrun, hs⟩ := hr.of_mem he
    obtain ⟨haccepted, hstays⟩ := hretries _ he
    cases a with
    | connect ec =>
      cases ec with
      | some text => rfl
      | none =>
        by_contra hsecond
        exact not_staysMatched_of_second hrun hs (haccepted rfl)
          (by simpa [firstAttempt] using hsecond) hstays
    | _ => rfl
  · exact fun hc => (retries_of_first hr hc).2

/-- One attempt that opens before its call waits, and is closed after the call returned. -/
theorem retries_once : ∃ h s, AttemptRun h s ∧ Retries h ∧ s.attempts = [.closed] := by
  obtain ⟨h, s, hr, hc⟩ := exists_run_of_replay step {}
    [(.connect none, 0), (.onClientOpen, 0), (.connectFuture 0, 0), (.connectReady 0, 0),
      (.onClientClose, 0)]
    (fun h s => decide (∀ e ∈ h, e.before.firstAttempt e.action = true) &&
      decide (s.attempts = [.closed])) (by decide)
  rw [Bool.and_eq_true, decide_eq_true_eq, decide_eq_true_eq] at hc
  exact ⟨h, s, hr, (retries_iff hr).mpr hc.1, hc.2⟩

/-- After a first attempt that failed, the second call throws the error of a future that was taken
before. -/
theorem not_retries : ¬ ∀ h s, AttemptRun h s → Retries h := by
  intro hall
  obtain ⟨h, s, hr, hc⟩ := exists_run_of_replay step {}
    [(.connect none, 0), (.connectFuture 0, 0), (.onClientFail, 0), (.connectReady 0, 0),
      (.connect none, 1), (.connectFuture 1, 1)]
    (fun h _ => h.any fun e => decide (e.after.attempts[1]? = some Attempt.pending ∧
      (e.after.process.state.connects[1]?.bind ConnectCall.result?).isSome = true)) (by decide)
  simp only [List.any_eq_true, decide_eq_true_eq] at hc
  obtain ⟨e, he, hpending, hended⟩ := hc
  obtain ⟨r, hr'⟩ := Option.isSome_iff_exists.mp hended
  obtain ⟨c, hcall, hresult⟩ := Option.bind_eq_some_iff.mp hr'
  have hmatches := (hall h s hr e he).2 [] e.after .nil trivial
  have houtcome := hmatches.ended 1 r
    (hcall.trans (congrArg some (ConnectCall.eq_finished hresult)))
  simp [outcome?, hpending, Attempt.outcome] at houtcome

end Attempts
end Barbarossa
