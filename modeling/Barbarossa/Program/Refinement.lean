import Barbarossa.Client.Stopping
import Barbarossa.Program.Steps

/-!
# The program as a client

A run of the program shows a run of the client: the same objects, the same frames, and of the four
threads only the actions that they perform on the objects. Of the interface of the client the
program uses little: the calls that its main thread begins are fixed, and `Leave` is called once.
-/

namespace Barbarossa
open Barbarossa.Base

namespace Program

variable {text : JsonText} {realm : Bytes} {h : ProgramHistory}
  {p p' : Process Program ProgramFault} {a : ProgramAction}
  {o : Outcome Exception ProgramFault PUnit × List Effect}

/-! ### The refinement mapping -/

/-- How an action of the client ended that left the program with a fault or none. -/
def outcomeOf : Option ProgramFault → Outcome Exception Fault PUnit
  | some (.uncaught e) => .thrown e
  | some (.client f) => .crashed f
  | some .badWeakPtr | none => .value ⟨⟩

/-- The ending of an action of the client is read off the fault of the program. -/
@[simp] theorem outcomeOf_faultOf (out : Outcome Exception Fault PUnit) :
    outcomeOf (faultOf out) = out := by
  cases out <;> rfl

/-- The client in a program. -/
def clientOf (p : Process Program ProgramFault) : Process Client Fault where
  state := p.state.client
  fault := (outcomeOf p.fault).fault?

/-- The step of the client that a step of the program performs. -/
def view (text : JsonText) (e : Entry (Process Program ProgramFault) ProgramAction
    (Outcome Exception ProgramFault PUnit × List Effect)) : Option ClientEntry :=
  (e.before.state.clientAction text e.action).map fun b =>
    ⟨clientOf e.before, b, (outcomeOf e.after.fault, e.output.2), clientOf e.after⟩

/-- The steps of the client in a history of the program. -/
def clientHistory (text : JsonText) (h : ProgramHistory) : ClientHistory := h.filterMap (view text)

/-- A program that still runs has a client that still runs. -/
theorem clientOf_of_running (hf : p.fault = none) : clientOf p = ⟨p.state.client, none⟩ := by
  unfold clientOf
  rw [hf]
  rfl

private theorem clientOf_of_no_fault (hf : ∀ f, p.fault ≠ some (.client f)) :
    clientOf p = ⟨p.state.client, none⟩ := by
  unfold clientOf
  cases hfault : p.fault with
  | none => rfl
  | some f =>
    cases f with
    | client f => exact absurd hfault (hf f)
    | uncaught e => rfl
    | badWeakPtr => rfl

/-- A step that performs an action of the client is a step of the client. -/
theorem step_client {b : Action} (hk : p.state.client.HandlersKnown)
    (hs : step text p a = some (o, p')) (hb : p.state.clientAction text a = some b) :
    Client.step (clientOf p) b = some ((outcomeOf p'.fault, o.2), clientOf p') := by
  have hfacts := step_facts hk hs
  obtain ⟨out, hstep, hfault⟩ := hfacts.performs b hb
  rw [clientOf_of_running hfacts.running, hstep]
  unfold clientOf
  rw [hfault, outcomeOf_faultOf]

/-- A step that performs no action of the client leaves it as it is. -/
theorem step_idle (hk : p.state.client.HandlersKnown) (hs : step text p a = some (o, p'))
    (hnone : p.state.clientAction text a = none) : clientOf p' = clientOf p ∧ o.2 = [] := by
  have hfacts := step_facts hk hs
  obtain ⟨hclient, hsilent, hfault⟩ := hfacts.idle hnone
  rw [clientOf_of_running hfacts.running, clientOf_of_no_fault hfault, hclient]
  exact ⟨rfl, hsilent⟩

/-- The program refines the client. -/
theorem refinement (text : JsonText) : RefinementMapping (step text) Client.step
    (fun p => p.state.client.HandlersKnown) clientOf (view text) where
  keeps p a o p' hk hs := by
    cases hb : p.state.clientAction text a with
    | none =>
      rw [((step_facts hk hs).idle hb).1]
      exact hk
    | some b => exact Client.handlersKnown_step (step_client hk hs hb) hk
  idle p a o p' hk hs hv := (step_idle hk hs (Option.map_eq_none_iff.mp hv)).1
  moves p a o p' e hk hs hv := by
    obtain ⟨b, hb, rfl⟩ := Option.map_eq_some_iff.mp hv
    exact ⟨rfl, step_client hk hs hb, rfl⟩

private theorem handlersKnown_init (realm : Bytes) :
    ({ realm := realm } : Program).client.HandlersKnown := by
  intro t s hh
  cases hh

/-- The handlers are known in every state of every run. -/
theorem handlersKnown (hr : ProgramRun text realm h p) : p.state.client.HandlersKnown :=
  (refinement text).inv (handlersKnown_init realm) hr

/-- A run of the program shows a run of the client. -/
theorem clientRun (hr : ProgramRun text realm h p) :
    ClientRun (clientHistory text h) (clientOf p) :=
  (refinement text).run (handlersKnown_init realm) hr

/-- The facts of a step that a run goes on with. -/
theorem step_facts_of_run (hr : ProgramRun text realm h p) (hs : step text p a = some (o, p')) :
    StepFacts text p a o p' := step_facts (handlersKnown hr) hs

/-! ### What is handed over -/

/-- The program gives out what its client gives out. -/
theorem emitted_clientHistory (hr : ProgramRun text realm h p) :
    emitted (clientHistory text h) = emitted h := by
  induction hr with
  | nil => rfl
  | @cons h p p' a o hr hs ih =>
    rw [emitted_cons, ← ih]
    cases hb : p.state.clientAction text a with
    | none =>
      have hview : view text ⟨p, a, o, p'⟩ = none := Option.map_eq_none_iff.mpr hb
      rw [clientHistory, List.filterMap_cons_none hview]
      dsimp only
      rw [(step_idle (handlersKnown hr) hs hb).2, List.append_nil]
      rfl
    | some b =>
      have hview : view text ⟨p, a, o, p'⟩ = some
          ⟨clientOf p, b, (outcomeOf p'.fault, o.2), clientOf p'⟩ := by
        simp only [view, hb, Option.map_some]
      rw [clientHistory, List.filterMap_cons_some hview, emitted_cons]
      rfl

/-! ### The calls of the program -/

/-- A call of the interface of the session and its transports. -/
inductive ApiCall where
  | registerOperation (operation : Bytes)
  | attach (transport : TransportId)
  | connect (transport : TransportId)
  | join (realm : Bytes)
  | listen
  | detach (transport : TransportId)
  | disconnect (transport : TransportId)
  | destroy (transport : TransportId)
  deriving DecidableEq, Repr

/-- The call that an action begins; `Leave` is counted by itself. -/
def apiCall? : Action → Option ApiCall
  | .registerOperation operation _ => some (.registerOperation operation)
  | .attach t => some (.attach t)
  | .transport t (.connect _) => some (.connect t)
  | .transport t (.disconnect _ _) => some (.disconnect t)
  | .transport t (.destroy _) => some (.destroy t)
  | .join realm => some (.join realm)
  | .listen => some .listen
  | .detach t => some (.detach t)
  | _ => none

/-- The calls that a history began, oldest first. -/
def calls (h : ClientHistory) : List ApiCall := h.reverse.filterMap fun e => apiCall? e.action

/-- The calls of `main` up to the end of the try block. -/
def begun (realm : Bytes) : List ApiCall :=
  [.registerOperation sayHelloName, .attach transport, .connect transport, .join realm, .listen]

/-- The calls of `main` behind the try block. -/
def ending : List ApiCall := [.detach transport, .destroy transport]

/-- The calls that the main thread has begun at a point, where an exception may have kept it from
those at the end of the try block. -/
def Begun (realm : Bytes) (calls : List ApiCall) : MainPoint → Prop
  | .registering => calls = []
  | .wiring | .attaching => calls = (begun realm).take 1
  | .connecting => calls = (begun realm).take 2
  | .connectFuture | .connectWait | .joining => calls = (begun realm).take 3
  | .joinFuture | .joinWait | .listening => calls = (begun realm).take 4
  | .listenWait => calls = begun realm
  | .detaching => ∃ k, calls = (begun realm).take k
  | .running | .releasingSession | .releasingTransport =>
    ∃ k, calls = (begun realm).take k ++ ending.take 1
  | .joiningWorker | .exited => ∃ k, calls = (begun realm).take k ++ ending

private theorem calls_cons :
    calls (clientHistory text (⟨p, a, o, p'⟩ :: h)) =
      calls (clientHistory text h) ++
        ((p.state.clientAction text a).bind apiCall?).toList := by
  unfold clientHistory
  cases hb : p.state.clientAction text a with
  | none =>
    have hview : view text ⟨p, a, o, p'⟩ = none := Option.map_eq_none_iff.mpr hb
    rw [List.filterMap_cons_none hview]
    simp
  | some b =>
    have hview : view text ⟨p, a, o, p'⟩ = some
        ⟨clientOf p, b, (outcomeOf p'.fault, o.2), clientOf p'⟩ := by
      simp only [view, hb, Option.map_some]
    rw [List.filterMap_cons_some hview]
    unfold calls
    rw [List.reverse_cons, List.filterMap_append]
    cases hcall : apiCall? b <;> simp [hcall]

private theorem begun_main {p : Program} {calls : List ApiCall} (ec : Option Bytes)
    (hb : Begun p.realm calls p.point) :
    Begun p.realm (calls ++ ((p.clientAction text (.main ec)).bind apiCall?).toList)
      (p.pointAfter (.main ec)) := by
  cases hpoint : p.point with
  | connectWait =>
    rw [hpoint] at hb
    simp only [clientAction, pointAfter, statement, hpoint]
    cases hr : ((p.client.transports transport).connects[mainCall]?).bind
      ConnectCall.result? with
    | none => simpa [apiCall?] using hb
    | some r =>
      cases r with
      | ok v => simpa [failure?, Begun] using hb
      | error e => exact ⟨3, by simpa [failure?, Begun] using hb⟩
  | joinWait =>
    rw [hpoint] at hb
    simp only [clientAction, pointAfter, statement, hpoint]
    cases hr : (p.client.joins[mainCall]?).bind JoinCall.result? with
    | none =>
      dsimp only
      split <;> simpa [apiCall?] using hb
    | some r =>
      cases r with
      | ok v => simpa [failure?, Begun] using hb
      | error e => exact ⟨4, by simpa [failure?, Begun] using hb⟩
  | listenWait =>
    rw [hpoint] at hb
    simp only [clientAction, pointAfter, statement, hpoint]
    cases hr : (p.client.listens[mainCall]?).bind ListenCall.result? with
    | none => simpa [apiCall?] using hb
    | some r =>
      have hall : calls = (begun p.realm).take 5 := hb
      cases r with
      | ok v => exact ⟨5, by simpa [failure?] using hall⟩
      | error e => exact ⟨5, by simpa [failure?] using hall⟩
  | running =>
    rw [hpoint] at hb
    by_cases hc : p.stopped = true ∧ p.busy .other = false
    · simpa [clientAction, pointAfter, statement, hpoint, hc, Begun] using hb
    · simpa [clientAction, pointAfter, statement, hpoint, hc, Begun] using hb
  | releasingSession =>
    rw [hpoint] at hb
    by_cases hc : p.pinging.isSome = true ∨ p.hearbeatOver = true
    · simpa [clientAction, pointAfter, statement, hpoint, hc, Begun] using hb
    · simpa [clientAction, pointAfter, statement, hpoint, hc, Begun] using hb
  | joiningWorker =>
    rw [hpoint] at hb
    by_cases hc : (p.client.transports transport).stage = .destroyed
    · simpa [clientAction, pointAfter, statement, hpoint, hc, Begun] using hb
    · simpa [clientAction, pointAfter, statement, hpoint, hc, Begun, apiCall?] using hb
  | detaching | releasingTransport =>
    rw [hpoint] at hb
    obtain ⟨k, hk⟩ := hb
    simp only [clientAction, pointAfter, statement, hpoint]
    exact ⟨k, by simp [apiCall?, hk, ending]⟩
  | exited =>
    rw [hpoint] at hb
    simpa [clientAction, pointAfter, statement, hpoint] using hb
  | _ =>
    rw [hpoint] at hb
    simp only [Begun] at hb
    simp [clientAction, pointAfter, statement, hpoint, Begun, hb, apiCall?, begun]

/-- Only the main thread begins calls. -/
theorem apiCall?_of_other {p : Program} {b : Action} (ha : ∀ ec, a ≠ .main ec)
    (hb : p.clientAction text a = some b) : apiCall? b = none := by
  cases performs_of_clientAction hb with
  | call ec b next hc => exact absurd rfl (ha ec)
  | _ => rfl

private theorem begun_step {p : Program} {calls : List ApiCall} (text : JsonText)
    (a : ProgramAction) (hb : Begun p.realm calls p.point) :
    Begun p.realm (calls ++ ((p.clientAction text a).bind apiCall?).toList) (p.pointAfter a) := by
  by_cases ha : ∃ ec, a = .main ec
  · obtain ⟨ec, rfl⟩ := ha
    exact begun_main ec hb
  · have hother : ∀ ec, a ≠ .main ec := fun ec he => ha ⟨ec, he⟩
    have hnone : (p.clientAction text a).bind apiCall? = none := by
      cases hb' : p.clientAction text a with
      | none => rfl
      | some b => exact apiCall?_of_other hother hb'
    have hpoint : p.pointAfter a = p.point := by
      cases a with
      | main ec => exact absurd rfl (hother ec)
      | _ => rfl
    rw [hnone, hpoint, Option.toList_none, List.append_nil]
    exact hb

/-- The realm of the arguments stays. -/
theorem realm_eq (hr : ProgramRun text realm h p) : p.state.realm = realm := by
  refine hr.invariant (fun _ p => p.state.realm = realm ∧ p.state.client.HandlersKnown) ?_ ?_ |>.1
  · exact ⟨rfl, handlersKnown_init realm⟩
  · intro h p a o p' hi hs
    exact ⟨(step_facts hi.2 hs).realm.trans hi.1, (refinement text).keeps p a o p' hi.2 hs⟩

/-- The calls of a run are those of some point of the main thread, the one where it is while the
program runs. -/
theorem begun_of_run (hr : ProgramRun text realm h p) :
    (∃ point, Begun realm (calls (clientHistory text h)) point) ∧
      (p.fault = none → Begun realm (calls (clientHistory text h)) p.state.point) := by
  induction hr with
  | nil => exact ⟨⟨.registering, rfl⟩, fun _ => rfl⟩
  | @cons h p p' a o hr hs ih =>
    have hfacts := step_facts_of_run hr hs
    have hbegun := ih.2 hfacts.running
    rw [← realm_eq hr] at hbegun ⊢
    have hnext := begun_step text a hbegun
    have hcalls : calls (clientHistory text (⟨p, a, o, p'⟩ :: h)) = _ := calls_cons
    rw [← hcalls] at hnext
    refine ⟨⟨_, hnext⟩, fun hf => ?_⟩
    rw [hfacts.point hf]
    exact hnext

/-- The calls at a point are among the fixed ones, in their order. -/
theorem Begun.initial {calls : List ApiCall} {point : MainPoint}
    (hb : Begun realm calls point) : ∃ k, calls <+: (begun realm).take k ++ ending := by
  have htake : ∀ k, calls = (begun realm).take k → ∃ k, calls <+: (begun realm).take k ++ ending :=
    fun k hk => ⟨k, hk ▸ List.prefix_append _ _⟩
  have hending : (∃ k, calls = (begun realm).take k ++ ending.take 1) →
      ∃ k, calls <+: (begun realm).take k ++ ending := by
    rintro ⟨k, rfl⟩
    exact ⟨k, List.prefix_append_right_inj _ |>.mpr (List.take_prefix 1 ending)⟩
  cases point with
  | registering => exact htake 0 hb
  | wiring | attaching => exact htake 1 hb
  | connecting => exact htake 2 hb
  | connectFuture | connectWait | joining => exact htake 3 hb
  | joinFuture | joinWait | listening => exact htake 4 hb
  | listenWait => exact htake 5 hb
  | detaching =>
    obtain ⟨k, hk⟩ := hb
    exact htake k hk
  | running | releasingSession | releasingTransport => exact hending hb
  | joiningWorker | exited =>
    obtain ⟨k, rfl⟩ := hb
    exact ⟨k, List.prefix_rfl⟩

/-- The calls of `Leave` in a history. -/
def leaves (h : ClientHistory) : Nat := h.countP fun e => Client.isLeave e.action

/-- Only the signal handler calls `Leave`. -/
theorem isLeave_of_other {p : Program} {b : Action}
    (ha : ∀ caller, a ≠ .signal caller) (hb : p.clientAction text a = some b) :
    Client.isLeave b = false := by
  cases performs_of_clientAction hb with
  | leave caller => exact absurd rfl (ha caller)
  | call ec b next hc => cases hc <;> rfl
  | _ => rfl

private theorem leaves_of_other (ha : ∀ caller, a ≠ .signal caller) :
    leaves (clientHistory text (⟨p, a, o, p'⟩ :: h)) = leaves (clientHistory text h) := by
  unfold clientHistory
  cases hb : p.state.clientAction text a with
  | none =>
    have hview : view text ⟨p, a, o, p'⟩ = none := Option.map_eq_none_iff.mpr hb
    rw [List.filterMap_cons_none hview]
  | some b =>
    have hview : view text ⟨p, a, o, p'⟩ = some
        ⟨clientOf p, b, (outcomeOf p'.fault, o.2), clientOf p'⟩ := by
      simp only [view, hb, Option.map_some]
    rw [List.filterMap_cons_some hview]
    unfold leaves
    rw [List.countP_cons_of_neg (by simp [isLeave_of_other ha hb])]

private theorem leaves_le (hr : ProgramRun text realm h p) : leaves (clientHistory text h) ≤ 1 ∧
    (p.fault = none → p.state.signal = .awaited → leaves (clientHistory text h) = 0) := by
  induction hr with
  | nil => exact ⟨Nat.zero_le 1, fun _ _ => rfl⟩
  | @cons h p p' a o hr hs ih =>
    have hfacts := step_facts_of_run hr hs
    by_cases ha : ∃ caller, a = .signal caller
    · obtain ⟨caller, rfl⟩ := ha
      have hzero := ih.2 hfacts.running hfacts.enabled.2.2
      constructor
      · have hview : view text ⟨p, .signal caller, o, p'⟩ = some
            ⟨clientOf p, .leave (workerOf caller), (outcomeOf p'.fault, o.2), clientOf p'⟩ := rfl
        unfold clientHistory at hzero ⊢
        rw [List.filterMap_cons_some hview]
        unfold leaves at hzero ⊢
        rw [List.countP_cons, hzero]
        split <;> omega
      · intro hf hawaited
        rw [hfacts.signal hf] at hawaited
        cases hawaited
    · have hother : ∀ caller, a ≠ .signal caller := fun caller he => ha ⟨caller, he⟩
      rw [leaves_of_other hother]
      refine ⟨ih.1, fun hf hawaited => ih.2 hfacts.running ?_⟩
      rw [hfacts.signal hf] at hawaited
      cases a with
      | signal caller => exact absurd rfl (hother caller)
      | signalStop => cases hawaited
      | _ => exact hawaited

/-- Every run of the program is a run of the client, with the same objects, fault and frames. Apart
from one `Leave`, the client is called in the order of `main`: the calls of the try block up to the
one that throws, `Detach`, and the destructor. -/
theorem refines_client (hr : ProgramRun text realm h p) :
    ClientRun (clientHistory text h) (clientOf p) ∧
      emitted (clientHistory text h) = emitted h ∧
      (∃ k, calls (clientHistory text h) <+: (begun realm).take k ++ ending) ∧
      leaves (clientHistory text h) ≤ 1 := by
  obtain ⟨point, hbegun⟩ := (begun_of_run hr).1
  exact ⟨clientRun hr, emitted_clientHistory hr, hbegun.initial, (leaves_le hr).1⟩

/-- What a program does whose server never answers. -/
def unanswered : List ProgramAction :=
  List.replicate 5 (.main none) ++ [.onClientOpen] ++ List.replicate 4 (.main none) ++
    [.runDispatched .worker none] ++ List.replicate 6 (.main none) ++
    [.workerExit, .main none, .main none]

/-- A text that is read and written as the empty array. -/
def noText : JsonText := .single (.array []) (utf8 "[]")

/-- A program that times out in `Join` and exits has called everything but `Listen` and `Leave`. -/
theorem refines_client_unanswered : ∃ h p, ProgramRun noText (utf8 "realm") h p ∧
    p.state.point = .exited ∧ ClientRun (clientHistory noText h) (clientOf p) ∧
    calls (clientHistory noText h) = (begun (utf8 "realm")).take 4 ++ ending := by
  obtain ⟨h, p, hr, hc⟩ := exists_run_of_replay (step noText)
    { state := { realm := utf8 "realm" } } unanswered
    (fun h p => decide (p.state.point = .exited) &&
      decide (calls (clientHistory noText h) = (begun (utf8 "realm")).take 4 ++ ending)) (by decide)
  rw [Bool.and_eq_true, decide_eq_true_eq, decide_eq_true_eq] at hc
  exact ⟨h, p, hr, hc.1, (refines_client hr).1, hc.2⟩

end Program
end Barbarossa
