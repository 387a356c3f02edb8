import Barbarossa.Statemachine.Disconnection

/-!
# Answers to the HELLO

`OnMessage` looks at a WELCOME or an ABORT only in the greeted state, which the handler thread
writes after it has sent the HELLO. An answer that finds the state before that write, or an ABORT
behind a WELCOME, is dropped.
-/

namespace Barbarossa
open Barbarossa.Base Barbarossa.Protocol

namespace WebsocketEndpoint

variable {text : JsonText} {h : EndpointHistory} {p p' : Process WebsocketEndpoint EndpointFault}
  {a : EndpointAction} {o : Outcome Exception EndpointFault PUnit × List EndpointEffect}
  {m : BasicMessage} {t : MessageTypes}

/-- The type of a WELCOME or an ABORT. -/
def answer? (m : BasicMessage) : Option MessageTypes :=
  match (BasicMessage.getMessageType m).outcome with
  | .value t => if t = .welcome ∨ t = .abort then some t else none
  | _ => none

/-- The class of the answer's type reads the message. -/
def decodes (m : BasicMessage) (t : MessageTypes) : Bool :=
  if t = .welcome then (BasicMessage.get WelcomeMessage.fromJson
    (BasicMessage.getMessageType m).state).outcome.isValue
  else (BasicMessage.get AbortMessage.fromJson
    (BasicMessage.getMessageType m).state).outcome.isValue

/-- The answer with which `OnMessage` comes to the state. -/
def answerOf (s : WebsocketEndpoint) : EndpointAction → Option (BasicMessage × MessageTypes)
  | .goOn =>
    match s.message with
    | .parsed m => (answer? m).map fun t => (m, t)
    | _ => none
  | _ => none

/-- The handler thread hands the HELLO to the client, which takes it. -/
def sendsHello (s : WebsocketEndpoint) : EndpointAction → Bool
  | .handler none => decide (s.handler = .greeting)
  | _ => false

/-- The HELLO was sent. -/
def helloSent (h : EndpointHistory) : Bool := h.any fun e => e.before.state.sendsHello e.action

/-- The HELLO was sent before the last message arrived. -/
def arrivedBehindHello : EndpointHistory → Bool
  | [] => false
  | e :: h =>
    match e.action with
    | .onMessage _ => helloSent h
    | _ => arrivedBehindHello h

/-- Only the handler thread goes on. -/
def HandlerOnly (_ : EndpointHistory) (_ : Process WebsocketEndpoint EndpointFault) :
    EndpointAction → Prop
  | .handler _ => True
  | _ => False

/-- No callback starts. -/
def NoCallback (_ : EndpointHistory) (_ : Process WebsocketEndpoint EndpointFault) :
    EndpointAction → Prop
  | .handler _ | .goOn => True
  | _ => False

/-- The `OnMessage` of an answer of type `t`, which comes to the state in `p`, goes on to its end
whatever the handler thread does: a WELCOME leaves the endpoint registered, an ABORT requests a
close. -/
structure TakesEffect (text : JsonText) (t : MessageTypes)
    (p : Process WebsocketEndpoint EndpointFault) : Prop where
  goesOn : ∀ h p', Run (step text) p h p' → Meets NoCallback h →
    p'.fault = none ∧ (p'.state.message ≠ .idle → ∃ o p'', step text p' .goOn = some (o, p''))
  registers : t = .welcome → ∀ h p', Run (step text) p h p' → Meets NoCallback h →
    p'.state.message = .idle → p'.state.state = .registered
  closes : t = .abort → ∀ h p', Run (step text) p h p' → Meets NoCallback h →
    p'.state.message = .idle → ∃ e ∈ h, .close 1001 [] ∈ e.output.2

/-- A message that can be parsed waits for `OnMessage` to come to the state, whatever the handler
thread does before; an answer that arrived after the HELLO was sent takes effect then. -/
structure AnswerTakesEffect (text : JsonText) (h : EndpointHistory) (e : Entry
    (Process WebsocketEndpoint EndpointFault) EndpointAction
    (Outcome Exception EndpointFault PUnit × List EndpointEffect)) : Prop where
  awaited : ∀ payload m, e.action = .onMessage payload → parse text payload = .ok m →
    ∀ h' p', Run (step text) e.after h' p' → Meets HandlerOnly h' →
      p'.state.message = .parsed m ∧ ∃ o p'', step text p' .goOn = some (o, p'')
  taken : ∀ m t, e.before.state.answerOf e.action = some (m, t) → arrivedBehindHello h = true →
    TakesEffect text t e.before

/-- Every answer that arrives after the HELLO was sent takes effect. -/
def AnswersTakeEffect (text : JsonText) : EndpointHistory → Prop
  | [] => True
  | e :: h => AnswerTakesEffect text h e ∧ AnswersTakeEffect text h

/-- An answer finds the endpoint greeted and is read by its class, or it is a WELCOME and the
endpoint is registered. -/
def heeds (s : WebsocketEndpoint) (a : EndpointAction) : Bool :=
  (s.answerOf a).all fun x =>
    decide (x.2 = .welcome) && decide (s.state = .registered) ||
      decide (s.state = .greeted) && decodes x.1 x.2

/-- Where `OnMessage` comes to the state with an answer that arrived after the HELLO was sent, it is
heeded. -/
def KeepsAnswers (h : EndpointHistory) (p : Process WebsocketEndpoint EndpointFault)
    (a : EndpointAction) : Prop :=
  arrivedBehindHello h = true → p.state.heeds a = true

instance (h : EndpointHistory) (p : Process WebsocketEndpoint EndpointFault)
    (a : EndpointAction) : Decidable (KeepsAnswers h p a) :=
  inferInstanceAs (Decidable (_ → _))

/-! ### The reaction to an answer -/

/-- An answer is a WELCOME or an ABORT. -/
theorem answer?_cases (ht : answer? m = some t) :
    (BasicMessage.getMessageType m).outcome = .value t ∧ (t = .welcome ∨ t = .abort) := by
  unfold answer? at ht
  split at ht
  · next t' htype =>
    obtain ⟨hcases, he⟩ := Option.ite_none_right_eq_some.mp ht
    cases he
    exact ⟨htype, hcases⟩
  · cases ht

/-- Where the handling of an answer goes on. -/
def answered (t : MessageTypes) : OnMessagePoint := if t = .welcome then .registering else .closing

private theorem afterGet_cases {α : Type} (point : OnMessagePoint)
    (x : Outcome Exception Undefined α) :
    (x.isValue = true → point.afterGet x = .ok point) ∧
      (x.isValue = false → ∃ f, point.afterGet x = .error f) := by
  cases x <;> simp [Outcome.isValue, OnMessagePoint.afterGet]

/-- `OnMessage` goes on with an answer that its class reads, and any other ends the process. -/
theorem reaction_of_answer (ht : answer? m = some t) :
    (decodes m t = true → reaction m = .ok (answered t)) ∧
      (decodes m t = false → ∃ f, reaction m = .error f) := by
  obtain ⟨htype, rfl | rfl⟩ := answer?_cases ht
  · unfold reaction decodes answered
    simp only [htype, ite_true]
    exact afterGet_cases _ _
  · have hne : MessageTypes.abort ≠ .welcome := by decide
    unfold reaction decodes answered
    simp only [htype, if_neg hne, ite_true]
    exact afterGet_cases _ _

/-! ### The handler thread after the greeting -/

/-- Messages are handled while the connection is live, and once the state says that the HELLO was
sent, the handler thread does not write it again. -/
structure Recorded (s : WebsocketEndpoint) : Prop where
  live : s.message ≠ .idle → s.connection = .live
  handler : s.connection = .live → s.state = .greeted ∨ s.state = .registered →
    s.handler.greets = false
  registering : s.message = .registering → s.state = .greeted

private theorem ne_connected {s : WebsocketEndpoint}
    (hs : s.state = .greeted ∨ s.state = .registered) : s.state ≠ .connected := by
  rcases hs with hs | hs <;> simp [hs]

private theorem registering_after {s : WebsocketEndpoint}
    (hm : s.messageAfter text .goOn = .registering) :
    s.state = .greeted ∧ s.message ≠ .registering := by
  cases hpoint : s.message with
  | parsed m =>
    by_cases hs : s.state = .greeted
    · exact ⟨hs, by simp⟩
    · simp [messageAfter, hpoint, hs] at hm
  | _ => simp [messageAfter, hpoint] at hm

/-- The handler thread stays behind its greeting. -/
theorem Recorded.step (hi : p.state.Recorded)
    (hs : WebsocketEndpoint.step text p a = some (o, p')) : p'.state.Recorded := by
  have hf := step_facts hs
  have henabled := hf.enabled
  constructor
  · rw [hf.message, hf.connection]
    intro hm
    cases a with
    | handler ec => exact hi.live hm
    | goOn => exact hi.live henabled
    | onOpen => rfl
    | onMessage payload => exact henabled.1
    | onClose | onFail => exact absurd henabled.2 hm
  · rw [hf.connection, hf.state, hf.handler]
    intro hlive hstate
    cases a with
    | handler ec =>
      by_cases hr : p.state.handler = .recording
      · simp [handlerAfter, hr, HandlerPoint.greets]
      · rw [stateAfter, if_neg hr] at hstate
        exact greets_handlerAfter (ne_connected hstate) (hi.handler hlive hstate) ec
    | goOn =>
      apply hi.handler hlive
      by_cases hr : p.state.message = .registering
      · exact .inl (hi.registering hr)
      · rwa [stateAfter, if_neg hr] at hstate
    | onOpen => rcases hstate with hstate | hstate <;> cases hstate
    | onClose | onFail => cases hlive
    | onMessage payload => exact hi.handler hlive hstate
  · rw [hf.message, hf.state]
    intro hm
    cases a with
    | handler ec =>
      rw [stateAfter]
      split
      · rfl
      · exact hi.registering hm
    | goOn =>
      obtain ⟨hstate, hne⟩ := registering_after hm
      rw [stateAfter, if_neg hne]
      exact hstate
    | onMessage payload =>
      simp only [messageAfter, henabled.2] at hm
      split at hm <;> cases hm
    | onOpen | onClose | onFail =>
      have hidle : p.state.message = .registering := hm
      rw [henabled.2] at hidle
      cases hidle

/-- What is recorded in a run. -/
theorem recorded (hr : EndpointRun text h p) : p.state.Recorded := by
  refine hr.invariant (fun _ p => p.state.Recorded) ⟨?_, ?_, ?_⟩
    fun _ _ _ _ _ hi hs => hi.step hs
  · intro hm
    exact absurd rfl hm
  · intro hlive
    cases hlive
  · intro hm
    cases hm

/-! ### An answer on its way -/

/-- Where the `OnMessage` of an answer that takes effect stands. -/
inductive Underway (m : BasicMessage) (t : MessageTypes) (h : EndpointHistory)
    (s : WebsocketEndpoint) : Prop
  | read (hm : s.message = .parsed m) (hs : s.state = .greeted) (hd : decodes m t = true)
  | reacting (hm : s.message = answered t) (hs : s.state = .greeted)
  | repeated (ht : t = .welcome) (hm : s.message = .parsed m) (hs : s.state = .registered)
  | welcomed (ht : t = .welcome) (hm : s.message = .idle) (hs : s.state = .registered)
  | aborted (ht : t = .abort) (hm : s.message = .idle) (hs : s.state = .greeted)
      (hclose : ∃ e ∈ h, .close 1001 [] ∈ e.output.2)

private theorem Underway.recorded {s : WebsocketEndpoint} (hu : Underway m t h s) :
    s.state = .greeted ∨ s.state = .registered := by
  cases hu with
  | read _ hs _ | reacting _ hs | aborted _ _ hs _ => exact .inl hs
  | repeated _ _ hs | welcomed _ _ hs => exact .inr hs

private theorem Underway.of_same {s s' : WebsocketEndpoint} {e : Entry
      (Process WebsocketEndpoint EndpointFault) EndpointAction
      (Outcome Exception EndpointFault PUnit × List EndpointEffect)}
    (hu : Underway m t h s) (hstate : s'.state = s.state) (hmessage : s'.message = s.message) :
    Underway m t (e :: h) s' := by
  cases hu with
  | read hm hs hd => exact .read (hmessage.trans hm) (hstate.trans hs) hd
  | reacting hm hs => exact .reacting (hmessage.trans hm) (hstate.trans hs)
  | repeated ht hm hs => exact .repeated ht (hmessage.trans hm) (hstate.trans hs)
  | welcomed ht hm hs => exact .welcomed ht (hmessage.trans hm) (hstate.trans hs)
  | aborted ht hm hs hclose =>
    obtain ⟨e', he', hx⟩ := hclose
    exact .aborted ht (hmessage.trans hm) (hstate.trans hs) ⟨e', List.mem_cons_of_mem _ he', hx⟩

private theorem Underway.goOn (ht : answer? m = some t) (hu : Underway m t h p.state)
    (hs : step text p .goOn = some (o, p')) :
    p'.fault = none ∧ Underway m t (⟨p, .goOn, o, p'⟩ :: h) p'.state := by
  have hf := step_facts hs
  cases hu with
  | read hm hstate hd =>
    have hr := (reaction_of_answer ht).1 hd
    refine ⟨?_, .reacting ?_ ?_⟩
    · simp [hf.fault, faultAfter, hm, hstate, hr]
    · simp [hf.message, messageAfter, hm, hstate, hr]
    · simp [hf.state, stateAfter, hm, hstate]
  | reacting hm hstate =>
    rcases (answer?_cases ht).2 with rfl | rfl
    · have hm : p.state.message = .registering := hm
      refine ⟨?_, .welcomed rfl ?_ ?_⟩
      · simp [hf.fault, faultAfter, hm]
      · simp [hf.message, messageAfter, hm]
      · simp [hf.state, stateAfter, hm]
    · have hm : p.state.message = .closing := hm
      refine ⟨?_, .aborted rfl ?_ ?_ ⟨_, List.mem_cons_self, ?_⟩⟩
      · simp [hf.fault, faultAfter, hm]
      · simp [hf.message, messageAfter, hm]
      · simp [hf.state, stateAfter, hm, hstate]
      · simp [hf.output, outputAfter, hm]
  | repeated hw hm hstate =>
    refine ⟨?_, .welcomed hw ?_ ?_⟩
    · simp [hf.fault, faultAfter, hm, hstate]
    · simp [hf.message, messageAfter, hm, hstate]
    · simp [hf.state, stateAfter, hm, hstate]
  | welcomed _ hm _ => exact absurd hm hf.enabled
  | aborted _ hm _ _ => exact absurd hm hf.enabled

private theorem Underway.of_idle {s : WebsocketEndpoint} (hu : Underway m t h s)
    (hidle : s.message = .idle) : t = .welcome ∧ s.state = .registered ∨
      t = .abort ∧ ∃ e ∈ h, .close 1001 [] ∈ e.output.2 := by
  cases hu with
  | read hm _ _ =>
    rw [hm] at hidle
    cases hidle
  | reacting hm _ =>
    rw [hm, answered] at hidle
    split at hidle <;> cases hidle
  | repeated _ hm _ =>
    rw [hm] at hidle
    cases hidle
  | welcomed ht _ hs => exact .inl ⟨ht, hs⟩
  | aborted ht _ _ hclose => exact .inr ⟨ht, hclose⟩

private theorem underway_of_run {h₀ : EndpointHistory} (ht : answer? m = some t)
    (hf : p.fault = none) (hh : p.state.handler.greets = false)
    (hu : Underway m t h₀ p.state) (hr : Run (step text) p h p') (hm : Meets NoCallback h) :
    p'.fault = none ∧ p'.state.handler.greets = false ∧ Underway m t (h ++ h₀) p'.state := by
  refine hr.invariant_of_meets NoCallback (fun h q => q.fault = none ∧
    q.state.handler.greets = false ∧ Underway m t (h ++ h₀) q.state) ⟨hf, hh, hu⟩ ?_ hm
  rintro h s a o s' ⟨-, hh, hu⟩ ha hs
  have hfacts := step_facts hs
  cases a with
  | handler ec =>
    refine ⟨hfacts.fault, ?_, hu.of_same ?_ hfacts.message⟩
    · rw [hfacts.handler]
      exact greets_handlerAfter (ne_connected hu.recorded) hh ec
    · exact hfacts.state.trans (stateAfter_handler hh ec)
  | goOn =>
    obtain ⟨hfault, hu'⟩ := hu.goOn ht hs
    exact ⟨hfault, (congrArg HandlerPoint.greets hfacts.handler).trans hh, hu'⟩
  | _ => exact ha.elim

private theorem Underway.takesEffect (ht : answer? m = some t) (hf : p.fault = none)
    (hh : p.state.handler.greets = false) (hu : Underway m t [] p.state) :
    TakesEffect text t p := by
  constructor
  · intro h p' hr hm
    obtain ⟨hf', -, -⟩ := underway_of_run ht hf hh hu hr hm
    exact ⟨hf', exists_step_goOn hf'⟩
  · rintro rfl h p' hr hm hidle
    obtain ⟨-, -, hu'⟩ := underway_of_run ht hf hh hu hr hm
    rcases hu'.of_idle hidle with ⟨-, hs⟩ | ⟨hne, -⟩
    · exact hs
    · cases hne
  · rintro rfl h p' hr hm hidle
    obtain ⟨-, -, hu'⟩ := underway_of_run ht hf hh hu hr hm
    rcases hu'.of_idle hidle with ⟨hne, -⟩ | ⟨-, hclose⟩
    · cases hne
    · simpa using hclose

/-! ### An answer that is dropped -/

private theorem not_takesEffect (ht : answer? m = some t) (hf : p.fault = none)
    (hm : p.state.message = .parsed m)
    (hw : ¬ (t = .welcome ∧ p.state.state = .registered))
    (hd : ¬ (p.state.state = .greeted ∧ decodes m t = true)) : ¬ TakesEffect text t p := by
  intro htakes
  obtain ⟨o, p', hs⟩ := @exists_step_goOn text _ hf (by simp [hm])
  have hfacts := step_facts hs
  have hmeets : Meets NoCallback [⟨p, .goOn, o, p'⟩] := ⟨trivial, trivial⟩
  by_cases hstate : p.state.state = .greeted
  · -- The class throws, which ends the process.
    have hdecodes : decodes m t = false := by simpa [hstate] using hd
    obtain ⟨f, hr⟩ := (reaction_of_answer ht).2 hdecodes
    have hfault := (htakes.goesOn _ _ (.cons .nil hs) hmeets).1
    simp [hfacts.fault, faultAfter, hm, hstate, hr] at hfault
  · have hidle : p'.state.message = .idle := by
      simp [hfacts.message, messageAfter, hm, hstate]
    rcases (answer?_cases ht).2 with rfl | rfl
    · have hregistered := htakes.registers rfl _ _ (.cons .nil hs) hmeets hidle
      simp only [hfacts.state, stateAfter, hm] at hregistered
      exact hw ⟨rfl, by simpa using hregistered⟩
    · obtain ⟨e, he, hclose⟩ := htakes.closes rfl _ _ (.cons .nil hs) hmeets hidle
      cases List.mem_singleton.mp he
      simp [hfacts.output, outputAfter, hm] at hclose

private theorem answerOf_cases {s : WebsocketEndpoint} (ha : s.answerOf a = some (m, t)) :
    a = .goOn ∧ s.message = .parsed m ∧ answer? m = some t := by
  cases a with
  | goOn =>
    simp only [answerOf] at ha
    split at ha
    · next m' hm =>
      obtain ⟨t', ht, he⟩ := Option.map_eq_some_iff.mp ha
      cases he
      exact ⟨rfl, hm, ht⟩
    · cases ha
  | _ => cases ha

private theorem heeds_iff {s : WebsocketEndpoint} (ha : s.answerOf a = some (m, t)) :
    s.heeds a = true ↔
      t = .welcome ∧ s.state = .registered ∨ s.state = .greeted ∧ decodes m t = true := by
  simp [heeds, ha]

/-- An answer takes effect exactly when it is heeded where `OnMessage` comes to the state. -/
theorem takesEffect_iff (hr : EndpointRun text h p) (hf : p.fault = none)
    (ha : p.state.answerOf a = some (m, t)) :
    TakesEffect text t p ↔ p.state.heeds a = true := by
  rw [heeds_iff ha]
  obtain ⟨rfl, hm, ht⟩ := answerOf_cases ha
  constructor
  · intro htakes
    by_contra hnot
    obtain ⟨hw, hd⟩ := not_or.mp hnot
    exact not_takesEffect ht hf hm hw hd htakes
  · intro hheeds
    have hrecorded : p.state.state = .greeted ∨ p.state.state = .registered := by
      rcases hheeds with ⟨-, hs⟩ | ⟨hs, -⟩
      · exact .inr hs
      · exact .inl hs
    have hi := recorded hr
    have hh : p.state.handler.greets = false :=
      hi.handler (hi.live (by simp [hm])) hrecorded
    rcases hheeds with ⟨hw, hs⟩ | ⟨hs, hd⟩
    · exact (Underway.repeated hw hm hs).takesEffect ht hf hh
    · exact (Underway.read hm hs hd).takesEffect ht hf hh

private theorem parsed_of_run (hf : p.fault = none) (hm : p.state.message = .parsed m)
    (hr : Run (step text) p h p') (honly : Meets HandlerOnly h) :
    p'.fault = none ∧ p'.state.message = .parsed m := by
  refine hr.invariant_of_meets HandlerOnly
    (fun _ q => q.fault = none ∧ q.state.message = .parsed m) ⟨hf, hm⟩ ?_ honly
  rintro h s a o s' ⟨-, hm⟩ ha hs
  have hfacts := step_facts hs
  cases a with
  | handler ec => exact ⟨hfacts.fault, hfacts.message.trans hm⟩
  | _ => exact ha.elim

/-- In a run, every answer after the HELLO takes effect exactly when each one is heeded where
`OnMessage` comes to the state. -/
theorem answers_take_effect_iff (hr : EndpointRun text h p) :
    AnswersTakeEffect text h ↔ Meets KeepsAnswers h := by
  induction hr with
  | nil => exact Iff.rfl
  | @cons h p p' a o hr hs ih =>
    have hf := step_facts hs
    refine and_congr ?_ ih
    constructor
    · intro htakes harrived
      cases ha : p.state.answerOf a with
      | none => simp [heeds, ha]
      | some x => exact (takesEffect_iff hr hf.running ha).mp (htakes.taken x.1 x.2 ha harrived)
    · intro hkeeps
      constructor
      · rintro payload m rfl hparse h' p'' hr' honly
        have hfault : p'.fault = none := by simp [hf.fault, faultAfter, hparse]
        have hm : p'.state.message = .parsed m := by simp [hf.message, messageAfter, hparse]
        obtain ⟨hfault', hm'⟩ := parsed_of_run hfault hm hr' honly
        exact ⟨hm', exists_step_goOn hfault' (by simp [hm'])⟩
      · exact fun m t ha harrived => (takesEffect_iff hr hf.running ha).mpr (hkeeps harrived)

/-- The WELCOME `[2, 7, \x7b\x7d]`. -/
def welcomeText : JsonText :=
  .single (WelcomeMessage.toJson { sessionId := 7 }) (utf8 "[2,7,\x7b\x7d]")

/-- A WELCOME that arrives when the handler thread has recorded its HELLO. -/
theorem answers_take_effect_registered : ∃ h p, EndpointRun welcomeText h p ∧
    AnswersTakeEffect welcomeText h ∧ arrivedBehindHello h = true ∧
    p.state.state = .registered := by
  obtain ⟨h, p, hr, hc⟩ := exists_run_of_replay (step welcomeText) { state := {} }
    [.onOpen, .handler none, .handler none, .handler none,
      .onMessage (utf8 "[2,7,\x7b\x7d]"), .goOn, .goOn]
    (fun h p => decide (Meets KeepsAnswers h) && arrivedBehindHello h &&
      decide (p.state.state = .registered)) (by decide)
  simp only [Bool.and_eq_true, decide_eq_true_eq] at hc
  exact ⟨h, p, hr, (answers_take_effect_iff hr).mpr hc.1.1, hc.1.2, hc.2⟩

/-- A WELCOME that is read between the HELLO and the write of the greeted state is dropped. -/
theorem not_answers_take_effect : ¬ ∀ text h p, EndpointRun text h p →
    AnswersTakeEffect text h := by
  intro hall
  obtain ⟨h, p, hr, hc⟩ := exists_run_of_replay (step welcomeText) { state := {} }
    [.onOpen, .handler none, .handler none, .onMessage (utf8 "[2,7,\x7b\x7d]"), .goOn]
    (fun h _ => arrivedBehindHello h.tail && h.head?.any fun e =>
      (e.before.state.answerOf e.action).any fun x => decide (x.2 = MessageTypes.welcome) &&
        decide (e.before.state.state = ControlChannelStates.connected)) (by decide)
  simp only [Bool.and_eq_true, Option.any_eq_true, decide_eq_true_eq] at hc
  obtain ⟨harrived, e, hhead, ⟨m, t⟩, ha, rfl, hstate⟩ := hc
  obtain ⟨older, rfl⟩ := List.head?_eq_some_iff.mp hhead
  have htakes := (hall _ _ p hr).1.taken m .welcome ha harrived
  obtain ⟨-, hm, ht⟩ := answerOf_cases ha
  cases hr with
  | cons _ hs =>
    dsimp only at hstate
    exact not_takesEffect ht (step_facts hs).running hm (by simp [hstate]) (by simp [hstate])
      htakes

end WebsocketEndpoint
end Barbarossa
