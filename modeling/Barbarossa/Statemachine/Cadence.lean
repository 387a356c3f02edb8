import Barbarossa.Statemachine.Answers

/-!
# What the handler thread hands over

One HELLO, and behind a WELCOME a PING for every thirty-first time that it finds the endpoint
registered.
-/

namespace Barbarossa
open Barbarossa.Base Barbarossa.Protocol

namespace WebsocketEndpoint

variable {text : JsonText} {h : EndpointHistory} {p p' : Process WebsocketEndpoint EndpointFault}
  {a : EndpointAction} {o : Outcome Exception EndpointFault PUnit × List EndpointEffect}

/-! ### The local variables -/

/-- `timeout` after an action. -/
def timeoutAfter (s : WebsocketEndpoint) : EndpointAction → Nat
  | .handler _ =>
    match s.handler with
    | .reading => if s.state = .registered ∧ s.timeout ≠ 30 then s.timeout + 1 else s.timeout
    | .pinging => 0
    | _ => s.timeout
  | _ => s.timeout

/-- `ec` after an action. -/
def ecAfter (s : WebsocketEndpoint) : EndpointAction → Option Bytes
  | .handler ec =>
    match s.handler with
    | .greeting | .pinging => ec
    | _ => s.ec
  | _ => s.ec

private theorem locals_handler {s : WebsocketEndpoint} {ec : Option Bytes} {x : EndpointM PUnit}
    (hx : handlerAt ec s.handler = some x) :
    (x s).state.timeout = s.timeoutAfter (.handler ec) ∧
      (x s).state.ec = s.ecAfter (.handler ec) := by
  unfold timeoutAfter ecAfter
  cases hh : s.handler with
  | reading =>
    rw [hh] at hx
    cases hx
    unfold handlerState
    cases hs : s.state with
    | registered => by_cases ht : s.timeout = 30 <;> simp [hs, ht, setHandler]
    | _ => simp [hs, setHandler]
  | checking =>
    rw [hh] at hx
    cases hx
    by_cases hc : s.ec.isSome = true ∨ s.done = true <;> simp [handlerCheck, setHandler, hc]
  | left =>
    rw [hh] at hx
    cases hx
  | _ =>
    rw [hh] at hx
    cases hx
    simp [handlerHello, handlerRecord, handlerPing, send, setState, setHandler]

private theorem locals_goOn {s : WebsocketEndpoint} {x : EndpointM PUnit}
    (hx : onMessageAt s.message = some x) :
    (x s).state.timeout = s.timeout ∧ (x s).state.ec = s.ec := by
  cases hm : s.message with
  | idle =>
    rw [hm] at hx
    cases hx
  | parsed m =>
    rw [hm] at hx
    cases hx
    rw [onMessageState_eq]
    split
    · split <;> exact ⟨rfl, rfl⟩
    · exact ⟨rfl, rfl⟩
  | _ =>
    rw [hm] at hx
    cases hx
    simp [onMessageRegister, onMessageClose, setState, setMessage]

/-- The local variables after a step. -/
theorem locals_step (hs : step text p a = some (o, p')) :
    p'.state.timeout = p.state.timeoutAfter a ∧ p'.state.ec = p.state.ecAfter a := by
  obtain ⟨-, x, hx, -, hstate, -⟩ := Process.step_eq_some hs
  rw [hstate]
  cases a with
  | handler ec => exact locals_handler hx
  | goOn => exact locals_goOn hx
  | onMessage payload =>
    obtain ⟨-, rfl⟩ := guard_eq_some hx
    cases hp : parse text payload <;> simp [onMessage, hp, setMessage, Exec.noexcept_apply,
      timeoutAfter, ecAfter]
  | onOpen | onClose | onFail =>
    obtain ⟨-, rfl⟩ := guard_eq_some hx
    exact ⟨rfl, rfl⟩

/-- A recorded step of an endpoint. -/
abbrev EndpointEntry :=
  Entry (Process WebsocketEndpoint EndpointFault) EndpointAction
    (Outcome Exception EndpointFault PUnit × List EndpointEffect)

/-! ### The frames -/

/-- The PING of `Handler`. -/
def pingFrame : Json := PingMessage.toJson {}

/-- The frame that was handed over. -/
def frame? : EndpointEffect → Option Json
  | .send frame => some frame
  | .close _ _ => none

/-- The frames of a history, oldest first. -/
def frames (h : EndpointHistory) : List Json := (emitted h).filterMap frame?

/-- The handler thread sends the HELLO. -/
def greets (e : EndpointEntry) : Bool :=
  match e.action with
  | .handler _ => decide (e.before.state.handler = .greeting)
  | _ => false

/-- The handler thread sends a PING. -/
def pings (e : EndpointEntry) : Bool :=
  match e.action with
  | .handler _ => decide (e.before.state.handler = .pinging)
  | _ => false

/-- The handler thread reads that the endpoint is registered. -/
def readsRegistered (e : EndpointEntry) : Bool :=
  e.before.state.readsState e.action && decide (e.before.state.state = .registered)

private theorem frames_step (hs : step text p a = some (o, p')) :
    o.2.filterMap frame? = (if greets ⟨p, a, o, p'⟩ then [helloFrame] else []) ++
      List.replicate (pings ⟨p, a, o, p'⟩).toNat pingFrame := by
  rw [(step_facts hs).output]
  cases a with
  | handler ec =>
    cases hh : p.state.handler <;> simp [outputAfter, greets, pings, hh, frame?, pingFrame]
  | goOn =>
    simp only [outputAfter, greets, pings]
    split <;> rfl
  | _ => rfl

/-! ### The order -/

/-- Before the HELLO nothing is under way that follows it. -/
structure Ungreeted (s : WebsocketEndpoint) : Prop where
  state : s.state ≠ .greeted ∧ s.state ≠ .registered
  handler : s.handler ≠ .recording ∧ s.handler ≠ .pinging

/-- Behind the HELLO nothing is under way that comes before it. -/
structure Greeted (s : WebsocketEndpoint) : Prop where
  connection : s.connection ≠ .connecting
  handler : s.handler ≠ .greeting
  connected : s.state = .connected → s.handler = .recording

/-- The handler thread greets once, on a connection that has opened. -/
structure Ordered (h : EndpointHistory) (s : WebsocketEndpoint) : Prop where
  connecting : s.connection = .connecting → s.state = .opened ∧ s.handler.greets = false
  ungreeted : h.any greets = false → s.Ungreeted ∧ h.countP pings = 0
  greeted : h.any greets = true → s.Greeted

/-- Where the handler thread goes when it does not greet: it greets next in the connected state
only, and sends a PING next in the registered state only. -/
theorem handlerAfter_of_not_greets {s : WebsocketEndpoint} (hh : s.handler.greets = false)
    (ec : Option Bytes) : s.handlerAfter (.handler ec) ≠ .recording ∧
      (s.handlerAfter (.handler ec) = .greeting → s.state = .connected) ∧
      (s.handlerAfter (.handler ec) = .pinging → s.state = .registered) := by
  unfold handlerAfter
  cases hpoint : s.handler with
  | reading =>
    dsimp only [handlerFrom]
    cases hstate : s.state with
    | registered =>
      dsimp only
      split <;> simp
    | _ => simp
  | greeting | recording =>
    rw [hpoint] at hh
    cases hh
  | checking =>
    dsimp only
    split <;> simp
  | _ => simp

private theorem Ordered.greeting {ec : Option Bytes} (hi : Ordered h p.state)
    (hs : step text p (.handler ec) = some (o, p')) (hgreets : p.state.handler.greets = true) :
    Ordered (⟨p, .handler ec, o, p'⟩ :: h) p'.state := by
  have hf := step_facts hs
  have hhandler : p'.state.handler = p.state.handlerAfter (.handler ec) := hf.handler
  have hstate : p'.state.state = p.state.stateAfter (.handler ec) := hf.state
  have hconnection : p'.state.connection = p.state.connection := hf.connection
  have hopen : p'.state.connection ≠ .connecting := by
    rw [hconnection]
    intro hc
    have hnot := (hi.connecting hc).2
    rw [hgreets] at hnot
    cases hnot
  cases hh : p.state.handler with
  | greeting =>
    have hnext : p'.state.handler = .recording := by rw [hhandler, handlerAfter, hh]
    refine ⟨fun hc => absurd hc hopen, fun hnone => ?_, fun _ => ?_⟩
    · simp [greets, hh] at hnone
    · exact ⟨hopen, by simp [hnext], fun _ => hnext⟩
  | recording =>
    have hnext : p'.state.handler = .checking := by rw [hhandler, handlerAfter, hh]
    refine ⟨fun hc => absurd hc hopen, fun hnone => ?_, fun _ => ?_⟩
    · rw [List.any_cons, Bool.or_eq_false_iff] at hnone
      exact absurd hh (hi.ungreeted hnone.2).1.handler.1
    · exact ⟨hopen, by simp [hnext], by simp [hstate, stateAfter, hh]⟩
  | _ =>
    rw [hh] at hgreets
    cases hgreets

private theorem Ordered.elsewhere {ec : Option Bytes} (hi : Ordered h p.state)
    (hs : step text p (.handler ec) = some (o, p')) (hgreets : p.state.handler.greets = false) :
    Ordered (⟨p, .handler ec, o, p'⟩ :: h) p'.state := by
  have hf := step_facts hs
  have hhandler : p'.state.handler = p.state.handlerAfter (.handler ec) := hf.handler
  have hstate : p'.state.state = p.state.stateAfter (.handler ec) := hf.state
  have hconnection : p'.state.connection = p.state.connection := hf.connection
  obtain ⟨hrecording, hgreeting, hpinging⟩ := handlerAfter_of_not_greets hgreets ec
  rw [← hhandler] at hrecording hgreeting hpinging
  rw [stateAfter_handler hgreets] at hstate
  have hany : (⟨p, .handler ec, o, p'⟩ :: h).any greets = h.any greets := by
    cases hh : p.state.handler with
    | greeting =>
      rw [hh] at hgreets
      cases hgreets
    | _ => simp [greets, hh]
  constructor
  · rw [hconnection, hstate]
    intro hc
    have hopened := (hi.connecting hc).1
    refine ⟨hopened, ?_⟩
    cases hnext : p'.state.handler with
    | greeting => simp [hgreeting hnext] at hopened
    | recording => exact absurd hnext hrecording
    | _ => rfl
  · rw [hany]
    intro hnone
    obtain ⟨hu, hzero⟩ := hi.ungreeted hnone
    refine ⟨⟨hstate ▸ hu.state, hrecording, fun hnext => hu.state.2 (hpinging hnext)⟩, ?_⟩
    simp [pings, hu.handler.2, hzero]
  · rw [hany]
    intro hsome
    have hg := hi.greeted hsome
    have hne : p.state.state ≠ .connected := by
      intro hc
      rw [hg.connected hc] at hgreets
      cases hgreets
    exact ⟨hconnection ▸ hg.connection, fun hnext => hne (hgreeting hnext),
      fun hc => absurd (hstate ▸ hc) hne⟩

private theorem Ordered.of_callback {e : EndpointEntry} {s s' : WebsocketEndpoint}
    (hi : Ordered h s) (hg : greets e = false) (hp : pings e = false)
    (hhandler : s'.handler = s.handler)
    (hconnection : s'.connection = .connecting →
      s.connection = .connecting ∧ s'.state = s.state)
    (hstate : s'.state = s.state ∨ s'.state = .disconnected ∨
      s'.state = .registered ∧ s.state = .greeted ∨
      s'.state = .connected ∧ s.connection = .connecting) :
    Ordered (e :: h) s' := by
  have hany : (e :: h).any greets = h.any greets := by simp [hg]
  constructor
  · intro hc
    obtain ⟨hold, hsame⟩ := hconnection hc
    rw [hsame, hhandler]
    exact hi.connecting hold
  · rw [hany]
    intro hnone
    obtain ⟨hu, hzero⟩ := hi.ungreeted hnone
    refine ⟨⟨?_, hhandler ▸ hu.handler⟩, by simp [hp, hzero]⟩
    rcases hstate with hsame | hnext | ⟨hnext, hold⟩ | ⟨hnext, -⟩
    · exact hsame ▸ hu.state
    · simp [hnext]
    · exact absurd hold hu.state.1
    · simp [hnext]
  · rw [hany]
    intro hsome
    have hg := hi.greeted hsome
    refine ⟨fun hc => hg.connection (hconnection hc).1, hhandler ▸ hg.handler, fun hc => ?_⟩
    rw [hhandler]
    rcases hstate with hsame | hnext | ⟨hnext, -⟩ | ⟨-, hold⟩
    · exact hg.connected (hsame ▸ hc)
    · simp [hnext] at hc
    · simp [hnext] at hc
    · exact absurd hold hg.connection

private theorem Ordered.step (hi : Ordered h p.state) (hrecorded : p.state.Recorded)
    (hs : WebsocketEndpoint.step text p a = some (o, p')) :
    Ordered (⟨p, a, o, p'⟩ :: h) p'.state := by
  have hf := step_facts hs
  have hconnection := hf.connection
  have hstate := hf.state
  cases a with
  | handler ec =>
    cases hgreets : p.state.handler.greets with
    | true => exact hi.greeting hs hgreets
    | false => exact hi.elsewhere hs hgreets
  | onOpen =>
    apply hi.of_callback rfl rfl hf.handler
    · simp [hconnection, connectionAfter]
    · exact .inr (.inr (.inr ⟨hstate, hf.enabled.1⟩))
  | onClose | onFail =>
    apply hi.of_callback rfl rfl hf.handler
    · simp [hconnection, connectionAfter]
    · exact .inr (.inl hstate)
  | onMessage payload =>
    apply hi.of_callback rfl rfl hf.handler
    · exact fun hc => ⟨hconnection.symm.trans hc, hstate⟩
    · exact .inl hstate
  | goOn =>
    by_cases hm : p.state.message = .registering
    · have hgreeted := hrecorded.registering hm
      rw [stateAfter, if_pos hm] at hstate
      apply hi.of_callback rfl rfl hf.handler
      · intro hc
        have hopened := (hi.connecting (hconnection.symm.trans hc)).1
        rw [hgreeted] at hopened
        cases hopened
      · exact .inr (.inr (.inl ⟨hstate, hgreeted⟩))
    · rw [stateAfter, if_neg hm] at hstate
      apply hi.of_callback rfl rfl hf.handler
      · exact fun hc => ⟨hconnection.symm.trans hc, hstate⟩
      · exact .inl hstate

/-- The order in a run. -/
theorem ordered (hr : EndpointRun text h p) : Ordered h p.state := by
  induction hr with
  | nil => exact ⟨fun _ => ⟨rfl, rfl⟩, fun _ => ⟨⟨by simp, by simp⟩, rfl⟩, fun hn => by cases hn⟩
  | cons hr hs ih => exact ih.step (recorded hr) hs

/-! ### The WELCOME -/

/-- A WELCOME was read that its class accepts. -/
def Welcomed (text : JsonText) (h : EndpointHistory) : Prop :=
  ∃ e ∈ h, ∃ payload m, e.action = .onMessage payload ∧ parse text payload = .ok m ∧
    answer? m = some .welcome ∧ decodes m .welcome = true

private theorem Welcomed.cons {e : EndpointEntry} (hw : Welcomed text h) :
    Welcomed text (e :: h) := by
  obtain ⟨d, hd, hwelcome⟩ := hw
  exact ⟨d, List.mem_cons_of_mem e hd, hwelcome⟩

private theorem reaction_cases {m : BasicMessage} {point : OnMessagePoint}
    (hm : reaction m = .ok point) :
    point = .registering ∧ answer? m = some .welcome ∧ decodes m .welcome = true ∨
      point = .closing := by
  unfold reaction at hm
  unfold answer? decodes
  cases ht : (BasicMessage.getMessageType m).outcome with
  | crashed f => exact f.elim
  | thrown e => simp [ht] at hm
  | value t =>
    rw [ht] at hm
    dsimp only at hm
    split at hm
    · next hw =>
      subst hw
      cases hget : (BasicMessage.get WelcomeMessage.fromJson
          (BasicMessage.getMessageType m).state).outcome with
      | value d =>
        simp only [hget, OnMessagePoint.afterGet, Except.ok.injEq] at hm
        exact .inl ⟨hm.symm, by simp, by simp [Outcome.isValue]⟩
      | thrown e => simp [hget, OnMessagePoint.afterGet] at hm
      | crashed u => simp [hget, OnMessagePoint.afterGet] at hm
    · split at hm
      · cases hget : (BasicMessage.get AbortMessage.fromJson
            (BasicMessage.getMessageType m).state).outcome with
        | value d =>
          simp only [hget, OnMessagePoint.afterGet, Except.ok.injEq] at hm
          exact .inr hm.symm
        | thrown e => simp [hget, OnMessagePoint.afterGet] at hm
        | crashed u => simp [hget, OnMessagePoint.afterGet] at hm
      · exact .inr (Except.ok.inj hm).symm

private theorem messageAfter_cases {s : WebsocketEndpoint} {point : OnMessagePoint}
    (hm : s.messageAfter text a = point) :
    point = s.message ∨ point = .idle ∨ point = .closing ∨
      (∃ payload m, a = .onMessage payload ∧ parse text payload = .ok m ∧ point = .parsed m) ∨
      ∃ m, s.message = .parsed m ∧ point = .registering ∧ answer? m = some .welcome ∧
        decodes m .welcome = true := by
  subst hm
  cases a with
  | onMessage payload =>
    simp only [messageAfter]
    split
    · next m hp => exact .inr (.inr (.inr (.inl ⟨payload, m, rfl, hp, rfl⟩)))
    · exact .inl rfl
  | goOn =>
    cases hpoint : s.message with
    | parsed m =>
      simp only [messageAfter, hpoint]
      split
      · split
        · next point hr =>
          rcases reaction_cases hr with ⟨rfl, hwelcome⟩ | rfl
          · exact .inr (.inr (.inr (.inr ⟨m, rfl, rfl, hwelcome⟩)))
          · exact .inr (.inr (.inl rfl))
        · exact .inl rfl
      · exact .inr (.inl rfl)
    | _ => exact .inr (.inl (by simp [messageAfter, hpoint]))
  | _ => exact .inl rfl

/-- What is behind a WELCOME. -/
structure Invited (text : JsonText) (h : EndpointHistory) (s : WebsocketEndpoint) : Prop where
  parsed : ∀ m, s.message = .parsed m → ∃ e ∈ h, ∃ payload,
    e.action = .onMessage payload ∧ parse text payload = .ok m
  registering : s.message = .registering → Welcomed text h
  registered : s.state = .registered → Welcomed text h
  pinging : s.handler = .pinging → Welcomed text h
  pinged : 0 < h.countP pings → Welcomed text h

private theorem Invited.registered_step (hi : Invited text h p.state)
    (hstate : p.state.stateAfter a = .registered) : Welcomed text h := by
  cases a with
  | handler ec =>
    simp only [stateAfter] at hstate
    split at hstate
    · cases hstate
    · exact hi.registered hstate
  | goOn =>
    by_cases hm : p.state.message = .registering
    · exact hi.registering hm
    · rw [stateAfter, if_neg hm] at hstate
      exact hi.registered hstate
  | onMessage payload => exact hi.registered hstate
  | _ => cases hstate

private theorem Invited.pinging_step (hi : Invited text h p.state)
    (hh : p.state.handlerAfter a = .pinging) : Welcomed text h := by
  cases a with
  | handler ec =>
    cases hgreets : p.state.handler.greets with
    | true =>
      cases hpoint : p.state.handler with
      | greeting | recording => simp [handlerAfter, hpoint] at hh
      | _ =>
        rw [hpoint] at hgreets
        cases hgreets
    | false => exact hi.registered ((handlerAfter_of_not_greets hgreets ec).2.2 hh)
  | _ => exact hi.pinging hh

private theorem Invited.step (hi : Invited text h p.state)
    (hs : WebsocketEndpoint.step text p a = some (o, p')) :
    Invited text (⟨p, a, o, p'⟩ :: h) p'.state := by
  have hf := step_facts hs
  constructor
  · intro m hm
    rcases messageAfter_cases hf.message.symm with hold | hidle | hclosing |
      ⟨payload, m', haction, hparse, hparsed⟩ | ⟨m', -, hregistering, -⟩
    · obtain ⟨d, hd, hread⟩ := hi.parsed m (hold.symm.trans hm)
      exact ⟨d, List.mem_cons_of_mem _ hd, hread⟩
    · cases hidle.symm.trans hm
    · cases hclosing.symm.trans hm
    · cases hparsed.symm.trans hm
      exact ⟨_, List.mem_cons_self, payload, haction, hparse⟩
    · cases hregistering.symm.trans hm
  · intro hm
    rcases messageAfter_cases hf.message.symm with hold | hidle | hclosing |
      ⟨payload, m', -, -, hparsed⟩ | ⟨m', hm', -, hwelcome⟩
    · exact (hi.registering (hold.symm.trans hm)).cons
    · cases hidle.symm.trans hm
    · cases hclosing.symm.trans hm
    · cases hparsed.symm.trans hm
    · obtain ⟨d, hd, payload, haction, hparse⟩ := hi.parsed m' hm'
      exact ⟨d, List.mem_cons_of_mem _ hd, payload, m', haction, hparse, hwelcome⟩
  · intro hstate
    exact (hi.registered_step (hf.state.symm.trans hstate)).cons
  · intro hh
    exact (hi.pinging_step (hf.handler.symm.trans hh)).cons
  · intro hpinged
    rw [List.countP_cons] at hpinged
    by_cases hp : pings ⟨p, a, o, p'⟩ = true
    · cases a with
      | handler ec => exact (hi.pinging (by simpa [pings] using hp)).cons
      | _ => cases hp
    · rw [if_neg hp] at hpinged
      exact (hi.pinged hpinged).cons

private theorem invited (hr : EndpointRun text h p) : Invited text h p.state := by
  induction hr with
  | nil => constructor <;> simp
  | cons _ hs ih => exact ih.step hs

/-! ### The pace -/

/-- Between two PINGs the handler thread reads thirty times more that the endpoint is registered. -/
structure Paced (h : EndpointHistory) (s : WebsocketEndpoint) : Prop where
  counted : h.countP readsRegistered =
    31 * h.countP pings + s.timeout + (decide (s.handler = .pinging)).toNat
  timeout : s.timeout ≤ 30
  pinging : s.handler = .pinging → s.timeout = 30

private theorem Paced.handler {ec : Option Bytes} (hi : Paced h p.state)
    (hs : step text p (.handler ec) = some (o, p')) :
    Paced (⟨p, .handler ec, o, p'⟩ :: h) p'.state := by
  have hhandler := (step_facts hs).handler
  have htimeout := (locals_step hs).1
  have hcounted := hi.counted
  have hbound := hi.timeout
  simp only [handlerAfter, timeoutAfter] at hhandler htimeout
  cases hh : p.state.handler with
  | reading =>
    simp only [hh, handlerFrom] at hhandler htimeout hcounted
    by_cases hstate : p.state.state = .registered
    · simp only [hstate, true_and, ne_eq, ite_not] at hhandler htimeout
      have hreads : readsRegistered ⟨p, .handler ec, o, p'⟩ = true := by
        simp [readsRegistered, readsState, hh, hstate]
      by_cases ht : p.state.timeout = 30
      · rw [if_pos ht] at hhandler htimeout
        constructor
        · simp [hreads, pings, hh, hhandler, htimeout] at hcounted ⊢
          omega
        · omega
        · exact fun _ => htimeout.trans ht
      · rw [if_neg ht] at hhandler htimeout
        constructor
        · simp [hreads, pings, hh, hhandler, htimeout] at hcounted ⊢
          omega
        · omega
        · simp [hhandler]
    · rw [if_neg (by simp [hstate])] at htimeout
      have hnext : p'.state.handler ≠ .pinging := by
        rw [hhandler]
        cases hs' : p.state.state with
        | registered => exact absurd hs' hstate
        | _ => simp
      constructor
      · simpa [readsRegistered, hstate, pings, hh, hnext, htimeout] using hcounted
      · omega
      · exact fun hp => absurd hp hnext
  | pinging =>
    have hfull := hi.pinging hh
    simp only [hh] at hhandler htimeout
    constructor
    · simp [readsRegistered, readsState, pings, hh, hhandler, htimeout] at hcounted ⊢
      omega
    · omega
    · simp [hhandler]
  | _ =>
    simp only [hh] at hhandler htimeout
    have hnext : p'.state.handler ≠ .pinging := by
      rw [hhandler]
      first | (split <;> simp) | simp
    constructor
    · simpa [readsRegistered, readsState, pings, hh, hnext, htimeout] using hcounted
    · omega
    · exact fun hp => absurd hp hnext

private theorem Paced.step (hi : Paced h p.state)
    (hs : WebsocketEndpoint.step text p a = some (o, p')) :
    Paced (⟨p, a, o, p'⟩ :: h) p'.state := by
  have hhandler := (step_facts hs).handler
  have htimeout := (locals_step hs).1
  cases a with
  | handler ec => exact hi.handler hs
  | _ =>
    constructor
    · rw [htimeout, hhandler]
      exact hi.counted
    · exact htimeout ▸ hi.timeout
    · exact fun hp => htimeout.trans (hi.pinging (hhandler.symm.trans hp))

private theorem paced (hr : EndpointRun text h p) : Paced h p.state := by
  induction hr with
  | nil => exact ⟨rfl, Nat.zero_le 30, fun hp => by cases hp⟩
  | cons _ hs ih => exact ih.step hs

private theorem ungreeted_of_greets (hr : EndpointRun text h p)
    (hg : greets ⟨p, a, o, p'⟩ = true) :
    h.any greets = false ∧ h.countP pings = 0 ∧ pings ⟨p, a, o, p'⟩ = false := by
  have hi := ordered hr
  cases a with
  | handler ec =>
    have hh : p.state.handler = .greeting := by simpa [greets] using hg
    have hnone : h.any greets = false := by
      cases hany : h.any greets with
      | true => exact absurd hh (hi.greeted hany).handler
      | false => rfl
    exact ⟨hnone, (hi.ungreeted hnone).2, by simp [pings, hh]⟩
  | _ => cases hg

private theorem frames_eq (hr : EndpointRun text h p) :
    frames h = (if h.any greets then [helloFrame] else []) ++
      List.replicate (h.countP pings) pingFrame := by
  induction hr with
  | nil => rfl
  | @cons h p p' a o hr hs ih =>
    unfold frames at ih ⊢
    rw [emitted_cons, List.filterMap_append, ih, frames_step hs]
    cases hg : greets ⟨p, a, o, p'⟩ with
    | true =>
      obtain ⟨hnone, hzero, hping⟩ := ungreeted_of_greets hr hg
      simp [hnone, hzero, hping, hg]
    | false =>
      simp only [List.any_cons, hg, Bool.false_or, List.nil_append, List.append_assoc,
        Bool.false_eq_true, if_false, List.replicate_append_replicate, List.countP_cons]
      cases pings ⟨p, a, o, p'⟩ <;> rfl

/-- What an endpoint hands over to the websocket client, whatever the server answers and however the
threads go: nothing, or the HELLO and behind it a PING for every thirty-first time that the handler
thread has read that the endpoint is registered. Before a PING the HELLO was handed over and a
WELCOME was read that its class accepts. -/
theorem frames_paced (hr : EndpointRun text h p) :
    ∃ n, frames h = (if h.any greets then [helloFrame] else []) ++ List.replicate n pingFrame ∧
      n = (h.countP readsRegistered - (decide (p.state.handler = .pinging)).toNat) / 31 ∧
      (0 < n → h.any greets = true ∧ Welcomed text h) := by
  refine ⟨h.countP pings, frames_eq hr, ?_, fun hn => ⟨?_, (invited hr).pinged hn⟩⟩
  · have hi := paced hr
    have hcounted := hi.counted
    have hbound := hi.timeout
    omega
  · cases hany : h.any greets with
    | true => rfl
    | false =>
      rw [((ordered hr).ungreeted hany).2] at hn
      exact absurd hn (Nat.lt_irrefl 0)

/-- What an endpoint does that is welcomed and sends its first PING. -/
def welcomed : List EndpointAction :=
  [.onOpen] ++ List.replicate 3 (.handler none) ++
    [.onMessage (utf8 "[2,7,\x7b\x7d]"), .goOn, .goOn] ++ List.replicate 63 (.handler none)

/-- The frames of an endpoint that was welcomed. -/
theorem frames_paced_welcomed : ∃ h p, EndpointRun welcomeText h p ∧
    frames h = [helloFrame, pingFrame] ∧ Welcomed welcomeText h := by
  obtain ⟨h, p, hr, hc⟩ := exists_run_of_replay (step welcomeText) { state := {} } welcomed
    (fun h p => h.any greets && decide (h.countP readsRegistered = 31) &&
      decide (p.state.handler ≠ .pinging)) (by decide)
  simp only [Bool.and_eq_true, decide_eq_true_eq] at hc
  obtain ⟨⟨hgreets, hreads⟩, hhandler⟩ := hc
  obtain ⟨n, hframes, hn, hwelcomed⟩ := frames_paced hr
  have hone : n = 1 := by simpa [hreads, hhandler] using hn
  subst hone
  rw [if_pos hgreets] at hframes
  exact ⟨h, p, hr, hframes, (hwelcomed Nat.one_pos).2⟩

end WebsocketEndpoint
end Barbarossa
