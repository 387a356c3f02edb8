import Barbarossa.Client.Balance
import Barbarossa.Program.Reasons

/-!
# The program on the wire

What the server sees of the program, in every run: the order of the frames, the replies to its
CALLs, and the balance of PINGs and PONGs.
-/

namespace Barbarossa
open Barbarossa.Base

namespace Program

variable {text : JsonText} {realm : Bytes} {h : ProgramHistory}
  {p p' : Process Program ProgramFault} {a : ProgramAction}
  {o : Outcome Exception ProgramFault PUnit × List Effect}

/-! ### The order of the frames -/

/-- The frames that a step of the program handed over. -/
def framesOf (e : ProgramEntry) : List (List Json) := e.output.2.filterMap Client.frame?

/-- The server gives the session an id. -/
def Welcomes (text : JsonText) (e : ProgramEntry) : Prop :=
  ∃ (payload : Bytes) (ec : Option Bytes) (m : Message) (sessionId : UInt32),
    e.action = .onClientMessage .text payload ec ∧
    text.parse payload = .ok (.array m.fields) ∧ m.received = .welcome (.ok sessionId) ∧
    e.after.state.client.session.sessionId ≠ 0

/-- A call of `Join`. -/
def isJoinCall : ApiCall → Bool
  | .join _ => true
  | _ => false

private theorem joinCount_eq (h : ClientHistory) :
    Client.joinCount h = (calls h).countP isJoinCall := by
  unfold Client.joinCount calls
  rw [List.countP_filterMap, List.countP_reverse]
  congr 1
  funext e
  cases e.action with
  | transport t b => cases b <;> rfl
  | _ => rfl

private theorem joinCount_le (hr : ProgramRun text realm h p) :
    Client.joinCount (clientHistory text h) ≤ 1 := by
  obtain ⟨point, hbegun⟩ := (begun_of_run hr).1
  obtain ⟨k, hinitial⟩ := hbegun.initial
  rw [joinCount_eq]
  have hcount := hinitial.sublist.countP_le (p := isJoinCall)
  have htake := (List.take_sublist k (begun realm)).countP_le (p := isJoinCall)
  have hbegun : (begun realm).countP isJoinCall = 1 := rfl
  have hending : ending.countP isJoinCall = 0 := rfl
  rw [List.countP_append] at hcount
  omega

private theorem realm_of_join (hr : ProgramRun text realm h p) {e : ClientEntry} {r : Bytes}
    (he : e ∈ clientHistory text h) (ha : e.action = .join r) : r = realm := by
  obtain ⟨point, hbegun⟩ := (begun_of_run hr).1
  obtain ⟨k, hinitial⟩ := hbegun.initial
  have hmem : ApiCall.join r ∈ calls (clientHistory text h) := by
    unfold calls
    exact List.mem_filterMap.mpr ⟨e, List.mem_reverse.mpr he, by rw [ha]; rfl⟩
  rcases List.mem_append.mp (hinitial.subset hmem) with hbegan | hended
  · have hcall := List.mem_of_mem_take hbegan
    simpa [begun] using hcall
  · simp [ending] at hended

private theorem view_of_frame (hr : ProgramRun text realm h p) (hs : step text p a = some (o, p'))
    {frame : List Json} (hf : frame ∈ framesOf ⟨p, a, o, p'⟩) :
    ∃ c, view text ⟨p, a, o, p'⟩ = some c ∧ frame ∈ Client.framesOf c := by
  cases hb : p.state.clientAction text a with
  | none =>
    unfold framesOf at hf
    rw [((step_facts_of_run hr hs).idle hb).2.1] at hf
    cases hf
  | some b =>
    refine ⟨⟨clientOf p, b, (outcomeOf p'.fault, o.2), clientOf p'⟩, ?_, hf⟩
    simp only [view, hb, Option.map_some]

private theorem mem_clientHistory {c : ClientEntry} (hc : c ∈ clientHistory text h) :
    ∃ e ∈ h, e.before.state.clientAction text e.action = some c.action ∧
      c.after = clientOf e.after ∧ c.output.2 = e.output.2 := by
  obtain ⟨e, he, hview⟩ := List.mem_filterMap.mp hc
  obtain ⟨b, hb, rfl⟩ := Option.map_eq_some_iff.mp hview
  exact ⟨e, he, hb, rfl, rfl⟩

private theorem framesOf_eq_nil (hr : ProgramRun text realm h p)
    (hnone : ∀ c ∈ clientHistory text h, Client.framesOf c = []) : ∀ e ∈ h, framesOf e = [] := by
  intro e he
  obtain ⟨older, hr', hs⟩ := hr.of_mem he
  rw [List.eq_nil_iff_forall_not_mem]
  intro frame hframe
  obtain ⟨c, hview, hf⟩ := view_of_frame hr' hs hframe
  rw [hnone c (List.mem_filterMap.mpr ⟨e, he, hview⟩)] at hf
  cases hf

/-- The frames of the program. The HELLO for the realm of its arguments is the first frame if it is
sent at all; every other frame is a PING or a reply, and is sent behind a WELCOME that gave the
session an id. -/
theorem speaks {newer older : ProgramHistory} {e : ProgramEntry}
    (hr : ProgramRun text realm (newer ++ e :: older) p) {frame : List Json}
    (hf : frame ∈ framesOf e) :
    frame = Client.helloFrame realm ∧ (∀ d ∈ older, framesOf d = []) ∨
    (frame = Client.pingFrame ∨ Client.isReply frame = true) ∧ ∃ d ∈ older, Welcomes text d := by
  obtain ⟨hr', hs⟩ := hr.of_append
  obtain ⟨c, hview, hframe⟩ := view_of_frame hr' hs hf
  have hclient := clientRun hr
  have hone := joinCount_le hr
  have hsplit : clientHistory text (newer ++ e :: older) =
      clientHistory text newer ++ c :: clientHistory text older := by
    unfold clientHistory
    rw [List.filterMap_append, List.filterMap_cons_some hview]
  rw [hsplit] at hclient hone
  rcases Client.turn_of_run hclient hone hframe with
    ⟨realm', rfl, ⟨d, hd, hjoin⟩, hnone⟩ | ⟨hother, d, hd, hwelcomes, hid⟩
  · left
    rw [realm_of_join hr' hd hjoin]
    exact ⟨rfl, framesOf_eq_nil hr' hnone⟩
  · refine .inr ⟨hother, ?_⟩
    obtain ⟨e, he, hb, hafter, -⟩ := mem_clientHistory hd
    rw [hafter] at hid
    have hsource := source_of_clientAction hb
    cases ha : d.action with
    | message t m ec =>
      rw [ha] at hwelcomes hsource
      obtain ⟨payload, haction, hparse⟩ := hsource
      simp only [Client.welcomes] at hwelcomes
      split at hwelcomes
      · next sessionId hr =>
        exact ⟨e, he, payload, ec, m, sessionId, haction, hparse, hr, hid⟩
      · cases hwelcomes
    | _ =>
      rw [ha] at hwelcomes
      cases hwelcomes

/-- A WELCOME with the id 7. -/
def welcomeText : JsonText := .single (.array [.integer 2, .integer 7]) (utf8 "[2,7]")

/-- What a program does that is welcomed and sends its first PING. -/
def welcomed : List ProgramAction :=
  unanswered.take 11 ++ [.onClientMessage .text (utf8 "[2,7]") none] ++
    List.replicate 3 (.main none) ++ [.hearbeat, .runDispatched .worker none]

/-- The PING of a program that was welcomed. -/
theorem speaks_ping : ∃ e older p, ProgramRun welcomeText (utf8 "realm") (e :: older) p ∧
    p.fault = none ∧ Client.pingFrame ∈ framesOf e ∧ ∃ d ∈ older, Welcomes welcomeText d := by
  obtain ⟨h, p, hr, hc⟩ := exists_run_of_replay (step welcomeText)
    { state := { realm := utf8 "realm" } } welcomed
    (fun h p => p.fault.isNone && h.head?.any fun e : ProgramEntry =>
      decide (Client.pingFrame ∈ framesOf e)) (by decide)
  rw [Bool.and_eq_true, Option.isNone_iff_eq_none] at hc
  obtain ⟨hf, hc⟩ := hc
  cases h with
  | nil => cases hc
  | cons e older =>
    have hping : Client.pingFrame ∈ framesOf e := by simpa using hc
    have hturn := @speaks _ _ _ [] _ _ hr _ hping
    rcases hturn with ⟨hhello, -⟩ | ⟨-, hwelcomed⟩
    · cases hhello
    · exact ⟨e, older, p, hr, hf, hping, hwelcomed⟩

/-! ### The replies -/

/-- The operations of the program behind its registration. -/
def operations (name : Bytes) : Option Operation :=
  if name = sayHelloName then some sayHello else none

/-- The reply of the program to a message: one to a CALL, none otherwise. -/
def answer (m : Message) : List (List Json) :=
  match m.received with
  | .call (.ok r) =>
    match operations r.operation with
    | none => [Session.errorFrame r.requestId]
    | some fn =>
      match fn r.arguments with
      | .ok result => [Session.resultFrame r.requestId result]
      | .error _ => []
  | _ => []

/-- The message that a step delivers to the session. -/
def delivered (text : JsonText) (e : ProgramEntry) : Option Message :=
  match e.before.state.clientAction text e.action with
  | some (.message _ m _) => some m
  | _ => none

private theorem operations_sessionAfter {c : Client} {b : Action}
    (hb : ∀ operation fn, b ≠ .registerOperation operation fn) :
    (c.sessionAfter b).operations = c.session.operations := by
  cases b with
  | registerOperation operation fn => exact absurd rfl (hb operation fn)
  | runDispatched ec =>
    simp only [Client.sessionAfter]
    split <;> simp
  | message t m ec => simp [Client.sessionAfter]
  | hearbeat => simp [Client.sessionAfter]
  | attach t | detach t =>
    simp only [Client.sessionAfter]
    split <;> rfl
  | _ => rfl

private theorem operations_of_run (hr : ProgramRun text realm h p) (hf : p.fault = none) :
    p.state.client.session.operations =
      if p.state.point = .registering then fun _ => none else operations := by
  refine invariant_of_running (fun _ p => p.client.session.operations =
    if p.point = .registering then fun _ => none else operations) rfl ?_ hr hf
  intro h p a o p' hr hrunning hi hs hf
  cases ha : isOther a with
  | true =>
    rw [point_of_other hr hs hf ha, ← hi]
    rcases client_after hr hs with hclient | ⟨b, hb, hsession, -⟩
    · rw [hclient]
    · rw [hsession]
      apply operations_sessionAfter
      rintro operation fn rfl
      have hcall := apiCall?_of_other (fun ec he => by rw [he] at ha; cases ha) hb
      cases hcall
  | false =>
    cases a with
    | main ec =>
      cases mainStep_of_step hr hs hf with
      | call b next hc hv hpoint hstopped =>
        rw [hpoint, hv.session]
        cases hc with
        | registerOperation hp =>
          rw [hp] at hi
          simp only [if_true] at hi
          simp only [Client.sessionAfter, hi]
          rfl
        | _ hp =>
          rw [hp] at hi
          rw [operations_sessionAfter (by intro operation fn he; cases he)]
          exact hi
      | returned next hc hclient hpoint hstopped =>
        rw [hpoint, hclient]
        generalize (none : Option Exception) = failure at hc
        cases hc with
        | _ r hp =>
          rw [hp] at hi
          exact hi
      | caught x next hc hhandled hclient hpoint hstopped =>
        rw [hpoint, hclient]
        generalize some x = failure at hc
        cases hc with
        | _ r hp =>
          rw [hp] at hi
          exact hi
      | move next hc hclient hpoint hstopped =>
        rw [hpoint, hclient]
        cases hc with
        | wiring hp | running hp | releasingSession hp | joiningWorker hp =>
          rw [hp] at hi
          exact hi
    | _ => cases ha

private theorem replies_of_value {net : Net} {s : Session} {m : Message}
    (hs : s.operations = operations) (hv : s.onMessageOutcome net m.received = .value ⟨⟩) :
    (s.onMessageOutput net m.received).filterMap Client.replyFrame? = answer m := by
  unfold answer
  cases hr : m.received with
  | call request =>
    rw [hr] at hv
    cases request with
    | error x => rfl
    | ok r =>
      simp only [Session.onMessageOutcome, Session.callOutcome, Session.onMessageOutput,
        Session.callOutput, hs] at hv ⊢
      cases ho : operations r.operation with
      | none =>
        rw [ho] at hv
        obtain ⟨t, ht⟩ := Client.sendOutput_of_value hv
        rw [ht]
        rfl
      | some fn =>
        rw [ho] at hv
        dsimp only at hv ⊢
        cases hfn : fn r.arguments with
        | error x =>
          rw [hfn] at hv
          cases hv
        | ok result =>
          rw [hfn] at hv
          dsimp only at hv ⊢
          split at hv
          · next hd =>
            obtain ⟨t, ht⟩ := Client.sendOutput_of_value hv
            rw [if_pos hd, ht]
            rfl
          · cases hv
  | _ => rfl

/-- A message is a CALL. -/
def isCall (m : Message) : Bool :=
  match m.received with
  | .call _ => true
  | _ => false

private theorem length_answer {net : Net} {s : Session} {m : Message}
    (hs : s.operations = operations) (hv : s.onMessageOutcome net m.received = .value ⟨⟩) :
    (answer m).length = (isCall m).toNat := by
  unfold answer isCall
  cases hr : m.received with
  | call request =>
    rw [hr] at hv
    cases request with
    | error x => cases hv
    | ok r =>
      simp only [Session.onMessageOutcome, Session.callOutcome, hs] at hv ⊢
      cases ho : operations r.operation with
      | none => rfl
      | some fn =>
        rw [ho] at hv
        dsimp only at hv ⊢
        cases hfn : fn r.arguments with
        | error x =>
          rw [hfn] at hv
          cases hv
        | ok result => rfl
  | _ => rfl

private theorem handled_of_delivered (hr : ProgramRun text realm h p)
    (hs : step text p a = some (o, p')) (hf : p'.fault = none) {m : Message}
    (hm : delivered text ⟨p, a, o, p'⟩ = some m) :
    ∃ net, p.state.client.session.operations = operations ∧
      p.state.client.session.onMessageOutcome net m.received = .value ⟨⟩ ∧
      o.2 = p.state.client.session.onMessageOutput net m.received := by
  have hrunning := (step_facts_of_run hr hs).running
  unfold delivered at hm
  cases hb : p.state.clientAction text a with
  | none => simp [hb] at hm
  | some b =>
    rw [hb] at hm
    cases b with
    | message t n ec =>
      obtain rfl := Option.some.inj hm
      have hstep := client_step_of_survived hr hs hf hb
      have htransport : t = transport := by
        cases performs_of_clientAction hb with
        | call ec' b next hc => cases hc
        | message payload ec' elements hparse => rfl
      subst htransport
      have hhandler : (p.state.client.transports transport).handler = some Client.self :=
        (Client.step_facts hstep).enabled
      have hoperations := operations_of_run hr hrunning
      rw [if_neg] at hoperations
      · exact ⟨_, hoperations, (Client.step_message hstep).symm, (Client.step_facts hstep).output⟩
      · intro hp
        rw [(placed hr hrunning).handler, hp] at hhandler
        cases hhandler
    | _ => cases hm

private theorem replies_step (hr : ProgramRun text realm h p) (hs : step text p a = some (o, p'))
    (hf : p'.fault = none) : o.2.filterMap Client.replyFrame? =
      (delivered text ⟨p, a, o, p'⟩).toList.flatMap answer := by
  cases hm : delivered text ⟨p, a, o, p'⟩ with
  | some m =>
    obtain ⟨net, hoperations, hv, houtput⟩ := handled_of_delivered hr hs hf hm
    rw [houtput, replies_of_value hoperations hv]
    simp
  | none =>
    cases hb : p.state.clientAction text a with
    | none =>
      rw [((step_facts_of_run hr hs).idle hb).2.1]
      rfl
    | some b =>
      obtain ⟨out, hstep, -⟩ := (step_facts_of_run hr hs).performs b hb
      have hbuilt := Client.built_of_mem_ioContext (clientRun hr)
      rw [clientOf_of_running (step_facts_of_run hr hs).running] at hbuilt
      cases b with
      | message t m ec => simp [delivered, hb] at hm
      | _ =>
        rw [Client.replies_step hstep hbuilt rfl]
        rfl

/-- The replies of a program that runs. Whatever the server sent and however the threads went, the
RESULT and ERROR frames are the answers to the CALLs that were delivered, in their order, and no
other message was replied to. Every CALL has its one answer: one that cannot be answered ends the
process. -/
theorem answers (hr : ProgramRun text realm h p) (hf : p.fault = none) :
    (emitted h).filterMap Client.replyFrame? =
        (h.reverse.filterMap (delivered text)).flatMap answer ∧
      ∀ m ∈ h.reverse.filterMap (delivered text), (answer m).length = (isCall m).toNat := by
  induction hr with
  | nil => exact ⟨rfl, fun m hm => by cases hm⟩
  | @cons h p p' a o hr hs ih =>
    obtain ⟨hreplies, hcalls⟩ := ih (step_facts_of_run hr hs).running
    have hnew : [(⟨p, a, o, p'⟩ : ProgramEntry)].filterMap (delivered text) =
        (delivered text ⟨p, a, o, p'⟩).toList := by
      cases hd : delivered text ⟨p, a, o, p'⟩ <;> simp [hd]
    rw [List.reverse_cons, List.filterMap_append, hnew]
    constructor
    · rw [emitted_cons, List.filterMap_append, hreplies, replies_step hr hs hf,
        List.flatMap_append]
    · intro m hm
      rcases List.mem_append.mp hm with hold | hlast
      · exact hcalls m hold
      · obtain ⟨net, hoperations, hv, -⟩ :=
          handled_of_delivered hr hs hf (Option.mem_toList.mp hlast)
        exact length_answer hoperations hv

/-- The texts of a server that welcomes the client, answers its PING and calls its operation. -/
def serverText : JsonText where
  dump _ := []
  parse payload :=
    if payload = utf8 "[2,7]" then .ok (.array [.integer 2, .integer 7])
    else if payload = utf8 "[5]" then .ok (.array [.integer 5])
    else if payload = utf8 "[10,1,\"say_hello\",null]" then
      .ok (.array [.integer 10, .integer 1, .string sayHelloName, .null])
    else .error (.parseError 101)

/-- The RESULT of a program that was called behind its WELCOME. -/
theorem answers_called : ∃ h p, ProgramRun serverText (utf8 "realm") h p ∧ p.fault = none ∧
    (emitted h).filterMap Client.replyFrame? =
      [Session.resultFrame 1 (greeting (utf8 "Hello World!"))] := by
  obtain ⟨h, p, hr, hc⟩ := exists_run_of_replay (step serverText)
    { state := { realm := utf8 "realm" } }
    (welcomed ++ [.onClientMessage .text (utf8 "[10,1,\"say_hello\",null]") none])
    (fun h p => p.fault.isNone &&
      decide ((h.reverse.filterMap (delivered serverText)).flatMap answer =
        [Session.resultFrame 1 (greeting (utf8 "Hello World!"))])) (by decide)
  rw [Bool.and_eq_true, Option.isNone_iff_eq_none, decide_eq_true_eq] at hc
  exact ⟨h, p, hr, hc.1, (answers hr hc.1).1.trans hc.2⟩

/-! ### The balance of PINGs and PONGs -/

/-- A PING is handed over. -/
def sendsPing (e : ProgramEntry) : Bool := (framesOf e).contains Client.pingFrame

/-- A PONG is delivered. -/
def hearsPong (text : JsonText) (e : ProgramEntry) : Bool :=
  match delivered text e with
  | some m =>
    match m.received with
    | .pong => true
    | _ => false
  | none => false

/-- The loop begins a cycle. -/
def beginsCycle (text : JsonText) (e : ProgramEntry) : Bool := (view text e).any Client.beginsCycle

private theorem balanced (hr : ProgramRun text realm h p) (hf : p.fault = none) :
    Client.Balanced (clientHistory text h) ⟨p.state.client, none⟩ := by
  refine invariant_of_running
    (fun h p => Client.Balanced (clientHistory text h) ⟨p.client, none⟩) ?_ ?_ hr hf
  · constructor <;> simp [clientHistory, Session.inCycle, pings]
  · intro h p a o p' hr hrunning hi hs hf
    unfold clientHistory
    cases hb : p.state.clientAction text a with
    | none =>
      rw [List.filterMap_cons_none (by simp only [view, hb]; rfl),
        ((step_facts_of_run hr hs).idle hb).1]
      exact hi
    | some b =>
      have hstep := client_step_of_survived hr hs hf hb
      have hclient := clientRun hr
      rw [clientOf_of_running hrunning] at hclient
      rw [List.filterMap_cons_some (b := ⟨⟨p.state.client, none⟩, b, (.value ⟨⟩, o.2),
        ⟨p'.state.client, none⟩⟩)]
      · exact hi.step hstep rfl (settled_of_run hr hrunning).once (Client.healthy hclient)
          (Client.built_of_mem_ioContext hclient)
      · simp only [view, hb, clientOf_of_running hrunning, clientOf_of_running hf, hf]
        rfl

private theorem countP_clientHistory {f : ClientEntry → Bool} {g : ProgramEntry → Bool}
    (hg : ∀ e ∈ h, g e = (view text e).any f) :
    (clientHistory text h).countP f = h.countP g := by
  unfold clientHistory
  rw [List.countP_filterMap]
  apply List.countP_congr
  intro e he
  rw [hg e he]
  cases view text e <;> simp

private theorem sendsPing_eq (hr : ProgramRun text realm h p) {e : ProgramEntry} (he : e ∈ h) :
    sendsPing e = (view text e).any Client.sendsPing := by
  obtain ⟨older, hr', hs⟩ := hr.of_mem he
  unfold sendsPing view
  cases hb : e.before.state.clientAction text e.action with
  | none =>
    unfold framesOf
    rw [((step_facts_of_run hr' hs).idle hb).2.1]
    rfl
  | some b => rfl

private theorem hearsPong_eq (e : ProgramEntry) :
    hearsPong text e = (view text e).any Client.hearsPong := by
  unfold hearsPong delivered view
  cases hb : e.before.state.clientAction text e.action with
  | none => rfl
  | some b => cases b <;> rfl

/-- The PINGs of a program that runs. Whatever the server sent and however the threads went, at most
one PING more was handed over than PONGs were delivered, and at most one PONG more was delivered
than the loop has begun cycles, each of which hands over one PING at most. -/
theorem balances (hr : ProgramRun text realm h p) (hf : p.fault = none) :
    h.countP sendsPing ≤ h.countP (hearsPong text) + 1 ∧
      h.countP (hearsPong text) ≤ h.countP (beginsCycle text) + 1 ∧
      h.countP sendsPing ≤ h.countP (beginsCycle text) := by
  have hi := balanced hr hf
  have hheld : p.state.client.session.pongReceived.offers.countP Client.isAlive ≤ 1 :=
    Nat.le_trans List.countP_le_length (settled_of_run hr hf).once.pong
  rw [← countP_clientHistory fun e he => sendsPing_eq hr he,
    ← countP_clientHistory fun e _ => hearsPong_eq e,
    ← countP_clientHistory (g := beginsCycle text) fun e _ => rfl]
  have hheard := hi.heard
  have hfinished := hi.finished_le
  have hbegun := hi.begun_le
  have hsent := hi.sent
  dsimp only at hheard hsent
  refine ⟨?_, ?_, ?_⟩ <;> omega

/-- What a program does that is welcomed, hears the PONG of its first cycle and begins the next. -/
def ponged : List ProgramAction :=
  welcomed ++ [.onClientMessage .text (utf8 "[5]") none] ++ List.replicate 5 .hearbeat ++
    [.runDispatched .worker none]

/-- A program that has sent its second PING behind the first PONG. -/
theorem balances_ponged : ∃ h p, ProgramRun serverText (utf8 "realm") h p ∧ p.fault = none ∧
    h.countP sendsPing = 2 ∧ 1 ≤ h.countP (hearsPong serverText) ∧
    2 ≤ h.countP (beginsCycle serverText) := by
  obtain ⟨h, p, hr, hc⟩ := exists_run_of_replay (step serverText)
    { state := { realm := utf8 "realm" } } ponged
    (fun h p => p.fault.isNone && decide (h.countP sendsPing = 2)) (by decide)
  rw [Bool.and_eq_true, Option.isNone_iff_eq_none, decide_eq_true_eq] at hc
  obtain ⟨hpongs, -, hbegins⟩ := balances hr hc.1
  rw [hc.2] at hpongs hbegins
  exact ⟨h, p, hr, hc.1, hc.2, Nat.le_of_succ_le_succ hpongs, hbegins⟩

end Program
end Barbarossa
