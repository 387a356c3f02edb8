import Barbarossa.Program.Exit
import Barbarossa.Program.Settled

/-!
# Why the program gives up

`main` catches an exception of one of its calls and goes on to its end. Each such exception has come
through a promise from another thread, or is a wait that ran out, so its cause is found earlier in
the run.
-/

namespace Barbarossa
open Barbarossa.Base

namespace Client

variable {c : Client} {b : Action}

private theorem abort_of_joinOffers {x : Exception} (h : .error x ∈ c.joinOffers b)
    (hx : Program.handled x = true) : ∃ t m ec reason, b = .message t m ec ∧
      m.received = .abort (.ok reason) ∧ x = .abortError reason := by
  cases b with
  | message t m ec =>
    have hoffer : c.session.joinOffer m.received = some (.error x) := by simpa [joinOffers] using h
    cases hr : m.received with
    | welcome id =>
      rw [hr] at hoffer
      cases id with
      | error e => cases hoffer
      | ok id =>
        simp only [Session.joinOffer, Option.ite_none_right_eq_some] at hoffer
        cases hoffer.2
    | abort reason =>
      rw [hr] at hoffer
      cases reason with
      | error e => cases hoffer
      | ok reason =>
        cases hoffer
        exact ⟨t, m, ec, reason, rfl, hr, rfl⟩
    | _ =>
      rw [hr] at hoffer
      cases hoffer
  | runDispatched ec =>
    simp only [joinOffers] at h
    split at h
    · split at h
      · cases List.mem_singleton.mp h
        cases hx
      · split at h
        · cases List.mem_singleton.mp h
          cases hx
        · cases h
    · cases h
  | _ => cases h

private theorem source_of_leaveOffers {x : Exception} (h : .error x ∈ c.leaveOffers b)
    (hx : Program.handled x = true) :
    (∃ ec, b = .runDispatched ec) ∧ c.failure = some (.error x) ∨
      b = .hearbeat ∧ c.session.verdict = some (.error x) := by
  have hoffer := Option.mem_toList.mp h
  cases b with
  | leave worker => cases hoffer
  | message t m ec =>
    simp only [leaveOffer] at hoffer
    split at hoffer
    · cases hoffer
      cases hx
    · cases hoffer
  | runDispatched ec => exact .inl ⟨⟨ec, rfl⟩, hoffer⟩
  | hearbeat => exact .inr ⟨rfl, hoffer⟩
  | _ => cases hoffer

private theorem fail_of_connectOffers {t : TransportId} {x : Exception}
    (h : .error x ∈ c.connectOffers t b) : b = .transport t .onClientFail ∧
      x = .networkError ErrorMessages.transportConnectionFailed := by
  cases b with
  | transport u d =>
    simp only [connectOffers] at h
    split at h
    · next hu =>
      subst hu
      cases d with
      | onClientOpen => cases List.mem_singleton.mp h
      | onClientFail =>
        simp only [WebSocketTransport.connectOffers] at h
        split at h
        · cases h
        · cases List.mem_singleton.mp h
          exact ⟨rfl, rfl⟩
      | _ => cases h
    · cases h
  | _ => cases h

end Client

namespace Program

variable {text : JsonText} {realm : Bytes} {h : ProgramHistory}
  {p p' : Process Program ProgramFault} {a : ProgramAction}
  {o : Outcome Exception ProgramFault PUnit × List Effect}

/-! ### Where an action of the client comes from -/

/-- The actions of the program that perform what another thread than the main thread does. -/
def Source (text : JsonText) (a : ProgramAction) : Action → Prop
  | .message _ m ec => ∃ payload, a = .onClientMessage .text payload ec ∧
      text.parse payload = .ok (.array m.fields)
  | .runDispatched ec => (∃ caller, a = .runDispatched caller ec) ∨ a = .pingFailed
  | .hearbeat => a = .hearbeat
  | .transport _ .onClientFail => ∃ caller, a = .onClientFail caller
  | _ => True

/-- An action of the client that another thread performs comes from one of its actions. -/
theorem source_of_clientAction {p : Program} {b : Action} (hb : p.clientAction text a = some b) :
    Source text a b := by
  cases performs_of_clientAction hb with
  | call ec b next hc => cases hc <;> trivial
  | message payload ec elements hparse => exact ⟨payload, rfl, hparse⟩
  | runDispatched caller ec => exact .inl ⟨caller, rfl⟩
  | pingFailed => exact .inr rfl
  | onClientFail caller => exact ⟨caller, rfl⟩
  | hearbeat => rfl
  | _ => trivial

/-- What a step leaves of the client. -/
theorem client_after (hr : ProgramRun text realm h p) (hs : step text p a = some (o, p')) :
    p'.state.client = p.state.client ∨ ∃ b, p.state.clientAction text a = some b ∧
      p'.state.client.session = p.state.client.sessionAfter b ∧
      p'.state.client.transports transport = p.state.client.transportAfter transport b := by
  cases hb : p.state.clientAction text a with
  | none => exact .inl ((step_facts_of_run hr hs).idle hb).1
  | some b =>
    obtain ⟨out, hstep, -⟩ := (step_facts_of_run hr hs).performs b hb
    exact .inr ⟨b, rfl, (Client.step_facts hstep).session, Client.transports_step hstep transport⟩

/-- The lambda of a PING fails to send it, with `x`. -/
def FailsPing (e : ProgramEntry) (x : Exception) : Prop :=
  ∃ caller ec, e.action = .runDispatched caller ec ∧
    e.before.state.client.pingError (.runDispatched ec) = some x

private theorem failsPing_of_pingError (hr : ProgramRun text realm h p)
    (hs : step text p a = some (o, p')) {ec : Option Bytes} {x : Exception}
    (hb : p.state.clientAction text a = some (.runDispatched ec))
    (hx : p.state.client.pingError (.runDispatched ec) = some x) : FailsPing ⟨p, a, o, p'⟩ x := by
  rcases source_of_clientAction hb with ⟨caller, rfl⟩ | rfl
  · exact ⟨caller, ec, rfl, hx⟩
  · -- The rest of a lambda sends nothing.
    have hfailure := (step_facts_of_run hr hs).enabled.2
    simp only [Client.failure] at hfailure
    split at hfailure
    · next hq => simp [Client.pingError, hq] at hx
    · cases hfailure

private theorem failsPing_of_failure (hr : ProgramRun text realm h p) :
    ∀ r, p.state.client.failure = some r →
      ∃ e ∈ h, ∃ x, FailsPing e x ∧ r = .error x.copyNetworkError := by
  induction hr with
  | nil =>
    intro r hr
    cases hr
  | @cons h p p' a o hr hs ih =>
    intro r hfailure
    have hold : p.state.client.failure = some r → ∃ e ∈ (⟨p, a, o, p'⟩ : ProgramEntry) :: h,
        ∃ x, FailsPing e x ∧ r = .error x.copyNetworkError := by
      intro hfailure
      obtain ⟨e, he, hx⟩ := ih r hfailure
      exact ⟨e, List.mem_cons_of_mem _ he, hx⟩
    rcases client_after hr hs with hclient | ⟨b, hb, hsession, -⟩
    · rw [hclient] at hfailure
      exact hold hfailure
    · have hfront := Client.restsInFront_of_run (clientRun hr)
      rw [Client.failure_sessionAfter hsession hfront] at hfailure
      cases b with
      | runDispatched ec =>
        dsimp only at hfailure
        split at hfailure
        · cases hfailure
        · obtain ⟨x, hx, hr'⟩ := Option.map_eq_some_iff.mp hfailure
          exact ⟨_, List.mem_cons_self, x, failsPing_of_pingError hr hs hb hx, hr'.symm⟩
      | _ => exact hold hfailure

/-! ### The reasons -/

/-- The causes in a history of the exceptions that `main` catches. -/
inductive Reason (text : JsonText) (h : ProgramHistory) : Exception → Prop
  /-- The connection failed. -/
  | failed (he : ∃ e ∈ h, fails e.action = true) : Reason text h connectionFailed
  /-- The server answered the HELLO with an ABORT. -/
  | aborted (payload : Bytes) (ec : Option Bytes) (m : Message) (reason : Bytes)
      (he : ∃ e ∈ h, e.action = .onClientMessage .text payload ec)
      (hparse : text.parse payload = .ok (.array m.fields))
      (hreason : m.received = .abort (.ok reason)) : Reason text h (.abortError reason)
  /-- The wait of `Join` ran out. -/
  | unanswered (he : ∃ e ∈ h, isOther e.action = false ∧ e.before.state.point = .joinWait ∧
      e.before.state.client.session.joined.offers = []) : Reason text h .timeoutError
  /-- The wait of the heartbeat loop ran out. -/
  | silent (he : ∃ e ∈ h, e.action = .hearbeat ∧
      e.before.state.client.session.hearbeatThread = some .expired ∧
      e.before.state.client.session.pongReceived.offers = []) : Reason text h .timeoutError
  /-- A PING could not be sent. -/
  | unsent (x : Exception) (he : ∃ e ∈ h, FailsPing e x) : Reason text h x.copyNetworkError
  /-- A PING could not be sent, and before its lambda could tell so the heartbeat loop took the
  false promise for a PONG that did not come. -/
  | mistaken (he : ∃ e ∈ h, ∃ x, FailsPing e x)
      (hd : ∃ d ∈ h, d.action = .hearbeat ∧
        d.before.state.client.session.hearbeatThread = some .judging ∧
        d.before.state.client.session.pongReceived.offers = [.ok false] ∧
        d.before.state.client.session.leaved.offers = []) : Reason text h .timeoutError

/-- A cause stays one. -/
theorem Reason.cons {x : Exception} (e : ProgramEntry) (hreason : Reason text h x) :
    Reason text (e :: h) x := by
  cases hreason with
  | failed he =>
    obtain ⟨d, hd, ha⟩ := he
    exact .failed ⟨d, List.mem_cons_of_mem e hd, ha⟩
  | aborted payload ec m reason he hparse hreason =>
    obtain ⟨d, hd, ha⟩ := he
    exact .aborted payload ec m reason ⟨d, List.mem_cons_of_mem e hd, ha⟩ hparse hreason
  | unanswered he =>
    obtain ⟨d, hd, ha⟩ := he
    exact .unanswered ⟨d, List.mem_cons_of_mem e hd, ha⟩
  | silent he =>
    obtain ⟨d, hd, ha⟩ := he
    exact .silent ⟨d, List.mem_cons_of_mem e hd, ha⟩
  | unsent x he =>
    obtain ⟨d, hd, ha⟩ := he
    exact .unsent x ⟨d, List.mem_cons_of_mem e hd, ha⟩
  | mistaken he hd =>
    obtain ⟨b, hb, hx⟩ := he
    obtain ⟨d, hd, ha⟩ := hd
    exact .mistaken ⟨b, List.mem_cons_of_mem e hb, hx⟩ ⟨d, List.mem_cons_of_mem e hd, ha⟩

private theorem not_mem_init {α : Type} {r : Except Exception α} {p : Promise Exception α}
    (hp : p = {}) : r ∉ p.offers := by
  rw [hp]
  exact List.not_mem_nil

private theorem aborted_of_offered {x : Exception} (hr : ProgramRun text realm h p)
    (hoffered : .error x ∈ p.state.client.session.joined.offers) (hx : handled x = true) :
    Reason text h x ∧ x ≠ .timeoutError := by
  obtain ⟨e, he, hnot, hafter⟩ := hr.exists_becomes
    (P := fun p => .error x ∈ p.state.client.session.joined.offers) (not_mem_init rfl) hoffered
  obtain ⟨older, hr', hs⟩ := hr.of_mem he
  rcases client_after hr' hs with hclient | ⟨b, hb, hsession, -⟩
  · rw [hclient] at hafter
    exact absurd hafter hnot
  · rw [hsession, Client.offers_sessionAfter] at hafter
    have hnew := (List.mem_append.mp hafter).resolve_left hnot
    obtain ⟨t, m, ec, reason, rfl, hreason, rfl⟩ := Client.abort_of_joinOffers hnew hx
    obtain ⟨payload, ha, hparse⟩ := source_of_clientAction hb
    exact ⟨.aborted payload ec m reason ⟨e, he, ha⟩ hparse hreason, by simp⟩

private theorem unanswered_of_timeout (hr : ProgramRun text realm h p)
    (htimeout : p.state.client.joins[mainCall]? = some (.finished (.error .timeoutError))) :
    Reason text h .timeoutError := by
  obtain ⟨e, he, hnot, hafter⟩ := hr.exists_becomes
    (P := fun p => p.state.client.joins[mainCall]? = some (.finished (.error .timeoutError)))
    (fun hinit => by cases hinit) htimeout
  obtain ⟨older, hr', hs⟩ := hr.of_mem he
  cases hb : e.before.state.clientAction text e.action with
  | none =>
    rw [((step_facts_of_run hr' hs).idle hb).1] at hafter
    exact absurd hafter hnot
  | some b =>
    obtain ⟨out, hstep, -⟩ := (step_facts_of_run hr' hs).performs b hb
    have henabled : e.before.state.client.Enabled b := (Client.step_facts hstep).enabled
    have hjoins : e.after.state.client.joins = e.before.state.client.joinsAfter b :=
      (Client.step_facts hstep).joins
    rw [hjoins] at hafter
    have hfirst := isFirst_of_clientAction hb
    cases b with
    | joinTimeout i =>
      obtain rfl : i = mainCall := by simpa [Client.isFirst] using hfirst
      refine .unanswered ⟨e, he, ?_⟩
      have hperforms := performs_of_clientAction hb
      generalize e.action = a at hperforms
      cases hperforms with
      | call ec b next hc =>
        cases hc with
        | joinTimeout hp => exact ⟨rfl, hp, henabled.2⟩
    | join realm =>
      simp only [Client.joinsAfter] at hafter
      rcases Client.getElem?_append_first hafter with hold | ⟨-, heq⟩
      · exact absurd hold hnot
      · cases heq
    | joinFuture i =>
      obtain rfl : i = mainCall := by simpa [Client.isFirst] using hfirst
      simp only [Client.joinsAfter] at hafter
      rw [Client.getElem?_set_first henabled] at hafter
      split at hafter <;> cases hafter
    | joinReady i =>
      obtain rfl : i = mainCall := by simpa [Client.isFirst] using hfirst
      simp only [Client.joinsAfter] at hafter
      split at hafter
      · next r hresult =>
        rw [Client.getElem?_set_first henabled.1] at hafter
        cases hafter
        exact absurd rfl (aborted_of_offered hr' (List.mem_of_mem_head? hresult) rfl).2
      · exact absurd hafter hnot
    | _ => exact absurd hafter hnot

private theorem running_of_mem (hr : ProgramRun text realm h p) (hf : p.fault = none) :
    ∀ e ∈ h, e.after.fault = none := by
  induction hr with
  | nil => exact fun e he => by cases he
  | cons hr hs ih =>
    intro e he
    rcases List.mem_cons.mp he with rfl | he
    · exact hf
    · exact ih (step_facts_of_run hr hs).running e he

private theorem silent_of_false (hr : ProgramRun text realm h p) (hf : p.fault = none)
    (hfalse : .ok false ∈ p.state.client.session.pongReceived.offers) :
    (∃ e ∈ h, ∃ x, FailsPing e x) ∨
    ∃ e ∈ h, e.action = .hearbeat ∧
      e.before.state.client.session.hearbeatThread = some .expired ∧
      e.before.state.client.session.pongReceived.offers = [] := by
  obtain ⟨e, he, hnot, hafter⟩ := hr.exists_becomes
    (P := fun p => .ok false ∈ p.state.client.session.pongReceived.offers) (not_mem_init rfl)
    hfalse
  obtain ⟨older, hr', hs⟩ := hr.of_mem he
  rcases client_after hr' hs with hclient | ⟨b, hb, hsession, -⟩
  · rw [hclient] at hafter
    exact absurd hafter hnot
  · rw [hsession, Client.pong_offers_after] at hafter
    split at hafter
    · cases hafter
    · have hnew := (List.mem_append.mp hafter).resolve_left hnot
      have haccepts := accepts_of_survived hr' hs (running_of_mem hr hf e he) hb
      cases b with
      | message t m ec =>
        simp only [Client.pongOffers] at hnew
        split at hnew
        · cases List.mem_singleton.mp hnew
        · cases hnew
      | runDispatched ec =>
        left
        obtain ⟨x, hx, -⟩ := Option.map_eq_some_iff.mp (Option.mem_toList.mp hnew)
        exact ⟨e, he, x, failsPing_of_pingError hr' hs hb hx⟩
      | hearbeat =>
        right
        have hpong := haccepts.pong.unsatisfied (List.ne_nil_of_mem hnew)
        simp only [Client.pongOffers] at hnew
        split at hnew
        · next ht => exact ⟨e, he, source_of_clientAction hb, ht, hpong⟩
        · cases hnew
      | _ => cases hnew

private theorem reason_of_left {x : Exception} (hr : ProgramRun text realm h p)
    (hf : p.fault = none) (hoffered : .error x ∈ p.state.client.session.leaved.offers)
    (hx : handled x = true) : Reason text h x := by
  obtain ⟨e, he, hnot, hafter⟩ := hr.exists_becomes
    (P := fun p => .error x ∈ p.state.client.session.leaved.offers) (not_mem_init rfl) hoffered
  have hrunning := running_of_mem hr hf e he
  obtain ⟨newer, older, rfl⟩ := List.append_of_mem he
  obtain ⟨hr', hs⟩ := hr.of_append
  have hbefore := (step_facts_of_run hr' hs).running
  have hmem : ∀ d ∈ older, d ∈ newer ++ e :: older := fun d hd =>
    List.mem_append_right _ (List.mem_cons_of_mem e hd)
  rcases client_after hr' hs with hclient | ⟨b, hb, hsession, -⟩
  · rw [hclient] at hafter
    exact absurd hafter hnot
  · rw [hsession, Client.leaved_offers_after] at hafter
    have hnew := (List.mem_append.mp hafter).resolve_left hnot
    have haccepts := accepts_of_survived hr' hs hrunning hb
    have hopen := haccepts.leaved.unsatisfied (List.ne_nil_of_mem hnew)
    rcases Client.source_of_leaveOffers hnew hx with ⟨-, hfailure⟩ | ⟨rfl, hverdict⟩
    · obtain ⟨d, hd, y, hfails, hy⟩ := failsPing_of_failure hr' _ hfailure
      cases hy
      exact .unsent y ⟨d, hmem d hd, hfails⟩
    · have hhealthy : e.before.state.client.session.Healthy := Client.healthy (clientRun hr')
      unfold Session.verdict at hverdict
      split at hverdict
      · next hjudging hresult =>
        cases hverdict
        rcases silent_of_false hr' hbefore (List.mem_of_mem_head? hresult) with
          ⟨d, hd, hfails⟩ | ⟨d, hd, hsilent⟩
        · have hfalse := Promise.offers_of_result (settled_of_run hr' hbefore).once.pong hresult
          exact .mistaken ⟨d, hmem d hd, hfails⟩
            ⟨e, he, source_of_clientAction hb, hjudging, hfalse, hopen⟩
        · exact .silent ⟨d, hmem d hd, hsilent⟩
      · next y hjudging hresult =>
        obtain ⟨alive, halive⟩ := hhealthy.alive _ (List.mem_of_mem_head? hresult)
        cases halive
      · cases hverdict

private theorem failed_of_offered {x : Exception} (hr : ProgramRun text realm h p)
    (hoffered : .error x ∈ (p.state.client.transports transport).connected.offers) :
    Reason text h x := by
  obtain ⟨e, he, hnot, hafter⟩ := hr.exists_becomes
    (P := fun p => .error x ∈ (p.state.client.transports transport).connected.offers)
    (not_mem_init rfl) hoffered
  obtain ⟨older, hr', hs⟩ := hr.of_mem he
  rcases client_after hr' hs with hclient | ⟨b, hb, -, htransport⟩
  · rw [hclient] at hafter
    exact absurd hafter hnot
  · rw [htransport, Client.connected_offers_after] at hafter
    have hnew := (List.mem_append.mp hafter).resolve_left hnot
    obtain ⟨rfl, rfl⟩ := Client.fail_of_connectOffers hnew
    obtain ⟨caller, ha⟩ := source_of_clientAction hb
    exact .failed ⟨e, he, by rw [ha]; rfl⟩

private theorem reason_of_return {x : Exception} {next : MainPoint}
    (hr : ProgramRun text realm h p) (hf : p.fault = none)
    (hc : MainReturn p.state (some x) next) (hx : handled x = true) : Reason text h x := by
  have hreports := (settled_of_run hr hf).reports
  generalize hfailure : some x = failure at hc
  cases hc with
  | connect r hp hcall =>
    cases r with
    | ok r => cases hfailure
    | error e =>
      cases hfailure
      rcases hreports.connect.reported (.error x) (by rw [hcall]; rfl) with
        ⟨y, hoffers, rfl⟩ | hfalse
      · exact failed_of_offered hr (by rw [hoffers]; exact List.mem_singleton_self _)
      · exact absurd hfalse id
  | join r hp hcall =>
    cases r with
    | ok r => cases hfailure
    | error e =>
      cases hfailure
      rcases hreports.join.reported (.error x) (by rw [hcall]; rfl) with
        ⟨y, hoffers, rfl⟩ | htimeout
      · exact (aborted_of_offered hr (by rw [hoffers]; exact List.mem_singleton_self _) hx).1
      · cases htimeout
        exact unanswered_of_timeout hr hcall
  | listen r hp hcall =>
    cases r with
    | ok r => cases hfailure
    | error e =>
      cases hfailure
      rcases hreports.listen.reported (.error x) (by rw [hcall]; rfl) with
        ⟨y, hoffers, he⟩ | hfalse
      · cases y with
        | ok y => cases he
        | error y =>
          cases he
          exact reason_of_left hr hf (by rw [hoffers]; exact List.mem_singleton_self _) hx
      · exact absurd hfalse id

/-! ### Once -/

end Program

namespace MainPoint

/-- The try block is over. -/
def behindTry : MainPoint → Bool
  | .detaching | .running | .releasingSession | .releasingTransport | .joiningWorker
  | .exited => true
  | _ => false

end MainPoint

namespace Program

variable {text : JsonText} {realm : Bytes} {h : ProgramHistory}
  {p p' : Process Program ProgramFault} {a : ProgramAction}
  {o : Outcome Exception ProgramFault PUnit × List Effect}

private theorem statement_of_return {p : Program} {failure : Option Exception} {next : MainPoint}
    (ec : Option Bytes) (hc : MainReturn p failure next) :
    p.statement ec = .returned failure next := by
  unfold statement
  cases hc with
  | connect r hp hr | join r hp hr | listen r hp hr =>
    rw [hp]
    dsimp only
    rw [hr]
    rfl

private theorem not_behindTry_of_return {p : Program} {failure : Option Exception}
    {next : MainPoint} (hc : MainReturn p failure next) : p.point.behindTry = false := by
  rcases waits_of_return hc with hp | hp | hp <;>
  · rw [hp]
    rfl

private theorem behindTry_step (hr : ProgramRun text realm h p)
    (hs : step text p a = some (o, p')) (hf : p'.fault = none)
    (hp : p.state.point.behindTry = true) : p'.state.point.behindTry = true := by
  cases ha : isOther a with
  | true => rwa [point_of_other hr hs hf ha]
  | false =>
    cases a with
    | main ec =>
      cases mainStep_of_step hr hs hf with
      | call b next hc hb hpoint hstopped =>
        rw [hpoint]
        cases hc with
        | detach hp' | destroy hp' | destroyJoined hp' => rfl
        | _ hp' =>
          rw [hp'] at hp
          cases hp
      | returned next hc hclient hpoint hstopped =>
        rw [not_behindTry_of_return hc] at hp
        cases hp
      | caught x next hc hhandled hclient hpoint hstopped =>
        rw [hpoint]
        rfl
      | move next hc hclient hpoint hstopped =>
        rw [hpoint]
        cases hc with
        | wiring hp' =>
          rw [hp'] at hp
          cases hp
        | _ => rfl
    | _ => cases ha

private theorem behindTry_of_caught (hr : ProgramRun text realm h p) (hf : p.fault = none) :
    ∀ e ∈ h, ∀ x, Catches e x → p.state.point.behindTry = true := by
  refine invariant_of_running
    (fun h p => ∀ e ∈ h, ∀ x, Catches e x → p.point.behindTry = true) ?_ ?_ hr hf
  · exact fun e he => by cases he
  · intro h p a o p' hr hrunning hi hs hf e he x hc
    rcases List.mem_cons.mp he with rfl | he
    · obtain ⟨ec, next, ha, hreturn, -⟩ := hc
      obtain rfl : a = .main ec := ha
      have hpoint := (step_facts_of_run hr hs).point hf
      simp only [pointAfter] at hpoint
      rw [statement_of_return ec hreturn] at hpoint
      rw [hpoint]
      rfl
    · exact behindTry_step hr hs hf (hi e he x hc)

private theorem not_caught_again {d : ProgramEntry} {y : Exception}
    (hr : ProgramRun text realm h d.before) (hrunning : d.before.fault = none)
    (hd : Catches d y) {e : ProgramEntry} (he : e ∈ h) (x : Exception) : ¬ Catches e x := by
  intro hc
  obtain ⟨ec, next, -, hreturn, -⟩ := hd
  have hbehind := behindTry_of_caught hr hrunning e he x hc
  rw [not_behindTry_of_return hreturn] at hbehind
  cases hbehind

/-- An exception that `main` catches is the only one in the run, and it has its cause in what
happened before: a failed connection, an ABORT with that reason, a wait of `Join` or of the
heartbeat loop that ran out unanswered, or a PING that could not be sent, which `main` gets as that
error or, when the loop is faster than the lambda, as a timeout. -/
theorem caught_for {newer older : ProgramHistory} {e : ProgramEntry} {x : Exception}
    (hr : ProgramRun text realm (newer ++ e :: older) p) (hc : Catches e x) :
    Reason text older x ∧ ∀ d ∈ newer ++ older, ∀ y, ¬ Catches d y := by
  obtain ⟨hr', hs⟩ := hr.of_append
  have hrunning := (step_facts_of_run hr' hs).running
  obtain ⟨ec, next, ha, hreturn, hhandled⟩ := hc
  refine ⟨reason_of_return hr' hrunning hreturn hhandled, fun d hd y hcaught => ?_⟩
  have hc : Catches e x := ⟨ec, next, ha, hreturn, hhandled⟩
  rcases List.mem_append.mp hd with hnewer | holder
  · obtain ⟨n, m, rfl⟩ := List.append_of_mem hnewer
    have hr'' : ProgramRun text realm (n ++ d :: (m ++ e :: older)) p := by
      simpa using hr
    obtain ⟨hbefore, hstep⟩ := hr''.of_append
    exact not_caught_again hbefore (step_facts_of_run hbefore hstep).running hcaught
      (List.mem_append_right _ List.mem_cons_self) x hc
  · exact not_caught_again hr' hrunning hc holder y hcaught

/-- The program that times out in `Join` catches that its HELLO was not answered. -/
theorem caught_for_unanswered : ∃ e older p, ProgramRun noText (utf8 "realm") (e :: older) p ∧
    Catches e .timeoutError ∧ Reason noText older .timeoutError := by
  obtain ⟨h, p, hr, hc⟩ := exists_run_of_replay (step noText)
    { state := { realm := utf8 "realm" } } (unanswered.take 13)
    (fun h _ => h.head?.any fun e : ProgramEntry => !isOther e.action &&
      decide (e.before.state.point = .joinWait) && decide (e.before.state.client.joins[mainCall]? =
        some (.finished (.error .timeoutError)))) (by decide)
  cases h with
  | nil => cases hc
  | cons e older =>
    simp only [List.head?_cons, Option.any_some, Bool.and_eq_true, Bool.not_eq_true',
      decide_eq_true_eq] at hc
    obtain ⟨⟨hmain, hpoint⟩, htimeout⟩ := hc
    have hcatches : Catches e .timeoutError := by
      cases ha : e.action with
      | main ec => exact ⟨ec, .listening, ha, .join _ hpoint htimeout, rfl⟩
      | _ =>
        rw [ha] at hmain
        cases hmain
    have hcaught := @caught_for _ _ _ [] _ _ _ hr hcatches
    exact ⟨e, older, p, hr, hcatches, hcaught.1⟩

end Program
end Barbarossa
