import Barbarossa.Client.Offers
import Barbarossa.Program.Objects

/-!
# What the calls of the program report

An offer to a satisfied promise ends in an exception that nothing in the program catches. So in a
program that runs every promise was offered one result at most, and a call that waited for it
reports just that result, or has timed out.
-/

namespace Barbarossa
open Barbarossa.Base

namespace Client

open Program (mainCall transport)

variable {c c' : Client} {b : Action}

/-! ### Futures that are taken -/

/-- Only `Join` takes the future of `joined_`. -/
theorem joined_retrieved_after (hb : ∀ i, b ≠ .joinFuture i) :
    (c.sessionAfter b).joined.retrieved = c.session.joined.retrieved := by
  cases b with
  | joinFuture i => exact absurd rfl (hb i)
  | message t m ec =>
    simp only [sessionAfter]
    cases hx : c.session.joinOffer m.received with
    | none => rw [(Session.after_of_no_offer hx).1]
    | some x =>
      rw [Session.after_of_offer hx]
      rfl
  | runDispatched ec =>
    simp only [sessionAfter]
    split
    · rfl
    · next m rest hq =>
      unfold Session.afterHello
      split
      · rfl
      · split <;> rfl
    · simp
    · rfl
  | attach t | detach t =>
    simp only [sessionAfter]
    split <;> rfl
  | hearbeat => simp [sessionAfter]
  | _ => rfl

/-- Only `Listen` takes the future of `leaved_`. -/
theorem leaved_retrieved_after (hb : b ≠ .listen) :
    (c.sessionAfter b).leaved.retrieved = c.session.leaved.retrieved := by
  rw [leaved_sessionAfter]
  cases b with
  | listen => exact absurd rfl hb
  | _ => rfl

private theorem connects_of_foreign {t : TransportId} (hb : ∀ d, b ≠ .transport t d) :
    (c.transportAfter t b).connects = (c.transports t).connects ∧
      (c.transportAfter t b).connected = (c.transports t).connected := by
  cases b with
  | transport u d =>
    simp only [transportAfter]
    split
    · next hu => exact absurd (by rw [hu]) (hb d)
    · exact ⟨rfl, rfl⟩
  | leaveDisconnect close =>
    simp only [transportAfter]
    split
    · split <;> exact ⟨rfl, rfl⟩
    · exact ⟨rfl, rfl⟩
  | attach u | detach u =>
    simp only [transportAfter]
    split <;> exact ⟨rfl, rfl⟩
  | _ => exact ⟨rfl, rfl⟩

/-- Only `Connect` takes the future of `connected_`. -/
theorem connected_retrieved_after {t : TransportId}
    (hb : ∀ u i, b ≠ .transport u (.connectFuture i)) :
    (c.transportAfter t b).connected.retrieved = (c.transports t).connected.retrieved := by
  by_cases hown : ∃ d, b = .transport t d
  · obtain ⟨d, rfl⟩ := hown
    simp only [transportAfter, if_true]
    cases d with
    | connectFuture i => exact absurd rfl (hb t i)
    | onClientFail =>
      simp only [WebSocketTransport.after, WebSocketTransport.connectedAfter]
      split <;> rfl
    | _ => rfl
  · rw [(connects_of_foreign fun d he => hown ⟨d, he⟩).2]

/-! ### The first calls -/

/-- What the first calls of `Connect`, `Join` and `Listen` report. -/
structure Reports (c : Client) : Prop where
  connect : (c.transports transport).connected.Serves id (fun _ => False)
    (∀ x, (c.transports transport).connects[mainCall]? = some x → x = .queued)
    (((c.transports transport).connects[mainCall]?).bind ConnectCall.result?)
  join : c.session.joined.Serves id (fun r => r = .error .timeoutError)
    (∀ x, c.joins[mainCall]? = some x → x = .dispatched)
    ((c.joins[mainCall]?).bind JoinCall.result?)
  listen : c.session.leaved.Serves (Except.map fun _ => PUnit.unit) (fun _ => False)
    (c.listens[mainCall]? = none) ((c.listens[mainCall]?).bind ListenCall.result?)

/-- An action goes on with the first calls only. -/
def isFirst : Action → Bool
  | .joinFuture i | .joinReady i | .joinTimeout i | .listenReady i
  | .transport _ (.connectFuture i) | .transport _ (.connectReady i) => i == mainCall
  | _ => true

/-- What is appended to a list does not change its first element, if it has one. -/
theorem getElem?_append_first {α : Type} {xs : List α} {y z : α}
    (h : (xs ++ [y])[mainCall]? = some z) : xs[mainCall]? = some z ∨ xs = [] ∧ z = y := by
  cases xs with
  | nil => exact .inr ⟨rfl, (Option.some.inj h).symm⟩
  | cons x xs => exact .inl h

/-- The first element of a list that is written. -/
theorem getElem?_set_first {α : Type} {xs : List α} {x y : α}
    (h : xs[mainCall]? = some x) : (xs.set mainCall y)[mainCall]? = some y := by
  cases xs with
  | nil => cases h
  | cons x xs => rfl

private theorem serves_append {α β γ : Type} {q : Promise Exception α}
    {report : Except Exception α → Except Exception β} {excused : Except Exception β → Prop}
    {xs : List γ} {x y : γ} {result? : γ → Option (Except Exception β)}
    (hs : q.Serves report excused (∀ z, xs[mainCall]? = some z → z = x)
      ((xs[mainCall]?).bind result?)) (hy : result? y = none) :
    q.Serves report excused (∀ z, (xs ++ [y])[mainCall]? = some z → z = x)
      (((xs ++ [y])[mainCall]?).bind result?) := by
  refine ⟨fun hf => hs.untaken fun z hz => hf z ?_, fun r hr => hs.reported r ?_⟩
  · rw [List.getElem?_append_left (List.getElem?_eq_some_iff.mp hz).1]
    exact hz
  · obtain ⟨z, hz, hended⟩ := Option.bind_eq_some_iff.mp hr
    rcases getElem?_append_first hz with hold | ⟨-, rfl⟩
    · rw [hold]
      exact hended
    · rw [hy] at hended
      cases hended

private theorem Reports.join_step (hi : c.Reports) (hb : isFirst b = true)
    (ha : c.Accepts b) (hn : c.Once) (henabled : c.Enabled b)
    (hsession : c'.session = c.sessionAfter b)
    (hjoins : c'.joins = c.joinsAfter b) :
    c'.session.joined.Serves id (fun r => r = .error .timeoutError)
      (∀ x, c'.joins[mainCall]? = some x → x = .dispatched)
      ((c'.joins[mainCall]?).bind JoinCall.result?) := by
  by_cases htakes : ∃ i, b = .joinFuture i
  · obtain ⟨i, rfl⟩ := htakes
    obtain rfl : i = mainCall := by simpa [isFirst] using hb
    have hfresh := hi.join.untaken fun x hx => by
      have henabled : c.joins[mainCall]? = some .dispatched := henabled
      rw [henabled] at hx
      exact (Option.some.inj hx).symm
    rw [hjoins]
    simp only [joinsAfter, hfresh, Bool.false_eq_true, if_false]
    rw [getElem?_set_first henabled]
    refine ⟨fun hf => ?_, fun r hr => by cases hr⟩
    cases hf _ rfl
  · have hretrieved : c'.session.joined.retrieved = c.session.joined.retrieved := by
      rw [hsession]
      exact joined_retrieved_after fun i he => htakes ⟨i, he⟩
    have hkeeps := hi.join.offers ha.joined
      (by rw [hsession, offers_sessionAfter]) hretrieved
    cases b with
    | joinFuture i => exact absurd ⟨i, rfl⟩ htakes
    | join realm =>
      rw [hjoins]
      exact serves_append hkeeps rfl
    | joinReady i =>
      obtain rfl : i = mainCall := by simpa [isFirst] using hb
      obtain ⟨hwaiting, hoffers⟩ := henabled
      cases hr : c.session.joined.result with
      | none => exact absurd (Promise.result_eq_none.mp hr) hoffers
      | some r =>
        have hoffer := Promise.offers_of_result hn.joined hr
        rw [hjoins, hsession]
        simp only [joinsAfter, hr]
        rw [getElem?_set_first hwaiting]
        refine ⟨fun hf => ?_, fun x hx => .inl ⟨r, hoffer, (Option.some.inj hx).symm⟩⟩
        cases hf _ rfl
    | joinTimeout i =>
      obtain rfl : i = mainCall := by simpa [isFirst] using hb
      rw [hjoins]
      simp only [joinsAfter]
      rw [getElem?_set_first henabled.1]
      refine ⟨fun hf => ?_, fun r hr => .inr (Option.some.inj hr).symm⟩
      cases hf _ rfl
    | _ =>
      rw [hjoins]
      exact hkeeps

private theorem Reports.listen_step (hi : c.Reports) (hb : isFirst b = true)
    (ha : c.Accepts b) (hn : c.Once) (henabled : c.Enabled b)
    (hsession : c'.session = c.sessionAfter b) (hlistens : c'.listens = c.listensAfter b) :
    c'.session.leaved.Serves (Except.map fun _ => PUnit.unit) (fun _ => False)
      (c'.listens[mainCall]? = none) ((c'.listens[mainCall]?).bind ListenCall.result?) := by
  by_cases htakes : b = .listen
  · subst htakes
    rw [hlistens]
    simp only [listensAfter]
    refine ⟨fun hf => ?_, fun r hr => ?_⟩
    · cases hl : c.listens <;> simp [hl, mainCall] at hf
    · obtain ⟨x, hx, hr⟩ := Option.bind_eq_some_iff.mp hr
      rcases getElem?_append_first hx with hold | ⟨hnil, rfl⟩
      · have hoffers : c'.session.leaved.offers = c.session.leaved.offers := by
          rw [hsession]
          rfl
        rw [hoffers]
        exact hi.listen.reported r (by rw [hold]; exact hr)
      · have hfresh := hi.listen.untaken (by rw [hnil]; rfl)
        simp only [hfresh, Bool.false_eq_true, if_false] at hr
        cases hr
  · have hretrieved : c'.session.leaved.retrieved = c.session.leaved.retrieved := by
      rw [hsession]
      exact leaved_retrieved_after htakes
    have hkeeps := hi.listen.offers ha.leaved
      (by rw [hsession, leaved_offers_after]) hretrieved
    cases b with
    | listen => exact absurd rfl htakes
    | listenReady i =>
      obtain rfl : i = mainCall := by simpa [isFirst] using hb
      obtain ⟨hwaiting, hoffers⟩ := henabled
      cases hr : c.session.leaved.result with
      | none => exact absurd (Promise.result_eq_none.mp hr) hoffers
      | some r =>
        have hoffer := Promise.offers_of_result hn.leaved hr
        rw [hlistens, hsession]
        simp only [listensAfter, hr]
        rw [getElem?_set_first hwaiting]
        refine ⟨fun hf => ?_, fun x hx => .inl ⟨r, hoffer, (Option.some.inj hx).symm⟩⟩
        cases hf
    | _ =>
      rw [hlistens]
      exact hkeeps

private theorem Reports.connect_step (hi : c.Reports) (hb : isFirst b = true) (ha : c.Accepts b)
    (hn : c.Once) (hcalls : ∀ d, b = .transport transport d →
      (c.transports transport).CallAgrees d)
    (htransport : c'.transports transport = c.transportAfter transport b) :
    (c'.transports transport).connected.Serves id (fun _ => False)
      (∀ x, (c'.transports transport).connects[mainCall]? = some x → x = .queued)
      (((c'.transports transport).connects[mainCall]?).bind ConnectCall.result?) := by
  by_cases htakes : ∃ i, b = .transport transport (.connectFuture i)
  · obtain ⟨i, rfl⟩ := htakes
    obtain rfl : i = mainCall := by simpa [isFirst] using hb
    have hqueued : (c.transports transport).connects[mainCall]? = some .queued := hcalls _ rfl
    have hfresh := hi.connect.untaken fun x hx => by
      rw [hqueued] at hx
      exact (Option.some.inj hx).symm
    rw [htransport]
    simp only [transportAfter, if_true, WebSocketTransport.after, WebSocketTransport.connectsAfter,
      hfresh, Bool.false_eq_true, if_false]
    rw [getElem?_set_first hqueued]
    refine ⟨fun hf => ?_, fun r hr => by cases hr⟩
    cases hf _ rfl
  · by_cases hown : ∃ d, b = .transport transport d
    · obtain ⟨d, rfl⟩ := hown
      have hretrieved : (c'.transports transport).connected.retrieved =
          (c.transports transport).connected.retrieved := by
        rw [htransport]
        apply connected_retrieved_after
        rintro u i he
        cases he
        exact htakes ⟨i, rfl⟩
      have hkeeps := hi.connect.offers (ha.connected transport)
        (by rw [htransport, connected_offers_after]) hretrieved
      rw [htransport] at hkeeps ⊢
      simp only [transportAfter, if_true] at hkeeps ⊢
      cases d with
      | connectFuture i => exact absurd ⟨i, rfl⟩ htakes
      | connect ec =>
        cases ec with
        | some text => exact hkeeps
        | none =>
          simp only [WebSocketTransport.after, WebSocketTransport.connectsAfter] at hkeeps ⊢
          split
          · exact hkeeps
          · exact serves_append hkeeps rfl
      | connectReady i =>
        obtain rfl : i = mainCall := by simpa [isFirst] using hb
        obtain ⟨hwaiting, hready⟩ := hcalls _ rfl
        obtain ⟨r, hr⟩ := Option.isSome_iff_exists.mp hready
        have hoffer := Promise.offers_of_result (hn.connected transport) hr
        simp only [WebSocketTransport.after, WebSocketTransport.connectsAfter,
          WebSocketTransport.connectedAfter, hr]
        rw [getElem?_set_first hwaiting]
        refine ⟨fun hf => ?_, fun x hx => .inl ⟨r, hoffer, (Option.some.inj hx).symm⟩⟩
        cases hf _ rfl
      | _ => exact hkeeps
    · have hsame := connects_of_foreign (c := c) (t := transport) fun d he => hown ⟨d, he⟩
      rw [← htransport] at hsame
      rw [hsame.1, hsame.2]
      exact hi.connect

private theorem reports_init : ({} : Client).Reports := by
  refine ⟨⟨fun _ => rfl, fun r hr => ?_⟩, ⟨fun _ => rfl, fun r hr => ?_⟩,
    ⟨fun _ => rfl, fun r hr => ?_⟩⟩ <;> cases hr

end Client

namespace Program

variable {text : JsonText} {realm : Bytes} {h : ProgramHistory}
  {p p' : Process Program ProgramFault} {a : ProgramAction}
  {o : Outcome Exception ProgramFault PUnit × List Effect}

/-- The program goes on with its first calls. -/
theorem isFirst_of_clientAction {p : Program} {b : Action}
    (hb : p.clientAction text a = some b) : Client.isFirst b = true := by
  cases performs_of_clientAction hb with
  | call ec b next hc => cases hc <;> rfl
  | _ => rfl

/-- The offers of a survived action are accepted. -/
theorem accepts_of_survived (hr : ProgramRun text realm h p) (hs : step text p a = some (o, p'))
    (hf : p'.fault = none) {b : Action} (hb : p.state.clientAction text a = some b) :
    p.state.client.Accepts b :=
  Client.accepts_step (client_step_of_survived hr hs hf hb) rfl

/-- No promise was offered a second result, and the calls report what was offered. -/
structure Settled (p : Program) : Prop where
  once : p.client.Once
  reports : p.client.Reports

private theorem Settled.step (hr : ProgramRun text realm h p) (hs : step text p a = some (o, p'))
    (hf : p'.fault = none) (hi : Settled p.state) : Settled p'.state := by
  cases hb : p.state.clientAction text a with
  | none =>
    have hclient := ((step_facts_of_run hr hs).idle hb).1
    exact ⟨hclient ▸ hi.once, hclient ▸ hi.reports⟩
  | some b =>
    have hv := survives hr hs hf hb
    have haccepts := accepts_of_survived hr hs hf hb
    have hfirst := isFirst_of_clientAction hb
    refine ⟨hi.once.step (client_step_of_survived hr hs hf hb) rfl, ?_, ?_, ?_⟩
    · apply hi.reports.connect_step hfirst haccepts hi.once _ hv.transport
      rintro d rfl
      obtain ⟨y, hy, -⟩ := hv.own
      exact (WebSocketTransport.act_calls hy).1
    · exact hi.reports.join_step hfirst haccepts hi.once hv.enabled hv.session hv.joins
    · exact hi.reports.listen_step hfirst haccepts hi.once hv.enabled hv.session hv.listens

/-- While the program runs, its promises and its calls are settled. -/
theorem settled_of_run (hr : ProgramRun text realm h p) (hf : p.fault = none) :
    Settled p.state := by
  refine invariant_of_running (fun _ p => Settled p) ?_ ?_ hr hf
  · exact ⟨⟨Nat.zero_le 1, Nat.zero_le 1, Nat.zero_le 1, fun _ => Nat.zero_le 1⟩,
      Client.reports_init⟩
  · exact fun _ _ _ _ _ hr _ hi hs hf => hi.step hr hs hf

/-- In a program that runs every promise was offered one result at most, whatever the order of its
threads was, and the calls of `Connect`, `Join` and `Listen` that are over have ended with that
result, or with the timeout of `Join`. An action that offers a second result ends the process. -/
theorem settles (hr : ProgramRun text realm h p) (hf : p.fault = none) :
    p.state.client.Once ∧
    (∀ r, (p.state.client.transports transport).connects[mainCall]? = some (.finished r) →
      (p.state.client.transports transport).connected.offers = [r]) ∧
    (∀ r, p.state.client.joins[mainCall]? = some (.finished r) →
      p.state.client.session.joined.offers = [r] ∨ r = .error .timeoutError) ∧
    (∀ r, p.state.client.listens[mainCall]? = some (.finished r) →
      ∃ x, p.state.client.session.leaved.offers = [x] ∧ r = x.map fun _ => ⟨⟩) ∧
    ∀ a o p' b, step text p a = some (o, p') → p.state.clientAction text a = some b →
      ¬ p.state.client.Accepts b → p'.fault ≠ none := by
  obtain ⟨honce, hconnect, hjoin, hlisten⟩ := settled_of_run hr hf
  refine ⟨honce, fun r hcall => ?_, fun r hcall => ?_, fun r hcall => ?_, ?_⟩
  · rcases hconnect.reported r (by rw [hcall]; rfl) with ⟨x, hx, rfl⟩ | hfalse
    · exact hx
    · exact absurd hfalse id
  · rcases hjoin.reported r (by rw [hcall]; rfl) with ⟨x, hx, rfl⟩ | htimeout
    · exact .inl hx
    · exact .inr htimeout
  · exact (hlisten.reported r (by rw [hcall]; rfl)).resolve_right id
  · exact fun a o p' b hs hb hrefused hf' => hrefused (accepts_of_survived hr hs hf' hb)

/-- A program whose connection has opened goes on with what was offered. -/
theorem settles_opened : ∃ h p r, ProgramRun noText (utf8 "realm") h p ∧
    p.state.point = .joining ∧
    (p.state.client.transports transport).connects[mainCall]? = some (.finished r) ∧
    (p.state.client.transports transport).connected.offers = [r] := by
  obtain ⟨h, p, hr, hc⟩ := exists_run_of_replay (step noText)
    { state := { realm := utf8 "realm" } } (unanswered.take 8)
    (fun _ p => p.fault.isNone && decide (p.state.point = .joining) &&
      (((p.state.client.transports transport).connects[mainCall]?).bind
        ConnectCall.result?).isSome) (by decide)
  simp only [Bool.and_eq_true, decide_eq_true_eq, Option.isNone_iff_eq_none] at hc
  obtain ⟨r, hresult⟩ := Option.isSome_iff_exists.mp hc.2
  obtain ⟨c, hcall, hfinished⟩ := Option.bind_eq_some_iff.mp hresult
  rw [ConnectCall.eq_finished hfinished] at hcall
  exact ⟨h, p, r, hr, hc.1.2, hcall, (settles hr hc.1.1).2.1 r hcall⟩

end Program
end Barbarossa
