import Barbarossa.Client.Loop
import Barbarossa.Client.Transports

/-!
# What is offered to the promises

Four promises carry what one thread tells another: `connected_`, `joined_`, `leaved_` and
`pong_received_`. Every step adds its offers to them, and an offer to a satisfied promise ends in
the thread that makes it with `std::future_error`.
-/

namespace Barbarossa
open Barbarossa.Base

namespace WebSocketTransport

/-- The results an action offers to `connected_`. -/
def connectOffers (t : WebSocketTransport) : TransportAction → List (Except Exception PUnit)
  | .onClientOpen => [.ok ⟨⟩]
  | .onClientFail =>
    if t.opened then [] else [.error (.networkError ErrorMessages.transportConnectionFailed)]
  | _ => []

/-- Every offer to `connected_` stays, and an action adds its own. -/
theorem offers_connectedAfter (t : WebSocketTransport) (a : TransportAction) :
    (t.connectedAfter a).offers = t.connected.offers ++ t.connectOffers a := by
  cases a with
  | onClientFail =>
    simp only [connectedAfter, connectOffers]
    split <;> simp
  | _ => simp [connectedAfter, connectOffers]

/-- An action that ends normally has its offer accepted. -/
theorem accepts_of_value {t : WebSocketTransport} {a : TransportAction} {x : TransportM PUnit}
    (hx : t.act a = some x) (hv : (x t).outcome = .value ⟨⟩) :
    t.connected.Accepts (t.connectOffers a) := by
  cases a with
  | onClientOpen =>
    obtain ⟨-, rfl⟩ := guard_eq_some hx
    apply Promise.accepts_singleton
    cases hc : t.connected.satisfied with
    | false => rfl
    | true => simp [onClientOpen, connectedLens, Promise.setResult, hc] at hv
  | onClientFail =>
    obtain ⟨-, rfl⟩ := guard_eq_some hx
    simp only [connectOffers]
    split
    · exact Promise.accepts_nil _
    · next ho =>
      apply Promise.accepts_singleton
      cases hc : t.connected.satisfied with
      | false => rfl
      | true => simp [onClientFail, ho, connectedLens, Promise.setResult, hc] at hv
  | _ => exact Promise.accepts_nil _

end WebSocketTransport

namespace Client

variable {p p' : Process Client Fault} {a : Action}
  {o : Outcome Exception Fault PUnit × List Effect}

/-- The results an action offers to `leaved_`. -/
def leaveOffers (c : Client) (a : Action) : List (Except Exception Bool) :=
  (c.leaveOffer a).toList

/-- The results an action offers to `pong_received_`. -/
def pongOffers (c : Client) : Action → List (Except Exception Bool)
  | .message _ m _ =>
    match m.received with
    | .pong => [.ok true]
    | _ => []
  | .runDispatched ec => ((c.pingError (.runDispatched ec)).map fun _ => .ok false).toList
  | .hearbeat => if c.session.hearbeatThread = some .expired then [.ok false] else []
  | _ => []

/-- The results an action offers to `connected_` of a transport. -/
def connectOffers (c : Client) (t : TransportId) : Action → List (Except Exception PUnit)
  | .transport u b => if t = u then (c.transports t).connectOffers b else []
  | _ => []

/-- What an action adds to the offers of `leaved_`. -/
theorem leaved_offers_after (c : Client) (a : Action) :
    (c.sessionAfter a).leaved.offers = c.session.leaved.offers ++ c.leaveOffers a := by
  rw [leaved_sessionAfter]
  unfold leaveOffers
  cases a with
  | listen => simp [leaveOffer]
  | _ => rfl

/-- What an action adds to the offers of `connected_` of a transport. -/
theorem connected_offers_after (c : Client) (t : TransportId) (a : Action) :
    (c.transportAfter t a).connected.offers =
      (c.transports t).connected.offers ++ c.connectOffers t a := by
  cases a with
  | transport u b =>
    simp only [transportAfter, connectOffers]
    split
    · exact WebSocketTransport.offers_connectedAfter _ b
    · simp
  | leaveDisconnect close =>
    simp only [transportAfter, connectOffers, List.append_nil]
    split
    · split <;> rfl
    · rfl
  | attach u | detach u =>
    simp only [transportAfter, connectOffers, List.append_nil]
    split <;> rfl
  | _ => simp [transportAfter, connectOffers]

/-- The loop replaces `pong_received_` when it resets, and offers false when its wait is over. -/
theorem pong_offers_afterHearbeat (s : Session) :
    s.afterHearbeat.pongReceived.offers =
      if s.hearbeatThread = some .resetting then []
      else s.pongReceived.offers ++
        if s.hearbeatThread = some .expired then [.ok false] else [] := by
  by_cases hreset : s.hearbeatThread = some .resetting
  · simp [Session.afterHearbeat, hreset]
  · by_cases hexpired : s.hearbeatThread = some .expired
    · simp [Session.afterHearbeat, hexpired]
    · rw [Session.offers_afterHearbeat hexpired hreset]
      simp [hreset, hexpired]

/-- What an action adds to the offers of `pong_received_`. -/
theorem pong_offers_after (c : Client) (a : Action) :
    (c.sessionAfter a).pongReceived.offers =
      if c.resets a then [] else c.session.pongReceived.offers ++ c.pongOffers a := by
  cases a with
  | message t m ec =>
    simp only [sessionAfter, resets, pongOffers, Bool.false_eq_true, if_false]
    split
    · next hr =>
      rw [hr]
      rfl
    · next hr =>
      rw [(Session.after_of_not_pong hr).1, List.append_nil]
  | runDispatched ec =>
    simp only [sessionAfter, resets, pongOffers, pingError, Bool.false_eq_true, if_false]
    cases hq : c.session.ioContext with
    | nil => simp
    | cons d rest =>
      cases d with
      | hello m | pingFailed e => simp
      | ping m =>
        dsimp only
        rw [Session.pongReceived_afterPing]
        rfl
  | hearbeat => simp [sessionAfter, resets, pongOffers, pong_offers_afterHearbeat]
  | attach t | detach t =>
    simp only [sessionAfter, resets, pongOffers, Bool.false_eq_true, if_false, List.append_nil]
    split <;> rfl
  | _ => simp [sessionAfter, resets, pongOffers]

/-! ### Accepted offers -/

/-- The offers of an action find their promises unsatisfied. -/
structure Accepts (c : Client) (a : Action) : Prop where
  joined : c.session.joined.Accepts (c.joinOffers a)
  leaved : c.session.leaved.Accepts (c.leaveOffers a)
  pong : c.session.pongReceived.Accepts (c.pongOffers a)
  connected : ∀ t, (c.transports t).connected.Accepts (c.connectOffers t a)

private theorem joined_accepts_message {net : Net} {s : Session} {r : Received}
    (hv : s.onMessageOutcome net r = .value ⟨⟩) : s.joined.Accepts (s.joinOffer r).toList := by
  cases hx : s.joinOffer r with
  | none => exact Promise.accepts_nil _
  | some x =>
    apply Promise.accepts_singleton
    cases hsat : s.joined.satisfied with
    | false => rfl
    | true =>
      cases r with
      | welcome id =>
        cases id with
        | error e => simp [Session.joinOffer] at hx
        | ok id =>
          simp only [Session.joinOffer, Option.ite_none_right_eq_some] at hx
          simp [Session.onMessageOutcome, hx.1, hsat] at hv
      | abort reason =>
        cases reason with
        | error e => simp [Session.joinOffer] at hx
        | ok reason => simp [Session.onMessageOutcome, hsat] at hv
      | _ => cases hx

private theorem joined_accepts_hello {c : Client} {ec : Option Bytes} {m : Message}
    {rest : List Dispatched} (hq : c.session.ioContext = .hello m :: rest)
    (hv : { c.session with ioContext := rest }.helloOutcome (c.net ec) m = .value ⟨⟩) :
    c.session.joined.Accepts (c.joinOffers (.runDispatched ec)) := by
  simp only [joinOffers, hq]
  unfold Session.helloOutcome at hv
  split
  · next hid =>
    rw [if_pos hid] at hv
    apply Promise.accepts_singleton
    cases hsat : c.session.joined.satisfied with
    | false => rfl
    | true => simp [hsat] at hv
  · next hid =>
    rw [if_neg hid] at hv
    split
    · next e he =>
      rw [he] at hv
      apply Promise.accepts_singleton
      cases hsat : c.session.joined.satisfied with
      | false => rfl
      | true => simp [hsat] at hv
    · exact Promise.accepts_nil _

private theorem pong_accepts_ping {c : Client} {ec : Option Bytes} {m : Message}
    {rest : List Dispatched} (hq : c.session.ioContext = .ping m :: rest)
    (hv : { c.session with ioContext := rest }.pingOutcome (c.net ec) m = .value ⟨⟩) :
    c.session.pongReceived.Accepts (c.pongOffers (.runDispatched ec)) := by
  simp only [pongOffers, pingError, hq]
  cases he : Session.pingError (c.net ec) m { c.session with ioContext := rest } with
  | none => exact Promise.accepts_nil _
  | some e =>
    apply Promise.accepts_singleton
    have houtcome := Session.pingOutcome_of_pingError
      (show (Session.pingError (c.net ec) m _).isSome = true by rw [he]; rfl)
    rw [hv] at houtcome
    cases hsat : c.session.pongReceived.satisfied with
    | false => rfl
    | true => simp [hsat] at houtcome

private theorem joined_accepts (hs : step p a = some (o, p')) (hv : o.1 = .value ⟨⟩) :
    p.state.session.joined.Accepts (p.state.joinOffers a) := by
  cases a with
  | message t m ec =>
    have hout := step_message hs
    rw [hv] at hout
    exact joined_accepts_message hout.symm
  | runDispatched ec =>
    cases hq : p.state.session.ioContext with
    | nil => exact absurd hq (step_facts hs).enabled
    | cons d rest =>
      cases d with
      | hello m =>
        have hout := step_hello hs hq
        rw [hv] at hout
        exact joined_accepts_hello hq hout.symm
      | ping m | pingFailed e =>
        simp only [joinOffers, hq]
        exact Promise.accepts_nil _
  | _ => exact Promise.accepts_nil _

private theorem leaved_accepts (hs : step p a = some (o, p')) (hv : o.1 = .value ⟨⟩) :
    p.state.session.leaved.Accepts (p.state.leaveOffers a) := by
  unfold leaveOffers
  cases hc : p.state.leaveOffer a with
  | none => exact Promise.accepts_nil _
  | some r =>
    apply Promise.accepts_singleton
    have hoffer : (p.state.leaveOffer a).isSome = true := by rw [hc]; rfl
    by_contra hsat
    have hrefused := (refused_iff hs (.inr hoffer)).mpr (.inl ⟨hoffer, by simpa using hsat⟩)
    unfold Refused at hrefused
    rw [hv] at hrefused
    cases a <;> cases hrefused

private theorem pong_accepts (hs : step p a = some (o, p')) (hv : o.1 = .value ⟨⟩) :
    p.state.session.pongReceived.Accepts (p.state.pongOffers a) := by
  cases a with
  | message t m ec =>
    have hout := step_message hs
    rw [hv] at hout
    simp only [pongOffers]
    split
    · next hr =>
      rw [hr] at hout
      apply Promise.accepts_singleton
      cases hsat : p.state.session.pongReceived.satisfied with
      | false => rfl
      | true => simp [Session.onMessageOutcome, hsat] at hout
    · exact Promise.accepts_nil _
  | runDispatched ec =>
    cases hq : p.state.session.ioContext with
    | nil => exact absurd hq (step_facts hs).enabled
    | cons d rest =>
      cases d with
      | hello m | pingFailed e =>
        simp only [pongOffers, pingError, hq]
        exact Promise.accepts_nil _
      | ping m =>
        have hout := step_ping hs hq
        rw [hv] at hout
        exact pong_accepts_ping hq hout.symm
  | hearbeat =>
    have hout := step_hearbeat hs
    rw [hv] at hout
    simp only [pongOffers]
    split
    · next ht =>
      apply Promise.accepts_singleton
      cases hsat : p.state.session.pongReceived.satisfied with
      | false => rfl
      | true => simp [Session.hearbeatOutcome, ht, hsat] at hout
    · exact Promise.accepts_nil _
  | _ => exact Promise.accepts_nil _

private theorem connected_accepts (hs : step p a = some (o, p')) (hv : o.1 = .value ⟨⟩)
    (t : TransportId) : (p.state.transports t).connected.Accepts (p.state.connectOffers t a) := by
  cases a with
  | transport u b =>
    obtain ⟨-, x, hx, ho, -, -⟩ := Process.step_eq_some hs
    obtain ⟨-, -, y, hy, rfl⟩ := act_transport hx
    simp only [connectOffers]
    split
    · next hu =>
      subst hu
      apply WebSocketTransport.accepts_of_value hy
      rw [ho] at hv
      exact hv
    · exact Promise.accepts_nil _
  | _ => exact Promise.accepts_nil _

/-- A step that ends normally has its offers accepted. -/
theorem accepts_step (hs : step p a = some (o, p')) (hv : o.1 = .value ⟨⟩) : p.state.Accepts a :=
  ⟨joined_accepts hs hv, leaved_accepts hs hv, pong_accepts hs hv, connected_accepts hs hv⟩

/-- No promise was offered a second result. -/
structure Once (c : Client) : Prop where
  joined : c.session.joined.offers.length ≤ 1
  leaved : c.session.leaved.offers.length ≤ 1
  pong : c.session.pongReceived.offers.length ≤ 1
  connected : ∀ t, (c.transports t).connected.offers.length ≤ 1

/-- A step that ends normally offers no second result. -/
theorem Once.step (hi : p.state.Once) (hs : Client.step p a = some (o, p'))
    (hv : o.1 = .value ⟨⟩) : p'.state.Once := by
  have haccepts := accepts_step hs hv
  have hsession := (step_facts hs).session
  constructor
  · rw [hsession, offers_sessionAfter]
    exact haccepts.joined.length_le hi.joined
  · rw [hsession, leaved_offers_after]
    exact haccepts.leaved.length_le hi.leaved
  · rw [hsession, pong_offers_after]
    split
    · exact Nat.zero_le 1
    · exact haccepts.pong.length_le hi.pong
  · intro t
    rw [transports_step hs, connected_offers_after]
    exact (haccepts.connected t).length_le (hi.connected t)

end Client
end Barbarossa
