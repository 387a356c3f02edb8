import Barbarossa.Client.Steps

/-!
# The session and its connection

`SendMessage` asks only whether there is a session id, and detaching a transport does not
clear it. The frames on a transport are therefore the ones of its own handshake as long
as the id comes from that transport: a WELCOME gives the id on the transport that the
HELLO went to, and no other transport is attached while there is an id.
-/

namespace Barbarossa
open Barbarossa.Base

/-- A HELLO frame. -/
def isHello (frame : List Json) : Bool := frame.head? = some (.integer 1)

namespace Session

/-- The message gives the session its id. -/
def identifies (s : Session) (r : Received) : Bool :=
  match s.joinOffer r with
  | some (.ok sessionId) => sessionId ≠ 0
  | _ => false

/-- A session gets an id only from a message that identifies it. -/
theorem identifies_of_sessionId {s : Session} {r : Received} (h : (s.after r).sessionId ≠ 0) :
    s.identifies r = true ∨ s.sessionId ≠ 0 := by
  rw [sessionId_after] at h
  unfold identifies
  cases hj : s.joinOffer r with
  | none =>
    rw [hj] at h
    exact .inr h
  | some offer =>
    rw [hj] at h
    cases offer with
    | error x => exact .inr h
    | ok sessionId =>
      left
      simpa using h

end Session

namespace Client

/-- A HELLO was sent on the transport. -/
def helloSent (h : ClientHistory) (t : TransportId) : Bool :=
  h.any fun e => e.output.2.any fun
    | .send u frame none => u = t && isHello frame
    | _ => false

/-- A WELCOME received from the transport gave the session its id. -/
def welcomeAccepted (h : ClientHistory) (t : TransportId) : Bool :=
  h.any fun e =>
    match e.action with
    | .message u m _ => u = t && e.before.state.session.identifies m.received
    | _ => false

/-- A frame belongs on its transport: it is a HELLO, or the transport has seen the handshake. -/
def Belongs (h : ClientHistory) : Effect → Prop
  | .send t frame _ => isHello frame = true ∨ helloSent h t = true ∧ welcomeAccepted h t = true
  | .invoked _ _ => True

instance (h : ClientHistory) : (x : Effect) → Decidable (Belongs h x)
  | .send _ _ _ => inferInstanceAs (Decidable (_ ∨ _))
  | .invoked _ _ => isTrue trivial

/-- Every frame of a history belonged on its transport when it was handed over. -/
def FramesBelong : ClientHistory → Prop
  | [] => True
  | e :: h => (∀ x ∈ e.output.2, Belongs h x) ∧ FramesBelong h

instance : (h : ClientHistory) → Decidable (FramesBelong h)
  | [] => isTrue trivial
  | e :: h =>
    have : Decidable (FramesBelong h) := instDecidableFramesBelong h
    inferInstanceAs (Decidable ((∀ x ∈ e.output.2, Belongs h x) ∧ FramesBelong h))

/-- No transport is attached to a session whose id came from another one, and a WELCOME gives the
session its id on the transport that the HELLO was sent on. -/
def StaysBound (h : ClientHistory) (p : Process Client Fault) : Action → Prop
  | .attach t => (p.state.transports t).handler = none ∧ p.state.session.transport = none →
      p.state.session.sessionId ≠ 0 → welcomeAccepted h t = true
  | .message t m _ => p.state.session.identifies m.received = true →
      helloSent h t = true ∧
        (p.state.session.transport = none ∨ p.state.session.transport = some t)
  | _ => True

instance (h : ClientHistory) (p : Process Client Fault) :
    (a : Action) → Decidable (StaysBound h p a)
  | .attach _ => inferInstanceAs (Decidable (_ → _ → _))
  | .message _ _ _ => inferInstanceAs (Decidable (_ → _))
  | .join _ | .joinFuture _ | .joinReady _ | .joinTimeout _ | .leave _ | .leaveDisconnect _
  | .leaveJoined | .listen | .listenReady _ | .registerOperation _ _ | .runDispatched _ | .detach _
  | .transport _ _ | .hearbeat | .hearbeatWoken => isTrue trivial

/-- The invariant of a session that stays bound. -/
structure Bound (h : ClientHistory) (p : Process Client Fault) : Prop where
  attached : p.state.session.sessionId ≠ 0 →
    ∀ t, p.state.session.transport = some t → welcomeAccepted h t = true
  greeted : ∀ t, welcomeAccepted h t = true → helloSent h t = true
  queued : ∀ d ∈ p.state.session.ioContext, Built d
  frames : FramesBelong h

variable {h : ClientHistory} {p p' : Process Client Fault} {a : Action}
  {o : Outcome Exception Fault PUnit × List Effect}

private theorem helloSent_cons {e : ClientEntry} {t : TransportId} (hs : helloSent h t = true) :
    helloSent (e :: h) t = true := by
  rw [helloSent, List.any_cons, Bool.or_eq_true]
  exact .inr hs

private theorem welcomeAccepted_cons {e : ClientEntry} {t : TransportId}
    (hw : welcomeAccepted h t = true) : welcomeAccepted (e :: h) t = true := by
  rw [welcomeAccepted, List.any_cons, Bool.or_eq_true]
  exact .inr hw

/-- A frame that a bound session hands over belongs on its transport. -/
theorem Bound.belongs (hb : Bound h p) {x : Effect} (hx : x ∈ p.state.outputAfter a) :
    Belongs h x := by
  cases x with
  | invoked operation arguments => trivial
  | send t frame ec =>
    rcases send_mem_outputAfter hx with ⟨m, hm, rfl⟩ | ⟨ht, hid⟩
    · obtain ⟨realm, rfl⟩ := hb.queued _ hm
      exact .inl rfl
    · have hw := hb.attached hid t ht
      exact .inr ⟨hb.greeted t hw, hw⟩

/-- Under the condition, the transport of a session with an id is the one that gave it. -/
theorem Bound.attached_step (hb : Bound h p) (hs : step p a = some (o, p'))
    (hc : StaysBound h p a) (hid : p'.state.session.sessionId ≠ 0) {t : TransportId}
    (ht : p'.state.session.transport = some t) : welcomeAccepted (⟨p, a, o, p'⟩ :: h) t = true := by
  have hf := step_facts hs
  rw [hf.session] at hid ht
  have hold : p.state.session.sessionId ≠ 0 → p.state.session.transport = some t →
      welcomeAccepted (⟨p, a, o, p'⟩ :: h) t = true :=
    fun hid ht => welcomeAccepted_cons (hb.attached hid t ht)
  cases a with
  | message u m ec =>
    have ht : p.state.session.transport = some t := by simpa [sessionAfter] using ht
    rcases Session.identifies_of_sessionId hid with hnew | hid
    · have hu : t = u := by
        rcases (hc hnew).2 with hn | hu
        · rw [ht] at hn
          cases hn
        · rw [ht] at hu
          exact Option.some.inj hu
      rw [welcomeAccepted, List.any_cons, Bool.or_eq_true]
      left
      simp [hu, hnew]
    · exact hold hid ht
  | attach u =>
    simp only [sessionAfter] at hid ht
    by_cases hfree : (p.state.transports u).handler = none ∧ p.state.session.transport = none
    · rw [if_pos hfree] at hid ht
      cases ht
      exact welcomeAccepted_cons (hc hfree hid)
    · rw [if_neg hfree] at hid ht
      exact hold hid ht
  | detach u =>
    simp only [sessionAfter] at hid ht
    split at ht
    · next hn =>
      rw [if_pos hn] at hid
      exact hold hid ht
    · cases ht
  | runDispatched ec =>
    simp only [sessionAfter] at hid ht
    split at hid
    · next hq =>
      rw [hq] at ht
      exact hold hid ht
    · next hq =>
      rw [hq] at ht
      exact hold (by simpa using hid) (by simpa using ht)
    · next hq =>
      rw [hq] at ht
      exact hold (by simpa using hid) (by simpa using ht)
    · next hq =>
      rw [hq] at ht
      exact hold hid ht
  | hearbeat => exact hold (by simpa [sessionAfter] using hid) (by simpa [sessionAfter] using ht)
  | _ => exact hold hid ht

/-- One step under the condition keeps the session bound. -/
theorem Bound.step (hb : Bound h p) (hc : StaysBound h p a) (hs : step p a = some (o, p')) :
    Bound (⟨p, a, o, p'⟩ :: h) p' := by
  have hf := step_facts hs
  constructor
  · exact fun hid t ht => hb.attached_step hs hc hid ht
  · intro t hw
    rw [welcomeAccepted, List.any_cons, Bool.or_eq_true] at hw
    rcases hw with hnew | hold
    · cases a with
      | message u m ec =>
        simp only [Bool.and_eq_true, decide_eq_true_eq] at hnew
        obtain ⟨rfl, hi⟩ := hnew
        exact helloSent_cons (hc hi).1
      | _ => cases hnew
    · exact helloSent_cons (hb.greeted t hold)
  · intro d hd
    rw [hf.session] at hd
    rcases mem_ioContext_sessionAfter hd with hd | hd
    · exact hb.queued d hd
    · exact hd
  · refine ⟨fun x hx => ?_, hb.frames⟩
    have hx : x ∈ o.2 := hx
    rw [hf.output] at hx
    exact hb.belongs hx

/-- In every run that stays bound, each frame handed to a transport is a HELLO, or comes after a
HELLO on that transport and a WELCOME accepted from it. -/
theorem frames_belong (hr : ClientRun h p) (hm : Meets StaysBound h) : FramesBelong h := by
  have hb : Bound h p := by
    apply hr.invariant_of_meets StaysBound Bound
    · constructor
      · exact fun hid => absurd rfl hid
      · intro w hw
        cases hw
      · intro m hm
        cases hm
      · trivial
    · intro h p a o p' hb hc hs
      exact hb.step hc hs
    · exact hm
  exact hb.frames

/-- A joined session that answers a CALL on the transport it joined on. -/
theorem frames_belong_call : ∃ h p, ClientRun h p ∧ FramesBelong h ∧
    (h.filter fun e => !e.output.2.isEmpty).length = 2 := by
  obtain ⟨h, p, hr, hc⟩ := exists_run_of_replay step init
    [.attach 0, .transport 0 .onClientOpen, .join (utf8 "realm"), .runDispatched none,
      .message 0 ⟨[.integer 2, .integer 7]⟩ none,
      .message 0 ⟨[.integer 10, .integer 1, .string (utf8 "f"), .null]⟩ none]
    (fun h _ => decide (Meets StaysBound h) &&
      decide ((h.filter fun e => !e.output.2.isEmpty).length = 2)) (by decide)
  simp only [Bool.and_eq_true, decide_eq_true_eq] at hc
  exact ⟨h, p, hr, frames_belong hr hc.1, hc.2⟩

/-- The first frame on a second transport is an ERROR. -/
theorem not_frames_belong : ¬ ∀ h p, ClientRun h p → FramesBelong h := by
  intro hall
  obtain ⟨h, p, hr, hc⟩ := exists_run_of_replay step init
    [.attach 0, .transport 0 .onClientOpen, .join (utf8 "realm"), .runDispatched none,
      .message 0 ⟨[.integer 2, .integer 7]⟩ none, .transport 0 .onClientClose, .detach 0,
      .attach 1, .transport 1 .onClientOpen,
      .message 1 ⟨[.integer 10, .integer 1, .string (utf8 "f"), .null]⟩ none]
    (fun h _ => !decide (FramesBelong h)) (by decide)
  simp [hall h p hr] at hc

end Client
end Barbarossa
