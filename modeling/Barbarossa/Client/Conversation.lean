import Barbarossa.Client.Binding
import Barbarossa.Client.Calls
import Barbarossa.Client.FailedJoin

/-!
# What a client with one `Join` says

The frames of a client that calls `Join` once: a HELLO is the first frame if it is sent at all, and
everything else is sent behind a WELCOME with an id.
-/

namespace Barbarossa
open Barbarossa.Base

namespace Client

/-- The HELLO for a realm. -/
def helloFrame (realm : Bytes) : List Json := [.integer 1, .string realm]

/-- The PING of the heartbeat loop. -/
def pingFrame : List Json := [.integer 4, .object []]

/-- The frame that was handed over. -/
def frame? : Effect → Option (List Json)
  | .send _ frame _ => some frame
  | .invoked _ _ => none

/-- The frames that a step handed over. -/
def framesOf (e : ClientEntry) : List (List Json) := e.output.2.filterMap frame?

/-- A HELLO that waits to be sent. -/
def waitsHello : Dispatched → Bool
  | .hello _ => true
  | .ping _ | .pingFailed _ => false

/-- The server gives the session an id. -/
def welcomes : Action → Bool
  | .message _ m _ =>
    match m.received with
    | .welcome (.ok sessionId) => sessionId ≠ 0
    | _ => false
  | _ => false

/-- The invariant of a run with one `Join`. -/
structure Speaking (h : ClientHistory) (p : Process Client Fault) : Prop where
  fresh : joinCount h = 0 → p.state.session.state = .closed
  unidentified : p.state.session.state ≠ .established → p.state.session.sessionId = 0
  welcomed : p.state.session.sessionId ≠ 0 → ∃ e ∈ h, welcomes e.action = true ∧
    e.after.state.session.sessionId ≠ 0
  spoken : ∀ e ∈ h, ∀ frame ∈ framesOf e, isHello frame = false →
    p.state.session.sessionId ≠ 0
  greeted : p.state.session.ioContext.countP waitsHello +
    h.countP (fun e => (framesOf e).any isHello) ≤ joinCount h

variable {h : ClientHistory} {p p' : Process Client Fault} {a : Action}
  {o : Outcome Exception Fault PUnit × List Effect}

private theorem frame_of_sendOutput {net : Net} {s : Session} {m : Message} {b : Bool}
    {frame : List Json} (hf : frame ∈ (s.sendOutput net m b).filterMap frame?) :
    frame = m.fields ∧ (b = true → s.sessionId ≠ 0) := by
  obtain ⟨x, hx, hframe⟩ := List.mem_filterMap.mp hf
  obtain ⟨t, hroute, -, rfl⟩ := Session.mem_sendOutput.mp hx
  exact ⟨(Option.some.inj hframe).symm, (Session.route_eq_ok.mp hroute).2.2⟩

/-- What a client hands over with an action: the HELLO at the head of its queue while it has no id,
and with one the PING at the head of its queue, or the reply to a message. -/
inductive Utters (c : Client) : Action → List Json → Prop
  | hello (ec : Option Bytes) (realm : Bytes) (rest : List Dispatched)
      (hq : c.session.ioContext = .hello ⟨helloFrame realm⟩ :: rest)
      (hid : c.session.sessionId = 0) : Utters c (.runDispatched ec) (helloFrame realm)
  | ping (ec : Option Bytes) (rest : List Dispatched)
      (hq : c.session.ioContext = .ping ⟨pingFrame⟩ :: rest) (hid : c.session.sessionId ≠ 0) :
      Utters c (.runDispatched ec) pingFrame
  | reply (t : TransportId) (m : Message) (ec : Option Bytes) (frame : List Json)
      (hreply : isReply frame = true) (hid : c.session.sessionId ≠ 0) :
      Utters c (.message t m ec) frame

/-- Every frame of a step is one of these. -/
theorem utters_of_step (hs : step p a = some (o, p'))
    (hbuilt : ∀ d ∈ p.state.session.ioContext, Built d) {frame : List Json}
    (hf : frame ∈ framesOf ⟨p, a, o, p'⟩) : Utters p.state a frame := by
  unfold framesOf at hf
  dsimp only at hf
  rw [(step_facts hs).output] at hf
  cases a with
  | runDispatched ec =>
    simp only [outputAfter] at hf
    cases hq : p.state.session.ioContext with
    | nil =>
      rw [hq] at hf
      cases hf
    | cons d rest =>
      rw [hq] at hf
      have hd := hbuilt d (by rw [hq]; exact List.mem_cons_self)
      cases d with
      | hello m =>
        obtain ⟨realm, rfl⟩ := hd
        dsimp only at hf
        unfold Session.helloOutput at hf
        split at hf
        · cases hf
        · next hid =>
          obtain ⟨rfl, -⟩ := frame_of_sendOutput hf
          exact .hello ec realm rest hq (by simpa using hid)
      | ping m =>
        obtain rfl := hd
        obtain ⟨rfl, hid⟩ := frame_of_sendOutput hf
        exact .ping ec rest hq (hid rfl)
      | pingFailed e => cases hf
  | message t m ec =>
    obtain ⟨x, hx, hframe⟩ := List.mem_filterMap.mp hf
    have hx : x ∈ p.state.session.onMessageOutput (p.state.net ec) m.received := hx
    cases x with
    | invoked operation arguments => cases hframe
    | send u f ec' =>
      cases hframe
      unfold Session.onMessageOutput at hx
      split at hx
      · obtain ⟨hroute, hreply⟩ := Session.send_mem_callOutput hx
        refine .reply t m ec _ ?_ ((Session.route_eq_ok.mp hroute).2.2 rfl)
        rcases hreply with rfl | ⟨result, rfl⟩
        · rfl
        · rfl
      · cases hx
  | _ => cases hf

/-- The tag of a reply is neither that of a HELLO nor that of a PING. -/
theorem tag_of_isReply {frame : List Json} (hf : isReply frame = true) :
    isHello frame = false ∧ frame ≠ pingFrame := by
  cases frame with
  | nil => cases hf
  | cons tag fields =>
    simp only [isReply, List.head?_cons, Option.some.injEq, Bool.or_eq_true,
      decide_eq_true_eq] at hf
    rcases hf with rfl | rfl <;> exact ⟨rfl, by simp [pingFrame]⟩

private theorem waiting_step (hs : step p a = some (o, p'))
    (hbuilt : ∀ d ∈ p.state.session.ioContext, Built d) :
    p'.state.session.ioContext.countP waitsHello +
        (if (framesOf ⟨p, a, o, p'⟩).any isHello then 1 else 0) ≤
      p.state.session.ioContext.countP waitsHello + if isJoin a then 1 else 0 := by
  by_cases hsent : (framesOf ⟨p, a, o, p'⟩).any isHello = true
  · obtain ⟨frame, hframe, hhello⟩ := List.any_eq_true.mp hsent
    cases utters_of_step hs hbuilt hframe with
    | hello ec realm rest hq hid =>
      rw [if_pos hsent, (step_facts hs).session]
      simp [sessionAfter, hq, List.countP_cons, waitsHello]
    | ping ec rest hq hid => cases hhello
    | reply t m ec _ hreply hid =>
      rw [(tag_of_isReply hreply).1] at hhello
      cases hhello
  · rw [if_neg hsent, Nat.add_zero, (step_facts hs).session]
    cases a with
    | join realm => simp [sessionAfter, isJoin, List.countP_append, waitsHello]
    | runDispatched ec =>
      simp only [sessionAfter]
      split
      · exact Nat.le_add_right _ _
      · next hq =>
        rw [hq, List.countP_cons]
        simp only [Session.afterHello_frame]
        omega
      · next m rest hq =>
        rw [hq, List.countP_cons]
        rcases Session.afterPing_ioContext (p.state.net ec) m
          { p.state.session with ioContext := rest } with hsame | ⟨e, -, hfront⟩
        · rw [hsame]
          dsimp only
          omega
        · rw [hfront, List.countP_cons_of_neg (by simp [waitsHello])]
          dsimp only
          omega
      · next hq =>
        rw [hq, List.countP_cons]
        dsimp only
        omega
    | message t m ec => simp [sessionAfter]
    | hearbeat =>
      simp only [sessionAfter, Session.afterHearbeat_ioContext]
      split
      · simp [List.countP_append, waitsHello]
      · exact Nat.le_add_right _ _
    | attach t | detach t =>
      simp only [sessionAfter]
      split <;> exact Nat.le_add_right _ _
    | _ => exact Nat.le_add_right _ _

private theorem Speaking.session_step (hi : Speaking h p) (hone : isJoin a = true → joinCount h = 0)
    (hs : step p a = some (o, p')) :
    (joinCount (⟨p, a, o, p'⟩ :: h) = 0 → p'.state.session.state = .closed) ∧
    (p'.state.session.state ≠ .established → p'.state.session.sessionId = 0) ∧
    (p.state.session.sessionId ≠ 0 → p'.state.session.sessionId = p.state.session.sessionId) ∧
    (p'.state.session.sessionId ≠ p.state.session.sessionId →
      p'.state.session.sessionId ≠ 0 → welcomes a = true) := by
  have hf := step_facts hs
  rw [hf.session, joinCount_cons]
  by_cases hjoin : isJoin a = true
  · cases a with
    | join realm =>
      have hclosed := hi.fresh (hone rfl)
      have hid := hi.unidentified (by simp [hclosed])
      refine ⟨?_, fun _ => hid, fun _ => rfl, fun hne => absurd rfl hne⟩
      intro hz
      simp [isJoin] at hz
    | _ => cases hjoin
  · have hjoin : isJoin a = false := by simpa using hjoin
    by_cases hw : isWelcome a = true
    · by_cases hes : p.state.session.state = .establishing
      · have hid := hi.unidentified (by simp [hes])
        have hestablished := sessionAfter_of_welcome hw hes
        refine ⟨?_, fun hne => absurd hestablished hne, fun hne => absurd hid hne, ?_⟩
        · intro hz
          have hclosed := hi.fresh (by simpa [hjoin] using hz)
          rw [hes] at hclosed
          cases hclosed
        · intro hne hnonzero
          cases a with
          | message t m ec =>
            simp only [sessionAfter, Session.sessionId_after] at hne hnonzero
            split at hnonzero
            · next sessionId hoffer =>
              obtain ⟨hr, -⟩ := Session.joinOffer_eq_ok hoffer
              simp [welcomes, hr, hnonzero]
            · exact absurd hid hnonzero
          | _ => cases hw
      · rw [sessionAfter_of_refused hw hes]
        refine ⟨?_, hi.unidentified, fun _ => rfl, fun hne => absurd rfl hne⟩
        simpa [hjoin] using hi.fresh
    · obtain ⟨hstate, hnothing⟩ := sessionAfter_of_quiet hf.enabled hjoin (by simpa using hw)
      rw [hstate, hnothing.sessionId]
      refine ⟨?_, hi.unidentified, fun _ => rfl, fun hne => absurd rfl hne⟩
      simpa [hjoin] using hi.fresh

private theorem Speaking.step (hi : Speaking h p) (hone : isJoin a = true → joinCount h = 0)
    (hs : Client.step p a = some (o, p'))
    (hbuilt : ∀ d ∈ p.state.session.ioContext, Built d) : Speaking (⟨p, a, o, p'⟩ :: h) p' := by
  obtain ⟨hfresh, hunidentified, hkeeps, hwelcomes⟩ := hi.session_step hone hs
  refine ⟨hfresh, hunidentified, ?_, ?_, ?_⟩
  · intro hid
    by_cases hsame : p'.state.session.sessionId = p.state.session.sessionId
    · obtain ⟨e, he, hw⟩ := hi.welcomed (by rwa [hsame] at hid)
      exact ⟨e, List.mem_cons_of_mem _ he, hw⟩
    · exact ⟨_, List.mem_cons_self, hwelcomes hsame hid, hid⟩
  · intro e he frame hframe hhello
    have hid : p.state.session.sessionId ≠ 0 := by
      rcases List.mem_cons.mp he with rfl | he
      · cases utters_of_step hs hbuilt hframe with
        | hello ec realm rest hq hid => cases hhello
        | ping ec rest hq hid => exact hid
        | reply t m ec _ hreply hid => exact hid
      · exact hi.spoken e he frame hframe hhello
    rw [hkeeps hid]
    exact hid
  · have hwaiting := waiting_step hs hbuilt
    have hgreeted := hi.greeted
    rw [List.countP_cons, joinCount_cons]
    dsimp only at hwaiting ⊢
    omega

/-- The invariant holds in every run with one `Join`. -/
theorem speaking (hr : ClientRun h p) (hone : joinCount h ≤ 1) : Speaking h p := by
  have hi : Speaking h p ∧ ∀ d ∈ p.state.session.ioContext, Built d := by
    refine hr.invariant_of_meets (fun h _ a => isJoin a = true → joinCount h = 0)
      (fun h p => Speaking h p ∧ ∀ d ∈ p.state.session.ioContext, Built d) ?_ ?_
      (meets_first_join hone)
    · refine ⟨⟨fun _ => rfl, fun _ => rfl, fun hne => absurd rfl hne, ?_, Nat.zero_le _⟩, ?_⟩
      · exact fun e he => by cases he
      · exact fun d hd => by cases hd
    · intro h p a o p' hi hc hs
      refine ⟨hi.1.step hc hs hi.2, fun d hd => ?_⟩
      rw [(step_facts hs).session] at hd
      rcases mem_ioContext_sessionAfter hd with hold | hnew
      · exact hi.2 d hold
      · exact hnew
  exact hi.1

private theorem hello_mem_sessionAfter {c : Client} {m : Message}
    (hm : .hello m ∈ (c.sessionAfter a).ioContext) :
    .hello m ∈ c.session.ioContext ∨ ∃ realm, a = .join realm ∧ m = ⟨helloFrame realm⟩ := by
  cases a with
  | join realm =>
    simp only [sessionAfter, List.mem_append, List.mem_singleton] at hm
    rcases hm with hold | hnew
    · exact .inl hold
    · cases hnew
      exact .inr ⟨realm, rfl, rfl⟩
  | runDispatched ec =>
    left
    simp only [sessionAfter] at hm
    split at hm
    · exact hm
    · next hq =>
      rw [hq]
      exact List.mem_cons_of_mem _ (by simpa using hm)
    · next m' rest hq =>
      rw [hq]
      rcases Session.afterPing_ioContext (c.net ec) m' { c.session with ioContext := rest } with
        hsame | ⟨e, -, hfront⟩
      · rw [hsame] at hm
        exact List.mem_cons_of_mem _ hm
      · rw [hfront] at hm
        exact List.mem_cons_of_mem _ (by simpa using hm)
    · next hq =>
      rw [hq]
      exact List.mem_cons_of_mem _ hm
  | message t m' ec =>
    left
    simpa [sessionAfter] using hm
  | attach t | detach t =>
    left
    simp only [sessionAfter] at hm
    split at hm <;> exact hm
  | hearbeat =>
    left
    simp only [sessionAfter, Session.afterHearbeat_ioContext] at hm
    split at hm
    · rcases List.mem_append.mp hm with hold | hnew
      · exact hold
      · cases List.mem_singleton.mp hnew
    · exact hm
  | _ => exact .inl hm

private theorem joined_of_waiting (hr : ClientRun h p) {m : Message}
    (hm : .hello m ∈ p.state.session.ioContext) :
    ∃ e ∈ h, ∃ realm, e.action = .join realm ∧ m = ⟨helloFrame realm⟩ := by
  obtain ⟨e, he, hnot, hafter⟩ := hr.exists_becomes
    (P := fun p => .hello m ∈ p.state.session.ioContext) (fun hinit => by cases hinit) hm
  obtain ⟨older, -, hs⟩ := hr.of_mem he
  rw [(step_facts hs).session] at hafter
  obtain ⟨realm, ha, rfl⟩ := (hello_mem_sessionAfter hafter).resolve_left hnot
  exact ⟨e, he, realm, ha, rfl⟩

/-- What a step of a run with one `Join` sends: the HELLO of that `Join`, before anything else, or a
frame behind the WELCOME that gave the session its id. -/
theorem turn_of_run {newer older : ClientHistory} {e : ClientEntry}
    (hr : ClientRun (newer ++ e :: older) p) (hone : joinCount (newer ++ e :: older) ≤ 1)
    {frame : List Json} (hf : frame ∈ framesOf e) :
    (∃ realm, frame = helloFrame realm ∧ (∃ d ∈ older, d.action = .join realm) ∧
      ∀ d ∈ older, framesOf d = []) ∨
    (frame = pingFrame ∨ isReply frame = true) ∧ ∃ d ∈ older, welcomes d.action = true ∧
      d.after.state.session.sessionId ≠ 0 := by
  obtain ⟨hr', hs⟩ := hr.of_append
  have hold : joinCount older ≤ 1 := by
    have hsum : joinCount (newer ++ e :: older) = joinCount newer + joinCount (e :: older) :=
      List.countP_append
    rw [hsum, joinCount_cons] at hone
    omega
  have hi := speaking hr' hold
  obtain ⟨before, a, o, after⟩ := e
  have hbuilt := built_of_mem_ioContext hr'
  dsimp only at hs hi hr' hbuilt
  cases utters_of_step hs hbuilt hf with
  | ping ec rest hq hid => exact .inr ⟨.inl rfl, hi.welcomed hid⟩
  | reply t m ec _ hreply hid => exact .inr ⟨.inr hreply, hi.welcomed hid⟩
  | hello ec realm rest hq hid =>
    left
    obtain ⟨d, hd, realm', hjoin, heq⟩ := joined_of_waiting hr' (m := ⟨helloFrame realm⟩)
      (by rw [hq]; exact List.mem_cons_self)
    cases heq
    refine ⟨realm, rfl, ⟨d, hd, hjoin⟩, fun d hd => ?_⟩
    rw [List.eq_nil_iff_forall_not_mem]
    intro frame hframe
    cases hhello : isHello frame with
    | false => exact hi.spoken d hd frame hframe hhello hid
    | true =>
      -- One HELLO waits, so none was sent.
      have hgreeted := hi.greeted
      rw [hq, List.countP_cons_of_pos rfl] at hgreeted
      have hnone : older.countP (fun e => (framesOf e).any isHello) = 0 := by omega
      rw [List.countP_eq_zero] at hnone
      exact hnone d hd (List.any_eq_true.mpr ⟨frame, hframe, hhello⟩)

end Client
end Barbarossa
