import Barbarossa.Program.Stopping

/-!
# The threads that are in handlers

A handler that satisfied a promise for which another thread waits is recorded with its thread up to
its end. No other thread takes handlers in between, so at most one lambda and one callback are under
way, and the thread that is in one is neither gone nor in another.
-/

namespace Barbarossa
open Barbarossa.Base

namespace Client

variable {c : Client} {b : Action}

private theorem resetting_afterHearbeat {s : Session}
    (h : s.afterHearbeat.hearbeatThread = some .resetting) :
    s.hearbeatThread = some .judging ∧ s.pongReceived.offers ≠ [] ∧
      s.pongReceived.result ≠ some (.ok false) := by
  unfold Session.afterHearbeat at h
  cases ht : s.hearbeatThread with
  | none => simp [ht] at h
  | some point =>
    cases point with
    | judging =>
      simp only [ht] at h
      cases hr : s.pongReceived.result with
      | none => simp [hr, ht] at h
      | some r =>
        have hne : s.pongReceived.offers ≠ [] := by
          intro hnil
          simp [Promise.result, hnil] at hr
        refine ⟨rfl, hne, ?_⟩
        rintro ⟨⟩
        simp only [hr, Option.some.injEq] at h
        split at h <;> cases h
    | dispatched | waiting | expired =>
      simp only [ht, Option.some.injEq] at h
      split at h <;> cases h
    | _ => simp [ht] at h

/-- The loop comes to the point before it replaces its promise only from a verdict other than false,
and stays there for the other threads. -/
theorem resetting_sessionAfter (h : (c.sessionAfter b).hearbeatThread = some .resetting) :
    c.session.hearbeatThread = some .resetting ∧ c.resets b = false ∨
      c.session.hearbeatThread = some .judging ∧ c.session.pongReceived.offers ≠ [] ∧
        c.session.pongReceived.result ≠ some (.ok false) := by
  cases b with
  | hearbeat =>
    exact .inr (resetting_afterHearbeat h)
  | hearbeatWoken => cases h
  | message t m ec =>
    left
    refine ⟨?_, rfl⟩
    by_cases hr : m.received = .pong
    · simpa [sessionAfter, hr, Session.after] using h
    · rcases (Session.after_of_not_pong (s := c.session) hr).2 with hsame | ⟨-, hidle⟩
      · exact hsame.symm.trans h
      · cases hidle.symm.trans h
  | runDispatched ec =>
    left
    refine ⟨?_, rfl⟩
    simp only [sessionAfter] at h
    split at h <;> simpa using h
  | attach t | detach t =>
    left
    refine ⟨?_, rfl⟩
    simp only [sessionAfter] at h
    split at h <;> exact h
  | _ => exact .inl ⟨h, rfl⟩

/-- Whatever is done, a promise that was set to false stays so until the loop replaces it, and the
loop ends before. -/
theorem refused_sessionAfter (hr : c.session.pongReceived.result = some (.ok false))
    (ht : c.session.hearbeatThread ≠ some .resetting) (b : Action) :
    (c.sessionAfter b).pongReceived.result = some (.ok false) ∧
      (c.sessionAfter b).hearbeatThread ≠ some .resetting := by
  constructor
  · have hkeeps : c.resets b = false := by
      cases b with
      | hearbeat => simpa [resets] using ht
      | _ => rfl
    have hoffers := pong_offers_after c b
    rw [hkeeps, if_neg (by simp)] at hoffers
    exact Promise.result_of_offers_append hr hoffers
  · intro h
    rcases resetting_sessionAfter h with ⟨hreset, -⟩ | ⟨-, -, hne⟩
    · exact ht hreset
    · exact hne hr

end Client

namespace Program

variable {text : JsonText} {realm : Bytes} {h : ProgramHistory}
  {p p' : Process Program ProgramFault} {a : ProgramAction}
  {o : Outcome Exception ProgramFault PUnit × List Effect}

/-- The lambda of a failed PING and the thread that runs it. -/
structure Pinging (p : Program) : Prop where
  recorded : p.client.failure.isSome = true → p.pinging.isSome = true
  refused : p.pinging.isSome = true → p.client.session.pongReceived.result = some (.ok false) ∧
    p.client.session.hearbeatThread ≠ some .resetting
  judged : p.client.session.hearbeatThread = some .resetting →
    p.client.session.pongReceived.offers ≠ []

/-- A step of a lambda. -/
def isLambda : ProgramAction → Bool
  | .runDispatched _ _ | .pingFailed | .pingOver => true
  | _ => false

/-- Only a lambda begins or ends a failure. -/
theorem failure_of_other (hr : ProgramRun text realm h p) (hs : step text p a = some (o, p'))
    (ha : isLambda a = false) : p'.state.client.failure = p.state.client.failure := by
  have hfacts := step_facts_of_run hr hs
  cases hb : p.state.clientAction text a with
  | none => rw [(hfacts.idle hb).1]
  | some b =>
    obtain ⟨out, hstep, -⟩ := hfacts.performs b hb
    have hfront := Client.restsInFront_of_run (clientRun hr)
    have hfailure := Client.failure_sessionAfter (Client.step_facts hstep).session hfront
    cases performs_of_clientAction hb with
    | runDispatched caller ec | pingFailed => cases ha
    | call ec b next hc => cases hc <;> exact hfailure
    | _ => exact hfailure

private theorem Pinging.recorded_step (hr : ProgramRun text realm h p)
    (hs : step text p a = some (o, p')) (hf : p'.fault = none) (hi : Pinging p.state)
    (hfailure : p'.state.client.failure.isSome = true) : p'.state.pinging.isSome = true := by
  have hfacts := step_facts_of_run hr hs
  rw [hfacts.pinging hf]
  cases ha : isLambda a with
  | false =>
    rw [failure_of_other hr hs ha] at hfailure
    cases a with
    | runDispatched caller ec | pingOver => cases ha
    | _ => exact hi.recorded hfailure
  | true =>
    cases a with
    | runDispatched caller ec => simp [pingingAfter, hfailure]
    | pingFailed => exact hfacts.enabled.1
    | pingOver =>
      rw [(hfacts.idle rfl).1, hfacts.enabled.2.1] at hfailure
      cases hfailure
    | _ => cases ha

private theorem Pinging.refused_step (hr : ProgramRun text realm h p)
    (hs : step text p a = some (o, p')) (hf : p'.fault = none) (hi : Pinging p.state)
    (hpinging : p'.state.pinging.isSome = true) :
    p'.state.client.session.pongReceived.result = some (.ok false) ∧
      p'.state.client.session.hearbeatThread ≠ some .resetting := by
  have hfacts := step_facts_of_run hr hs
  rw [hfacts.pinging hf] at hpinging
  have hkeep : p.state.pinging.isSome = true →
      p'.state.client.session.pongReceived.result = some (.ok false) ∧
        p'.state.client.session.hearbeatThread ≠ some .resetting := by
    intro hold
    obtain ⟨hresult, hthread⟩ := hi.refused hold
    cases hb : p.state.clientAction text a with
    | none =>
      rw [(hfacts.idle hb).1]
      exact ⟨hresult, hthread⟩
    | some b =>
      rw [(survives hr hs hf hb).session]
      exact Client.refused_sessionAfter hresult hthread b
  cases a with
  | pingOver => cases hpinging
  | runDispatched caller ec =>
    -- The lambda failed to send its PING, and nobody had satisfied the promise before.
    have hv := survives hr hs hf (b := .runDispatched ec) rfl
    have hfront := Client.restsInFront_of_run (clientRun hr)
    have hfailure := Client.failure_sessionAfter hv.session hfront
    have hfailed : p'.state.client.failure.isSome = true := by
      by_contra hnone
      simp [pingingAfter, hnone] at hpinging
    dsimp only at hfailure
    rw [hfailure] at hfailed
    cases hsat : p.state.client.session.pongReceived.satisfied with
    | true => simp [hsat] at hfailed
    | false =>
      simp only [hsat, Bool.false_eq_true, if_false, Client.cause, Option.isSome_map] at hfailed
      obtain ⟨e, he⟩ := Option.isSome_iff_exists.mp hfailed
      have hopen := Promise.satisfied_eq_false.mp hsat
      rw [hv.session]
      constructor
      · unfold Promise.result
        rw [Client.pong_offers_after, hopen]
        simp [Client.resets, Client.pongOffers, he]
      · intro hreset
        rcases Client.resetting_sessionAfter hreset with ⟨hold, -⟩ | ⟨-, hne, -⟩
        · exact hi.judged hold hopen
        · exact hne hopen
  | _ => exact hkeep hpinging

private theorem Pinging.judged_step (hr : ProgramRun text realm h p)
    (hs : step text p a = some (o, p')) (hf : p'.fault = none) (hi : Pinging p.state)
    (hreset : p'.state.client.session.hearbeatThread = some .resetting) :
    p'.state.client.session.pongReceived.offers ≠ [] := by
  cases hb : p.state.clientAction text a with
  | none =>
    rw [((step_facts_of_run hr hs).idle hb).1] at hreset ⊢
    exact hi.judged hreset
  | some b =>
    have hv := survives hr hs hf hb
    rw [hv.session] at hreset ⊢
    rw [Client.pong_offers_after]
    rcases Client.resetting_sessionAfter hreset with ⟨hold, hkeeps⟩ | ⟨hjudging, hne, -⟩
    · simp [hkeeps, hi.judged hold]
    · have hkeeps : p.state.client.resets b = false := by
        cases b with
        | hearbeat => simp [Client.resets, hjudging]
        | _ => rfl
      simp [hkeeps, hne]

/-- While the program runs, the lambda of a failed PING is on a thread until it is over, and by then
the promise of the loop is false and stays so. -/
theorem pinging_of_run (hr : ProgramRun text realm h p) (hf : p.fault = none) :
    Pinging p.state := by
  refine invariant_of_running (fun _ p => Pinging p) ?_ ?_ hr hf
  · constructor
    · intro hfailure
      cases hfailure
    · intro hpinging
      cases hpinging
    · intro hreset
      cases hreset
  · exact fun _ _ _ _ _ hr _ hi hs hf =>
      ⟨hi.recorded_step hr hs hf, hi.refused_step hr hs hf, hi.judged_step hr hs hf⟩

/-! ### Threads -/

/-- The handlers in which a thread can be. -/
theorem busy_iff {p : Program} {caller : Caller} : p.busy caller = true ↔
    p.signal = .leaving caller ∨ p.pinging = some caller ∨ p.failing = some caller := by
  simp [busy, or_assoc]

/-- A thread that takes handlers is in none, the context is not stopped, and the main thread is in
`io_context.run()`. -/
theorem runsHandlers_iff {p : Program} {caller : Caller} : p.runsHandlers caller = true ↔
    p.stopped = false ∧ p.busy caller = false ∧
      match caller with
      | .worker => (p.client.transports transport).running = true
      | .other => p.point = .running := by
  cases caller <;> simp [runsHandlers, and_assoc]

/-- The threads that are in handlers. -/
structure Handling (p : Program) : Prop where
  fails : (p.client.transports transport).failing = p.failing.isSome
  worker : p.busy .worker = true → (p.client.transports transport).running = true
  main : p.busy .other = true → p.point = .running
  pinging : ∀ caller, p.pinging = some caller → p.failing ≠ some caller ∧ p.signal ≠ .leaving caller
  failing : ∀ caller, p.failing = some caller → p.signal ≠ .leaving caller
  left : p.pinging = some .other ∨ p.failing = some .other →
    p.stopped = true ∨ p.signal = .leaving .worker

private theorem busy_after (hr : ProgramRun text realm h p) (hs : step text p a = some (o, p'))
    (hf : p'.fault = none) {caller : Caller} (hbusy : p'.state.busy caller = true) :
    p.state.busy caller = true ∨ p.state.runsHandlers caller = true ∧ isOther a = true := by
  have hfacts := step_facts_of_run hr hs
  have henabled := hfacts.enabled
  rw [busy_iff, hfacts.signal hf, hfacts.pinging hf, hfacts.failing hf] at hbusy
  rw [busy_iff]
  cases a with
  | signal d =>
    rcases hbusy with hsignal | hold
    · cases hsignal
      exact .inr ⟨henabled.1, rfl⟩
    · exact .inl (.inr hold)
  | signalStop =>
    rcases hbusy with hsignal | hold
    · cases hsignal
    · exact .inl (.inr hold)
  | runDispatched d ec =>
    rcases hbusy with hold | hpinging | hold
    · exact .inl (.inl hold)
    · obtain ⟨-, hd⟩ := Option.ite_none_right_eq_some.mp hpinging
      cases hd
      exact .inr ⟨henabled.1, rfl⟩
    · exact .inl (.inr (.inr hold))
  | pingOver =>
    rcases hbusy with hold | hpinging | hold
    · exact .inl (.inl hold)
    · cases hpinging
    · exact .inl (.inr (.inr hold))
  | onClientFail d =>
    rcases hbusy with hold | hold | hfailing
    · exact .inl (.inl hold)
    · exact .inl (.inr (.inl hold))
    · obtain ⟨-, hd⟩ := Option.ite_none_right_eq_some.mp hfailing
      cases hd
      exact .inr ⟨henabled, rfl⟩
  | onClientFailed =>
    rcases hbusy with hold | hold | hfailing
    · exact .inl (.inl hold)
    · exact .inl (.inr (.inl hold))
    · cases hfailing
  | _ => exact .inl hbusy

private theorem Handling.fails_step (hr : ProgramRun text realm h p)
    (hs : step text p a = some (o, p')) (hf : p'.fault = none) (hi : Handling p.state) :
    (p'.state.client.transports transport).failing = p'.state.failing.isSome := by
  have hfacts := step_facts_of_run hr hs
  rw [hfacts.failing hf]
  cases hb : p.state.clientAction text a with
  | none =>
    rw [(hfacts.idle hb).1]
    cases a with
    | onClientFail d | onClientFailed => cases hb
    | _ => exact hi.fails
  | some b =>
    have htransport := (survives hr hs hf hb).transport
    have hperforms := performs_of_clientAction hb
    cases hperforms with
    | onClientFail d =>
      simp only [failingAfter]
      cases (p'.state.client.transports transport).failing <;> rfl
    | onClientFailed =>
      rw [htransport]
      rfl
    | call ec b next hc =>
      rw [htransport]
      cases hc with
      | attach hp | detach hp =>
        simp only [Client.transportAfter]
        split <;> exact hi.fails
      | _ => exact hi.fails
    | leaveDisconnect close =>
      rw [htransport]
      simp only [Client.transportAfter]
      split
      · split <;> exact hi.fails
      · exact hi.fails
    | _ =>
      rw [htransport]
      exact hi.fails

private theorem Handling.worker_step (hr : ProgramRun text realm h p)
    (hs : step text p a = some (o, p')) (hf : p'.fault = none) (hi : Handling p.state)
    (hbusy : p'.state.busy .worker = true) :
    (p'.state.client.transports transport).running = true := by
  have hfacts := step_facts_of_run hr hs
  have hrunning : (p.state.client.transports transport).running = true := by
    rcases busy_after hr hs hf hbusy with hold | ⟨hruns, -⟩
    · exact hi.worker hold
    · exact (runsHandlers_iff.mp hruns).2.2
  cases hb : p.state.clientAction text a with
  | none =>
    rw [(hfacts.idle hb).1]
    exact hrunning
  | some b =>
    rw [(survives hr hs hf hb).transport]
    cases performs_of_clientAction hb with
    | workerExit =>
      rcases busy_after hr hs hf hbusy with hold | ⟨hruns, -⟩
      · rw [hfacts.enabled.2] at hold
        cases hold
      · have hstopped := (runsHandlers_iff.mp hruns).1
        rw [hfacts.enabled.1] at hstopped
        cases hstopped
    | call ec b next hc =>
      cases hc with
      | attach hp | detach hp =>
        simp only [Client.transportAfter]
        split <;> exact hrunning
      | _ => exact hrunning
    | leaveDisconnect close =>
      simp only [Client.transportAfter]
      split
      · split <;> exact hrunning
      · exact hrunning
    | _ => exact hrunning

private theorem Handling.main_step (hr : ProgramRun text realm h p)
    (hs : step text p a = some (o, p')) (hf : p'.fault = none) (hi : Handling p.state)
    (hbusy : p'.state.busy .other = true) : p'.state.point = .running := by
  cases ha : isOther a with
  | true =>
    rw [point_of_other hr hs hf ha]
    rcases busy_after hr hs hf hbusy with hold | ⟨hruns, -⟩
    · exact hi.main hold
    · exact (runsHandlers_iff.mp hruns).2.2
  | false =>
    rcases busy_after hr hs hf hbusy with hold | ⟨-, hother⟩
    · have hpoint := hi.main hold
      cases a with
      | main ec =>
        cases mainStep_of_step hr hs hf with
        | call b next hc hv hpoint' hstopped =>
          cases hc with
          | _ hp =>
            rw [hp] at hpoint
            cases hpoint
        | returned next hc hclient hpoint' hstopped
        | caught e next hc hhandled hclient hpoint' hstopped =>
          have hwaits := waits_of_return hc
          simp [hpoint] at hwaits
        | move next hc hclient hpoint' hstopped =>
          cases hc with
          | running hp hstopped' hfree =>
            rw [hold] at hfree
            cases hfree
          | _ hp =>
            rw [hp] at hpoint
            cases hpoint
      | _ => cases ha
    · rw [ha] at hother
      cases hother

private theorem left_of_runs (hr : ProgramRun text realm h p) (hf : p.fault = none)
    (hruns : p.state.runsHandlers .other = true) : p.state.signal = .leaving .worker := by
  obtain ⟨hstopped, -, hpoint⟩ := runsHandlers_iff.mp hruns
  have hi := stopping hr hf
  have hsignalled := hi.signalled
  unfold Signalled at hsignalled
  cases hsignal : p.state.signal with
  | awaited =>
    rcases hi.ended (.inr hpoint) with hstops | hne
    · rw [hstopped] at hstops
      cases hstops
    · exact absurd hsignal hne
  | leaving caller =>
    rw [hsignal] at hsignalled
    rw [hsignalled.1]
  | handled =>
    rw [hsignal, hstopped] at hsignalled
    cases hsignalled.2

private theorem Handling.left_step (hr : ProgramRun text realm h p)
    (hs : step text p a = some (o, p')) (hf : p'.fault = none) (hi : Handling p.state)
    (hother : p'.state.pinging = some .other ∨ p'.state.failing = some .other) :
    p'.state.stopped = true ∨ p'.state.signal = .leaving .worker := by
  have hfacts := step_facts_of_run hr hs
  have henabled := hfacts.enabled
  have hkeep : p.state.stopped = true ∨ p.state.signal = .leaving .worker →
      p'.state.stopped = true ∨ p'.state.signal = .leaving .worker := by
    rintro (hstopped | hsignal)
    · exact .inl (stopped_step hr hs hf hstopped)
    · rw [hfacts.signal hf, hfacts.stopped hf]
      cases a with
      | signal d => cases hsignal.symm.trans henabled.2.2
      | signalStop => exact .inl rfl
      | _ => exact .inr hsignal
  apply hkeep
  rw [hfacts.pinging hf, hfacts.failing hf] at hother
  cases a with
  | runDispatched d ec =>
    rcases hother with hpinging | hfailing
    · obtain ⟨-, hd⟩ := Option.ite_none_right_eq_some.mp hpinging
      cases hd
      exact .inr (left_of_runs hr hfacts.running henabled.1)
    · exact hi.left (.inr hfailing)
  | onClientFail d =>
    rcases hother with hpinging | hfailing
    · exact hi.left (.inl hpinging)
    · obtain ⟨-, hd⟩ := Option.ite_none_right_eq_some.mp hfailing
      cases hd
      exact .inr (left_of_runs hr hfacts.running henabled)
  | pingOver =>
    rcases hother with hpinging | hfailing
    · cases hpinging
    · exact hi.left (.inr hfailing)
  | onClientFailed =>
    rcases hother with hpinging | hfailing
    · exact hi.left (.inl hpinging)
    · cases hfailing
  | _ => exact hi.left hother

private theorem free_of_runs {p : Program} {caller : Caller}
    (hruns : p.runsHandlers caller = true) :
    p.signal ≠ .leaving caller ∧ p.pinging ≠ some caller ∧ p.failing ≠ some caller := by
  have hfree := (runsHandlers_iff.mp hruns).2.1
  rw [← Bool.not_eq_true, busy_iff] at hfree
  simpa using hfree

private theorem Handling.single_step (hr : ProgramRun text realm h p)
    (hs : step text p a = some (o, p')) (hf : p'.fault = none) (hi : Handling p.state) :
    (∀ caller, p'.state.pinging = some caller →
      p'.state.failing ≠ some caller ∧ p'.state.signal ≠ .leaving caller) ∧
    ∀ caller, p'.state.failing = some caller → p'.state.signal ≠ .leaving caller := by
  have hfacts := step_facts_of_run hr hs
  have henabled := hfacts.enabled
  rw [hfacts.pinging hf, hfacts.failing hf, hfacts.signal hf]
  cases a with
  | signal d =>
    obtain ⟨-, hpinging, hfailing⟩ := free_of_runs henabled.1
    refine ⟨fun caller hp => ⟨(hi.pinging caller hp).1, ?_⟩, fun caller hp => ?_⟩
    · rintro ⟨⟩
      exact hpinging hp
    · rintro ⟨⟩
      exact hfailing hp
  | signalStop =>
    exact ⟨fun caller hp => ⟨(hi.pinging caller hp).1, by simp [signalAfter]⟩,
      fun caller hp => by simp [signalAfter]⟩
  | runDispatched d ec =>
    obtain ⟨hsignal, -, hfailing⟩ := free_of_runs henabled.1
    refine ⟨fun caller hp => ?_, hi.failing⟩
    obtain ⟨-, hd⟩ := Option.ite_none_right_eq_some.mp hp
    cases hd
    exact ⟨hfailing, hsignal⟩
  | onClientFail d =>
    obtain ⟨hsignal, hpinging, -⟩ := free_of_runs henabled
    refine ⟨fun caller hp => ⟨fun hfail => ?_, (hi.pinging caller hp).2⟩, fun caller hfail => ?_⟩
    · obtain ⟨-, hd⟩ := Option.ite_none_right_eq_some.mp hfail
      cases hd
      exact hpinging hp
    · obtain ⟨-, hd⟩ := Option.ite_none_right_eq_some.mp hfail
      cases hd
      exact hsignal
  | pingOver =>
    refine ⟨fun caller hp => ?_, hi.failing⟩
    cases hp
  | onClientFailed =>
    exact ⟨fun caller hp => ⟨by simp [failingAfter], (hi.pinging caller hp).2⟩,
      fun caller hfail => by cases hfail⟩
  | _ => exact ⟨hi.pinging, hi.failing⟩

/-- While the program runs, the threads in handlers are as recorded. -/
theorem handling (hr : ProgramRun text realm h p) (hf : p.fault = none) : Handling p.state := by
  refine invariant_of_running (fun _ p => Handling p) ?_ ?_ hr hf
  · constructor
    · rfl
    · simp [busy_iff]
    · simp [busy_iff]
    · simp
    · simp
    · simp
  · intro h p a o p' hr _ hi hs hf
    obtain ⟨hpinging, hfailing⟩ := hi.single_step hr hs hf
    exact ⟨hi.fails_step hr hs hf, hi.worker_step hr hs hf, hi.main_step hr hs hf, hpinging,
      hfailing, hi.left_step hr hs hf⟩

/-- At most one thread takes handlers, and none while another one is in the lambda of a failed PING
or in the fail callback. -/
theorem one_runner (hr : ProgramRun text realm h p) (hf : p.fault = none) :
    ¬ (p.state.runsHandlers .worker = true ∧ p.state.runsHandlers .other = true) ∧
      (p.state.pinging.isSome = true ∨ p.state.failing.isSome = true →
        p.state.takesHandlers = false) := by
  have hi := handling hr hf
  have hexcluded : ¬ (p.state.runsHandlers .worker = true ∧ p.state.runsHandlers .other = true) :=
    fun ⟨hworker, hother⟩ => (free_of_runs hworker).1 (left_of_runs hr hf hother)
  refine ⟨hexcluded, fun hbusy => ?_⟩
  have hin : ∃ caller, p.state.pinging = some caller ∨ p.state.failing = some caller := by
    rcases hbusy with hpinging | hfailing
    · obtain ⟨caller, hcaller⟩ := Option.isSome_iff_exists.mp hpinging
      exact ⟨caller, .inl hcaller⟩
    · obtain ⟨caller, hcaller⟩ := Option.isSome_iff_exists.mp hfailing
      exact ⟨caller, .inr hcaller⟩
  obtain ⟨caller, hcaller⟩ := hin
  have hself : p.state.runsHandlers caller ≠ true := fun hruns =>
    hcaller.elim (free_of_runs hruns).2.1 (free_of_runs hruns).2.2
  rw [takesHandlers, Bool.or_eq_false_iff, ← Bool.not_eq_true, ← Bool.not_eq_true]
  cases caller with
  | worker =>
    refine ⟨hself, fun hruns => ?_⟩
    have hleaving := left_of_runs hr hf hruns
    rcases hcaller with hpinging | hfailing
    · exact (hi.pinging .worker hpinging).2 hleaving
    · exact hi.failing .worker hfailing hleaving
  | other =>
    refine ⟨fun hruns => ?_, hself⟩
    rcases hi.left hcaller with hstopped | hleaving
    · rw [(runsHandlers_iff.mp hruns).1] at hstopped
      cases hstopped
    · exact (free_of_runs hruns).1 hleaving

end Program
end Barbarossa
