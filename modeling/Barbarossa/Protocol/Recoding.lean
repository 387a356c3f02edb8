import Barbarossa.Protocol.RoundTrip

/-!
# Messages that are read and sent on

What the typed protocol makes of a text that it reads and encodes again: the second reading finds
the message of the first one, but for the `PongMessage`, which is encoded as a PING.
-/

namespace Barbarossa.Protocol
open Barbarossa.Base

namespace TypedMessage

/-- The message of a text: its type is looked up, and the type's class is asked for it. -/
def receive (text : JsonText) (s : Bytes) : Option TypedMessage :=
  match parse text s with
  | .error _ => none
  | .ok basic =>
    let r := BasicMessage.getMessageType basic
    match r.outcome with
    | .value t =>
      match decoder? t with
      | some fromJson =>
        match (BasicMessage.get fromJson r.state).outcome with
        | .value m => some m
        | _ => none
      | none => none
    | _ => none

/-- The text of the message of a text. -/
def resend (text : JsonText) (s : Bytes) : Option Bytes :=
  (receive text s).map fun m => text.dump m.toJson

/-- What is read of the encoding of a message. -/
def relayed : TypedMessage → TypedMessage
  | .pong msg => .ping ⟨msg.details⟩
  | m => m

/-! ### What the decoders return -/

private theorem yields_stringAndDetails {α : Type} {build : Bytes → Json → α} {good : α → Prop}
    (hgood : ∀ s details, details ≠ .null → good (build s details)) :
    Exec.Yields (stringAndDetails build) good := by
  unfold stringAndDetails
  refine (Exec.yields_true _).bind fun x _ => (Exec.yields_true _).bind fun s _ =>
    (Exec.yields_true _).bind fun details _ => Exec.yields_pure ?_
  exact hgood s _ (readDetails_ne_null details)

private theorem yields_detailsOnly {α : Type} {build : Json → α} {good : α → Prop}
    (hgood : ∀ details, details ≠ .null → good (build details)) :
    Exec.Yields (detailsOnly build) good := by
  unfold detailsOnly
  refine (Exec.yields_true _).bind fun details _ => Exec.yields_pure ?_
  exact hgood _ (readDetails_ne_null details)

private theorem yields_welcome :
    Exec.Yields WelcomeMessage.fromJson fun msg => msg.details ≠ .null := by
  unfold WelcomeMessage.fromJson
  refine (Exec.yields_true _).bind fun x _ => (Exec.yields_true _).bind fun sessionId _ =>
    (Exec.yields_true _).bind fun details _ => Exec.yields_pure ?_
  exact readDetails_ne_null details

private theorem yields_error :
    Exec.Yields ErrorMessage.fromJson fun msg => msg.details ≠ .null := by
  unfold ErrorMessage.fromJson
  refine (Exec.yields_true _).bind fun x _ => (Exec.yields_true _).bind fun requestType _ =>
    (Exec.yields_true _).bind fun y _ => (Exec.yields_true _).bind fun requestId _ =>
    (Exec.yields_true _).bind fun z _ => (Exec.yields_true _).bind fun error _ =>
    (Exec.yields_true _).bind fun details _ => Exec.yields_pure ?_
  exact readDetails_ne_null details

private theorem yields_class {α : Type} {fromJson : Decoder α} {f : α → TypedMessage}
    {t : MessageTypes} (hf : Exec.Yields fromJson fun msg => (f msg).details ≠ .null)
    (ht : ∀ msg, (f msg).messageType = t) :
    Exec.Yields (do return f (← fromJson)) fun m => m.messageType = t ∧ m.details ≠ .null :=
  hf.bind fun msg hd => Exec.yields_pure ⟨ht msg, hd⟩

/-- The decoder of a type returns messages of the type's class whose details are no null. -/
theorem yields_decoder {t : MessageTypes} {fromJson : Decoder TypedMessage}
    (ht : decoder? t = some fromJson) :
    Exec.Yields fromJson fun m => m.messageType = t ∧ m.details ≠ .null := by
  unfold decoder? at ht
  split at ht
  · next h =>
    cases ht
    subst h
    exact yields_class (yields_stringAndDetails fun s details hd => hd) fun _ => rfl
  split at ht
  · next h =>
    cases ht
    subst h
    exact yields_class yields_welcome fun _ => rfl
  split at ht
  · next h =>
    cases ht
    subst h
    exact yields_class (yields_stringAndDetails fun s details hd => hd) fun _ => rfl
  split at ht
  · next h =>
    cases ht
    subst h
    exact yields_class (yields_detailsOnly fun details hd => hd) fun _ => rfl
  split at ht
  · next h =>
    cases ht
    subst h
    exact yields_class (yields_detailsOnly fun details hd => hd) fun _ => rfl
  split at ht
  · next h =>
    cases ht
    subst h
    exact yields_class yields_error fun _ => rfl
  · cases ht

/-! ### Reading again -/

private theorem details_of_receive {text : JsonText} {s : Bytes} {m : TypedMessage}
    (hm : receive text s = some m) : m.details ≠ .null := by
  unfold receive at hm
  split at hm
  · cases hm
  · dsimp only at hm
    split at hm
    · split at hm
      · next t ht fromJson hd =>
        split at hm
        · next m' hv =>
          cases hm
          exact (yields_decoder hd _ m hv).2
        · cases hm
      · cases hm
    · cases hm

/-- What is read of an encoding has that encoding. -/
@[simp] theorem toJson_relayed (m : TypedMessage) : m.relayed.toJson = m.toJson := by
  cases m <;> rfl

/-- What is read of an encoding is no `PongMessage`. -/
theorem isPong_relayed (m : TypedMessage) : m.relayed.isPong = false := by
  cases m <;> rfl

/-- A message is sent on as it is exactly when it is no `PongMessage`. -/
theorem relayed_eq_iff (m : TypedMessage) : m.relayed = m ↔ m.isPong = false := by
  cases m <;> simp [relayed, isPong]

private theorem receive_of_tagged {text : JsonText} {kept : Json → Prop}
    (hl : text.Lossless kept) {m : TypedMessage} (hk : kept m.toJson) (hp : m.isPong = false) :
    receive text (text.dump m.toJson) = some m.normalized := by
  have hparse : parse text (text.dump m.toJson) = .ok ⟨m.toJson⟩ := by
    rw [parse, hl.round _ hk]
    rfl
  have htype : BasicMessage.getMessageType ⟨m.toJson⟩ = ⟨.value m.messageType, ⟨m.toJson⟩, []⟩ := by
    apply getMessageType_of_element
    rw [element0?_toJson, hp]
    rfl
  obtain ⟨fromJson, hdecoder, hrun⟩ := Option.map_eq_some_iff.mp m.decode_toJson
  have hget : (BasicMessage.get fromJson ⟨m.toJson⟩).outcome = .value m.normalized :=
    congrArg Ran.outcome hrun
  simp only [receive, hparse, htype, hdecoder, hget]

/-- A text that is received and encoded again. The second text is received as the same message, and
for a `PongMessage` as a PING with its details; from then on the text does not change however often
it is sent on. -/
theorem relay_stable {text : JsonText} {kept : Json → Prop} (hl : text.Lossless kept) {s : Bytes}
    {m : TypedMessage} (hm : receive text s = some m) (hk : kept m.toJson) :
    receive text (text.dump m.toJson) = some m.relayed ∧ (m.relayed = m ↔ m.isPong = false) ∧
      ∀ t, resend text s = some t → resend text t = some t := by
  have hd : m.relayed.details ≠ .null := by
    have hnot := details_of_receive hm
    cases m <;> exact hnot
  have hrelayed := receive_of_tagged hl (m.toJson_relayed.symm ▸ hk) m.isPong_relayed
  rw [normalized_of_ne_null hd, toJson_relayed] at hrelayed
  refine ⟨hrelayed, m.relayed_eq_iff, fun t ht => ?_⟩
  unfold resend at ht ⊢
  rw [hm] at ht
  obtain rfl := Option.some.inj ht
  rw [hrelayed, Option.map_some, toJson_relayed]

/-- The texts of a PING and a PONG without details. -/
def pongText : JsonText where
  dump v := if v = .array [.integer 4, .object []] then utf8 "[4,\x7b\x7d]" else utf8 "[5,\x7b\x7d]"
  parse payload :=
    if payload = utf8 "[4,\x7b\x7d]" then .ok (.array [.integer 4, .object []])
    else if payload = utf8 "[5,\x7b\x7d]" then .ok (.array [.integer 5, .object []])
    else .error (.parseError 101)

/-- A PONG is sent on as a PING, and received as one. -/
theorem relay_stable_pong : receive pongText (utf8 "[5,\x7b\x7d]") = some (.pong ⟨.object []⟩) ∧
    receive pongText (utf8 "[4,\x7b\x7d]") = some (.ping ⟨.object []⟩) := by
  have hl : pongText.Lossless fun v =>
      v = .array [.integer 4, .object []] ∨ v = .array [.integer 5, .object []] := by
    constructor
    · rintro v (rfl | rfl) <;> decide
    · rintro v (rfl | rfl) <;> rfl
    · intro payload v hv
      simp only [pongText] at hv
      split at hv
      · cases hv
        exact .inl rfl
      · split at hv
        · cases hv
          exact .inr rfl
        · cases hv
  have hpong : receive pongText (utf8 "[5,\x7b\x7d]") = some (.pong ⟨.object []⟩) := by decide
  exact ⟨hpong, (relay_stable hl hpong (.inl rfl)).1⟩

end TypedMessage

end Barbarossa.Protocol
