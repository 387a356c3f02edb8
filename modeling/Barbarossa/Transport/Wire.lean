import Barbarossa.Message.JsonText
import Barbarossa.Session.Received

/-!
# Messages on the wire

`SendMessage` appends the fields of a message to a JSON array and hands its text to the
websocket client; `RecvMessage` parses a text and writes the elements of the array one by
one into a message of that size. The two loops are inverse to each other.
-/

namespace Barbarossa
open Barbarossa.Base

/-- The kind of data in a websocket message. -/
inductive Opcode where
  | text
  | binary
  deriving DecidableEq, Repr

namespace WebSocketTransport

/-! ### Receiving -/

/-- Write every element at its index; `websocket_transport.ipp:297`. -/
def decodeFields (elements : List Json) : Except Exception Message := do
  let r ← elements.foldlM
    (fun (r : Message × Nat) field => return (← r.1.setField r.2 field, r.2 + 1))
    (Message.ofSize elements.length, 0)
  return r.1

/-- `RecvMessage` of the transport at `transport`, whose handler runs `onMessage`;
`websocket_transport.ipp:279`. A text that is no array is dropped. -/
def recvMessage {ω σ : Type} (text : JsonText) (transport : Lens σ WebSocketTransport)
    (onMessage : HandlerId → Message → Exec Exception Fault ω σ PUnit) (payload : Bytes) :
    Exec Exception Fault ω σ PUnit := do
  match (← Exec.zoom transport Exec.get).handler with
  | none => pure ⟨⟩
  | some handler =>
    match ← Exec.ofExcept (text.parse payload) with
    | .array elements => do
      let message ← Exec.ofExcept (decodeFields elements)
      onMessage handler message
    | _ => pure ⟨⟩

/-- `websocket_transport.ipp:241`. Data that is not text is dropped. -/
def onClientMessage {ω σ : Type} (text : JsonText) (transport : Lens σ WebSocketTransport)
    (onMessage : HandlerId → Message → Exec Exception Fault ω σ PUnit) (opcode : Opcode)
    (payload : Bytes) : Exec Exception Fault ω σ PUnit :=
  if opcode ≠ .text then pure ⟨⟩ else recvMessage text transport onMessage payload

private theorem decodeFields_suffix (written rest : List Json) :
    rest.foldlM (m := Except Exception)
      (fun (r : Message × Nat) field => return (← r.1.setField r.2 field, r.2 + 1))
      (⟨written ++ List.replicate rest.length .null⟩, written.length) =
        .ok (⟨written ++ rest⟩, written.length + rest.length) := by
  induction rest generalizing written with
  | nil => simp [pure, Except.pure]
  | cons field rest ih =>
    have hset : Message.setField ⟨written ++ List.replicate (field :: rest).length .null⟩
        written.length field = .ok ⟨(written ++ [field]) ++ List.replicate rest.length .null⟩ := by
      unfold Message.setField
      rw [if_pos (by simp)]
      simp [List.replicate_succ]
    have hrest := ih (written ++ [field])
    rw [List.length_append, List.length_singleton] at hrest
    rw [List.foldlM_cons, hset]
    simp only [bind, Except.bind, pure, Except.pure] at hrest ⊢
    rw [hrest]
    simp
    omega

/-- The decoder writes exactly the elements, in order. -/
theorem decodeFields_eq (elements : List Json) : decodeFields elements = .ok ⟨elements⟩ := by
  have h := decodeFields_suffix [] elements
  simp only [List.nil_append, List.length_nil] at h
  unfold decodeFields Message.ofSize
  rw [h]
  rfl

/-- A text reaches the handler exactly as the array it denotes. -/
theorem recvMessage_eq {ω σ : Type} (text : JsonText) (transport : Lens σ WebSocketTransport)
    (onMessage : HandlerId → Message → Exec Exception Fault ω σ PUnit) (payload : Bytes) (s : σ) :
    recvMessage text transport onMessage payload s =
      match (transport.get s).handler with
      | none => ⟨.value ⟨⟩, s, []⟩
      | some handler =>
        match text.parse payload with
        | .error e => ⟨.thrown e, s, []⟩
        | .ok (.array elements) => onMessage handler ⟨elements⟩ s
        | .ok _ => ⟨.value ⟨⟩, s, []⟩ := by
  unfold recvMessage
  simp only [Exec.bind_apply, Exec.zoom_apply, Exec.get_apply, transport.set_get,
    Ran.andThen_value, Ran.after_nil]
  cases (transport.get s).handler with
  | none => rfl
  | some handler =>
    cases text.parse payload with
    | error e => rfl
    | ok v =>
      cases v with
      | array elements => simp [decodeFields_eq]
      | _ => rfl

/-- Only a text reaches `RecvMessage`. -/
theorem onClientMessage_eq {ω σ : Type} (text : JsonText) (transport : Lens σ WebSocketTransport)
    (onMessage : HandlerId → Message → Exec Exception Fault ω σ PUnit) (opcode : Opcode)
    (payload : Bytes) (s : σ) :
    onClientMessage text transport onMessage opcode payload s =
      match opcode with
      | .text => recvMessage text transport onMessage payload s
      | .binary => ⟨.value ⟨⟩, s, []⟩ := by
  cases opcode <;> rfl

/-! ### There and back -/

/-- The transport itself. -/
def whole : Lens WebSocketTransport WebSocketTransport where
  get t := t
  set t _ := t
  get_set _ _ := rfl
  set_get _ := rfl
  set_set _ _ _ := rfl

/-- What `RecvMessage` hands to the handler. -/
def delivered (text : JsonText) (t : WebSocketTransport) (payload : Bytes) :
    List (HandlerId × Message) :=
  (recvMessage text whole (fun handler message => Exec.emit (handler, message)) payload t).output

/-- The texts that `SendMessage` hands to the websocket client. -/
def sentTexts (text : JsonText) (self : TransportId) (ec : Option Bytes) (m : Message)
    (t : WebSocketTransport) : List Bytes :=
  (sendMessage self ec m t).output.filterMap fun
    | .send _ frame _ => some (text.dump (.array frame))
    | .invoked _ _ => none

/-- The handler gets one message for a text that denotes an array, and none for any other. -/
theorem delivered_eq (text : JsonText) (t : WebSocketTransport) (payload : Bytes) :
    delivered text t payload =
      match t.handler, text.parse payload with
      | some handler, .ok (.array elements) => [(handler, ⟨elements⟩)]
      | _, _ => [] := by
  unfold delivered
  rw [recvMessage_eq]
  dsimp only [whole]
  cases t.handler with
  | none => rfl
  | some handler =>
    cases text.parse payload with
    | error e => rfl
    | ok v =>
      cases v with
      | array elements => rfl
      | _ => rfl

/-- One text is sent for a message that can be dumped, the one of the array of its fields. -/
theorem sentTexts_eq (text : JsonText) (self : TransportId) (ec : Option Bytes) {m : Message}
    (hd : Json.dumpable (.array m.fields) = true) (t : WebSocketTransport) :
    sentTexts text self ec m t = [text.dump (.array m.fields)] := by
  unfold sentTexts
  rw [sendMessage_eq, if_pos hd]
  rfl

/-- A message and its text: what is sent is delivered once, with the same size and the same field at
every index; and what is delivered is sent as a text of the same array. -/
theorem wire_round_trip {text : JsonText} {kept : Json → Prop} (hl : text.Lossless kept) :
    (∀ m self ec sender (receiver : WebSocketTransport) handler,
      kept (.array m.fields) → receiver.handler = some handler →
        ∃ payload m', sentTexts text self ec m sender = [payload] ∧
          delivered text receiver payload = [(handler, m')] ∧ m'.size = m.size ∧
          ∀ i, m'.fieldJson i = m.fieldJson i) ∧
    (∀ payload receiver handler m, (handler, m) ∈ delivered text receiver payload →
      ∀ self ec sender, ∃ payload' elements, sentTexts text self ec m sender = [payload'] ∧
        text.parse payload = .ok (.array elements) ∧
        text.parse payload' = .ok (.array elements)) := by
  constructor
  · intro m self ec sender receiver handler hk hh
    refine ⟨text.dump (.array m.fields), m, ?_, ?_, rfl, fun _ => rfl⟩
    · exact sentTexts_eq text self ec (hl.dumpable _ hk) sender
    · rw [delivered_eq, hh, hl.round _ hk]
  · intro payload receiver handler m hm self ec sender
    rw [delivered_eq] at hm
    split at hm
    · next elements _ hp =>
      simp only [List.mem_singleton, Prod.mk.injEq] at hm
      obtain ⟨-, rfl⟩ := hm
      have hk := hl.parsed _ _ hp
      refine ⟨text.dump (.array elements), elements, ?_, hp, hl.round _ hk⟩
      exact sentTexts_eq text self ec (hl.dumpable _ hk) sender
    · cases hm

/-- An ABORT with a nested array. -/
def abort : Message := ⟨[.integer 3, .array [.string (utf8 "no")]]⟩

/-- The text of that ABORT. -/
def abortText : JsonText := .single (.array abort.fields) (utf8 "[3,[\"no\"]]")

/-- The ABORT goes there and back. -/
theorem wire_round_trip_abort :
    (∃ payload m', sentTexts abortText 0 none abort {} = [payload] ∧
      delivered abortText { handler := some 0 } payload = [(0, m')] ∧ m'.size = 2 ∧
      ∀ i, m'.fieldJson i = abort.fieldJson i) ∧
    ∃ payload' elements, sentTexts abortText 0 none abort {} = [payload'] ∧
      abortText.parse (utf8 "[3,[\"no\"]]") = .ok (.array elements) ∧
      abortText.parse payload' = .ok (.array elements) := by
  have hl : abortText.Lossless (· = .array abort.fields) :=
    JsonText.lossless_single _ (by decide)
  constructor
  · exact (wire_round_trip hl).1 abort 0 none {} { handler := some 0 } 0 rfl rfl
  · refine (wire_round_trip hl).2 (utf8 "[3,[\"no\"]]") { handler := some 0 } 0 abort ?_ 0 none {}
    simp [delivered_eq, abortText, JsonText.single]

end WebSocketTransport
end Barbarossa
