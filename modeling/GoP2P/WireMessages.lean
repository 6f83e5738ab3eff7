import GoP2P.IntegerPayloads
import GoP2P.MessageAuthenticity

/-!
# Messages on the wire

The text that is sealed for a message is its JSON; the receiver first looks for
the members of an envelope in it, and takes it for a plain message if there are
none.  A message arrives with the same header and the payload that is left of it
after going through an `any` exactly if no string in it spells an escape of `<`,
`>` or `&`, in an envelope as well as without one.
-/

namespace GoP2P.Node

/-! ## Envelopes -/

def envelopeNames : List String := ["peerPubkey", "body", "signature"]

/-- The three members, each nil without a value. -/
structure EnvelopeWire where
  peerPubkey : Option Bytes := none
  body : Option Bytes := none
  signature : Option Bytes := none
  deriving DecidableEq, Repr

/-- `RawMessage` has no methods that `encoding/json` knows, so that the probe
and the envelope are decoded alike, as byte slices. -/
def decodeEnvelopeWire : Json (List Char) → Option EnvelopeWire
  | .null => some {}
  | .object members => do
      let bytes := fieldInto envelopeNames Json.bytesInto none members
      let peerPubkey ← bytes "peerPubkey"
      let body ← bytes "body"
      let signature ← bytes "signature"
      pure { peerPubkey := peerPubkey, body := body, signature := signature }
  | _ => none

def EnvelopeWire.isEmpty (wire : EnvelopeWire) : Bool :=
  (wire.peerPubkey.getD []).isEmpty && (wire.body.getD []).isEmpty &&
    (wire.signature.getD []).isEmpty

def decodeEnvelope (jsonError : Bytes → CoreError) (data : Bytes) :
    Except CoreError (Option Envelope) := do
  let probe ← jsonUnmarshal jsonError decodeEnvelopeWire data
  if probe.isEmpty then
    pure none
  else
    let wire ← jsonUnmarshal jsonError decodeEnvelopeWire data
    pure (some
      { peerPubkey := wire.peerPubkey.getD [], body := wire.body.getD [],
        signature := wire.signature.getD [] })

def envelopeEntries (envelope : Envelope) : List (String × Json Bytes) :=
  bytesEntry "peerPubkey" envelope.peerPubkey ++
    ("body", Json.encodeBytes (some envelope.body)) ::
      bytesEntry "signature" envelope.signature

/-- The JSON of an envelope. -/
def envelopeJSON (envelope : Envelope) : Json Bytes :=
  .object (namedMembers (envelopeEntries envelope))

section

variable (printer : FloatPrinter) (times : TimeText)
  (jsonError : Bytes → CoreError)

/-- The codec of messages and envelopes; that of the handshake payloads is
given. -/
def wireCodec (payloads : Codec) : Codec :=
  { payloads with
    marshalMessage := fun msg =>
      marshalMessageJSON (unmarshalAny printer jsonError) times.format (some msg)
    decodeMessageJSON := decodeMessageJSON printer times jsonError
    decodeEnvelope := decodeEnvelope jsonError }

end

/-- The string comes through a text as it is. -/
structure Intact (content : Bytes) : Prop where
  isUTF8 : IsUTF8 content
  plain : SpellsNoEscape (decodeText content)

/-- A nil payload is one of null. -/
def payloadText : Json Bytes → Option Bytes
  | .null => none
  | value => some (replaceHTMLEscapes (jsonMarshal value))

/-- The message as it arrives, with a payload of the given value. -/
def Message.receivedAs (msg : Message) (time : Time) (value : Json Bytes) :
    Message :=
  { msg.arrived time [] with payload := payloadText value }

/-! ## What the receiver decodes -/

section

variable {crypto : NodePrimitives} {codec : Codec} {data : Bytes}

theorem decodeReceivedMessage_of_plain
    (hplain : codec.decodeEnvelope data = .ok none) :
    decodeReceivedMessage crypto codec data =
      .ofExcept (codec.decodeMessageJSON data) := by
  unfold decodeReceivedMessage unwrapEnvelope
  rw [hplain]
  rfl

theorem decodeReceivedMessage_of_error {error : CoreError}
    (herror : codec.decodeEnvelope data = .error error) :
    decodeReceivedMessage crypto codec data = .failed error := by
  unfold decodeReceivedMessage unwrapEnvelope
  rw [herror]
  rfl

theorem decodeReceivedMessage_of_envelope {envelope : Envelope}
    (henvelope : codec.decodeEnvelope data = .ok (some envelope))
    (hbody : envelope.body ≠ []) :
    decodeReceivedMessage crypto codec data =
      (do
        envelope.verifySignature crypto
        .ofExcept (codec.decodeMessageJSON envelope.body)) := by
  have hlength : ¬ envelope.body.length = 0 := by simpa using hbody
  unfold decodeReceivedMessage unwrapEnvelope
  rw [henvelope]
  change ((if envelope.body.length = 0 then .failed errEnvelopeBodyEmpty
    else do
      envelope.verifySignature crypto
      pure envelope.body) >>= fun body =>
        Outcome.ofExcept (codec.decodeMessageJSON body)) = _
  rw [if_neg hlength]
  cases envelope.verifySignature crypto <;> rfl

end

theorem spellsNoEscape_of_notMem {content : List Char}
    (hcontent : '\\' ∉ content) : SpellsNoEscape content := by
  intro entry _ hspelled
  exact hcontent (hspelled.subset List.mem_cons_self)

theorem plain_encodeBytes (data : Option Bytes) :
    Plain (Json.encodeBytes data) := by
  unfold Plain
  cases data with
  | none => rw [Json.encodeBytes, Json.all]
  | some data =>
      rw [Json.encodeBytes, Json.all, decide_eq_true_eq, decodeText_utf8]
      exact spellsNoEscape_of_notMem
        (Base64.notMem_encode (by decide) (by decide) data)

section

variable {printer : FloatPrinter} {times : TimeText}
  {jsonError : Bytes → CoreError}

theorem jsonUnmarshal_eq_error {α : Type}
    {decode : Json (List Char) → Option α} {value : Json Bytes}
    (hplain : ¬ Plain value) :
    jsonUnmarshal jsonError decode (replaceHTMLEscapes (jsonMarshal value)) =
      .error (jsonError (replaceHTMLEscapes (jsonMarshal value))) := by
  unfold jsonUnmarshal
  rw [parse_replaceHTMLEscapes, if_neg hplain]
  rfl

theorem decodeEnvelope_of_not_plain {value : Json Bytes}
    (hplain : ¬ Plain value) :
    decodeEnvelope jsonError (replaceHTMLEscapes (jsonMarshal value)) =
      .error (jsonError (replaceHTMLEscapes (jsonMarshal value))) := by
  unfold decodeEnvelope
  rw [jsonUnmarshal_eq_error hplain]
  rfl

theorem payloadBytes_eq (wire : WireMessage) :
    wire.payloadBytes printer times jsonError =
      .ok (payloadText wire.payload) := by
  unfold WireMessage.payloadBytes payloadText
  cases wire.payload <;> rfl

theorem decodeMessageJSON_plain {msg : Message} {timestamp : Bytes}
    {time : Time} {value : Json Bytes}
    (htime : times.parse (decodeText timestamp) = some time)
    (hcanonical : Json.Canonical printer value)
    (hplain : Plain (messageJSON msg timestamp value)) :
    decodeMessageJSON printer times jsonError
        (replaceHTMLEscapes (jsonMarshal (messageJSON msg timestamp value))) =
      .ok (msg.receivedAs time value) := by
  unfold decodeMessageJSON
  rw [jsonUnmarshal_replaceHTMLEscapes.mpr
    ⟨hplain, decodeWire_messageJSON msg htime hcanonical⟩]
  change (do
    let payload ← WireMessage.payloadBytes printer times jsonError _
    pure _) = _
  rw [payloadBytes_eq]
  rfl

/-- What a payload is decoded into as an `any` decodes to itself. -/
theorem canonical_payloadValue {msg : Message} {value : Json Bytes}
    (hvalue : msg.payloadValue (unmarshalAny printer jsonError) = .ok value) :
    Json.Canonical printer value := by
  unfold Message.payloadValue at hvalue
  split at hvalue
  · cases hvalue
    rfl
  · unfold unmarshalAny jsonUnmarshal at hvalue
    split at hvalue
    next decoded hdecoded =>
      cases hvalue
      obtain ⟨json, -, hjson⟩ := Option.bind_eq_some_iff.mp hdecoded
      exact Json.canonical_of_toAny hjson
    next => cases hvalue

/-- None of the names of a message stands for a member of an envelope. -/
theorem decodeEnvelopeWire_messageJSON (msg : Message) (timestamp : Bytes)
    (value : Json Bytes) :
    decodeEnvelopeWire ((messageJSON msg timestamp value).map decodeText) =
      some {} := by
  unfold messageJSON
  rw [Json.map, decodeEnvelopeWire]
  split <;> rfl

theorem decodeEnvelope_messageJSON {msg : Message} {timestamp : Bytes}
    {value : Json Bytes} (hplain : Plain (messageJSON msg timestamp value)) :
    decodeEnvelope jsonError
        (replaceHTMLEscapes (jsonMarshal (messageJSON msg timestamp value))) =
      .ok none := by
  unfold decodeEnvelope
  rw [jsonUnmarshal_replaceHTMLEscapes.mpr
    ⟨hplain, decodeEnvelopeWire_messageJSON msg timestamp value⟩]
  rfl

theorem decodeMessageJSON_of_not_plain {value : Json Bytes}
    (hplain : ¬ Plain value) :
    decodeMessageJSON printer times jsonError
        (replaceHTMLEscapes (jsonMarshal value)) =
      .error (jsonError (replaceHTMLEscapes (jsonMarshal value))) := by
  unfold decodeMessageJSON
  rw [jsonUnmarshal_eq_error hplain]
  rfl

/-- Looking for an envelope does not change what the text of a message is
decoded to. -/
theorem decodeReceivedMessage_marshalled (crypto : NodePrimitives)
    (payloads : Codec) {msg : Message} {timestamp : Bytes} {value : Json Bytes} :
    decodeReceivedMessage crypto (wireCodec printer times jsonError payloads)
        (replaceHTMLEscapes (jsonMarshal (messageJSON msg timestamp value))) =
      .ofExcept (decodeMessageJSON printer times jsonError
        (replaceHTMLEscapes
          (jsonMarshal (messageJSON msg timestamp value)))) := by
  by_cases hplain : Plain (messageJSON msg timestamp value)
  · have henvelope : (wireCodec printer times jsonError payloads).decodeEnvelope
        (replaceHTMLEscapes (jsonMarshal (messageJSON msg timestamp value))) =
          .ok none := decodeEnvelope_messageJSON hplain
    rw [decodeReceivedMessage_of_plain henvelope]
    rfl
  · have henvelope : (wireCodec printer times jsonError payloads).decodeEnvelope
        (replaceHTMLEscapes (jsonMarshal (messageJSON msg timestamp value))) =
          .error (jsonError (replaceHTMLEscapes
            (jsonMarshal (messageJSON msg timestamp value)))) :=
      decodeEnvelope_of_not_plain hplain
    rw [decodeReceivedMessage_of_error henvelope,
      decodeMessageJSON_of_not_plain hplain]
    rfl

theorem jsonUnmarshal_jsonMarshal {α : Type}
    {decode : Json (List Char) → Option α} {value : Json Bytes} {result : α}
    (hresult : decode (value.map decodeText) = some result) :
    jsonUnmarshal jsonError decode (jsonMarshal value) = .ok result := by
  unfold jsonUnmarshal
  rw [parse_jsonMarshal, Option.bind_some, hresult]

theorem mem_envelopeNames (envelope : Envelope) :
    ∀ entry ∈ envelopeEntries envelope, entry.1 ∈ envelopeNames := by
  unfold envelopeEntries bytesEntry
  split_ifs <;> simp [envelopeNames]

theorem decodeEnvelopeWire_envelopeJSON (envelope : Envelope) :
    ∃ wire, decodeEnvelopeWire ((envelopeJSON envelope).map decodeText) =
        some wire ∧
      wire.peerPubkey.getD [] = envelope.peerPubkey ∧
      wire.body = some envelope.body ∧
      wire.signature.getD [] = envelope.signature := by
  obtain ⟨key, hkey, hsameKey⟩ :=
    bytesInto_bytesEntry "peerPubkey" envelope.peerPubkey
  obtain ⟨signature, hsignature, hsame⟩ :=
    bytesInto_bytesEntry "signature" envelope.signature
  refine ⟨⟨key, some envelope.body, signature⟩, ?_, hsameKey, rfl, hsame⟩
  rw [envelopeJSON, Json.map, decodeEnvelopeWire]
  simp only [fieldInto_namedMembers (mem_envelopeNames envelope)]
  simp [envelopeEntries, filter_bytesEntry, hkey, hsignature,
    Json.bytesInto_encodeBytes]

theorem decodeEnvelope_envelopeJSON {envelope : Envelope}
    (hbody : envelope.body ≠ []) :
    decodeEnvelope jsonError (jsonMarshal (envelopeJSON envelope)) =
      .ok (some envelope) := by
  obtain ⟨wire, hwire, hkey, hfound, hsignature⟩ :=
    decodeEnvelopeWire_envelopeJSON envelope
  have hnonempty : wire.isEmpty = false := by
    rw [EnvelopeWire.isEmpty, hfound]
    simp [hbody]
  unfold decodeEnvelope
  rw [jsonUnmarshal_jsonMarshal hwire]
  change (if wire.isEmpty = true then Except.ok none else Except.ok (some
    (⟨wire.peerPubkey.getD [], wire.body.getD [], wire.signature.getD []⟩ :
      Envelope))) = _
  rw [hnonempty, hkey, hfound, hsignature]
  rfl

/-- The signature of an envelope is missing or belongs to its body. -/
def Envelope.Verifies (crypto : NodePrimitives) (envelope : Envelope) : Prop :=
  envelope.signature = [] ∨
    envelope.peerPubkey.length = ed25519PublicKeySize ∧
      envelope.signature.length = ed25519SignatureSize ∧
      crypto.ed25519Verify envelope.peerPubkey envelope.body
        envelope.signature = true

instance (crypto : NodePrimitives) (envelope : Envelope) :
    Decidable (envelope.Verifies crypto) :=
  inferInstanceAs (Decidable (_ ∨ _ ∧ _ ∧ _))

theorem verifySignature_eq (crypto : NodePrimitives) (envelope : Envelope) :
    envelope.verifySignature crypto =
      if envelope.Verifies crypto then .returned ()
      else .failed errEnvelopeSignatureInvalid := by
  unfold Envelope.verifySignature Envelope.Verifies
  by_cases hsignature : envelope.signature = []
  · simp [hsignature]
  · have hlength : ¬ envelope.signature.length = 0 := by simpa using hsignature
    rw [if_neg hlength]
    by_cases hkey : envelope.peerPubkey.length = ed25519PublicKeySize <;>
      by_cases hsize : envelope.signature.length = ed25519SignatureSize <;>
      by_cases hverified : crypto.ed25519Verify envelope.peerPubkey
        envelope.body envelope.signature = true <;>
      simp [hsignature, hkey, hsize, hverified]

theorem replaceHTMLEscapes_object_ne_nil (members : List (Bytes × Json Bytes)) :
    replaceHTMLEscapes (jsonMarshal (.object members)) ≠ [] := by
  have hbrace : '{' ≠ '\\' := by decide
  rw [jsonMarshal, replaceHTMLEscapes_utf8, Json.encode, unescapeHTML,
    unescapeAll_cons_of_ne hbrace, utf8_cons_of_isASCII (by simp [isASCII])]
  exact List.cons_ne_nil _ _

/-- A message in an envelope is decoded as it is without one, unless there is a
signature that does not belong to it. -/
theorem enveloped_message_decodes (crypto : NodePrimitives) (payloads : Codec)
    {msg : Message} {data : Bytes}
    (hdata : marshalMessageJSON (unmarshalAny printer jsonError) times.format
      (some msg) = .ok data) (key signature : Bytes) :
    decodeReceivedMessage crypto (wireCodec printer times jsonError payloads)
        (jsonMarshal (envelopeJSON ⟨key, data, signature⟩)) =
      if Envelope.Verifies crypto ⟨key, data, signature⟩ then
        decodeReceivedMessage crypto
          (wireCodec printer times jsonError payloads) data
      else .failed errEnvelopeSignatureInvalid := by
  obtain ⟨value, -, timestamp, -, rfl⟩ := marshalMessageJSON_eq_ok_iff.mp hdata
  rw [decodeReceivedMessage_marshalled]
  have hbody : replaceHTMLEscapes
      (jsonMarshal (messageJSON msg timestamp value)) ≠ [] :=
    replaceHTMLEscapes_object_ne_nil _
  generalize replaceHTMLEscapes
    (jsonMarshal (messageJSON msg timestamp value)) = body at hbody
  have henvelope : (wireCodec printer times jsonError payloads).decodeEnvelope
      (jsonMarshal (envelopeJSON ⟨key, body, signature⟩)) =
        .ok (some ⟨key, body, signature⟩) := decodeEnvelope_envelopeJSON hbody
  rw [decodeReceivedMessage_of_envelope henvelope hbody, verifySignature_eq]
  split_ifs <;> rfl

end

/-! ## A ping -/

def sampleWire : Codec :=
  wireCodec shortestPrinter sampleClock sampleJsonError (sampleCodec 1 2)

theorem enveloped_message_decodes_unsigned :
    ∃ data, marshalMessageJSON (unmarshalAny shortestPrinter sampleJsonError)
        sampleClock.format (some pingMessage) = .ok data ∧
      decodeReceivedMessage samplePrimitives sampleWire
          (jsonMarshal (envelopeJSON ⟨[7], data, []⟩)) =
        decodeReceivedMessage samplePrimitives sampleWire data := by
  obtain ⟨data, hdata⟩ : ∃ data, marshalMessageJSON
      (unmarshalAny shortestPrinter sampleJsonError) sampleClock.format
        (some pingMessage) = .ok data := ⟨_, rfl⟩
  refine ⟨data, hdata, ?_⟩
  exact (enveloped_message_decodes samplePrimitives (sampleCodec 1 2) hdata [7]
    []).trans (if_pos (.inl rfl))

end GoP2P.Node
