import GoP2P.IdentityJson
import GoP2P.WireMessages

/-!
# Handshakes on the wire

The payloads of a handshake are marshalled on their own, decoded into an `any`
as part of the message, and marshalled again by the receiver before it decodes
them: the members of an object then stand in the order of their names.
-/

namespace GoP2P.Node

/-! ## The payloads -/

def stringEntry (name : String) (content : Bytes) : List (String × Json Bytes) :=
  if content = [] then [] else [(name, .string content)]

/-- The fields of the payload with the tree of its identity. -/
def handshakeEntries (payload : HandshakePayload) (identity : Json Bytes) :
    List (String × Json Bytes) :=
  ("identity", identity) :: bytesEntry "challenge" payload.challenge ++
    [("version", .string payload.version)]

def ackEntries (payload : HandshakeAckPayload) (identity : Json Bytes) :
    List (String × Json Bytes) :=
  ("identity", identity) ::
    bytesEntry "challengeResponse" payload.challengeResponse ++
      ("accepted", .bool payload.accepted) :: stringEntry "reason" payload.reason

def handshakeNames : List String := ["identity", "challenge", "version"]

def ackNames : List String :=
  ["identity", "challengeResponse", "accepted", "reason"]

/-- Decoding into a `bool`. -/
def boolInto (value : Bool) : Json (List Char) → Option Bool
  | .null => some value
  | .bool decoded => some decoded
  | _ => none

section

variable (printer : FloatPrinter) (times : TimeText)
  (jsonError : Bytes → CoreError)

def decodeHandshake : Json (List Char) → Option HandshakePayload
  | .null => some {}
  | .object members => do
      let identity ←
        fieldInto handshakeNames (decodeIdentity times) {} members "identity"
      let challenge ←
        fieldInto handshakeNames Json.bytesInto none members "challenge"
      let version ← fieldInto handshakeNames
        (fun value json => json.stringInto value) [] members "version"
      pure
        { identity := identity, challenge := challenge.getD []
          version := version }
  | _ => none

def decodeAck : Json (List Char) → Option HandshakeAckPayload
  | .null => some {}
  | .object members => do
      let identity ←
        fieldInto ackNames (decodeIdentity times) {} members "identity"
      let challengeResponse ←
        fieldInto ackNames Json.bytesInto none members "challengeResponse"
      let accepted ← fieldInto ackNames boolInto false members "accepted"
      let reason ← fieldInto ackNames
        (fun value json => json.stringInto value) [] members "reason"
      pure
        { identity := identity, challengeResponse := challengeResponse.getD []
          accepted := accepted, reason := reason }
  | _ => none

/-- `MarshalJSON` of a payload, given its entries with the identity in place. -/
def marshalPayload (identity : NodeIdentity)
    (entries : Json Bytes → List (String × Json Bytes)) :
    Except CoreError Bytes := do
  let identity ← identityJSON times identity
  pure (replaceHTMLEscapes (jsonMarshal (.object (namedMembers (entries identity)))))

/-- The codec of a node, down to the texts of numbers and times. -/
def nodeCodec : Codec where
  marshalHandshake payload :=
    marshalPayload times payload.identity (handshakeEntries payload)
  marshalAck payload := marshalPayload times payload.identity (ackEntries payload)
  unmarshalHandshake := jsonUnmarshal jsonError (decodeHandshake times)
  unmarshalAck := jsonUnmarshal jsonError (decodeAck times)
  marshalMessage msg :=
    marshalMessageJSON (unmarshalAny printer jsonError) times.format (some msg)
  decodeMessageJSON := decodeMessageJSON printer times jsonError
  decodeEnvelope := decodeEnvelope jsonError

end

/-! ## Payloads that come through -/

/-- An identity whose strings come through as they are and whose time has a
text. -/
structure NodeIdentity.Intact (times : TimeText) (identity : NodeIdentity) :
    Prop where
  strings : ∀ string ∈ identity.strings, Node.Intact string
  role : NodeRole.ofName identity.role.name = identity.role
  createdAt : ∃ content, times.format identity.createdAt = .ok content

theorem NodeIdentity.Intact.asRead {times : TimeText} {identity : NodeIdentity}
    (hintact : identity.Intact times) : identity.asRead = identity :=
  (asRead_eq_self_iff hintact.role).mpr fun string hstring =>
    (hintact.strings string hstring).isUTF8

section

variable {printer : FloatPrinter} {times : TimeText}
  {jsonError : Bytes → CoreError}

theorem plain_namedMembers {entries : List (String × Json Bytes)}
    (hnames : ∀ entry ∈ entries, SpellsNoEscape entry.1.toList)
    (hvalues : ∀ entry ∈ entries, Plain entry.2) :
    Plain (.object (namedMembers entries)) := by
  unfold Plain
  rw [Json.all]
  induction entries with
  | nil => rfl
  | cons entry entries ih =>
      rw [List.forall_mem_cons] at hnames hvalues
      change Json.allMembers _ ((utf8 entry.1.toList, entry.2) ::
        namedMembers entries) = true
      rw [Json.allMembers, ih hnames.2 hvalues.2, decodeText_utf8]
      simpa [hnames.1, Plain] using hvalues.1

theorem plain_string {content : Bytes} (hcontent : Intact content) :
    Plain (.string content) := by
  rw [Plain, Json.all]
  exact decide_eq_true hcontent.plain

theorem plain_identityEntries {identity : NodeIdentity}
    (hintact : identity.Intact times) {createdAt : Bytes}
    (hcreated : times.format identity.createdAt = .ok createdAt) :
    Plain (.object (namedMembers (identityEntries identity createdAt))) := by
  have htime : Plain (.string createdAt) := by
    rw [Plain, Json.all]
    exact decide_eq_true (times.spellsNoEscape _ _ hcreated)
  have hstrings := hintact.strings
  simp only [NodeIdentity.strings, List.forall_mem_cons] at hstrings
  obtain ⟨hid, hname, hkey, hrole, -⟩ := hstrings
  apply plain_namedMembers
  · simp only [identityEntries, List.forall_mem_cons]
    decide +kernel
  · simp only [identityEntries, List.forall_mem_cons]
    exact ⟨plain_string hid, plain_string hname, plain_string hkey, htime,
      plain_string hrole, List.forall_mem_nil _⟩

/-- Entries of one name each, where a value is decoded into an `any` as the
other. -/
def CarriedAs (printer : FloatPrinter) :
    List (String × Json Bytes) → List (String × Json Bytes) → Prop :=
  List.Forall₂ fun entry after => entry.1 = after.1 ∧
    (entry.2.map decodeText).toAny printer = some after.2

theorem CarriedAs.bytesEntry (name : String) (data : Bytes) :
    CarriedAs printer (bytesEntry name data) (bytesEntry name data) := by
  unfold GoP2P.bytesEntry
  split_ifs
  · exact .nil
  · exact .cons ⟨rfl, Json.toAny_encodeBytes data⟩ .nil

theorem CarriedAs.stringEntry (name : String) {content : Bytes}
    (hcontent : IsUTF8 content) :
    CarriedAs printer (stringEntry name content) (stringEntry name content) := by
  unfold Node.stringEntry
  split_ifs
  · exact .nil
  · exact .cons ⟨rfl, Json.toAny_string_of_isUTF8 hcontent⟩ .nil

theorem plain_of_carriedAs {entries carried : List (String × Json Bytes)}
    (hcarried : CarriedAs printer entries carried)
    (hplain : Plain (.object (namedMembers entries))) :
    Plain (.object (anyMembers carried)) := by
  have htext : ((Json.object (namedMembers entries)).map decodeText).all
      (fun content => decide (SpellsNoEscape content)) = true := by
    rw [Json.all_map]
    exact hplain
  exact Json.all_of_toAny htext (Json.toAny_namedMembers hcarried)

section

variable {entries carried : List (String × Json Bytes)} {msg : Message}

theorem payloadValue_of_carriedAs (hcarried : CarriedAs printer entries carried)
    (hpayload : msg.payload = some
      (replaceHTMLEscapes (jsonMarshal (.object (namedMembers entries)))))
    {value : Json Bytes} :
    msg.payloadValue (unmarshalAny printer jsonError) = .ok value ↔
      Plain (.object (namedMembers entries)) ∧
        value = .object (anyMembers carried) := by
  unfold Message.payloadValue unmarshalAny
  rw [hpayload]
  dsimp only
  rw [jsonUnmarshal_replaceHTMLEscapes, Json.toAny_namedMembers hcarried,
    Option.some.injEq, eq_comm (a := value)]

theorem marshalMessage_of_carriedAs (hcarried : CarriedAs printer entries carried)
    (hpayload : msg.payload = some
      (replaceHTMLEscapes (jsonMarshal (.object (namedMembers entries)))))
    (hplain : Plain (.object (namedMembers entries))) {timestamp : Bytes}
    (htimestamp : times.format msg.timestamp = .ok timestamp) :
    ∃ data, (nodeCodec printer times jsonError).marshalMessage msg = .ok data :=
  ⟨_, marshalMessageJSON_eq_ok_iff.mpr
    ⟨_, (payloadValue_of_carriedAs hcarried hpayload).mpr ⟨hplain, rfl⟩,
      timestamp, htimestamp, rfl⟩⟩

/-- The receiver of a marshalled message parses its payload from what was
carried. -/
theorem parsePayload_of_carriedAs (hcarried : CarriedAs printer entries carried)
    (hpayload : msg.payload = some
      (replaceHTMLEscapes (jsonMarshal (.object (namedMembers entries)))))
    (hheader : HeaderPlain msg) {α : Type}
    {decode : Json (List Char) → Option α} {result : α} (zero : α)
    (hdecode : decode ((Json.object (anyMembers carried)).map decodeText) =
      some result) {data : Bytes}
    (hdata : (nodeCodec printer times jsonError).marshalMessage msg = .ok data) :
    ∃ received,
      (nodeCodec printer times jsonError).decodeMessageJSON data = .ok received ∧
      received.type = .ofName (utf8 (decodeText msg.type.name)) ∧
      received.parsePayload zero (jsonUnmarshal jsonError decode) =
        .returned result := by
  obtain ⟨value, hvalue, timestamp, htimestamp, rfl⟩ :=
    marshalMessageJSON_eq_ok_iff.mp hdata
  obtain ⟨time, htime⟩ := Option.isSome_iff_exists.mp
    (times.isSome_parse msg.timestamp timestamp htimestamp)
  have hcanonical := canonical_payloadValue hvalue
  obtain ⟨hplain, rfl⟩ :=
    (payloadValue_of_carriedAs hcarried hpayload).mp hvalue
  have hcarriedPlain := plain_of_carriedAs hcarried hplain
  have hmessage := (plain_messageJSON_iff
    (times.spellsNoEscape msg.timestamp timestamp htimestamp)).mpr
      ⟨hheader, hcarriedPlain⟩
  refine ⟨_, decodeMessageJSON_plain htime hcanonical hmessage, rfl, ?_⟩
  change Outcome.ofExcept (jsonUnmarshal jsonError decode (replaceHTMLEscapes
    (jsonMarshal (.object (anyMembers carried))))) = .returned result
  rw [jsonUnmarshal_replaceHTMLEscapes.mpr ⟨hcarriedPlain, hdecode⟩]
  rfl

end

/-! ## The two payloads -/

theorem filter_stringEntry (name other : String) (content : Bytes) :
    (stringEntry other content).filter (·.1 = name) =
      if other = name then stringEntry other content else [] := by
  unfold stringEntry
  split_ifs <;> simp_all

theorem stringInto_stringEntry (name : String) {content : Bytes}
    (hcontent : IsUTF8 content) :
    ((stringEntry name content).map (·.2.map decodeText)).foldlM
      (fun value json => json.stringInto value) [] = some content := by
  unfold stringEntry
  split_ifs with hempty
  · rw [hempty]
    rfl
  · rw [List.map_singleton, List.foldlM_cons, Json.map, Json.stringInto, hcontent]
    rfl

theorem mem_handshakeNames {payload : HandshakePayload} {identity : Json Bytes} :
    ∀ entry ∈ handshakeEntries payload identity, entry.1 ∈ handshakeNames := by
  unfold handshakeEntries bytesEntry
  split_ifs <;> simp [handshakeNames]

theorem nodup_handshakeEntries (payload : HandshakePayload)
    (identity : Json Bytes) :
    ((handshakeEntries payload identity).map Prod.fst).Nodup := by
  unfold handshakeEntries bytesEntry
  split_ifs <;> simp

theorem mem_ackNames {payload : HandshakeAckPayload} {identity : Json Bytes} :
    ∀ entry ∈ ackEntries payload identity, entry.1 ∈ ackNames := by
  unfold ackEntries bytesEntry stringEntry
  split_ifs <;> simp [ackNames]

theorem nodup_ackEntries (payload : HandshakeAckPayload)
    (identity : Json Bytes) :
    ((ackEntries payload identity).map Prod.fst).Nodup := by
  unfold ackEntries bytesEntry stringEntry
  split_ifs <;> simp

theorem decodeHandshake_anyMembers {payload : HandshakePayload}
    {identity : Json Bytes}
    (hidentity : decodeIdentity times {} (identity.map decodeText) =
      some payload.identity) (hversion : IsUTF8 payload.version) :
    decodeHandshake times ((Json.object
        (anyMembers (handshakeEntries payload identity))).map decodeText) =
      some payload := by
  obtain ⟨challenge, hchallenge, hsame⟩ :=
    bytesInto_bytesEntry "challenge" payload.challenge
  have hversion : utf8 (decodeText payload.version) = payload.version := hversion
  rw [Json.map, decodeHandshake]
  simp only [fieldInto_anyMembers mem_handshakeNames
    (nodup_handshakeEntries payload identity)]
  simp [handshakeEntries, filter_bytesEntry, hidentity, hchallenge, hsame,
    Json.map, Json.stringInto, hversion]

theorem decodeAck_anyMembers {payload : HandshakeAckPayload}
    {identity : Json Bytes}
    (hidentity : decodeIdentity times {} (identity.map decodeText) =
      some payload.identity) (hreason : IsUTF8 payload.reason) :
    decodeAck times ((Json.object
        (anyMembers (ackEntries payload identity))).map decodeText) =
      some payload := by
  obtain ⟨response, hresponse, hsame⟩ :=
    bytesInto_bytesEntry "challengeResponse" payload.challengeResponse
  have hreason := stringInto_stringEntry "reason" hreason
  rw [Json.map, decodeAck]
  simp only [fieldInto_anyMembers mem_ackNames
    (nodup_ackEntries payload identity)]
  simp [ackEntries, filter_bytesEntry, filter_stringEntry, hidentity, hresponse,
    hsame, hreason, Json.map, boolInto]

/-- The tree that an identity is carried as. -/
def carriedIdentity (identity : NodeIdentity) (createdAt : Bytes) : Json Bytes :=
  .object (anyMembers (identityEntries identity (utf8 (decodeText createdAt))))

theorem toAny_identity {identity : NodeIdentity}
    (hintact : identity.Intact times) (createdAt : Bytes) :
    ((Json.object (namedMembers (identityEntries identity createdAt))).map
        decodeText).toAny printer = some (carriedIdentity identity createdAt) := by
  rw [toAny_identityEntries, hintact.asRead]
  rfl

theorem decodeIdentity_carried (hexact : times.Exact) {identity : NodeIdentity}
    (hintact : identity.Intact times) {createdAt : Bytes}
    (hcreated : times.format identity.createdAt = .ok createdAt) :
    decodeIdentity times {} ((carriedIdentity identity createdAt).map decodeText) =
      some identity := by
  have htime : times.parse (decodeText (utf8 (decodeText createdAt))) =
      some identity.createdAt := by
    rw [decodeText_utf8]
    exact hexact _ _ hcreated
  rw [carriedIdentity, decodeIdentity_anyMembers htime, hintact.asRead]

theorem carriedAs_handshake {payload : HandshakePayload}
    (hintact : payload.identity.Intact times) (hversion : Intact payload.version)
    (createdAt : Bytes) :
    CarriedAs printer
      (handshakeEntries payload
        (.object (namedMembers (identityEntries payload.identity createdAt))))
      (handshakeEntries payload (carriedIdentity payload.identity createdAt)) :=
  .cons ⟨rfl, toAny_identity hintact createdAt⟩
    (List.rel_append (CarriedAs.bytesEntry "challenge" payload.challenge)
      (.cons ⟨rfl, Json.toAny_string_of_isUTF8 hversion.isUTF8⟩ .nil))

theorem carriedAs_ack {payload : HandshakeAckPayload}
    (hintact : payload.identity.Intact times) (hreason : Intact payload.reason)
    (createdAt : Bytes) :
    CarriedAs printer
      (ackEntries payload
        (.object (namedMembers (identityEntries payload.identity createdAt))))
      (ackEntries payload (carriedIdentity payload.identity createdAt)) :=
  .cons ⟨rfl, toAny_identity hintact createdAt⟩
    (List.rel_append (CarriedAs.bytesEntry _ payload.challengeResponse)
      (.cons ⟨rfl, by rw [Json.map, Json.toAny]⟩
        (CarriedAs.stringEntry _ hreason.isUTF8)))

theorem marshalPayload_eq_ok_iff {identity : NodeIdentity}
    {entries : Json Bytes → List (String × Json Bytes)} {data : Bytes} :
    marshalPayload times identity entries = .ok data ↔
      ∃ createdAt, times.format identity.createdAt = .ok createdAt ∧
        data = replaceHTMLEscapes (jsonMarshal (.object (namedMembers (entries
          (.object (namedMembers (identityEntries identity createdAt))))))) := by
  unfold marshalPayload
  cases hjson : identityJSON times identity with
  | error error =>
      simp only [bind, Except.bind, reduceCtorEq, false_iff, not_exists, not_and]
      intro createdAt hcreated
      have hsome := identityJSON_eq_ok_iff.mpr ⟨createdAt, hcreated, rfl⟩
      rw [hjson] at hsome
      cases hsome
  | ok json =>
      obtain ⟨createdAt, hcreated, rfl⟩ := identityJSON_eq_ok_iff.mp hjson
      simp [bind, Except.bind, pure, Except.pure, hcreated, eq_comm]

/-- The receiver parses the handshake that was sent. -/
theorem handshake_parsed (hexact : times.Exact) {payload : HandshakePayload}
    (hintact : payload.identity.Intact times) (hversion : Intact payload.version)
    {content : Bytes}
    (hcontent : (nodeCodec printer times jsonError).marshalHandshake payload =
      .ok content) {msg : Message} (hpayload : msg.payload = some content)
    (hheader : HeaderPlain msg) {data : Bytes}
    (hdata : (nodeCodec printer times jsonError).marshalMessage msg = .ok data) :
    ∃ received,
      (nodeCodec printer times jsonError).decodeMessageJSON data = .ok received ∧
      received.type = .ofName (utf8 (decodeText msg.type.name)) ∧
      received.parsePayload {}
          (nodeCodec printer times jsonError).unmarshalHandshake =
        .returned payload := by
  obtain ⟨createdAt, hcreated, rfl⟩ := marshalPayload_eq_ok_iff.mp hcontent
  exact parsePayload_of_carriedAs (carriedAs_handshake hintact hversion createdAt)
    hpayload hheader {} (decodeHandshake_anyMembers
      (decodeIdentity_carried hexact hintact hcreated) hversion.isUTF8) hdata

theorem plain_ackEntries {payload : HandshakeAckPayload} {identity : Json Bytes}
    (hidentity : Plain identity) (hreason : Intact payload.reason) :
    Plain (.object (namedMembers (ackEntries payload identity))) := by
  apply plain_namedMembers
  · have hnames : ∀ name ∈ ackNames, SpellsNoEscape name.toList := by
      decide +kernel
    exact fun entry hentry => hnames _ (mem_ackNames entry hentry)
  · have hresponse := plain_encodeBytes (some payload.challengeResponse)
    have haccepted : Plain (.bool payload.accepted) := rfl
    have htext := plain_string hreason
    unfold ackEntries bytesEntry stringEntry
    split_ifs <;> simp [hidentity, hresponse, haccepted, htext]

/-- A node with an intact identity can write an ack, and the receiver parses
the ack that was sent. -/
theorem ack_parsed (hexact : times.Exact) {payload : HandshakeAckPayload}
    (hintact : payload.identity.Intact times) (hreason : Intact payload.reason) :
    ∃ content,
      (nodeCodec printer times jsonError).marshalAck payload = .ok content ∧
      ∀ {msg : Message}, msg.payload = some content → HeaderPlain msg →
      ∀ {timestamp : Bytes}, times.format msg.timestamp = .ok timestamp →
      ∃ data received,
        (nodeCodec printer times jsonError).marshalMessage msg = .ok data ∧
        (nodeCodec printer times jsonError).decodeMessageJSON data =
          .ok received ∧
        received.type = .ofName (utf8 (decodeText msg.type.name)) ∧
        received.parsePayload {}
            (nodeCodec printer times jsonError).unmarshalAck =
          .returned payload := by
  obtain ⟨createdAt, hcreated⟩ := hintact.createdAt
  have hcarried : CarriedAs printer _ _ := carriedAs_ack hintact hreason createdAt
  refine ⟨_, marshalPayload_eq_ok_iff.mpr ⟨createdAt, hcreated, rfl⟩, ?_⟩
  intro msg hpayload hheader timestamp htimestamp
  have hplain := plain_ackEntries (plain_identityEntries hintact hcreated) hreason
  obtain ⟨data, hdata⟩ : ∃ data,
      (nodeCodec printer times jsonError).marshalMessage msg = .ok data :=
    marshalMessage_of_carriedAs hcarried hpayload hplain htimestamp
  obtain ⟨received, hreceived⟩ := parsePayload_of_carriedAs hcarried hpayload
    hheader {} (decodeAck_anyMembers
      (decodeIdentity_carried hexact hintact hcreated) hreason.isUTF8) hdata
  exact ⟨data, received, hdata, hreceived⟩

end

end GoP2P.Node
