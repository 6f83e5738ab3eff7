import GoP2P.JsonBytes
import GoP2P.MarshalJson

/-!
# Integers in payloads

A payload is encoded when the message is made, decoded into an `any` and
encoded again when the message is marshalled, once more when it is unmarshalled,
and decoded into the struct at last.  So its integers go through floats twice;
the second time changes nothing.
-/

namespace GoP2P.Node

open Binary64

/-! ## Payloads with integers -/

def pingPayload : StructType where
  fields := .cons "sentAt".toList false (.integer .int64) .nil
  distinct := by decide

def pongPayload : StructType where
  fields :=
    .cons "sentAt".toList false (.integer .int64) <|
    .cons "receivedAt".toList false (.integer .int64) .nil
  distinct := by decide

def minerStatsItem : StructType where
  fields :=
    .cons "name".toList false .string <|
    .cons "type".toList false .string <|
    .cons "running".toList true .bool <|
    .cons "hashrate".toList false .float64 <|
    .cons "shares".toList true (.integer .int) <|
    .cons "invalid".toList true (.integer .int) <|
    .cons "temp".toList true .float64 <|
    .cons "uptime".toList false (.integer .int64) <|
    .cons "sharesLegacy".toList true (.integer .int) <|
    .cons "rejectedLegacy".toList true (.integer .int) <|
    .cons "pool".toList true .string <|
    .cons "algorithm".toList true .string <|
    .cons "cpuThreads".toList true (.integer .int) .nil
  distinct := by decide

def statsPayload : StructType where
  fields :=
    .cons "nodeId".toList false .string <|
    .cons "nodeName".toList false .string <|
    .cons "miners".toList false (.slice minerStatsItem.type) <|
    .cons "uptime".toList false (.integer .int64) .nil
  distinct := by decide

def getLogsPayload : StructType where
  fields :=
    .cons "minerName".toList false .string <|
    .cons "lines".toList false (.integer .int) <|
    .cons "since".toList true (.integer .int64) .nil
  distinct := by decide

/-! ## Unmarshalling -/

/-- `core.JSONUnmarshal`, given how the value is decoded. -/
def jsonUnmarshal {α : Type} (jsonError : Bytes → CoreError)
    (decode : Json (List Char) → Option α) (data : Bytes) : Except CoreError α :=
  match (Json.parse data).bind decode with
  | some value => .ok value
  | none => .error (jsonError data)

/-- The text of a `time.Time`, which is one without a backslash. -/
structure TimeText where
  format : Time → Except CoreError Bytes
  parse : List Char → Option Time
  isSome_parse : ∀ time content, format time = .ok content →
    (parse (decodeText content)).isSome = true
  spellsNoEscape : ∀ time content, format time = .ok content →
    SpellsNoEscape (decodeText content)

/-- The time in a text is the time it was made from. -/
def TimeText.Exact (times : TimeText) : Prop :=
  ∀ time content, times.format time = .ok content →
    times.parse (decodeText content) = some time

def TimeText.decodeInto (times : TimeText) (time : Time) :
    Json (List Char) → Option Time
  | .null => some time
  | .string content => times.parse content
  | _ => none

def MessageType.ofName (name : Bytes) : MessageType :=
  ([.handshake, .handshakeAck, .ping, .pong, .disconnect, .getStats, .stats,
    .startMiner, .stopMiner, .minerAck, .deploy, .deployAck, .getLogs, .logs,
    .error].find? fun (type : MessageType) => type.name = name).getD (.other name)

def wireNames : List String :=
  ["id", "type", "from", "to", "timestamp", "payload", "replyTo"]

/-- `messageJSON`, where a nil payload is null. -/
structure WireMessage where
  id : Bytes := []
  type : Bytes := []
  fromNode : Bytes := []
  toNode : Bytes := []
  timestamp : Time := 0
  payload : Json Bytes := .null
  replyTo : Bytes := []

def wireString : List (List Char × Json (List Char)) → String → Option Bytes :=
  fieldInto wireNames (fun value json => json.stringInto value) []

section

variable (printer : FloatPrinter) (times : TimeText)
  (jsonError : Bytes → CoreError)

def decodeWire : Json (List Char) → Option WireMessage
  | .null => some {}
  | .object members => do
      let id ← wireString members "id"
      let type ← wireString members "type"
      let fromNode ← wireString members "from"
      let toNode ← wireString members "to"
      let timestamp ← fieldInto wireNames times.decodeInto 0 members "timestamp"
      let payload ← fieldInto wireNames (fun _ json => json.toAny printer) .null
        members "payload"
      let replyTo ← wireString members "replyTo"
      pure
        { id := id, type := type, fromNode := fromNode, toNode := toNode,
          timestamp := timestamp, payload := payload, replyTo := replyTo }
  | _ => none

def unmarshalAny (data : Bytes) : Except CoreError (Json Bytes) :=
  jsonUnmarshal jsonError (Json.toAny printer) data

def marshal (value : MarshalArgument) : Except CoreError Bytes :=
  marshalJSON (unmarshalAny printer jsonError) times.format value

def WireMessage.payloadBytes (wire : WireMessage) :
    Except CoreError (Option Bytes) :=
  match wire.payload with
  | .null => .ok none
  | payload => (marshal printer times jsonError (.encodable payload)).map some

def decodeMessageJSON (data : Bytes) : Except CoreError Message := do
  let wire ← jsonUnmarshal jsonError (decodeWire printer times) data
  let payload ← wire.payloadBytes printer times jsonError
  pure
    { id := wire.id, type := .ofName wire.type, fromNode := wire.fromNode,
      toNode := wire.toNode, timestamp := wire.timestamp, payload := payload,
      replyTo := wire.replyTo }

/-- A message is given a payload, marshalled, unmarshalled, and its payload is
parsed. -/
def payloadRoundTrip (struct : StructType) (msg : Message)
    (payload : struct.type.Value printer) :
    Outcome CoreError (struct.type.Value printer) := do
  let data ← Outcome.ofExcept
    (marshal printer times jsonError (.encodable (struct.type.encode payload)))
  let wire ← Outcome.ofExcept (marshalMessageJSON
    (unmarshalAny printer jsonError) times.format
    (some { msg with payload := some data }))
  let received ← Outcome.ofExcept (decodeMessageJSON printer times jsonError wire)
  received.parsePayload (struct.type.zero printer) (jsonUnmarshal jsonError
    (struct.type.decodeInto (struct.type.zero printer)))

end

/-! ## What comes back -/

section

variable {printer : FloatPrinter} {times : TimeText}
  {jsonError : Bytes → CoreError}

theorem jsonUnmarshal_replaceHTMLEscapes {α : Type}
    {decode : Json (List Char) → Option α} {value : Json Bytes} {result : α} :
    jsonUnmarshal jsonError decode (replaceHTMLEscapes (jsonMarshal value)) =
        .ok result ↔
      Plain value ∧ decode (value.map decodeText) = some result := by
  unfold jsonUnmarshal
  rw [parse_replaceHTMLEscapes]
  split_ifs with hplain
  · rw [Option.bind_some]
    cases decode (value.map decodeText) <;> simp [hplain]
  · simp [hplain]

theorem plain_anyOf {type : GoType} {value : type.Value printer}
    (hplain : Plain (type.encode value)) : Plain (type.anyOf value) := by
  have htext : ((type.encode value).map decodeText).all
      (fun content => decide (SpellsNoEscape content)) = true := by
    rw [Json.all_map]
    exact hplain
  exact Json.all_of_toAny htext (type.toAny_encode value)

/-- No string of the message outside of its payload spells an escape of `<`,
`>` or `&`. -/
def HeaderPlain (msg : Message) : Prop :=
  ∀ s ∈ [msg.id, msg.type.name, msg.fromNode, msg.toNode, msg.replyTo],
    SpellsNoEscape (decodeText s)

theorem plain_messageJSON_iff {msg : Message} {timestamp : Bytes}
    {payload : Json Bytes}
    (htimestamp : SpellsNoEscape (decodeText timestamp)) :
    Plain (messageJSON msg timestamp payload) ↔
      HeaderPlain msg ∧ Plain payload := by
  have hkeys : SpellsNoEscape (decodeText (text "id")) ∧
      SpellsNoEscape (decodeText (text "type")) ∧
      SpellsNoEscape (decodeText (text "from")) ∧
      SpellsNoEscape (decodeText (text "to")) ∧
      SpellsNoEscape (decodeText (text "timestamp")) ∧
      SpellsNoEscape (decodeText (text "payload")) ∧
      SpellsNoEscape (decodeText (text "replyTo")) := by decide +kernel
  have hempty : SpellsNoEscape (decodeText []) := by decide
  unfold Plain messageJSON HeaderPlain
  by_cases hreply : msg.replyTo = []
  · simp [Json.all, Json.allMembers, hkeys, htimestamp, hreply, hempty,
      and_assoc]
  · simp [Json.all, Json.allMembers, hkeys, htimestamp, hreply]
    tauto

/-- What `messageJSON` encodes is decoded field by field. -/
theorem decodeWire_messageJSON (msg : Message) {timestamp : Bytes} {time : Time}
    {payload : Json Bytes} (htime : times.parse (decodeText timestamp) = some time)
    (hpayload : Json.Canonical printer payload) :
    decodeWire printer times ((messageJSON msg timestamp payload).map decodeText) =
      some
        { id := utf8 (decodeText msg.id), type := utf8 (decodeText msg.type.name),
          fromNode := utf8 (decodeText msg.fromNode),
          toNode := utf8 (decodeText msg.toNode),
          timestamp := time, payload := payload,
          replyTo := utf8 (decodeText msg.replyTo) } := by
  unfold messageJSON
  rw [Json.map, decodeWire]
  generalize hmembers : Json.mapMembers decodeText _ = members
  -- the six fields that are always there
  obtain ⟨hid, htype, hfrom, hto, htimestamp, hany⟩ :
      wireString members "id" = some (utf8 (decodeText msg.id)) ∧
      wireString members "type" = some (utf8 (decodeText msg.type.name)) ∧
      wireString members "from" = some (utf8 (decodeText msg.fromNode)) ∧
      wireString members "to" = some (utf8 (decodeText msg.toNode)) ∧
      fieldInto wireNames times.decodeInto 0 members "timestamp" =
        (times.parse (decodeText timestamp)).bind some ∧
      fieldInto wireNames (fun _ json => json.toAny printer) .null members
          "payload" = ((payload.map decodeText).toAny printer).bind some := by
    rw [← hmembers]
    split <;> exact ⟨rfl, rfl, rfl, rfl, rfl, rfl⟩
  have hreply : wireString members "replyTo" =
      some (utf8 (decodeText msg.replyTo)) := by
    rw [← hmembers]
    split
    next hempty =>
      rw [hempty]
      rfl
    next => rfl
  rw [hid, htype, hfrom, hto, htimestamp, htime, hany, hpayload, hreply]
  rfl

/-- An encoded payload is decoded into an `any` of its own. -/
theorem payloadValue_eq_ok_iff {type : GoType} {payload : type.Value printer}
    {msg : Message} {value : Json Bytes}
    (hpayload : msg.payload =
      some (replaceHTMLEscapes (jsonMarshal (type.encode payload)))) :
    msg.payloadValue (unmarshalAny printer jsonError) = .ok value ↔
      Plain (type.encode payload) ∧ value = type.anyOf payload := by
  unfold Message.payloadValue unmarshalAny
  rw [hpayload]
  dsimp only
  rw [jsonUnmarshal_replaceHTMLEscapes, type.toAny_encode, Option.some.injEq,
    eq_comm (a := value)]

theorem marshalMessageJSON_eq_ok_iff {unmarshal : Bytes → Except CoreError (Json Bytes)}
    {formatTime : Time → Except CoreError Bytes} {msg : Message} {data : Bytes} :
    marshalMessageJSON unmarshal formatTime (some msg) = .ok data ↔
      ∃ payload, msg.payloadValue unmarshal = .ok payload ∧
      ∃ timestamp, formatTime msg.timestamp = .ok timestamp ∧
        data = replaceHTMLEscapes
          (jsonMarshal (messageJSON msg timestamp payload)) := by
  unfold marshalMessageJSON
  dsimp only
  cases msg.payloadValue unmarshal with
  | error error => simp [bind, Except.bind]
  | ok payload =>
      cases formatTime msg.timestamp with
      | error error => simp [bind, Except.bind]
      | ok timestamp => simp [bind, Except.bind, pure, Except.pure, eq_comm]

/-- The message that arrives, where all strings are UTF-8. -/
def Message.arrived (msg : Message) (time : Time) (payload : Bytes) : Message where
  id := utf8 (decodeText msg.id)
  type := .ofName (utf8 (decodeText msg.type.name))
  fromNode := utf8 (decodeText msg.fromNode)
  toNode := utf8 (decodeText msg.toNode)
  timestamp := time
  payload := some payload
  replyTo := utf8 (decodeText msg.replyTo)

theorem decodeMessageJSON_messageJSON {msg received : Message} {timestamp : Bytes}
    {time : Time} {members : List (Bytes × Json Bytes)}
    (htimestamp : times.format msg.timestamp = .ok timestamp)
    (htime : times.parse (decodeText timestamp) = some time)
    (hcanonical : Json.Canonical printer (.object members))
    (hplain : Plain (.object members)) :
    decodeMessageJSON printer times jsonError (replaceHTMLEscapes
        (jsonMarshal (messageJSON msg timestamp (.object members)))) =
        .ok received ↔
      HeaderPlain msg ∧ received = msg.arrived time
        (replaceHTMLEscapes (jsonMarshal (.object members))) := by
  have hwire := decodeWire_messageJSON msg htime hcanonical
  have hheader : Plain (messageJSON msg timestamp (.object members)) ↔
      HeaderPlain msg ∧ Plain (.object members) :=
    plain_messageJSON_iff
      (times.spellsNoEscape msg.timestamp timestamp htimestamp)
  unfold decodeMessageJSON
  cases hdecoded : jsonUnmarshal jsonError (decodeWire printer times)
      (replaceHTMLEscapes
        (jsonMarshal (messageJSON msg timestamp (.object members)))) with
  | error error =>
      refine iff_of_false (fun h => by cases h) ?_
      rintro ⟨hmsg, -⟩
      rw [jsonUnmarshal_replaceHTMLEscapes.mpr
        ⟨hheader.mpr ⟨hmsg, hplain⟩, hwire⟩] at hdecoded
      cases hdecoded
  | ok wire =>
      rw [jsonUnmarshal_replaceHTMLEscapes, hheader, hwire, Option.some.injEq]
        at hdecoded
      obtain ⟨⟨hmsg, -⟩, rfl⟩ := hdecoded
      rw [and_iff_right hmsg]
      constructor
      · intro hreceived
        cases hreceived
        rfl
      · rintro rfl
        rfl

theorem parsePayload_arrived {struct : StructType} {msg : Message} {time : Time}
    {payload received : struct.type.Value printer}
    (hplain : Plain (struct.type.anyOf payload)) :
    (msg.arrived time (replaceHTMLEscapes
        (jsonMarshal (struct.type.anyOf payload)))).parsePayload
        (struct.type.zero printer) (jsonUnmarshal jsonError
          (struct.type.decodeInto (struct.type.zero printer))) =
        .returned received ↔
      struct.type.carry payload = some received := by
  unfold Message.arrived Message.parsePayload
  dsimp only
  rw [Outcome.ofExcept_eq_returned_iff, jsonUnmarshal_replaceHTMLEscapes,
    struct.type.decodeInto_anyOf payload struct.distinct, and_iff_right hplain]

/-- The message can be sent at all: its texts are JSON, and its time has a
text. -/
structure Transmissible (times : TimeText) (msg : Message)
    (payload : Json Bytes) : Prop where
  payload : Plain payload
  header : HeaderPlain msg
  timestamp : ∃ content, times.format msg.timestamp = .ok content

/-- What comes back of a payload is what is left of it after going through an
`any` once. -/
theorem payloadRoundTrip_eq_returned_iff {struct : StructType} {msg : Message}
    {payload received : struct.type.Value printer} :
    payloadRoundTrip printer times jsonError struct msg payload =
        .returned received ↔
      Transmissible times msg (struct.type.encode payload) ∧
        struct.type.carry payload = some received := by
  have hcanonical := Json.canonical_of_toAny (struct.type.toAny_encode payload)
  unfold payloadRoundTrip
  constructor
  · intro hreturned
    obtain ⟨data, hdata, hreturned⟩ := Outcome.bind_eq_returned_iff.mp hreturned
    obtain ⟨wire, hwire, hreturned⟩ := Outcome.bind_eq_returned_iff.mp hreturned
    obtain ⟨arrived, harrived, hparsed⟩ :=
      Outcome.bind_eq_returned_iff.mp hreturned
    rw [Outcome.ofExcept_eq_returned_iff] at hdata hwire harrived
    cases hdata
    obtain ⟨_, hvalue, timestamp, htimestamp, rfl⟩ :=
      marshalMessageJSON_eq_ok_iff.mp hwire
    obtain ⟨hplain, rfl⟩ := (payloadValue_eq_ok_iff rfl).mp hvalue
    obtain ⟨time, htime⟩ := Option.isSome_iff_exists.mp
      (times.isSome_parse msg.timestamp timestamp htimestamp)
    obtain ⟨hheader, rfl⟩ := (decodeMessageJSON_messageJSON htimestamp htime
      hcanonical (plain_anyOf hplain)).mp harrived
    exact ⟨⟨hplain, hheader, timestamp, htimestamp⟩,
      (parsePayload_arrived (plain_anyOf hplain)).mp hparsed⟩
  · rintro ⟨⟨hplain, hheader, timestamp, htimestamp⟩, hcarried⟩
    obtain ⟨time, htime⟩ := Option.isSome_iff_exists.mp
      (times.isSome_parse msg.timestamp timestamp htimestamp)
    refine Outcome.bind_eq_returned_iff.mpr ⟨_, rfl, ?_⟩
    refine Outcome.bind_eq_returned_iff.mpr
      ⟨replaceHTMLEscapes
        (jsonMarshal (messageJSON msg timestamp (struct.type.anyOf payload))),
        Outcome.ofExcept_eq_returned_iff.mpr ?_, ?_⟩
    · exact marshalMessageJSON_eq_ok_iff.mpr
        ⟨_, (payloadValue_eq_ok_iff rfl).mpr ⟨hplain, rfl⟩,
          timestamp, htimestamp, rfl⟩
    · refine Outcome.bind_eq_returned_iff.mpr
        ⟨_, Outcome.ofExcept_eq_returned_iff.mpr
          ((decodeMessageJSON_messageJSON htimestamp htime hcanonical
            (plain_anyOf hplain)).mpr ⟨hheader, rfl⟩), ?_⟩
      exact (parsePayload_arrived (plain_anyOf hplain)).mpr hcarried

/-- The `int64` values of a payload. -/
def int64s (struct : StructType) (payload : struct.type.Value printer) :
    List Int64 :=
  struct.type.integers (· = .int64) payload

/-- The values of all of its integers, which are `int` or `int64`. -/
def integers (struct : StructType) (payload : struct.type.Value printer) :
    List Int64 :=
  struct.type.integers (fun _ => true) payload

def minerUptime (item : minerStatsItem.type.Value printer) : Int64 :=
  item.2.2.2.2.2.2.2.1

variable (printer) in
/-- Which fields these are in the payloads of the protocol. -/
theorem int64s_payloads :
    (∀ sentAt, int64s pingPayload
      ((sentAt, ()) : pingPayload.type.Value printer) = [sentAt]) ∧
    (∀ sentAt receivedAt, int64s pongPayload
      ((sentAt, receivedAt, ()) : pongPayload.type.Value printer) =
        [sentAt, receivedAt]) ∧
    (∀ nodeID nodeName miners uptime, int64s statsPayload
      ((nodeID, nodeName, some miners, uptime, ()) :
        statsPayload.type.Value printer) = miners.map minerUptime ++ [uptime]) ∧
    ∀ minerName lines since, int64s getLogsPayload
      ((minerName, lines, since, ()) : getLogsPayload.type.Value printer) =
        [since] := by
  refine ⟨fun _ => rfl, fun _ _ => rfl, ?_, fun _ _ _ => rfl⟩
  intro nodeID nodeName miners uptime
  have hminers : miners.flatMap (minerStatsItem.type.integers (· = .int64)) =
      miners.map minerUptime := by
    rw [List.map_eq_flatMap]
    rfl
  exact congrArg (· ++ [uptime]) hminers

variable (printer times jsonError) in
/-- The payload comes back, and with the same `int64` values. -/
def Int64sSurvive (struct : StructType) (msg : Message)
    (payload : struct.type.Value printer) : Prop :=
  ∃ received,
    payloadRoundTrip printer times jsonError struct msg payload =
        .returned received ∧
      int64s struct received = int64s struct payload

/-- The `int64` values come back exactly if each is the integer that is printed
for its float, where no `int` may be so large that what is printed for it is
out of range.  Below `2 ^ 53` every printer prints the integer itself. -/
theorem int64s_survive_iff (printer : FloatPrinter) (times : TimeText)
    (jsonError : Bytes → CoreError) (struct : StructType) (msg : Message)
    (payload : struct.type.Value printer) :
    (Int64sSurvive printer times jsonError struct msg payload ↔
      Transmissible times msg (struct.type.encode payload) ∧
        (∀ n ∈ integers struct payload, InInt64 (printer.carry n.toInt)) ∧
        ∀ n ∈ int64s struct payload, printer.carry n.toInt = n.toInt) ∧
    ∀ n : ℤ, n.natAbs < 2 ^ 53 → printer.carry n = n := by
  refine ⟨?_, fun n hn => printer.carry_eq_self_of_lt hn⟩
  unfold Int64sSurvive int64s integers
  rw [← struct.type.carry_keeps_integers_iff]
  simp only [payloadRoundTrip_eq_returned_iff, and_assoc, exists_and_left]

end

/-! ### Pings -/

/-- A time is written as its number. -/
def sampleClock : TimeText where
  format time := .ok (utf8 (decimal time))
  parse := parseInt
  isSome_parse time content hcontent := by
    cases hcontent
    rw [decodeText_utf8, parseInt_decimal]
    rfl
  spellsNoEscape time content hcontent := by
    cases hcontent
    rw [decodeText_utf8]
    intro entry _ hspelled
    exact (NumberLiteral.ofInt time).escape_notMem
      (hspelled.subset List.mem_cons_self)

def sampleJsonError (_ : Bytes) : CoreError := .plain (text "json")

def pingMessage : Message :=
  { id := text "m", type := .ping, fromNode := text "a", toNode := text "b" }

def ping (sentAt : Int64) : pingPayload.type.Value shortestPrinter := (sentAt, ())

theorem transmissible_ping (sentAt : Int64) :
    Transmissible sampleClock pingMessage
      (pingPayload.type.encode (ping sentAt)) where
  payload := by
    have hkey : SpellsNoEscape (decodeText (utf8 "sentAt".toList)) := by
      decide +kernel
    simpa [Plain, pingPayload, StructType.type, ping, GoType.encode,
      GoFields.encode, Json.all, Json.allMembers] using hkey
  header := by
    unfold HeaderPlain
    decide +kernel
  timestamp := ⟨_, rfl⟩

theorem carry_ping (sentAt : Int64) :
    pingPayload.type.carry (ping sentAt) =
      (shortestPrinter.carryInt64 sentAt).map ping := by
  change ((shortestPrinter.carryInt64 sentAt).bind fun carried =>
    some (carried, ())) = _
  rw [Option.map_eq_bind]
  rfl

theorem int64s_ping (sentAt : Int64) :
    int64s pingPayload (ping sentAt) = [sentAt] :=
  (int64s_payloads shortestPrinter).1 sentAt

theorem integers_ping (sentAt : Int64) :
    integers pingPayload (ping sentAt) = [sentAt] := rfl

/-- A time in milliseconds comes back. -/
theorem int64s_survive_millis :
    Int64sSurvive shortestPrinter sampleClock sampleJsonError pingPayload
      pingMessage (ping 1700000000000) := by
  refine (int64s_survive_iff _ _ _ _ _ _).1.mpr ⟨transmissible_ping _, ?_, ?_⟩
  · rw [integers_ping, List.forall_mem_singleton]
    decide +kernel
  · rw [int64s_ping, List.forall_mem_singleton]
    decide +kernel

/-- A ping that was sent at `2 ^ 53 + 1` arrives as one sent at `2 ^ 53`. -/
theorem odd_timestamp_arrives_even :
    payloadRoundTrip shortestPrinter sampleClock sampleJsonError pingPayload
        pingMessage (ping 9007199254740993) =
        .returned (ping 9007199254740992) ∧
      int64s pingPayload (ping 9007199254740992) ≠
        int64s pingPayload (ping 9007199254740993) := by
  have hcarried : shortestPrinter.carryInt64 9007199254740993 =
      some 9007199254740992 := by decide +kernel
  refine ⟨payloadRoundTrip_eq_returned_iff.mpr ⟨transmissible_ping _, ?_⟩, ?_⟩
  · rw [carry_ping, hcarried]
    rfl
  · rw [int64s_ping, int64s_ping]
    decide

end GoP2P.Node
