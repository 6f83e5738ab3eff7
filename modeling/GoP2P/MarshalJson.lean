import GoP2P.Json
import GoP2P.NodeMessage

/-!
# Marshalling without HTML escapes

`encoding/json` writes `<`, `>` and `&` in strings as escapes by number, and
`MarshalJSON` turns these back in the encoded text.  There a backslash of the
value stands as two, so that the second one followed by the digits of such an
escape is taken for one.  The text still parses to the value exactly if no
string or key of the value spells such an escape; otherwise it is not JSON.
-/

namespace GoP2P.Node

/-! ## Encoding as `encoding/json` does -/

/-- `appendString`, for one character of the string or one byte that is not
UTF-8. -/
def escapeRune (escapeHTML : Bool) : Option Char → List Char
  | none => ['\\', 'u', 'f', 'f', 'f', 'd']
  | some c =>
      if c = '\\' ∨ c = '"' then ['\\', c]
      else if c = Char.ofNat 8 then ['\\', 'b']
      else if c = Char.ofNat 12 then ['\\', 'f']
      else if c = '\n' then ['\\', 'n']
      else if c = '\r' then ['\\', 'r']
      else if c = '\t' then ['\\', 't']
      else if c < ' ' ∨
          escapeHTML = true ∧ (c = '<' ∨ c = '>' ∨ c = '&') then
        ['\\', 'u', '0', '0', Nat.digitChar (c.toNat / 16),
          Nat.digitChar (c.toNat % 16)]
      else if c = Char.ofNat 0x2028 ∨ c = Char.ofNat 0x2029 then
        ['\\', 'u', '2', '0', '2', Nat.digitChar (c.toNat % 16)]
      else [c]

def escapeString (escapeHTML : Bool) (value : Bytes) : List Char :=
  (runes value).flatMap (escapeRune escapeHTML)

/-- `core.JSONMarshal` of a value, given as the tree that `encoding/json`
walks: a struct as the object of its fields, a map with its keys sorted. -/
def jsonMarshal (value : Json Bytes) : Bytes :=
  utf8 (value.encode (escapeString true))

/-! ## `bufpool.go` and `message.go` -/

def replaceHTMLEscapes (data : Bytes) : Bytes :=
  let data := replaceAll (text "\\u003c") (text "<") data
  let data := replaceAll (text "\\u003e") (text ">") data
  replaceAll (text "\\u0026") (text "&") data

def marshalRawJSON (raw : Option Bytes) : Bytes := raw.getD (text "null")

/-- `messageJSON`; an empty `replyTo` is left out. -/
def messageJSON (msg : Message) (timestamp : Bytes) (payload : Json Bytes) :
    Json Bytes :=
  .object
    ([(text "id", .string msg.id), (text "type", .string msg.type.name),
      (text "from", .string msg.fromNode), (text "to", .string msg.toNode),
      (text "timestamp", .string timestamp), (text "payload", payload)] ++
      if msg.replyTo = [] then [] else [(text "replyTo", .string msg.replyTo)])

/-- The argument of `MarshalJSON`, a pointer being nil without a value. -/
inductive MarshalArgument where
  | rawMessage (raw : Option Bytes)
  | rawMessagePointer (raw : Option (Option Bytes))
  | messagePointer (msg : Option Message)
  | message (msg : Message)
  | encodable (value : Json Bytes)
  /-- What `core.JSONMarshal` refuses, with the error if its result is one. -/
  | unencodable (error : Option CoreError)

section

variable (unmarshal : Bytes → Except CoreError (Json Bytes))
  (formatTime : Time → Except CoreError Bytes)

/-- The payload as `any`, which is nil for a nil payload. -/
def Message.payloadValue (msg : Message) : Except CoreError (Json Bytes) :=
  match msg.payload with
  | none => .ok .null
  | some data => unmarshal data

/-- `core.JSONUnmarshal` into an `any` and the text of a `time.Time` are
parameters. -/
def marshalMessageJSON : Option Message → Except CoreError Bytes
  | none => .ok (text "null")
  | some msg => do
      let payload ← msg.payloadValue unmarshal
      let timestamp ← formatTime msg.timestamp
      pure (replaceHTMLEscapes
        (jsonMarshal (messageJSON msg timestamp payload)))

def marshalJSON : MarshalArgument → Except CoreError Bytes
  | .rawMessage raw => .ok (marshalRawJSON raw)
  | .rawMessagePointer none =>
      .error (.plain (text "node.RawMessage: marshal on nil pointer"))
  | .rawMessagePointer (some raw) => .ok (marshalRawJSON raw)
  | .messagePointer msg => marshalMessageJSON unmarshal formatTime msg
  | .message msg => marshalMessageJSON unmarshal formatTime (some msg)
  | .encodable value => .ok (replaceHTMLEscapes (jsonMarshal value))
  | .unencodable (some error) => .error error
  | .unencodable none => .error (.plain (text "json marshal failed"))

end

/-! ## The replaced text -/

def htmlEscapes : List (List Char × Char) :=
  [(['u', '0', '0', '3', 'c'], '<'), (['u', '0', '0', '3', 'e'], '>'),
    (['u', '0', '0', '2', '6'], '&')]

theorem htmlEscapes_table : EscapeTable '\\' htmlEscapes where
  lengths := ⟨5, by decide⟩
  nodup := by decide
  lead_notMem := by decide
  mark_notMem := by decide
  mark_ne := by decide

abbrev unescapeHTML (content : List Char) : List Char :=
  unescapeAll '\\' htmlEscapes content

theorem replaceHTMLEscapes_utf8 (content : List Char) :
    replaceHTMLEscapes (utf8 content) = utf8 (unescapeHTML content) := by
  have hword : ∀ entry ∈ htmlEscapes, ∀ c ∈ '\\' :: entry.1, isASCII c := by
    simp [htmlEscapes, isASCII]
  have hreplace : ∀ word mark, (word, mark) ∈ htmlEscapes → ∀ content,
      utf8 (replaceAll ('\\' :: word) [mark] content) =
        replaceAll (utf8 ('\\' :: word)) (utf8 [mark]) (utf8 content) :=
    fun word mark hentry content =>
      (replaceAll_utf8 (hword (word, mark) hentry) [mark] content).symm
  unfold unescapeHTML unescapeAll htmlEscapes
  simp only [List.foldl_cons, List.foldl_nil]
  rw [hreplace _ '&' (by decide), hreplace _ '>' (by decide),
    hreplace _ '<' (by decide)]
  rfl

theorem unescapeHTML_keepsStructure : Json.KeepsStructure unescapeHTML where
  nil := unescapeAll_nil
  cons c rest hc := unescapeAll_cons_of_ne hc rest
  quote content rest :=
    unescapeAll_append_cons (by decide) (by decide) content rest

/-! ## Reading escaped strings -/

theorem getD_runeError_eq_backslash {r : Option Char} :
    r.getD runeError = '\\' ↔ r = some '\\' := by
  cases r with
  | none => simp [runeError]
  | some c => simp

theorem hexUnit_digitChar {n : ℕ} (hn : n < 128) :
    Json.hexUnit '0' '0' (Nat.digitChar (n / 16)) (Nat.digitChar (n % 16)) =
      some n := by
  have hall : ∀ n < 128, Json.hexUnit '0' '0' (Nat.digitChar (n / 16))
      (Nat.digitChar (n % 16)) = some n := by decide
  exact hall n hn

theorem toNat_lt_of_lt_space {c : Char} (hc : c < ' ') : c.toNat < 32 :=
  UInt32.lt_iff_toNat_lt.mp hc

theorem escapeRune_written (escapeHTML : Bool) (r : Option Char) :
    Json.Written (r.getD runeError) (escapeRune escapeHTML r) := by
  cases r with
  | none =>
      have hunit : Json.hexUnit 'f' 'f' 'f' 'd' = some 0xfffd := rfl
      exact .unit hunit rfl rfl
  | some c =>
      rw [Option.getD_some]
      unfold escapeRune
      dsimp only
      split_ifs with hquote hb hf hn hr ht hnumber hline
      · rcases hquote with rfl | rfl <;> exact .simple rfl
      · exact .simple (congrArg some hb.symm)
      · exact .simple (congrArg some hf.symm)
      · exact .simple (congrArg some hn.symm)
      · exact .simple (congrArg some hr.symm)
      · exact .simple (congrArg some ht.symm)
      · have hlt : c.toNat < 128 := by
          rcases hnumber with h | ⟨-, rfl | rfl | rfl⟩
          · exact (toNat_lt_of_lt_space h).trans (by omega)
          · decide
          · decide
          · decide
        have hunit : Json.isSurrogate c.toNat = false := by
          simp [Json.isSurrogate]
          omega
        exact .unit (hexUnit_digitChar hlt) hunit (Char.ofNat_toNat c)
      · have hunit : Json.hexUnit '2' '0' '2' '8' = some 0x2028 ∧
            Json.hexUnit '2' '0' '2' '9' = some 0x2029 := ⟨rfl, rfl⟩
        rcases hline with rfl | rfl
        · exact .unit hunit.1 rfl rfl
        · exact .unit hunit.2 rfl rfl
      · rw [not_or] at hquote hnumber
        exact .plain hquote.2 hquote.1 hnumber.1

theorem missing_of_front {content : List Char}
    (hfront : ¬['u', '0', '0'] <+: content) :
    ∀ entry ∈ htmlEscapes, ¬entry.1 <+: content := by
  have hentries : ∀ entry ∈ htmlEscapes, ['u', '0', '0'] <+: entry.1 := by
    decide
  exact fun entry hentry h => hfront ((hentries entry hentry).trans h)

theorem unescapeHTML_token {tail rest : List Char} (htail : '\\' ∉ tail)
    (hmissing : ∀ entry ∈ htmlEscapes, ¬entry.1 <+: tail ++ rest) :
    unescapeHTML ('\\' :: (tail ++ rest)) =
      '\\' :: (tail ++ unescapeHTML rest) := by
  rw [unescapeHTML, unescapeAll_lead_of_missing htmlEscapes_table hmissing,
    unescapeAll_append_of_notMem htail]

theorem hexUnit_of_entry {a b c d mark : Char}
    (hentry : (['u', a, b, c, d], mark) ∈ htmlEscapes) :
    Json.hexUnit a b c d = some mark.toNat := by
  simp only [htmlEscapes, List.mem_cons, Prod.mk.injEq, List.cons.injEq,
    List.not_mem_nil, or_false, true_and, and_true] at hentry
  rcases hentry with ⟨⟨rfl, rfl, rfl, rfl⟩, rfl⟩ |
    ⟨⟨rfl, rfl, rfl, rfl⟩, rfl⟩ | ⟨⟨rfl, rfl, rfl, rfl⟩, rfl⟩ <;> rfl

/-- Of what is written for one character, only an escaped `<`, `>` or `&` and
the second backslash of two can begin a word that is replaced. -/
theorem unescapeHTML_written {c : Char} {token : List Char}
    (hwritten : Json.Written c token) (hlead : c ≠ '\\')
    (hmark : ∀ entry ∈ htmlEscapes, c ≠ entry.2)
    (rest : List Char) :
    unescapeHTML (token ++ rest) = token ++ unescapeHTML rest := by
  cases hwritten with
  | plain => exact unescapeAll_cons_of_ne hlead rest
  | @simple e he =>
      have hne : e ≠ '\\' := by
        rintro rfl
        exact hlead (Option.some.inj he).symm
      have hu : e ≠ 'u' := by
        rintro rfl
        cases he
      have htail : '\\' ∉ [e] := by simp [Ne.symm hne]
      exact unescapeHTML_token htail (missing_of_front (by simp [Ne.symm hu]))
  | @unit a b d e unit hdigits hunit hc =>
      have htail : '\\' ∉ ['u', a, b, d, e] := by
        rw [List.mem_cons, not_or]
        exact ⟨by decide, Json.escape_notMem_of_hexUnit hdigits⟩
      apply unescapeHTML_token htail
      intro entry hentry hfound
      have hlengths : ∀ entry ∈ htmlEscapes, entry.1.length = 5 := by decide
      have hlength := hlengths entry hentry
      have heq : entry.1 = ['u', a, b, d, e] :=
        (List.prefix_of_prefix_length_le hfound (List.prefix_append _ _)
          (by simp [hlength])).eq_of_length (by simp [hlength])
      have hcode : Json.hexUnit a b d e = some entry.2.toNat := by
        apply hexUnit_of_entry
        rw [← heq]
        exact hentry
      apply hmark entry hentry
      rw [← hc, ← Char.ofNat_toNat entry.2,
        Option.some.inj (hdigits.symm.trans hcode)]

theorem unescapeHTML_mark {entry : List Char × Char}
    (hentry : entry ∈ htmlEscapes) (rest : List Char) :
    unescapeHTML (escapeRune true (some entry.2) ++ rest) =
      escapeRune false (some entry.2) ++ unescapeHTML rest := by
  have hescaped : ∀ entry ∈ htmlEscapes,
      escapeRune true (some entry.2) = '\\' :: entry.1 ∧
        escapeRune false (some entry.2) = [entry.2] := by decide
  rw [(hescaped entry hentry).1, (hescaped entry hentry).2]
  exact unescapeAll_entry htmlEscapes_table hentry rest

theorem escapeRune_true_of_not_mark {r : Option Char}
    (hr : ∀ entry ∈ htmlEscapes, r ≠ some entry.2) :
    escapeRune true r = escapeRune false r := by
  cases r with
  | none => rfl
  | some c =>
      have hc : ¬(c = '<' ∨ c = '>' ∨ c = '&') := by
        simpa [htmlEscapes] using hr
      simp [escapeRune, hc]

theorem unescapeHTML_escapeRune {r : Option Char} (hr : r ≠ some '\\')
    (rest : List Char) :
    unescapeHTML (escapeRune true r ++ rest) =
      escapeRune false r ++ unescapeHTML rest := by
  by_cases hmark : ∃ entry ∈ htmlEscapes, r = some entry.2
  · rcases hmark with ⟨entry, hentry, rfl⟩
    exact unescapeHTML_mark hentry rest
  · push Not at hmark
    rw [escapeRune_true_of_not_mark hmark]
    apply unescapeHTML_written (escapeRune_written false r)
    · exact fun h => hr (getD_runeError_eq_backslash.mp h)
    · intro entry hentry h
      cases r with
      | none =>
          have herror : ∀ entry ∈ htmlEscapes, runeError ≠ entry.2 := by decide
          exact herror entry hentry h
      | some c => exact hmark entry hentry (congrArg some h)

/-- A word that is not escaped stands at the front of the escaped text as it
does at the front of the text. -/
theorem prefix_flatMap_escapeRune_iff {word : List Char}
    (hword : ∀ c ∈ word, escapeRune true (some c) = [c] ∧ c ≠ '\\' ∧
      c ≠ runeError) (rs : List (Option Char)) :
    word <+: rs.flatMap (escapeRune true) ↔
      word <+: rs.map (·.getD runeError) := by
  induction word generalizing rs with
  | nil => simp
  | cons c word ih =>
      rcases hword c (by simp) with ⟨hplain, hlead, herror⟩
      cases rs with
      | nil => simp
      | cons r rs =>
          rw [List.flatMap_cons, List.map_cons, List.cons_prefix_cons,
            ← ih (fun d hd => hword d (by simp [hd])) rs]
          rcases (escapeRune_written true r).eq_or_exists with heq | ⟨tail, heq⟩
          · rw [heq, List.singleton_append, List.cons_prefix_cons]
          · rw [heq, List.cons_append, List.cons_prefix_cons]
            constructor
            · rintro ⟨h, -⟩
              exact absurd h hlead
            · rintro ⟨h, -⟩
              cases r with
              | none => exact absurd h herror
              | some d =>
                  rw [Option.getD_some] at h
                  subst h
                  rw [hplain] at heq
                  exact absurd (List.cons.inj heq).1 hlead

/-- The text spells no escape of `<`, `>` or `&`. -/
def SpellsNoEscape (content : List Char) : Prop :=
  ∀ entry ∈ htmlEscapes, ¬ '\\' :: entry.1 <:+: content

instance (content : List Char) : Decidable (SpellsNoEscape content) :=
  inferInstanceAs
    (Decidable (∀ entry ∈ htmlEscapes, ¬ '\\' :: entry.1 <:+: content))

theorem spellsNoEscape_cons_iff (c : Char) (content : List Char) :
    SpellsNoEscape (c :: content) ↔
      (c = '\\' → ∀ entry ∈ htmlEscapes, ¬entry.1 <+: content) ∧
        SpellsNoEscape content := by
  unfold SpellsNoEscape
  simp only [List.infix_cons_iff, List.cons_prefix_cons, not_or]
  constructor
  · intro h
    exact ⟨fun hc entry hentry hfound =>
      (h entry hentry).1 ⟨hc.symm, hfound⟩, fun entry hentry =>
      (h entry hentry).2⟩
  · rintro ⟨hfront, hrest⟩ entry hentry
    exact ⟨fun h => hfront h.1.symm entry hentry h.2, hrest entry hentry⟩

/-- Only behind a backslash of the text is anything but an escape replaced. -/
theorem unescapeHTML_kept {r : Option Char} {rest : List Char}
    (hfront : r = some '\\' → ∀ entry ∈ htmlEscapes, ¬entry.1 <+: rest) :
    unescapeHTML (escapeRune true r ++ rest) =
      escapeRune false r ++ unescapeHTML rest := by
  by_cases hr : r = some '\\'
  · subst hr
    change unescapeHTML ('\\' :: '\\' :: rest) = _
    rw [unescapeHTML, unescapeAll_lead_of_missing htmlEscapes_table
        (missing_of_front (by simp)),
      unescapeAll_lead_of_missing htmlEscapes_table (hfront rfl)]
    rfl
  · exact unescapeHTML_escapeRune hr rest

/-- The second of two backslashes is taken for the start of an escape. -/
theorem lexString_taken {entry : List Char × Char}
    (hentry : entry ∈ htmlEscapes) (rest rest' : List Char) :
    Json.lexString
      (unescapeHTML ('\\' :: '\\' :: (entry.1 ++ rest)) ++ rest') = none := by
  have hmark : ∀ entry ∈ htmlEscapes,
      Json.simpleEscape entry.2 = none ∧ entry.2 ≠ 'u' := by decide
  rw [unescapeHTML, unescapeAll_lead_of_missing htmlEscapes_table
      (missing_of_front (by simp)),
    unescapeAll_entry htmlEscapes_table hentry]
  exact Json.lexString_unknown (hmark entry hentry).1 (hmark entry hentry).2

theorem lexString_unescapeHTML (rs : List (Option Char)) (rest : List Char) :
    Json.lexString
        (unescapeHTML (rs.flatMap (escapeRune true)) ++ '"' :: rest) =
      if SpellsNoEscape (rs.map (·.getD runeError)) then
        some (rs.map (·.getD runeError), rest)
      else none := by
  have hwords : ∀ entry ∈ htmlEscapes, ∀ c ∈ entry.1,
      escapeRune true (some c) = [c] ∧ c ≠ '\\' ∧ c ≠ runeError := by
    have hall : ∀ entry ∈ htmlEscapes, entry.1.all (fun c => decide
        (escapeRune true (some c) = [c] ∧ c ≠ '\\' ∧ c ≠ runeError)) := by
      decide
    simpa [List.all_eq_true] using hall
  induction rs with
  | nil =>
      rw [if_pos (by decide)]
      rfl
  | cons r rs ih =>
      have hiff := spellsNoEscape_cons_iff (r.getD runeError)
        (rs.map (·.getD runeError))
      rw [getD_runeError_eq_backslash] at hiff
      rw [List.flatMap_cons, List.map_cons]
      by_cases hfront : r = some '\\' → ∀ entry ∈ htmlEscapes,
          ¬entry.1 <+: rs.map (·.getD runeError)
      · have hkept : r = some '\\' → ∀ entry ∈ htmlEscapes,
            ¬entry.1 <+: rs.flatMap (escapeRune true) := by
          intro hr entry hentry
          rw [prefix_flatMap_escapeRune_iff (hwords entry hentry)]
          exact hfront hr entry hentry
        rw [unescapeHTML_kept hkept, List.append_assoc,
          Json.lexString_written (escapeRune_written false r), ih]
        simp only [hiff.trans (and_iff_right hfront)]
        split <;> rfl
      · rw [if_neg fun h => hfront (hiff.mp h).1]
        push Not at hfront
        rcases hfront with ⟨rfl, entry, hentry, hfound⟩
        rw [← prefix_flatMap_escapeRune_iff (hwords entry hentry)] at hfound
        rcases hfound with ⟨more, hmore⟩
        rw [← hmore]
        exact lexString_taken hentry more _

/-! ## Values -/

theorem escapeString_escapes (escapeHTML : Bool) :
    Json.Escapes (escapeString escapeHTML) (fun _ => true) decodeText := by
  intro value rest
  unfold escapeString decodeText
  rw [if_pos rfl]
  induction runes value with
  | nil => rfl
  | cons r rs ih =>
      rw [List.flatMap_cons, List.append_assoc,
        Json.lexString_written (escapeRune_written escapeHTML r), ih]
      rfl

/-- No string or key of the value spells an escape of `<`, `>` or `&`. -/
def Plain (value : Json Bytes) : Prop :=
  value.all (fun s => decide (SpellsNoEscape (decodeText s))) = true

instance (value : Json Bytes) : Decidable (Plain value) :=
  inferInstanceAs (Decidable (_ = true))

theorem unescapeHTML_escapes :
    Json.Escapes (unescapeHTML ∘ escapeString true)
      (fun s => decide (SpellsNoEscape (decodeText s))) decodeText := by
  intro value rest
  have hread := lexString_unescapeHTML (runes value) rest
  simp only [decide_eq_true_eq]
  exact hread

theorem parse_jsonMarshal (value : Json Bytes) :
    Json.parse (jsonMarshal value) = some (value.map decodeText) := by
  unfold jsonMarshal
  rw [Json.parse_utf8_encode (escapeString_escapes true),
    Json.all_of_forall (fun _ => rfl), if_pos rfl]

theorem parse_replaceHTMLEscapes (value : Json Bytes) :
    Json.parse (replaceHTMLEscapes (jsonMarshal value)) =
      if Plain value then some (value.map decodeText) else none := by
  unfold jsonMarshal
  rw [replaceHTMLEscapes_utf8,
    unescapeHTML_keepsStructure.encode (escapeString true) value,
    Json.parse_utf8_encode unescapeHTML_escapes]
  rfl

/-- The text is JSON and has the value of the other text. -/
def SameValue (data data' : Bytes) : Prop :=
  (Json.parse data).isSome = true ∧ Json.parse data = Json.parse data'

theorem sameValue_replaceHTMLEscapes_iff (value : Json Bytes) :
    SameValue (replaceHTMLEscapes (jsonMarshal value)) (jsonMarshal value) ↔
      Plain value := by
  unfold SameValue
  rw [parse_replaceHTMLEscapes, parse_jsonMarshal]
  split <;> simp_all

section

variable (unmarshal : Bytes → Except CoreError (Json Bytes))
  (formatTime : Time → Except CoreError Bytes)

/-- The text of a value, and of a message whose payload and time can be
encoded, keeps its value exactly if no string or key spells an escape of `<`,
`>` or `&`. -/
theorem marshalJSON_sameValue_iff :
    (∀ value : Json Bytes, ∃ data,
      marshalJSON unmarshal formatTime (.encodable value) = .ok data ∧
        (SameValue data (jsonMarshal value) ↔ Plain value)) ∧
    ∀ (msg : Message) (payload : Json Bytes) (timestamp : Bytes),
      msg.payloadValue unmarshal = .ok payload →
      formatTime msg.timestamp = .ok timestamp →
      ∃ data, marshalMessageJSON unmarshal formatTime (some msg) = .ok data ∧
        (SameValue data (jsonMarshal (messageJSON msg timestamp payload)) ↔
          Plain (messageJSON msg timestamp payload)) := by
  constructor
  · intro value
    exact ⟨_, rfl, sameValue_replaceHTMLEscapes_iff value⟩
  · intro msg payload timestamp hpayload htime
    refine ⟨_, ?_, sameValue_replaceHTMLEscapes_iff _⟩
    unfold marshalMessageJSON
    dsimp only
    rw [hpayload, htime]
    rfl

end

def taggedText : Bytes := text "\x7b\"html\":\"<tag>\"\x7d"

def taggedPayload : Json Bytes :=
  .object [(text "html", .string (text "<tag>"))]

def taggedMessage : Message :=
  { id := text "m", fromNode := text "a", toNode := text "b",
    payload := some taggedText }

/-- A decoder that knows one text. -/
def sampleUnmarshal (data : Bytes) : Except CoreError (Json Bytes) :=
  if data = taggedText then .ok taggedPayload
  else .error (.plain (text "invalid JSON"))

def sampleFormatTime (_ : Time) : Except CoreError Bytes :=
  .ok (text "1970-01-01T00:00:00Z")

theorem marshalJSON_sameValue_tagged :
    ∃ data, marshalMessageJSON sampleUnmarshal sampleFormatTime
        (some taggedMessage) = .ok data ∧
      SameValue data (jsonMarshal (messageJSON taggedMessage
        (text "1970-01-01T00:00:00Z") taggedPayload)) := by
  have hpayload : taggedMessage.payloadValue sampleUnmarshal =
      .ok taggedPayload := by
    unfold Message.payloadValue sampleUnmarshal taggedMessage
    exact if_pos rfl
  rcases (marshalJSON_sameValue_iff sampleUnmarshal sampleFormatTime).2
    taggedMessage taggedPayload (text "1970-01-01T00:00:00Z") hpayload
    rfl with
    ⟨data, hdata, hiff⟩
  exact ⟨data, hdata, hiff.mpr (by decide +kernel)⟩

/-- The string of the six characters `\u003c` comes out as a text with the
unknown escape `\<`. -/
theorem spelled_escape_is_not_json :
    marshalJSON sampleUnmarshal sampleFormatTime
        (.encodable (.string (text "\\u003c"))) = .ok (text "\"\\<\"") ∧
      ¬SameValue (text "\"\\<\"")
        (jsonMarshal (.string (text "\\u003c"))) := by
  refine ⟨by decide +kernel, ?_⟩
  intro hsame
  exact absurd hsame.1 (by decide +kernel)

end GoP2P.Node
