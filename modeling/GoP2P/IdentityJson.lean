import GoP2P.IntegerPayloads
import GoP2P.JsonBytes

/-!
# Identities in JSON

An identity is a struct of strings and a time.  It is written to a file as it
is, and it is part of the payloads of a handshake, which pass through an `any`
on their way.
-/

namespace GoP2P.Node

def NodeRole.name : NodeRole → Bytes
  | .controller => text "controller"
  | .worker => text "worker"
  | .dual => text "dual"
  | .other name => name

def NodeRole.ofName (name : Bytes) : NodeRole :=
  if name = text "controller" then .controller
  else if name = text "worker" then .worker
  else if name = text "dual" then .dual
  else .other name

theorem NodeRole.name_ofName (name : Bytes) :
    (NodeRole.ofName name).name = name := by
  unfold NodeRole.ofName
  split_ifs with hcontroller hworker hdual
  · exact hcontroller.symm
  · exact hworker.symm
  · exact hdual.symm
  · rfl

/-! ## Encoding and decoding -/

def identityNames : List String :=
  ["id", "name", "publicKey", "createdAt", "role"]

/-- The fields of an identity with the text of its time. -/
def identityEntries (identity : NodeIdentity) (createdAt : Bytes) :
    List (String × Json Bytes) :=
  [("id", .string identity.id), ("name", .string identity.name),
    ("publicKey", .string identity.publicKey), ("createdAt", .string createdAt),
    ("role", .string identity.role.name)]

section

variable (times : TimeText)

def identityJSON (identity : NodeIdentity) : Except CoreError (Json Bytes) := do
  let createdAt ← times.format identity.createdAt
  pure (.object (namedMembers (identityEntries identity createdAt)))

/-- Decoding into an identity that has a value. -/
def decodeIdentity (identity : NodeIdentity) :
    Json (List Char) → Option NodeIdentity
  | .null => some identity
  | .object members => do
      let string zero :=
        fieldInto identityNames (fun value json => json.stringInto value) zero
          members
      let id ← string identity.id "id"
      let name ← string identity.name "name"
      let publicKey ← string identity.publicKey "publicKey"
      let createdAt ← fieldInto identityNames times.decodeInto
        identity.createdAt members "createdAt"
      let role ← string identity.role.name "role"
      pure
        { id := id, name := name, publicKey := publicKey,
          createdAt := createdAt, role := .ofName role }
  | _ => none

end

/-! ## What is read -/

/-- The identity as it is read: its strings are UTF-8. -/
def NodeIdentity.asRead (identity : NodeIdentity) : NodeIdentity :=
  { identity with
    id := utf8 (decodeText identity.id)
    name := utf8 (decodeText identity.name)
    publicKey := utf8 (decodeText identity.publicKey)
    role := .ofName (utf8 (decodeText identity.role.name)) }

def NodeIdentity.strings (identity : NodeIdentity) : List Bytes :=
  [identity.id, identity.name, identity.publicKey, identity.role.name]

theorem NodeIdentity.asRead_eq_self_iff {identity : NodeIdentity}
    (hrole : NodeRole.ofName identity.role.name = identity.role) :
    identity.asRead = identity ↔ ∀ string ∈ identity.strings, IsUTF8 string := by
  rcases identity with ⟨id, name, publicKey, createdAt, role⟩
  have hname : NodeRole.ofName (utf8 (decodeText role.name)) = role ↔
      IsUTF8 role.name := by
    constructor
    · intro h
      have hsame := congrArg NodeRole.name h
      rwa [NodeRole.name_ofName] at hsame
    · intro h
      rw [show utf8 (decodeText role.name) = role.name from h]
      exact hrole
  simp [asRead, strings, IsUTF8, hname]

theorem mem_identityNames_of_mem_identityEntries {identity : NodeIdentity}
    {createdAt : Bytes} :
    ∀ entry ∈ identityEntries identity createdAt, entry.1 ∈ identityNames := by
  simp [identityEntries, identityNames]

theorem nodup_identityEntries (identity : NodeIdentity) (createdAt : Bytes) :
    ((identityEntries identity createdAt).map Prod.fst).Nodup := by
  simp [identityEntries]

section

variable {times : TimeText}

theorem identityJSON_eq_ok_iff {identity : NodeIdentity} {json : Json Bytes} :
    identityJSON times identity = .ok json ↔
      ∃ createdAt, times.format identity.createdAt = .ok createdAt ∧
        json = .object (namedMembers (identityEntries identity createdAt)) := by
  unfold identityJSON
  cases times.format identity.createdAt with
  | error error => simp [bind, Except.bind]
  | ok createdAt => simp [bind, Except.bind, pure, Except.pure, eq_comm]

theorem decodeIdentity_anyMembers {identity : NodeIdentity} {createdAt : Bytes}
    (htime : times.parse (decodeText createdAt) = some identity.createdAt) :
    decodeIdentity times {} ((Json.object
        (anyMembers (identityEntries identity createdAt))).map decodeText) =
      some identity.asRead := by
  have hcreated : times.decodeInto 0 (.string (decodeText createdAt)) =
      some identity.createdAt := htime
  rw [Json.map]
  unfold decodeIdentity
  simp only [fieldInto_anyMembers mem_identityNames_of_mem_identityEntries
    (nodup_identityEntries identity createdAt)]
  simp [identityEntries, Json.map, Json.stringInto, hcreated,
    NodeIdentity.asRead]

/-- As an `any`, an identity is a map of the strings as they are read. -/
theorem toAny_identityEntries (printer : FloatPrinter) (identity : NodeIdentity)
    (createdAt : Bytes) :
    ((Json.object (namedMembers (identityEntries identity createdAt))).map
        decodeText).toAny printer =
      some (.object (anyMembers (identityEntries identity.asRead
        (utf8 (decodeText createdAt))))) := by
  apply Json.toAny_namedMembers
  simp [identityEntries, NodeIdentity.asRead, Json.map, Json.toAny,
    NodeRole.name_ofName]

end

end GoP2P.Node
