import GoP2P.JsonAny

/-!
# JSON by type

Encoding and decoding are directed by the type, as reflection gives it: the
fields of a struct have names, and one that is empty may be left out.
-/

namespace GoP2P

/-- Both are 64 bits wide. -/
inductive IntegerKind where
  | int
  | int64
  deriving DecidableEq

mutual

inductive GoType where
  | bool
  | integer (kind : IntegerKind)
  | float64
  | string
  | slice (element : GoType)
  | struct (fields : GoFields)

/-- The exported fields of a struct, each with its name in JSON. -/
inductive GoFields where
  | nil
  | cons (name : List Char) (omitEmpty : Bool) (type : GoType) (rest : GoFields)

end

def GoFields.names : GoFields → List (List Char)
  | .nil => []
  | .cons name _ _ rest => name :: rest.names

mutual

/-- No struct has two fields of one name. -/
def GoType.Distinct : GoType → Prop
  | .bool | .integer _ | .float64 | .string => True
  | .slice element => element.Distinct
  | .struct fields => fields.names.Nodup ∧ fields.DistinctTypes

def GoFields.DistinctTypes : GoFields → Prop
  | .nil => True
  | .cons _ _ type rest => type.Distinct ∧ rest.DistinctTypes

end

mutual

def GoType.decideDistinct : (type : GoType) → Decidable type.Distinct
  | .bool | .integer _ | .float64 | .string => inferInstanceAs (Decidable True)
  | .slice element => element.decideDistinct
  | .struct fields =>
      have := fields.decideDistinctTypes
      inferInstanceAs (Decidable (fields.names.Nodup ∧ fields.DistinctTypes))

def GoFields.decideDistinctTypes :
    (fields : GoFields) → Decidable fields.DistinctTypes
  | .nil => inferInstanceAs (Decidable True)
  | .cons _ _ type rest =>
      have := type.decideDistinct
      have := rest.decideDistinctTypes
      inferInstanceAs (Decidable (type.Distinct ∧ rest.DistinctTypes))

end

instance (type : GoType) : Decidable type.Distinct := type.decideDistinct

/-- The type of a struct, without two fields of one name. -/
structure StructType where
  fields : GoFields
  distinct : (GoType.struct fields).Distinct

def StructType.type (struct : StructType) : GoType := .struct struct.fields

section

variable (printer : FloatPrinter)

/-- A float64 is given by its text; there is none for infinities and NaN, which
are not encoded. -/
def FloatPrinter.Float : Type :=
  {literal : NumberLiteral // printer.reprint literal = some literal}

mutual

/-- A nil slice is `none`. -/
@[reducible] def GoType.Value : GoType → Type
  | .bool => Bool
  | .integer _ => Int64
  | .float64 => printer.Float
  | .string => Bytes
  | .slice element => Option (List element.Value)
  | .struct fields => fields.Values

@[reducible] def GoFields.Values : GoFields → Type
  | .nil => Unit
  | .cons _ _ type rest => type.Value × rest.Values

end

def FloatPrinter.toFloat (literal : NumberLiteral) : Option printer.Float :=
  match hprinted : printer.reprint literal with
  | some printed =>
      some ⟨printed, printer.reprint_reprint literal printed hprinted⟩
  | none => none

theorem FloatPrinter.toFloat_val (value : printer.Float) :
    printer.toFloat value.1 = some value := by
  unfold toFloat
  split
  next printed hprinted =>
    rw [value.2, Option.some.injEq] at hprinted
    congr
    exact hprinted.symm
  next hnone =>
    rw [value.2] at hnone
    cases hnone

theorem FloatPrinter.reprint_zero :
    printer.reprint (.ofInt 0) = some (.ofInt 0) := by
  rw [printer.reprint_ofInt_of_inInt64 (by decide),
    printer.carry_eq_self_of_lt (by decide)]

mutual

def GoType.zero : (type : GoType) → type.Value printer
  | .bool => false
  | .integer _ => 0
  | .float64 => ⟨.ofInt 0, printer.reprint_zero⟩
  | .string => []
  | .slice _ => none
  | .struct fields => fields.zeros

def GoFields.zeros : (fields : GoFields) → fields.Values printer
  | .nil => ()
  | .cons _ _ type rest => (type.zero, rest.zeros)

end

variable {printer}

/-- `isEmptyValue`; zero has two signs in a float. -/
def GoType.isEmpty : (type : GoType) → type.Value printer → Bool
  | .bool, value => !value
  | .integer _, value => value == 0
  | .float64, value => value.1.content ∈ [['0'], ['-', '0']]
  | .string, value => value.isEmpty
  | .slice _, value => (value.getD []).isEmpty
  | .struct _, _ => false

mutual

def GoType.encode : (type : GoType) → type.Value printer → Json Bytes
  | .bool, value => .bool value
  | .integer _, value => .number (.ofInt value.toInt)
  | .float64, value => .number value.1
  | .string, value => .string value
  | .slice _, none => .null
  | .slice element, some values => .array (values.map element.encode)
  | .struct fields, values => .object (fields.encode values)

def GoFields.encode :
    (fields : GoFields) → fields.Values printer → List (Bytes × Json Bytes)
  | .nil, _ => []
  | .cons name omitEmpty type rest, (value, values) =>
      if omitEmpty && type.isEmpty value then rest.encode values
      else (utf8 name, type.encode value) :: rest.encode values

end

/-- `foldName`, for names in ASCII: the long s and the Kelvin sign are the only
other characters that fold to ASCII. -/
def foldRune (c : Char) : Char :=
  if c = 'ſ' then 'S' else if c = Char.ofNat 0x212a then 'K' else c.toUpper

/-- The field that a key of an object stands for, if it does for one: that of
the same name, or the first whose name differs by case only. -/
def resolveKey (names : List (List Char)) (key : List Char) : Option (List Char) :=
  if key ∈ names then some key
  else names.find? fun name => name.map foldRune = key.map foldRune

/-- The values that an object has for a field. -/
def memberValues (names : List (List Char)) (name : List Char)
    (members : List (List Char × Json (List Char))) :
    List (Json (List Char)) :=
  (members.filter fun member => resolveKey names member.1 = some name).map Prod.snd

/-- Decoding into a string that has a value. -/
def Json.stringInto (value : Bytes) : Json (List Char) → Option Bytes
  | .null => some value
  | .string decoded => some (utf8 decoded)
  | _ => none

mutual

/-- Decoding into a variable that has a value; a null leaves it as it is, but
for a slice, which becomes nil. -/
def GoType.decodeInto : (type : GoType) → type.Value printer →
    Json (List Char) → Option (type.Value printer)
  | .bool, value, json =>
      match json with
      | .null => some value
      | .bool decoded => some decoded
      | _ => none
  | .integer _, value, json =>
      match json with
      | .null => some value
      | .number literal => literal.toInt64?.map Int64.ofInt
      | _ => none
  | .float64, value, json =>
      match json with
      | .null => some value
      | .number literal => printer.toFloat literal
      | _ => none
  | .string, value, json => json.stringInto value
  | .slice element, _, json =>
      match json with
      | .null => some none
      | .array elements =>
          (elements.mapM (element.decodeInto (element.zero printer))).map some
      | _ => none
  | .struct fields, values, json =>
      match json with
      | .null => some values
      | .object members => fields.decodeInto fields.names members values
      | _ => none

/-- Each field is decoded from its members, in their order. -/
def GoFields.decodeInto : (fields : GoFields) → List (List Char) →
    List (List Char × Json (List Char)) → fields.Values printer →
    Option (fields.Values printer)
  | .nil, _, _, values => some values
  | .cons name _ type rest, names, members, (value, values) => do
      let value ←
        (memberValues names name members).foldlM type.decodeInto value
      let values ← rest.decodeInto names members values
      pure (value, values)

end

end

end GoP2P
