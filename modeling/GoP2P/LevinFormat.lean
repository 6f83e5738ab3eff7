import GoP2P.LevinStorage

/-!
# The storage format as a grammar

`ValueText` says which byte strings spell which value, independently of the
encoder and of the decoder.  A strict text is canonical: every varint is in its
shortest form, every bool byte is 0 or 1, and the names of a section strictly
increase.  A text that is not strict may violate any of these, and a field
whose name occurs again is overwritten by the later one.

`Asks` says what an arbitrary input makes a reader ask of the runtime, whether
or not the input goes on to be a text.
-/

namespace GoP2P.Levin

open SortedAssoc

/-! ## Kinds of values -/

inductive FixedKind where
  | int64 | int32 | int16 | int8 | uint64 | uint32 | uint16 | uint8 | double
  deriving DecidableEq, Repr

namespace FixedKind

def tag : FixedKind → UInt8
  | int64 => typeInt64
  | int32 => typeInt32
  | int16 => typeInt16
  | int8 => typeInt8
  | uint64 => typeUint64
  | uint32 => typeUint32
  | uint16 => typeUint16
  | uint8 => typeUint8
  | double => typeDouble

def width : FixedKind → ℕ
  | int64 | uint64 | double => 8
  | int32 | uint32 => 4
  | int16 | uint16 => 2
  | int8 | uint8 => 1

def value : FixedKind → ℕ → Value
  | int64 => fun n => int64Val (UInt64.ofNat n).toInt64
  | int32 => fun n => int32Val (UInt32.ofNat n).toInt32
  | int16 => fun n => int16Val (UInt16.ofNat n).toInt16
  | int8 => fun n => int8Val (UInt8.ofNat n).toInt8
  | uint64 => fun n => uint64Val (UInt64.ofNat n)
  | uint32 => fun n => uint32Val (UInt32.ofNat n)
  | uint16 => fun n => uint16Val (UInt16.ofNat n)
  | uint8 => fun n => uint8Val (UInt8.ofNat n)
  | double => fun n => doubleVal (UInt64.ofNat n)

end FixedKind

inductive Kind where
  | fixed (kind : FixedKind)
  | bool | string | object
  | uint64Array | uint32Array | stringArray | objectArray
  deriving DecidableEq, Repr

namespace Kind

def tag : Kind → UInt8
  | fixed kind => kind.tag
  | bool => typeBool
  | string => typeString
  | object => typeObject
  | uint64Array => arrayFlag ||| typeUint64
  | uint32Array => arrayFlag ||| typeUint32
  | stringArray => arrayFlag ||| typeString
  | objectArray => arrayFlag ||| typeObject

/-- The bytes of one element of the slice that an array is read into. -/
def elementSize : Kind → Option ℕ
  | uint64Array | objectArray => some 8
  | uint32Array => some 4
  | stringArray => some 24
  | fixed _ | bool | string | object => none

theorem tag_injective : Function.Injective tag := by
  intro left right
  cases left with
  | fixed left =>
      cases right with
      | fixed right => cases left <;> cases right <;> decide
      | _ => cases left <;> decide
  | _ =>
      cases right with
      | fixed right => cases right <;> decide
      | _ => decide

end Kind

/-! ## Texts -/

/-- A field of a section as it is spelled: the bytes of its value and the
value they stand for. -/
structure Entry where
  name : Bytes
  kind : Kind
  body : Bytes
  value : Value

namespace Entry

def text (entry : Entry) : Bytes :=
  UInt8.ofNat entry.name.length :: (entry.name ++ entry.kind.tag :: entry.body)

def field (entry : Entry) : Bytes × Value := (entry.name, entry.value)

end Entry

inductive ValueText (strict : Bool) : Kind → Bytes → Value → Prop
  | fixed (kind : FixedKind) (raw : Bytes)
      (hwidth : raw.length = kind.width) :
      ValueText strict (.fixed kind) raw (kind.value (leNat raw))
  | bool (byte : UInt8) (hbyte : strict = true → byte = 0 ∨ byte = 1) :
      ValueText strict .bool [byte] (boolVal (byte ≠ 0))
  | string (count data : Bytes)
      (hcount : VarintText strict count data.length) :
      ValueText strict .string (count ++ data) (stringVal data)
  | object (count : Bytes) (entries : List Entry)
      (hcount : VarintText strict count entries.length)
      (hnames : ∀ entry ∈ entries, entry.name.length ≤ 255)
      (hvalues : ∀ entry ∈ entries,
        ValueText strict entry.kind entry.body entry.value)
      (hsorted : strict = true → Sorted (entries.map Entry.field)) :
      ValueText strict .object (count ++ entries.flatMap Entry.text)
        (objectVal (assignAll [] (entries.map Entry.field)))
  | uint64Array (count : Bytes) (elements : List UInt64)
      (hcount : VarintText strict count elements.length) :
      ValueText strict .uint64Array
        (count ++ elements.flatMap fun n => leBytes 8 n.toNat)
        (uint64ArrayVal elements)
  | uint32Array (count : Bytes) (elements : List UInt32)
      (hcount : VarintText strict count elements.length) :
      ValueText strict .uint32Array
        (count ++ elements.flatMap fun n => leBytes 4 n.toNat)
        (uint32ArrayVal elements)
  | stringArray (count : Bytes) (items : List (Bytes × Bytes))
      (hcount : VarintText strict count items.length)
      (hitems : ∀ item ∈ items, VarintText strict item.1 item.2.length) :
      ValueText strict .stringArray
        (count ++ items.flatMap fun item => item.1 ++ item.2)
        (stringArrayVal (items.map Prod.snd))
  | objectArray (count : Bytes) (items : List (Bytes × Section))
      (hcount : VarintText strict count items.length)
      (hitems : ∀ item ∈ items,
        ValueText strict .object item.1 (objectVal item.2)) :
      ValueText strict .objectArray (count ++ items.flatMap Prod.fst)
        (objectArrayVal (items.map Prod.snd))

def SectionText (strict : Bool) (bytes : Bytes) (s : Section) : Prop :=
  ValueText strict .object bytes (objectVal s)

def StorageText (strict : Bool) (bytes : Bytes) (s : Section) : Prop :=
  ∃ body, bytes = storageHeader ++ body ∧ SectionText strict body s

def Canonical (bytes : Bytes) : Prop := ∃ s, StorageText true bytes s

theorem objectVal_injective : Function.Injective objectVal := by
  intro left right hequal
  exact congrArg Value.objectVal hequal

theorem sectionText_iff {strict : Bool} {bytes : Bytes} {s : Section} :
    SectionText strict bytes s ↔
      ∃ (count : Bytes) (entries : List Entry),
        bytes = count ++ entries.flatMap Entry.text ∧
        s = assignAll [] (entries.map Entry.field) ∧
        VarintText strict count entries.length ∧
        (∀ entry ∈ entries, entry.name.length ≤ 255) ∧
        (∀ entry ∈ entries,
          ValueText strict entry.kind entry.body entry.value) ∧
        (strict = true → Sorted (entries.map Entry.field)) := by
  constructor
  · intro htext
    unfold SectionText at htext
    generalize hvalue : objectVal s = value at htext
    cases htext with
    | object count entries hcount hnames hvalues hsorted =>
        exact ⟨count, entries, rfl, objectVal_injective hvalue, hcount, hnames,
          hvalues, hsorted⟩
  · rintro ⟨count, entries, rfl, rfl, hcount, hnames, hvalues, hsorted⟩
    exact .object count entries hcount hnames hvalues hsorted

theorem ValueText.weaken {strict : Bool} {kind : Kind} {bytes : Bytes}
    {value : Value} (htext : ValueText strict kind bytes value) :
    ValueText false kind bytes value := by
  induction htext with
  | fixed kind raw hwidth => exact .fixed kind raw hwidth
  | bool byte hbyte => exact .bool byte (by simp)
  | string count data hcount => exact .string count data hcount.weaken
  | object count entries hcount hnames hvalues hsorted ih =>
      exact .object count entries hcount.weaken hnames ih (by simp)
  | uint64Array count elements hcount =>
      exact .uint64Array count elements hcount.weaken
  | uint32Array count elements hcount =>
      exact .uint32Array count elements hcount.weaken
  | stringArray count items hcount hitems =>
      exact .stringArray count items hcount.weaken fun item hitem =>
        (hitems item hitem).weaken
  | objectArray count items hcount hitems ih =>
      exact .objectArray count items hcount.weaken ih

/-! ## Requests -/

/-- What is asked at `level` of the nesting.  The request may be made at the
front, in the first field or element that does not precede it completely, and
so on inwards. -/
inductive Asks : ℕ → Kind → Bytes → Request → Prop
  | nesting (level : ℕ) (bytes : Bytes) :
      Asks level .object bytes (.nesting level)
  | map (level : ℕ) (count rest : Bytes) (declared : ℕ)
      (hcount : VarintText false count declared) :
      Asks level .object (count ++ rest) (.map declared rest.length)
  | slice (level : ℕ) (kind : Kind) (size : ℕ)
      (hsize : kind.elementSize = some size) (count rest : Bytes)
      (declared : ℕ) (hcount : VarintText false count declared) :
      Asks level kind (count ++ rest) (.slice size declared rest.length)
  | field (level : ℕ) (count : Bytes) (total : ℕ) (entries : List Entry)
      (name : Bytes) (kind : Kind) (body : Bytes) (request : Request)
      (hcount : VarintText false count total) (hlength : entries.length < total)
      (hnames : ∀ entry ∈ entries, entry.name.length ≤ 255)
      (hvalues : ∀ entry ∈ entries,
        ValueText false entry.kind entry.body entry.value)
      (hname : name.length ≤ 255)
      (hbody : Asks (level + 1) kind body request) :
      Asks level .object
        (count ++ (entries.flatMap Entry.text ++
          UInt8.ofNat name.length :: (name ++ kind.tag :: body)))
        request
  | element (level : ℕ) (count : Bytes) (total : ℕ)
      (items : List (Bytes × Section)) (body : Bytes) (request : Request)
      (hcount : VarintText false count total) (hlength : items.length < total)
      (hitems : ∀ item ∈ items, SectionText false item.1 item.2)
      (hbody : Asks level .object body request) :
      Asks level .objectArray (count ++ (items.flatMap Prod.fst ++ body)) request

end GoP2P.Levin
