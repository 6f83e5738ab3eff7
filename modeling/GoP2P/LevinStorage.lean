import GoP2P.LevinVarint
import GoP2P.SortedAssoc

/-!
# Portable storage

The data model, the encoder and the decoder of the storage format, function by
function.  A section is a Go map; its model is the list of its fields in
increasing order of their names.  The functions that recurse through nested
sections take the recursive call as an argument, and `encodeSection` and
`decodeSection` tie the knot over the nesting depth and over the input length.

A `Traced` decoder records each allocation it asks for and each iteration of
its loops.  Allocation itself is assumed to succeed.
-/

namespace GoP2P.Levin

open SortedAssoc

def storageSignatureA : UInt32 := 0x01011101
def storageSignatureB : UInt32 := 0x01020101
def storageVersion : UInt8 := 1
def storageHeaderSize : ℕ := 9

def typeInt64 : UInt8 := 1
def typeInt32 : UInt8 := 2
def typeInt16 : UInt8 := 3
def typeInt8 : UInt8 := 4
def typeUint64 : UInt8 := 5
def typeUint32 : UInt8 := 6
def typeUint16 : UInt8 := 7
def typeUint8 : UInt8 := 8
def typeDouble : UInt8 := 9
def typeString : UInt8 := 10
def typeBool : UInt8 := 11
def typeObject : UInt8 := 12
def arrayFlag : UInt8 := 0x80

def errStorageBadSignature : CoreError :=
  .op "levin.storage" (text "bad storage signature")
def errStorageTruncated : CoreError :=
  .op "levin.storage" (text "truncated storage data")
def errStorageBadVersion : CoreError :=
  .op "levin.storage" (text "unsupported storage version")
def errStorageNameTooLong : CoreError :=
  .op "levin.storage" (text "entry name exceeds 255 bytes")
def errStorageUnknownType : CoreError :=
  .op "levin.storage" (text "unknown type tag")

/-- A typed value.  A double is kept as its 64-bit pattern. -/
structure Value where
  type : UInt8 := 0
  intVal : Int64 := 0
  uintVal : UInt64 := 0
  floatVal : UInt64 := 0
  boolVal : Bool := false
  bytesVal : Bytes := []
  objectVal : List (Bytes × Value) := []
  uint64Array : List UInt64 := []
  uint32Array : List UInt32 := []
  stringArray : List Bytes := []
  objectArray : List (List (Bytes × Value)) := []

abbrev Section := List (Bytes × Value)

/-! ## Constructors -/

def uint64Val (v : UInt64) : Value := { type := typeUint64, uintVal := v }
def uint32Val (v : UInt32) : Value :=
  { type := typeUint32, uintVal := v.toUInt64 }
def uint16Val (v : UInt16) : Value :=
  { type := typeUint16, uintVal := v.toUInt64 }
def uint8Val (v : UInt8) : Value :=
  { type := typeUint8, uintVal := v.toUInt64 }
def int64Val (v : Int64) : Value := { type := typeInt64, intVal := v }
def int32Val (v : Int32) : Value := { type := typeInt32, intVal := v.toInt64 }
def int16Val (v : Int16) : Value := { type := typeInt16, intVal := v.toInt64 }
def int8Val (v : Int8) : Value := { type := typeInt8, intVal := v.toInt64 }
def boolVal (v : Bool) : Value := { type := typeBool, boolVal := v }
def doubleVal (bits : UInt64) : Value :=
  { type := typeDouble, floatVal := bits }
def stringVal (v : Bytes) : Value := { type := typeString, bytesVal := v }
def objectVal (s : Section) : Value := { type := typeObject, objectVal := s }
def uint64ArrayVal (vs : List UInt64) : Value :=
  { type := arrayFlag ||| typeUint64, uint64Array := vs }
def uint32ArrayVal (vs : List UInt32) : Value :=
  { type := arrayFlag ||| typeUint32, uint32Array := vs }
def stringArrayVal (vs : List Bytes) : Value :=
  { type := arrayFlag ||| typeString, stringArray := vs }
def objectArrayVal (vs : List Section) : Value :=
  { type := arrayFlag ||| typeObject, objectArray := vs }

/-! ## Nesting depth -/

mutual

def Value.depth : Value → ℕ
  | ⟨_, _, _, _, _, _, object, _, _, _, objects⟩ =>
      max (sectionDepth object) (sectionsDepth objects) + 1

def sectionDepth : List (Bytes × Value) → ℕ
  | [] => 0
  | (_, value) :: fields => max value.depth (sectionDepth fields)

def sectionsDepth : List (List (Bytes × Value)) → ℕ
  | [] => 0
  | fields :: sections => max (sectionDepth fields) (sectionsDepth sections)

end

/-! ## Encoder -/

def hexDigit (n : ℕ) : UInt8 := UInt8.ofNat (if n < 10 then 48 + n else 87 + n)

def hexByte (byte : UInt8) : Bytes :=
  [hexDigit (byte.toNat / 16), hexDigit (byte.toNat % 16)]

def encodeEntries (encodeValue : Bytes → Value → Outcome CoreError Bytes)
    (s : Section) : List Bytes → Bytes → Outcome CoreError Bytes
  | [], buf => return buf
  | name :: keys, buf =>
      let v := (s.lookup name).getD {}
      if name.length > 255 then .failed errStorageNameTooLong
      else do
        let buf := buf ++ [UInt8.ofNat name.length]
        let buf := buf ++ name
        let buf := buf ++ [v.type]
        let buf ← encodeValue buf v
        encodeEntries encodeValue s keys buf

def encodeSectionWith (encodeValue : Bytes → Value → Outcome CoreError Bytes)
    (buf : Bytes) (s : Section) : Outcome CoreError Bytes :=
  let keys := (s.map Prod.fst).insertionSort (· ≤ ·)
  let buf := buf ++ packVarint (UInt64.ofNat keys.length)
  encodeEntries encodeValue s keys buf

def encodeSections (encodeSection : Bytes → Section → Outcome CoreError Bytes) :
    List Section → Bytes → Outcome CoreError Bytes
  | [], buf => return buf
  | sec :: sections, buf => do
      let buf ← encodeSection buf sec
      encodeSections encodeSection sections buf

def encodeArray (encodeSection : Bytes → Section → Outcome CoreError Bytes)
    (buf : Bytes) (v : Value) : Outcome CoreError Bytes :=
  let elemType := v.type &&& ~~~arrayFlag
  if elemType = typeUint64 then
    let buf := buf ++ packVarint (UInt64.ofNat v.uint64Array.length)
    return v.uint64Array.foldl (fun buf n => buf ++ leBytes 8 n.toNat) buf
  else if elemType = typeUint32 then
    let buf := buf ++ packVarint (UInt64.ofNat v.uint32Array.length)
    return v.uint32Array.foldl (fun buf n => buf ++ leBytes 4 n.toNat) buf
  else if elemType = typeString then
    let buf := buf ++ packVarint (UInt64.ofNat v.stringArray.length)
    return v.stringArray.foldl
      (fun buf s => buf ++ packVarint (UInt64.ofNat s.length) ++ s) buf
  else if elemType = typeObject then
    let buf := buf ++ packVarint (UInt64.ofNat v.objectArray.length)
    encodeSections encodeSection v.objectArray buf
  else
    .failed (.wrap "levin.encodeArray"
      (text "unknown type tag: array of 0x" ++ hexByte elemType)
      errStorageUnknownType)

def encodeValue (encodeSection : Bytes → Section → Outcome CoreError Bytes)
    (buf : Bytes) (v : Value) : Outcome CoreError Bytes :=
  if v.type &&& arrayFlag ≠ 0 then encodeArray encodeSection buf v
  else if v.type = typeUint64 then
    return buf ++ leBytes 8 v.uintVal.toNat
  else if v.type = typeInt64 then
    return buf ++ leBytes 8 v.intVal.toUInt64.toNat
  else if v.type = typeDouble then
    return buf ++ leBytes 8 v.floatVal.toNat
  else if v.type = typeUint32 then
    return buf ++ leBytes 4 v.uintVal.toUInt32.toNat
  else if v.type = typeInt32 then
    return buf ++ leBytes 4 v.intVal.toUInt64.toUInt32.toNat
  else if v.type = typeUint16 then
    return buf ++ leBytes 2 v.uintVal.toUInt16.toNat
  else if v.type = typeInt16 then
    return buf ++ leBytes 2 v.intVal.toUInt64.toUInt16.toNat
  else if v.type = typeUint8 then
    return buf ++ [v.uintVal.toUInt8]
  else if v.type = typeInt8 then
    return buf ++ [v.intVal.toUInt64.toUInt8]
  else if v.type = typeBool then
    if v.boolVal then return buf ++ [1] else return buf ++ [0]
  else if v.type = typeString then
    let buf := buf ++ packVarint (UInt64.ofNat v.bytesVal.length)
    return buf ++ v.bytesVal
  else if v.type = typeObject then encodeSection buf v.objectVal
  else
    .failed (.wrap "levin.encodeValue"
      (text "unknown type tag: 0x" ++ hexByte v.type) errStorageUnknownType)

def encodeSectionTo : ℕ → Bytes → Section → Outcome CoreError Bytes
  | 0, _, _ => .unfinished
  | depth + 1, buf, s =>
      encodeSectionWith (encodeValue (encodeSectionTo depth)) buf s

def encodeSection (buf : Bytes) (s : Section) : Outcome CoreError Bytes :=
  encodeSectionTo (sectionDepth s + 1) buf s

def storageHeader : Bytes :=
  leBytes 4 storageSignatureA.toNat ++ leBytes 4 storageSignatureB.toNat ++
    [storageVersion]

def encodeStorage (s : Section) : Outcome CoreError Bytes :=
  encodeSection storageHeader s

/-! ## Decoder -/

/-- A decoding call; with a position it returns what it read and where it
stopped. -/
abbrev Decoder := Traced DecodeEvent CoreError

/-- The fixed-width scalars, which differ in the width and in the field that
receives the number read. -/
def decodeFixed (width : ℕ) (value : ℕ → Value) (buf : Bytes) :
    Decoder (Value × ℕ) := do
  Traced.failIf (buf.length < width) errStorageTruncated
  let raw ← Traced.lift (slice buf 0 width)
  return (value (leNat raw), width)

def decodeString (buf : Bytes) : Decoder (Value × ℕ) := do
  let (strLen, n) ← Traced.lift (unpackVarint buf)
  Traced.failIf (buf.length - n < strLen.toNat) errStorageTruncated
  Traced.emit (.copy strLen.toNat (buf.length - n))
  let data ← Traced.lift (slice buf n (n + strLen.toNat))
  return ({ type := typeString, bytesVal := data }, n + strLen.toNat)

def decodeFixedElement {α : Type} (width : ℕ) (element : ℕ → α) (buf : Bytes)
    (off : ℕ) : Decoder (α × ℕ) := do
  Traced.failIf (off + width > buf.length) errStorageTruncated
  let raw ← Traced.lift (slice buf off (off + width))
  return (element (leNat raw), off + width)

def decodeStringElement (buf : Bytes) (off : ℕ) : Decoder (Bytes × ℕ) := do
  let rest ← Traced.lift (slice buf off buf.length)
  let (strLen, sn) ← Traced.lift (unpackVarint rest)
  let off := off + sn
  Traced.failIf (buf.length - off < strLen.toNat) errStorageTruncated
  Traced.emit (.copy strLen.toNat (buf.length - off))
  let data ← Traced.lift (slice buf off (off + strLen.toNat))
  return (data, off + strLen.toNat)

def decodeSectionElement (decodeSection : Bytes → Decoder (Section × ℕ))
    (buf : Bytes) (off : ℕ) : Decoder (Section × ℕ) := do
  let rest ← Traced.lift (slice buf off buf.length)
  let (sec, consumed) ← decodeSection rest
  return (sec, off + consumed)

/-- Each case makes its slice before it reads an element.  An element takes as
many bytes as its type has on a 64-bit machine: a string header is three words
and a section is a pointer. -/
def decodeArray (decodeSection : Bytes → Decoder (Section × ℕ))
    (buf : Bytes) (tag : UInt8) : Decoder (Value × ℕ) := do
  let elemType := tag &&& ~~~arrayFlag
  let (count, off) ← Traced.lift (unpackVarint buf)
  if elemType = typeUint64 then
    Traced.emit (.request (.slice 8 count.toNat (buf.length - off)))
    let (arr, off) ← decodeLoop (decodeFixedElement 8 UInt64.ofNat buf)
      (fun arr n => arr ++ [n]) count.toNat off []
    return ({ type := tag, uint64Array := arr }, off)
  else if elemType = typeUint32 then
    Traced.emit (.request (.slice 4 count.toNat (buf.length - off)))
    let (arr, off) ← decodeLoop (decodeFixedElement 4 UInt32.ofNat buf)
      (fun arr n => arr ++ [n]) count.toNat off []
    return ({ type := tag, uint32Array := arr }, off)
  else if elemType = typeString then
    Traced.emit (.request (.slice 24 count.toNat (buf.length - off)))
    let (arr, off) ← decodeLoop (decodeStringElement buf)
      (fun arr s => arr ++ [s]) count.toNat off []
    return ({ type := tag, stringArray := arr }, off)
  else if elemType = typeObject then
    Traced.emit (.request (.slice 8 count.toNat (buf.length - off)))
    let (arr, off) ← decodeLoop (decodeSectionElement decodeSection buf)
      (fun arr sec => arr ++ [sec]) count.toNat off []
    return ({ type := tag, objectArray := arr }, off)
  else
    Traced.fail (.wrap "levin.decodeArray"
      (text "unknown type tag: array of 0x" ++ hexByte elemType)
      errStorageUnknownType)

def decodeValue (decodeSection : Bytes → Decoder (Section × ℕ))
    (buf : Bytes) (tag : UInt8) : Decoder (Value × ℕ) :=
  if tag &&& arrayFlag ≠ 0 then decodeArray decodeSection buf tag
  else if tag = typeUint64 then
    decodeFixed 8 (fun n => uint64Val (UInt64.ofNat n)) buf
  else if tag = typeInt64 then
    decodeFixed 8 (fun n => int64Val (UInt64.ofNat n).toInt64) buf
  else if tag = typeDouble then
    decodeFixed 8 (fun n => doubleVal (UInt64.ofNat n)) buf
  else if tag = typeUint32 then
    decodeFixed 4 (fun n => uint32Val (UInt32.ofNat n)) buf
  else if tag = typeInt32 then
    decodeFixed 4 (fun n => int32Val (UInt32.ofNat n).toInt32) buf
  else if tag = typeUint16 then
    decodeFixed 2 (fun n => uint16Val (UInt16.ofNat n)) buf
  else if tag = typeInt16 then
    decodeFixed 2 (fun n => int16Val (UInt16.ofNat n).toInt16) buf
  else if tag = typeUint8 then
    decodeFixed 1 (fun n => uint8Val (UInt8.ofNat n)) buf
  else if tag = typeInt8 then
    decodeFixed 1 (fun n => int8Val (UInt8.ofNat n).toInt8) buf
  else if tag = typeBool then
    decodeFixed 1 (fun n => boolVal (n ≠ 0)) buf
  else if tag = typeString then decodeString buf
  else if tag = typeObject then do
    let (sec, consumed) ← decodeSection buf
    return (objectVal sec, consumed)
  else
    Traced.fail (.wrap "levin.decodeValue"
      (text "unknown type tag: 0x" ++ hexByte tag) errStorageUnknownType)

def decodeEntry (decodeValue : Bytes → UInt8 → Decoder (Value × ℕ))
    (buf : Bytes) (off : ℕ) : Decoder ((Bytes × Value) × ℕ) := do
  Traced.failIf (off ≥ buf.length) errStorageTruncated
  let nameLen ← Traced.lift (index buf off)
  let off := off + 1
  Traced.failIf (off + nameLen.toNat > buf.length) errStorageTruncated
  Traced.emit (.copy nameLen.toNat (buf.length - off))
  let name ← Traced.lift (slice buf off (off + nameLen.toNat))
  let off := off + nameLen.toNat
  Traced.failIf (off ≥ buf.length) errStorageTruncated
  let tag ← Traced.lift (index buf off)
  let off := off + 1
  let rest ← Traced.lift (slice buf off buf.length)
  let (val, consumed) ← (decodeValue rest tag).mapError
    (.wrap "levin.decodeSection" (text "field " ++ name))
  return ((name, val), off + consumed)

def decodeSectionWith (decodeValue : Bytes → UInt8 → Decoder (Value × ℕ))
    (buf : Bytes) : Decoder (Section × ℕ) := do
  let (count, off) ← (Traced.lift (unpackVarint buf)).mapError
    (.wrap "levin.decodeSection" (text "section entry count"))
  Traced.emit (.request (.map count.toNat (buf.length - off)))
  decodeLoop (decodeEntry decodeValue buf)
    (fun s field => assign field.1 field.2 s) count.toNat off []

/-- `level` is how many sections are being decoded, this one included. -/
def decodeSectionTo : ℕ → ℕ → Bytes → Decoder (Section × ℕ)
  | 0, _, _ => Traced.lift .unfinished
  | depth + 1, level, buf => do
      Traced.emit (.request (.nesting level))
      decodeSectionWith (decodeValue (decodeSectionTo depth (level + 1))) buf

/-- Every nested section is shorter than the one around it, so the length of
the input bounds the nesting. -/
def decodeSection (buf : Bytes) : Decoder (Section × ℕ) :=
  decodeSectionTo (buf.length + 1) 1 buf

def decodeStorage (data : Bytes) : Decoder Section := do
  Traced.failIf (data.length < storageHeaderSize) errStorageTruncated
  let rawA ← Traced.lift (slice data 0 4)
  let rawB ← Traced.lift (slice data 4 8)
  let sigA := UInt32.ofNat (leNat rawA)
  let sigB := UInt32.ofNat (leNat rawB)
  let ver ← Traced.lift (index data 8)
  Traced.failIf (sigA ≠ storageSignatureA ∨ sigB ≠ storageSignatureB)
    errStorageBadSignature
  Traced.failIf (ver ≠ storageVersion) errStorageBadVersion
  let rest ← Traced.lift (slice data storageHeaderSize data.length)
  let (s, _) ← decodeSection rest
  return s

end GoP2P.Levin
