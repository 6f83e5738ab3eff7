import GoP2P.Utf8Text

/-!
# JSON texts

Values, the grammar as a parser, and an encoder that leaves open how strings
are escaped.  Whatever the parser makes of escaped strings, it makes of every
value whose strings are escaped so: it returns the value when it reads all of
the strings, and nothing when it does not read one of them.
-/

namespace GoP2P

/-! ## Numbers -/

def isDigits (content : List Char) : Bool :=
  !content.isEmpty && content.all Char.isDigit

def isExponent : List Char → Bool
  | [] => true
  | c :: rest =>
      (c == 'e' || c == 'E') &&
        match rest with
        | '+' :: digits => isDigits digits
        | '-' :: digits => isDigits digits
        | digits => isDigits digits

def isFraction : List Char → Bool
  | '.' :: rest =>
      isDigits (rest.takeWhile Char.isDigit) &&
        isExponent (rest.dropWhile Char.isDigit)
  | rest => isExponent rest

def isUnsignedNumber : List Char → Bool
  | [] => false
  | '0' :: rest => isFraction rest
  | c :: rest => c.isDigit && isFraction (rest.dropWhile Char.isDigit)

def isNumber : List Char → Bool
  | '-' :: rest => isUnsignedNumber rest
  | rest => isUnsignedNumber rest

structure NumberLiteral where
  content : List Char
  valid : isNumber content = true

def isNumberSign (c : Char) : Bool :=
  c.isDigit || c ∈ ['-', '+', '.', 'e', 'E']

theorem isNumberSign_of_isDigits {content : List Char}
    (hdigits : isDigits content = true) :
    ∀ c ∈ content, isNumberSign c = true := by
  intro c hc
  simp only [isDigits, Bool.and_eq_true, List.all_eq_true] at hdigits
  simp [isNumberSign, hdigits.2 c hc]

theorem isNumberSign_of_isExponent {content : List Char}
    (hexponent : isExponent content = true) :
    ∀ c ∈ content, isNumberSign c = true := by
  cases content with
  | nil => simp
  | cons e rest =>
      simp only [isExponent, Bool.and_eq_true, Bool.or_eq_true,
        beq_iff_eq] at hexponent
      have he : isNumberSign e = true := by
        rcases hexponent.1 with rfl | rfl <;> rfl
      have hrest : ∀ c ∈ rest, isNumberSign c = true := by
        have hdigits := hexponent.2
        split at hdigits
        · exact List.forall_mem_cons.mpr
            ⟨rfl, isNumberSign_of_isDigits hdigits⟩
        · exact List.forall_mem_cons.mpr
            ⟨rfl, isNumberSign_of_isDigits hdigits⟩
        · exact isNumberSign_of_isDigits hdigits
      exact List.forall_mem_cons.mpr ⟨he, hrest⟩

theorem isNumberSign_of_dropWhile {content : List Char}
    (hrest : ∀ c ∈ content.dropWhile Char.isDigit, isNumberSign c = true) :
    ∀ c ∈ content, isNumberSign c = true := by
  intro c hc
  rw [← List.takeWhile_append_dropWhile (p := Char.isDigit) (l := content),
    List.mem_append] at hc
  rcases hc with hc | hc
  · simp [isNumberSign, List.all_eq_true.mp List.all_takeWhile c hc]
  · exact hrest c hc

theorem isNumberSign_of_isFraction {content : List Char}
    (hfraction : isFraction content = true) :
    ∀ c ∈ content, isNumberSign c = true := by
  unfold isFraction at hfraction
  split at hfraction
  · rw [Bool.and_eq_true] at hfraction
    exact List.forall_mem_cons.mpr ⟨rfl, isNumberSign_of_dropWhile
      (isNumberSign_of_isExponent hfraction.2)⟩
  · exact isNumberSign_of_isExponent hfraction

theorem isNumberSign_of_isUnsignedNumber {content : List Char}
    (hnumber : isUnsignedNumber content = true) :
    ∀ c ∈ content, isNumberSign c = true := by
  unfold isUnsignedNumber at hnumber
  split at hnumber
  · simp
  · exact List.forall_mem_cons.mpr ⟨rfl, isNumberSign_of_isFraction hnumber⟩
  · rw [Bool.and_eq_true] at hnumber
    refine List.forall_mem_cons.mpr ⟨by simp [isNumberSign, hnumber.1], ?_⟩
    exact isNumberSign_of_dropWhile (isNumberSign_of_isFraction hnumber.2)

theorem NumberLiteral.isNumberSign_of_mem (literal : NumberLiteral) :
    ∀ c ∈ literal.content, isNumberSign c = true := by
  have hvalid := literal.valid
  unfold isNumber at hvalid
  split at hvalid
  next rest heq =>
    rw [heq]
    exact List.forall_mem_cons.mpr
      ⟨rfl, isNumberSign_of_isUnsignedNumber hvalid⟩
  next => exact isNumberSign_of_isUnsignedNumber hvalid

theorem NumberLiteral.content_ne_nil (literal : NumberLiteral) :
    literal.content ≠ [] := by
  intro hnil
  have hvalid := literal.valid
  rw [hnil] at hvalid
  cases hvalid

theorem NumberLiteral.escape_notMem (literal : NumberLiteral) :
    '\\' ∉ literal.content := by
  intro hmem
  cases literal.isNumberSign_of_mem _ hmem

/-! ## Values -/

inductive Json (σ : Type*) where
  | null
  | bool (value : Bool)
  | number (literal : NumberLiteral)
  | string (value : σ)
  | array (elements : List (Json σ))
  | object (members : List (σ × Json σ))

namespace Json

variable {σ τ : Type*}

section Strings

variable (good : σ → Bool)

mutual

/-- Every string and every key satisfies the condition. -/
def all : Json σ → Bool
  | .null | .bool _ | .number _ => true
  | .string value => good value
  | .array elements => allElements elements
  | .object members => allMembers members

def allElements : List (Json σ) → Bool
  | [] => true
  | element :: elements => element.all && allElements elements

def allMembers : List (σ × Json σ) → Bool
  | [] => true
  | (key, value) :: members => good key && (value.all && allMembers members)

end

variable (read : σ → τ)

mutual

def map : Json σ → Json τ
  | .null => .null
  | .bool value => .bool value
  | .number literal => .number literal
  | .string value => .string (read value)
  | .array elements => .array (mapElements elements)
  | .object members => .object (mapMembers members)

def mapElements : List (Json σ) → List (Json τ)
  | [] => []
  | element :: elements => element.map :: mapElements elements

def mapMembers : List (σ × Json σ) → List (τ × Json τ)
  | [] => []
  | (key, value) :: members => (read key, value.map) :: mapMembers members

end

variable (escape : σ → List Char)

def quoted (value : σ) : List Char := '"' :: (escape value ++ ['"'])

mutual

def encode : Json σ → List Char
  | .null => ['n', 'u', 'l', 'l']
  | .bool true => ['t', 'r', 'u', 'e']
  | .bool false => ['f', 'a', 'l', 's', 'e']
  | .number literal => literal.content
  | .string value => quoted escape value
  | .array elements => '[' :: (encodeElements elements ++ [']'])
  | .object members => '{' :: (encodeMembers members ++ ['}'])

def encodeElements : List (Json σ) → List Char
  | [] => []
  | [element] => element.encode
  | element :: next :: elements =>
      element.encode ++ ',' :: encodeElements (next :: elements)

def encodeMembers : List (σ × Json σ) → List Char
  | [] => []
  | [(key, value)] => quoted escape key ++ ':' :: value.encode
  | (key, value) :: next :: members =>
      quoted escape key ++ ':' ::
        (value.encode ++ ',' :: encodeMembers (next :: members))

end

end Strings

theorem allElements_iff {good : σ → Bool} {elements : List (Json σ)} :
    allElements good elements = true ↔
      ∀ element ∈ elements, element.all good = true := by
  induction elements with
  | nil => simp [allElements]
  | cons element elements ih => simp [allElements, ih]

theorem allMembers_iff {good : σ → Bool} {members : List (σ × Json σ)} :
    allMembers good members = true ↔ ∀ member ∈ members,
      good member.1 = true ∧ member.2.all good = true := by
  induction members with
  | nil => simp [allMembers]
  | cons member members ih => simp [allMembers, ih, and_assoc]

section Induction

variable {motive : Json σ → Prop} (null : motive .null)
  (bool : ∀ value, motive (.bool value))
  (number : ∀ literal, motive (.number literal))
  (string : ∀ value, motive (.string value))
  (array : ∀ elements, (∀ element ∈ elements, motive element) →
    motive (.array elements))
  (object : ∀ members, (∀ member ∈ members, motive member.2) →
    motive (.object members))

include null bool number string array object

-- the uses inside the mutual block are not counted
set_option linter.unusedSectionVars false

mutual

/-- Induction over a tree, with what holds of the elements and of the members
as one hypothesis each. -/
theorem treeInduction : ∀ value, motive value
  | .null => null
  | .bool value => bool value
  | .number literal => number literal
  | .string value => string value
  | .array elements => array elements (elementsInduction elements)
  | .object members => object members (membersInduction members)

theorem elementsInduction :
    ∀ elements : List (Json σ), ∀ element ∈ elements, motive element
  | [] => by simp
  | element :: elements =>
      List.forall_mem_cons.mpr
        ⟨treeInduction element, elementsInduction elements⟩

theorem membersInduction :
    ∀ members : List (σ × Json σ), ∀ member ∈ members, motive member.2
  | [] => by simp
  | (_, value) :: members =>
      List.forall_mem_cons.mpr
        ⟨treeInduction value, membersInduction members⟩

end

end Induction

theorem all_of_forall {good : σ → Bool} (hgood : ∀ value, good value = true)
    (value : Json σ) : value.all good = true := by
  induction value using treeInduction with
  | null | bool | number => rw [all]
  | string value =>
      rw [all]
      exact hgood value
  | array elements ih =>
      rw [all, allElements_iff]
      exact ih
  | object members ih =>
      rw [all, allMembers_iff]
      exact fun member hmember => ⟨hgood member.1, ih member hmember⟩

/-! ## The parser -/

def isSpace (c : Char) : Bool := c ∈ [' ', '\t', '\n', '\r']

def skipSpace (content : List Char) : List Char := content.dropWhile isSpace

def simpleEscape : Char → Option Char
  | '"' => some '"'
  | '\\' => some '\\'
  | '/' => some '/'
  | 'b' => some (Char.ofNat 8)
  | 'f' => some (Char.ofNat 12)
  | 'n' => some '\n'
  | 'r' => some '\r'
  | 't' => some '\t'
  | _ => none

def hexValue (c : Char) : Option ℕ :=
  if '0' ≤ c ∧ c ≤ '9' then some (c.toNat - '0'.toNat)
  else if 'a' ≤ c ∧ c ≤ 'f' then some (c.toNat - 'a'.toNat + 10)
  else if 'A' ≤ c ∧ c ≤ 'F' then some (c.toNat - 'A'.toNat + 10)
  else none

/-- The code unit of four hexadecimal digits. -/
def hexUnit (a b c d : Char) : Option ℕ := do
  let a ← hexValue a
  let b ← hexValue b
  let c ← hexValue c
  let d ← hexValue d
  pure (((a * 16 + b) * 16 + c) * 16 + d)

/-- The characters of a string up to its closing quote, where an escape by
number still stands as its code unit. -/
def lexUnits : List Char → Option (List (Char ⊕ ℕ) × List Char)
  | [] => none
  | '"' :: rest => some ([], rest)
  | '\\' :: 'u' :: a :: b :: c :: d :: rest =>
      (hexUnit a b c d).bind fun unit =>
        (lexUnits rest).map (Prod.map (.inr unit :: ·) id)
  | '\\' :: c :: rest =>
      (simpleEscape c).bind fun c =>
        (lexUnits rest).map (Prod.map (.inl c :: ·) id)
  | c :: rest =>
      if c < ' ' then none
      else (lexUnits rest).map (Prod.map (.inl c :: ·) id)

def isSurrogate (unit : ℕ) : Bool := 0xd800 ≤ unit && unit < 0xe000

/-- The character of a pair of surrogates that begins with the given unit. -/
def surrogatePair (high : ℕ) : List (Char ⊕ ℕ) → Option Char
  | .inr low :: _ =>
      if 0xd800 ≤ high ∧ high < 0xdc00 ∧ 0xdc00 ≤ low ∧ low < 0xe000 then
        some (Char.ofNat
          ((high - 0xd800) * 0x400 + (low - 0xdc00) + 0x10000))
      else none
  | _ => none

/-- A surrogate that begins no pair counts as U+FFFD. -/
def joinUnits : Bool → List (Char ⊕ ℕ) → List Char
  | _, [] => []
  | true, _ :: rest => joinUnits false rest
  | false, .inl c :: rest => c :: joinUnits false rest
  | false, .inr unit :: rest =>
      match surrogatePair unit rest with
      | some c => c :: joinUnits true rest
      | none =>
          (if isSurrogate unit then runeError else Char.ofNat unit) ::
            joinUnits false rest

def lexString (content : List Char) : Option (List Char × List Char) :=
  (lexUnits content).map (Prod.map (joinUnits false) id)

def lexNumber (content : List Char) : Option (Json (List Char) × List Char) :=
  let digits := content.takeWhile isNumberSign
  if h : isNumber digits = true then
    some (.number ⟨digits, h⟩, content.dropWhile isNumberSign)
  else none

mutual

def parseValue : ℕ → List Char → Option (Json (List Char) × List Char)
  | 0, _ => none
  | fuel + 1, content =>
      match skipSpace content with
      | '"' :: rest => do
          let (value, rest) ← lexString rest
          pure (.string value, rest)
      | '[' :: rest =>
          match skipSpace rest with
          | ']' :: rest => some (.array [], rest)
          | rest => do
              let (elements, rest) ← parseElements fuel rest
              pure (.array elements, rest)
      | '{' :: rest =>
          match skipSpace rest with
          | '}' :: rest => some (.object [], rest)
          | rest => do
              let (members, rest) ← parseMembers fuel rest
              pure (.object members, rest)
      | 'n' :: 'u' :: 'l' :: 'l' :: rest => some (.null, rest)
      | 't' :: 'r' :: 'u' :: 'e' :: rest => some (.bool true, rest)
      | 'f' :: 'a' :: 'l' :: 's' :: 'e' :: rest => some (.bool false, rest)
      | rest => lexNumber rest

/-- The elements of an array that is not empty, up to its bracket. -/
def parseElements : ℕ → List Char → Option (List (Json (List Char)) × List Char)
  | 0, _ => none
  | fuel + 1, content => do
      let (element, rest) ← parseValue fuel content
      match skipSpace rest with
      | ',' :: rest => do
          let (elements, rest) ← parseElements fuel rest
          pure (element :: elements, rest)
      | ']' :: rest => some ([element], rest)
      | _ => none

/-- The members of an object that is not empty, up to its brace. -/
def parseMembers :
    ℕ → List Char → Option (List (List Char × Json (List Char)) × List Char)
  | 0, _ => none
  | fuel + 1, content =>
      match skipSpace content with
      | '"' :: rest => do
          let (key, rest) ← lexString rest
          match skipSpace rest with
          | ':' :: rest => do
              let (value, rest) ← parseValue fuel rest
              match skipSpace rest with
              | ',' :: rest => do
                  let (members, rest) ← parseMembers fuel rest
                  pure ((key, value) :: members, rest)
              | '}' :: rest => some ([(key, value)], rest)
              | _ => none
          | _ => none
      | _ => none

end

/-- The value of a JSON text.  `encoding/json` takes at most 10000 levels of
nesting; here every text is taken. -/
def parse (data : Bytes) : Option (Json (List Char)) := do
  let content := decodeText data
  let (value, rest) ← parseValue (content.length + 1) content
  if skipSpace rest = [] then some value else none

/-! ## Reading strings -/

section Lexing

variable {c : Char} {rest : List Char}

theorem lexString_of_lexUnits {content : List Char}
    (hunits : lexUnits content =
      (lexUnits rest).map (Prod.map (.inl c :: ·) id)) :
    lexString content = (lexString rest).map (Prod.map (c :: ·) id) := by
  unfold lexString
  rw [hunits]
  cases lexUnits rest <;> rfl

theorem lexString_plain (hquote : c ≠ '"') (hescape : c ≠ '\\')
    (hcontrol : ¬c < ' ') :
    lexString (c :: rest) = (lexString rest).map (Prod.map (c :: ·) id) := by
  apply lexString_of_lexUnits
  rw [lexUnits.eq_def]
  split <;> simp_all

theorem lexUnits_escape {e : Char} (hu : e ≠ 'u') :
    lexUnits ('\\' :: e :: rest) =
      (simpleEscape e).bind fun c =>
        (lexUnits rest).map (Prod.map (.inl c :: ·) id) := by
  rw [lexUnits]
  intro _ _ _ _ _ heq
  exact absurd heq hu

theorem lexString_simple {e : Char} (he : simpleEscape e = some c) :
    lexString ('\\' :: e :: rest) =
      (lexString rest).map (Prod.map (c :: ·) id) := by
  apply lexString_of_lexUnits
  have hu : e ≠ 'u' := by
    rintro rfl
    cases he
  rw [lexUnits_escape hu, he, Option.bind_some]

theorem lexString_unknown {e : Char} (he : simpleEscape e = none)
    (hu : e ≠ 'u') : lexString ('\\' :: e :: rest) = none := by
  unfold lexString
  rw [lexUnits_escape hu, he]
  rfl

theorem surrogatePair_eq_none {unit : ℕ} (hunit : isSurrogate unit = false)
    (units : List (Char ⊕ ℕ)) : surrogatePair unit units = none := by
  simp only [isSurrogate, Bool.and_eq_false_iff, decide_eq_false_iff_not]
    at hunit
  unfold surrogatePair
  split
  · rw [if_neg]
    omega
  · rfl

theorem lexString_unit {a b c d : Char} {unit : ℕ}
    (hdigits : hexUnit a b c d = some unit) (hunit : isSurrogate unit = false) :
    lexString ('\\' :: 'u' :: a :: b :: c :: d :: rest) =
      (lexString rest).map (Prod.map (Char.ofNat unit :: ·) id) := by
  unfold lexString
  rw [lexUnits, hdigits]
  cases lexUnits rest with
  | none => rfl
  | some result =>
      simp [Prod.map, joinUnits, surrogatePair_eq_none hunit, hunit]

/-- The ways in which one character of a string is written. -/
inductive Written (c : Char) : List Char → Prop where
  | plain (hquote : c ≠ '"') (hescape : c ≠ '\\') (hcontrol : ¬c < ' ') :
      Written c [c]
  | simple {e : Char} (he : simpleEscape e = some c) : Written c ['\\', e]
  | unit {a b d e : Char} {unit : ℕ} (hdigits : hexUnit a b d e = some unit)
      (hunit : isSurrogate unit = false) (hc : Char.ofNat unit = c) :
      Written c ['\\', 'u', a, b, d, e]

theorem lexString_written {token : List Char} (hwritten : Written c token) :
    lexString (token ++ rest) =
      (lexString rest).map (Prod.map (c :: ·) id) := by
  cases hwritten with
  | plain hquote hescape hcontrol =>
      exact lexString_plain hquote hescape hcontrol
  | simple he => exact lexString_simple he
  | unit hdigits hunit hc =>
      subst hc
      exact lexString_unit hdigits hunit

theorem Written.eq_or_exists {token : List Char} (hwritten : Written c token) :
    token = [c] ∨ ∃ tail, token = '\\' :: tail := by
  cases hwritten with
  | plain => exact .inl rfl
  | simple | unit => exact .inr ⟨_, rfl⟩

theorem escape_notMem_of_hexUnit {a b c d : Char} {unit : ℕ}
    (hdigits : hexUnit a b c d = some unit) : '\\' ∉ [a, b, c, d] := by
  have hnone : hexValue '\\' = none := rfl
  intro hmem
  simp only [List.mem_cons, List.not_mem_nil, or_false] at hmem
  rcases hmem with rfl | rfl | rfl | rfl <;> simp [hexUnit, hnone] at hdigits

end Lexing

/-! ## Reading numbers -/

/-- No number goes on into the rest. -/
def Delimited (rest : List Char) : Prop :=
  ∀ c ∈ rest.head?, isNumberSign c = false

theorem delimited_cons {c : Char} {rest : List Char}
    (hc : isNumberSign c = false) : Delimited (c :: rest) := by
  intro d hd
  cases hd
  exact hc

theorem lexNumber_append (literal : NumberLiteral) {rest : List Char}
    (hrest : Delimited rest) :
    lexNumber (literal.content ++ rest) = some (.number literal, rest) := by
  have htake : (literal.content ++ rest).takeWhile isNumberSign =
      literal.content := by
    rw [List.takeWhile_append_of_pos literal.isNumberSign_of_mem]
    cases rest with
    | nil => simp
    | cons c rest => simp [hrest c rfl]
  have hdrop : (literal.content ++ rest).dropWhile isNumberSign =
      rest := by
    rw [List.dropWhile_append_of_pos literal.isNumberSign_of_mem]
    cases rest with
    | nil => simp
    | cons c rest => simp [hrest c rfl]
  unfold lexNumber
  simp only [htake, hdrop]
  rw [dif_pos literal.valid]

/-! ## Reading what was encoded -/

mutual

/-- The fuel that reading the value takes. -/
def weight : Json σ → ℕ
  | .null | .bool _ | .number _ | .string _ => 1
  | .array elements => 1 + weightElements elements
  | .object members => 1 + weightMembers members

def weightElements : List (Json σ) → ℕ
  | [] => 0
  | element :: elements => 1 + element.weight + weightElements elements

def weightMembers : List (σ × Json σ) → ℕ
  | [] => 0
  | (_, value) :: members => 1 + value.weight + weightMembers members

end

section Encoding

variable (escape : σ → List Char)

mutual

theorem weight_le_length_encode : ∀ value : Json σ,
    value.weight ≤ (value.encode escape).length
  | .null => by simp [weight, encode]
  | .bool true => by simp [weight, encode]
  | .bool false => by simp [weight, encode]
  | .number literal => by
      rw [weight, encode]
      exact List.length_pos_iff.mpr literal.content_ne_nil
  | .string value => by simp [weight, encode, quoted]
  | .array elements => by
      have helements := weightElements_le_length_encode elements
      simp only [weight, encode, List.length_cons, List.length_append,
        List.length_nil]
      omega
  | .object members => by
      have hmembers := weightMembers_le_length_encode members
      simp only [weight, encode, List.length_cons, List.length_append,
        List.length_nil]
      omega

theorem weightElements_le_length_encode : ∀ elements : List (Json σ),
    weightElements elements ≤ (encodeElements escape elements).length + 1
  | [] => by simp [weightElements]
  | [element] => by
      have helement := weight_le_length_encode element
      simp only [weightElements, encodeElements]
      omega
  | element :: next :: elements => by
      have helement := weight_le_length_encode element
      have helements := weightElements_le_length_encode (next :: elements)
      rw [weightElements, encodeElements, List.length_append, List.length_cons]
      omega

theorem weightMembers_le_length_encode : ∀ members : List (σ × Json σ),
    weightMembers members ≤ (encodeMembers escape members).length + 1
  | [] => by simp [weightMembers]
  | [(key, value)] => by
      have hvalue := weight_le_length_encode value
      simp only [weightMembers, encodeMembers, List.length_append,
        List.length_cons]
      omega
  | (key, value) :: next :: members => by
      have hvalue := weight_le_length_encode value
      have hmembers := weightMembers_le_length_encode (next :: members)
      rw [weightMembers, encodeMembers, List.length_append, List.length_cons,
        List.length_append, List.length_cons]
      omega

end

theorem skipSpace_cons {c : Char} (hc : isSpace c = false)
    (rest : List Char) : skipSpace (c :: rest) = c :: rest := by
  simp [skipSpace, hc]

theorem isSpace_of_isNumberSign {c : Char} (hc : isNumberSign c = true) :
    isSpace c = false := by
  by_contra hspace
  rw [Bool.not_eq_false] at hspace
  simp only [isSpace, decide_eq_true_eq, List.mem_cons, List.not_mem_nil,
    or_false] at hspace
  rcases hspace with rfl | rfl | rfl | rfl <;> cases hc

/-- A value begins with a sign that is neither space nor a closing bracket. -/
theorem exists_encode_eq_cons (value : Json σ) :
    ∃ c rest, value.encode escape = c :: rest ∧ isSpace c = false ∧
      c ≠ ']' := by
  cases value with
  | null => exact ⟨_, _, by rw [encode], rfl, by decide⟩
  | bool value =>
      cases value <;> exact ⟨_, _, by rw [encode], rfl, by decide⟩
  | number literal =>
      cases hcontent : literal.content with
      | nil => exact absurd hcontent literal.content_ne_nil
      | cons c rest =>
          have hsign := literal.isNumberSign_of_mem c (by simp [hcontent])
          refine ⟨c, rest, by rw [encode, hcontent],
            isSpace_of_isNumberSign hsign, ?_⟩
          rintro rfl
          cases hsign
  | string value => exact ⟨_, _, by rw [encode, quoted], rfl, by decide⟩
  | array | object => exact ⟨_, _, by rw [encode], rfl, by decide⟩

theorem exists_encodeElements_eq_cons (element : Json σ)
    (elements : List (Json σ)) :
    ∃ c rest, encodeElements escape (element :: elements) = c :: rest ∧
      isSpace c = false ∧ c ≠ ']' := by
  rcases exists_encode_eq_cons escape element with ⟨c, rest, heq, hc⟩
  cases elements with
  | nil => exact ⟨c, rest, by rw [encodeElements, heq], hc⟩
  | cons next elements =>
      exact ⟨c, _, by rw [encodeElements, heq, List.cons_append], hc⟩

theorem exists_encodeMembers_eq_cons (member : σ × Json σ)
    (members : List (σ × Json σ)) :
    ∃ rest, encodeMembers escape (member :: members) = '"' :: rest := by
  cases members with
  | nil => exact ⟨_, by rw [encodeMembers, quoted, List.cons_append]⟩
  | cons next members =>
      exact ⟨_, by rw [encodeMembers, quoted, List.cons_append]⟩

theorem parseValue_number {fuel : ℕ} (literal : NumberLiteral)
    {rest : List Char} (hrest : Delimited rest) :
    parseValue (fuel + 1) (literal.content ++ rest) =
      some (.number literal, rest) := by
  rw [← lexNumber_append literal hrest]
  cases hcontent : literal.content with
  | nil => exact absurd hcontent literal.content_ne_nil
  | cons c content =>
      have hsign := literal.isNumberSign_of_mem c (by simp [hcontent])
      have hstart : ∀ d tail, isNumberSign d = false →
          c :: (content ++ rest) ≠ d :: tail := by
        rintro d tail hd ⟨⟩
        rw [hsign] at hd
        cases hd
      rw [parseValue, List.cons_append,
        skipSpace_cons (isSpace_of_isNumberSign hsign)]
      -- No other value starts with a sign that numbers are written with.
      split
      next hquote => exact absurd hquote (hstart _ _ rfl)
      next harray => exact absurd harray (hstart _ _ rfl)
      next hobject => exact absurd hobject (hstart _ _ rfl)
      next hnull => exact absurd hnull (hstart _ _ rfl)
      next htrue => exact absurd htrue (hstart _ _ rfl)
      next hfalse => exact absurd hfalse (hstart _ _ rfl)
      next => rfl

end Encoding

/-! ## Editing what was encoded -/

section Editing

variable {escape : σ → List Char} {edit : List Char → List Char}

theorem quoted_append (value : σ) (rest : List Char) :
    quoted escape value ++ rest = '"' :: (escape value ++ '"' :: rest) := by
  simp [quoted]

/-- A change of the text that stays within its strings. -/
structure KeepsStructure (edit : List Char → List Char) : Prop where
  nil : edit [] = []
  cons : ∀ c rest, c ≠ '\\' → edit (c :: rest) = c :: edit rest
  quote : ∀ content rest,
    edit (content ++ '"' :: rest) = edit content ++ '"' :: edit rest

theorem KeepsStructure.append (hkeeps : KeepsStructure edit)
    {kept : List Char} (hkept : '\\' ∉ kept) (rest : List Char) :
    edit (kept ++ rest) = kept ++ edit rest := by
  induction kept with
  | nil => rfl
  | cons c kept ih =>
      rw [List.mem_cons, not_or] at hkept
      rw [List.cons_append, hkeeps.cons c _ (Ne.symm hkept.1), ih hkept.2,
        List.cons_append]

theorem KeepsStructure.quoted (hkeeps : KeepsStructure edit) (value : σ)
    (rest : List Char) :
    edit (quoted escape value ++ rest) =
      quoted (edit ∘ escape) value ++ edit rest := by
  rw [quoted_append, hkeeps.cons _ _ (by decide), hkeeps.quote, quoted_append]
  rfl

mutual

theorem edit_encode (hkeeps : KeepsStructure edit) :
    ∀ (value : Json σ) (rest : List Char),
      edit (value.encode escape ++ rest) =
        value.encode (edit ∘ escape) ++ edit rest
  | .null, rest => hkeeps.append (by simp [encode]) rest
  | .bool true, rest => hkeeps.append (by simp [encode]) rest
  | .bool false, rest => hkeeps.append (by simp [encode]) rest
  | .number literal, rest => by
      rw [encode, encode]
      exact hkeeps.append literal.escape_notMem rest
  | .string value, rest => by
      rw [encode, encode]
      exact hkeeps.quoted value rest
  | .array elements, rest => by
      rw [encode, encode, List.cons_append, List.append_assoc,
        hkeeps.cons _ _ (by decide), edit_encodeElements hkeeps elements,
        List.singleton_append, hkeeps.cons _ _ (by decide)]
      simp
  | .object members, rest => by
      rw [encode, encode, List.cons_append, List.append_assoc,
        hkeeps.cons _ _ (by decide), edit_encodeMembers hkeeps members,
        List.singleton_append, hkeeps.cons _ _ (by decide)]
      simp

theorem edit_encodeElements (hkeeps : KeepsStructure edit) :
    ∀ (elements : List (Json σ)) (rest : List Char),
      edit (encodeElements escape elements ++ rest) =
        encodeElements (edit ∘ escape) elements ++ edit rest
  | [], rest => rfl
  | [element], rest => edit_encode hkeeps element rest
  | element :: next :: elements, rest => by
      rw [encodeElements, encodeElements, List.append_assoc,
        edit_encode hkeeps element, List.cons_append,
        hkeeps.cons _ _ (by decide),
        edit_encodeElements hkeeps (next :: elements)]
      simp

theorem edit_encodeMembers (hkeeps : KeepsStructure edit) :
    ∀ (members : List (σ × Json σ)) (rest : List Char),
      edit (encodeMembers escape members ++ rest) =
        encodeMembers (edit ∘ escape) members ++ edit rest
  | [], rest => rfl
  | [(key, value)], rest => by
      rw [encodeMembers, encodeMembers, List.append_assoc, hkeeps.quoted,
        List.cons_append, hkeeps.cons _ _ (by decide),
        edit_encode hkeeps value]
      simp
  | (key, value) :: next :: members, rest => by
      rw [encodeMembers, encodeMembers, List.append_assoc, hkeeps.quoted,
        List.cons_append, hkeeps.cons _ _ (by decide), List.append_assoc,
        edit_encode hkeeps value, List.cons_append,
        hkeeps.cons _ _ (by decide),
        edit_encodeMembers hkeeps (next :: members)]
      simp

end

theorem KeepsStructure.encode (hkeeps : KeepsStructure edit)
    (escape : σ → List Char) (value : Json σ) :
    edit (value.encode escape) = value.encode (edit ∘ escape) := by
  have hedit : edit (value.encode escape ++ []) = _ :=
    edit_encode hkeeps value []
  rwa [List.append_nil, hkeeps.nil, List.append_nil] at hedit

end Editing

/-! ### Single steps of the parser -/

section Steps

variable {fuel : ℕ} {content rest : List Char} {key : List Char}
  {value : Json (List Char)}

theorem parseValue_string : parseValue (fuel + 1) ('"' :: content) =
    (lexString content).map (Prod.map .string id) := by
  rw [parseValue, skipSpace_cons rfl, Option.map_eq_bind]
  rfl

theorem parseValue_array {c : Char} (hspace : isSpace c = false)
    (hne : c ≠ ']') : parseValue (fuel + 1) ('[' :: c :: content) =
      (parseElements fuel (c :: content)).map (Prod.map .array id) := by
  rw [parseValue, skipSpace_cons rfl]
  simp only [skipSpace_cons hspace]
  split
  next heq => exact absurd (List.cons.inj heq).1 hne
  next =>
    rw [Option.map_eq_bind]
    rfl

theorem parseValue_object : parseValue (fuel + 1) ('{' :: '"' :: content) =
    (parseMembers fuel ('"' :: content)).map (Prod.map .object id) := by
  rw [parseValue, skipSpace_cons rfl, Option.map_eq_bind]
  rfl

theorem parseElements_none (hvalue : parseValue fuel content = none) :
    parseElements (fuel + 1) content = none := by
  rw [parseElements, hvalue]
  rfl

theorem parseElements_last
    (hvalue : parseValue fuel content = some (value, ']' :: rest)) :
    parseElements (fuel + 1) content = some ([value], rest) := by
  rw [parseElements, hvalue]
  rfl

theorem parseElements_next
    (hvalue : parseValue fuel content = some (value, ',' :: rest)) :
    parseElements (fuel + 1) content =
      (parseElements fuel rest).map (Prod.map (value :: ·) id) := by
  rw [parseElements, hvalue, Option.map_eq_bind]
  rfl

theorem parseMembers_no_key (hkey : lexString content = none) :
    parseMembers (fuel + 1) ('"' :: content) = none := by
  rw [parseMembers, skipSpace_cons rfl]
  simp [hkey]

theorem parseMembers_none (hkey : lexString content = some (key, ':' :: rest))
    (hvalue : parseValue fuel rest = none) :
    parseMembers (fuel + 1) ('"' :: content) = none := by
  rw [parseMembers, skipSpace_cons rfl]
  simp [hkey, hvalue, skipSpace, isSpace]

theorem parseMembers_last {rest' : List Char}
    (hkey : lexString content = some (key, ':' :: rest))
    (hvalue : parseValue fuel rest = some (value, '}' :: rest')) :
    parseMembers (fuel + 1) ('"' :: content) = some ([(key, value)], rest') := by
  rw [parseMembers, skipSpace_cons rfl]
  simp [hkey, hvalue, skipSpace, isSpace]

theorem parseMembers_next {rest' : List Char}
    (hkey : lexString content = some (key, ':' :: rest))
    (hvalue : parseValue fuel rest = some (value, ',' :: rest')) :
    parseMembers (fuel + 1) ('"' :: content) =
      (parseMembers fuel rest').map (Prod.map ((key, value) :: ·) id) := by
  rw [parseMembers, skipSpace_cons rfl, Option.map_eq_bind]
  simp [hkey, hvalue, skipSpace, isSpace]
  rfl

end Steps

section Reading

variable {escape : σ → List Char} {good : σ → Bool} {read : σ → List Char}

/-- The parser reads an escaped string exactly if it is a good one. -/
def Escapes (escape : σ → List Char) (good : σ → Bool)
    (read : σ → List Char) : Prop :=
  ∀ value rest, lexString (escape value ++ '"' :: rest) =
    if good value then some (read value, rest) else none

mutual

theorem parseValue_encode (hescapes : Escapes escape good read) :
    ∀ (value : Json σ) (fuel : ℕ) (rest : List Char), value.weight ≤ fuel →
      Delimited rest →
      parseValue fuel (value.encode escape ++ rest) =
        if value.all good then some (value.map read, rest) else none
  | value, 0, _, hfuel, _ => by
      cases value <;> simp [weight] at hfuel
  | .null, fuel + 1, rest, _, _ => by
      simp [encode, parseValue, skipSpace, isSpace, all, map]
  | .bool true, fuel + 1, rest, _, _ => by
      simp [encode, parseValue, skipSpace, isSpace, all, map]
  | .bool false, fuel + 1, rest, _, _ => by
      simp [encode, parseValue, skipSpace, isSpace, all, map]
  | .number literal, fuel + 1, rest, _, hrest => by
      rw [encode, parseValue_number literal hrest, all, map]
      rfl
  | .string value, fuel + 1, rest, _, _ => by
      rw [encode, quoted_append, parseValue_string, hescapes, all, map]
      split <;> rfl
  | .array [], fuel + 1, rest, _, _ => by
      simp [encode, encodeElements, parseValue, skipSpace, isSpace, all,
        allElements, map, mapElements]
  | .array (element :: elements), fuel + 1, rest, hfuel, _ => by
      rcases exists_encodeElements_eq_cons escape element elements with
        ⟨c, content, hcons, hspace, hne⟩
      have hfuel' : weightElements (element :: elements) ≤ fuel := by
        rw [weight] at hfuel
        omega
      have hread := parseElements_encode hescapes element elements fuel rest
        hfuel'
      rw [hcons, List.cons_append] at hread
      rw [encode, hcons, List.cons_append, List.append_assoc,
        List.singleton_append, List.cons_append, parseValue_array hspace hne,
        hread, all, map]
      split <;> rfl
  | .object [], fuel + 1, rest, _, _ => by
      simp [encode, encodeMembers, parseValue, skipSpace, isSpace, all,
        allMembers, map, mapMembers]
  | .object (member :: members), fuel + 1, rest, hfuel, _ => by
      rcases exists_encodeMembers_eq_cons escape member members with
        ⟨content, hcons⟩
      have hfuel' : weightMembers (member :: members) ≤ fuel := by
        rw [weight] at hfuel
        omega
      have hread := parseMembers_encode hescapes member members fuel rest
        hfuel'
      rw [hcons, List.cons_append] at hread
      rw [encode, hcons, List.cons_append, List.append_assoc,
        List.singleton_append, List.cons_append, parseValue_object, hread, all,
        map]
      split <;> rfl

theorem parseElements_encode (hescapes : Escapes escape good read) :
    ∀ (element : Json σ) (elements : List (Json σ)) (fuel : ℕ)
      (rest : List Char), weightElements (element :: elements) ≤ fuel →
      parseElements fuel
          (encodeElements escape (element :: elements) ++ ']' :: rest) =
        if allElements good (element :: elements) then
          some (mapElements read (element :: elements), rest)
        else none
  | element, elements, 0, _, hfuel => by
      simp [weightElements] at hfuel
  | element, [], fuel + 1, rest, hfuel => by
      have hvalue := parseValue_encode hescapes element fuel
        (']' :: rest) (by rw [weightElements] at hfuel; omega)
        (delimited_cons rfl)
      rw [encodeElements, allElements, allElements, Bool.and_true]
      by_cases helement : element.all good = true
      · rw [if_pos helement] at hvalue ⊢
        exact parseElements_last hvalue
      · rw [if_neg helement] at hvalue ⊢
        exact parseElements_none hvalue
  | element, next :: elements, fuel + 1, rest, hfuel => by
      rw [weightElements] at hfuel
      have hvalue := parseValue_encode hescapes element fuel
        (',' :: (encodeElements escape (next :: elements) ++ ']' :: rest))
        (by omega) (delimited_cons rfl)
      have hread := parseElements_encode hescapes next elements fuel rest
        (by omega)
      rw [encodeElements, List.append_assoc, List.cons_append, allElements]
      by_cases helement : element.all good = true
      · rw [if_pos helement] at hvalue
        rw [parseElements_next hvalue, hread, helement, Bool.true_and]
        split <;> rfl
      · rw [if_neg helement] at hvalue
        rw [parseElements_none hvalue, if_neg]
        simp [helement]

theorem parseMembers_encode (hescapes : Escapes escape good read) :
    ∀ (member : σ × Json σ) (members : List (σ × Json σ)) (fuel : ℕ)
      (rest : List Char), weightMembers (member :: members) ≤ fuel →
      parseMembers fuel
          (encodeMembers escape (member :: members) ++ '}' :: rest) =
        if allMembers good (member :: members) then
          some (mapMembers read (member :: members), rest)
        else none
  | (_, _), _, 0, _, hfuel => by
      simp [weightMembers] at hfuel
  | (key, value), [], fuel + 1, rest, hfuel => by
      have hvalue := parseValue_encode hescapes value fuel
        ('}' :: rest) (by rw [weightMembers] at hfuel; omega)
        (delimited_cons rfl)
      have hkey := hescapes key
        (':' :: (value.encode escape ++ '}' :: rest))
      rw [encodeMembers, List.append_assoc, List.cons_append, quoted_append,
        allMembers, allMembers, Bool.and_true]
      by_cases hgood : good key = true
      · rw [if_pos hgood] at hkey
        rw [hgood, Bool.true_and]
        by_cases hall : value.all good = true
        · rw [if_pos hall] at hvalue ⊢
          exact parseMembers_last hkey hvalue
        · rw [if_neg hall] at hvalue ⊢
          exact parseMembers_none hkey hvalue
      · rw [if_neg hgood] at hkey
        rw [parseMembers_no_key hkey, if_neg]
        simp [hgood]
  | (key, value), next :: members, fuel + 1, rest, hfuel => by
      rw [weightMembers] at hfuel
      have hvalue := parseValue_encode hescapes value fuel
        (',' :: (encodeMembers escape (next :: members) ++ '}' :: rest))
        (by omega) (delimited_cons rfl)
      have hread := parseMembers_encode hescapes next members fuel rest
        (by omega)
      have hkey := hescapes key
        (':' :: (value.encode escape ++ ',' ::
          (encodeMembers escape (next :: members) ++ '}' :: rest)))
      rw [encodeMembers, List.append_assoc, List.cons_append,
        List.append_assoc, List.cons_append, quoted_append, allMembers]
      by_cases hgood : good key = true
      · rw [if_pos hgood] at hkey
        rw [hgood, Bool.true_and]
        by_cases hall : value.all good = true
        · rw [if_pos hall] at hvalue
          rw [parseMembers_next hkey hvalue, hread, hall, Bool.true_and]
          split <;> rfl
        · rw [if_neg hall] at hvalue
          rw [parseMembers_none hkey hvalue, if_neg]
          simp [hall]
      · rw [if_neg hgood] at hkey
        rw [parseMembers_no_key hkey, if_neg]
        simp [hgood]

end

/-- The parser reads the encoded value exactly if all of its strings and keys
are good. -/
theorem parse_utf8_encode (hescapes : Escapes escape good read)
    (value : Json σ) :
    parse (utf8 (value.encode escape)) =
      if value.all good then some (value.map read) else none := by
  have hfuel : value.weight ≤ (value.encode escape).length + 1 :=
    (weight_le_length_encode escape value).trans (Nat.le_succ _)
  have hread := parseValue_encode hescapes value _ [] hfuel
    (by intro c hc; cases hc)
  rw [List.append_nil] at hread
  unfold parse
  rw [decodeText_utf8]
  dsimp only
  rw [hread]
  split <;> rfl

end Reading

end Json

end GoP2P
