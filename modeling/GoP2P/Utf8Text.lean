import GoP2P.Bytes
import GoP2P.TextReplace

/-!
# Text as bytes

A byte string is read as text character by character; a byte that starts no
character counts as one that is not known.  The bytes of a text read as that
text, and replacing a word of ASCII characters in its bytes is replacing it in
the text.
-/

namespace GoP2P

/-- The bytes of a text. -/
def utf8 (content : List Char) : Bytes :=
  content.flatMap String.utf8EncodeChar

/-- `utf8.DecodeRune`, without a value where Go returns `RuneError` and 1. -/
def decodeRune (bytes : Bytes) : Option Char :=
  bytes.toByteArray.utf8DecodeChar? 0

def runesFrom : ℕ → Bytes → List (Option Char)
  | _, [] => []
  | skip + 1, _ :: rest => runesFrom skip rest
  | 0, byte :: rest =>
      match decodeRune (byte :: rest) with
      | some c => some c :: runesFrom (c.utf8Size - 1) rest
      | none => none :: runesFrom 0 rest

/-- What `range` over a string visits. -/
def runes (bytes : Bytes) : List (Option Char) := runesFrom 0 bytes

/-- `utf8.RuneError`, U+FFFD. -/
def runeError : Char := Char.ofNat 0xfffd

/-- The conversion of a string to `[]rune`. -/
def decodeText (bytes : Bytes) : List Char :=
  (runes bytes).map (·.getD runeError)

theorem runesFrom_append (skipped rest : Bytes) :
    runesFrom skipped.length (skipped ++ rest) = runes rest := by
  induction skipped with
  | nil => rfl
  | cons byte skipped ih => exact ih

theorem decodeRune_utf8EncodeChar_append (c : Char) (rest : Bytes) :
    decodeRune (String.utf8EncodeChar c ++ rest) = some c := by
  unfold decodeRune
  rw [List.toByteArray_append]
  exact ByteArray.utf8DecodeChar?_utf8EncodeChar_append

theorem runes_utf8EncodeChar_append (c : Char) (rest : Bytes) :
    runes (String.utf8EncodeChar c ++ rest) = some c :: runes rest := by
  have hdecoded := decodeRune_utf8EncodeChar_append c rest
  have hsize := String.length_utf8EncodeChar c
  cases hbytes : String.utf8EncodeChar c with
  | nil => exact absurd hbytes (by simp)
  | cons byte bytes =>
      rw [hbytes] at hdecoded hsize
      unfold runes
      rw [List.cons_append] at hdecoded ⊢
      rw [runesFrom, hdecoded]
      dsimp only
      rw [← hsize, List.length_cons, Nat.add_sub_cancel, runesFrom_append]
      rfl

theorem runes_utf8 (content : List Char) :
    runes (utf8 content) = content.map some := by
  induction content with
  | nil => rfl
  | cons c content ih =>
      unfold utf8 at ih ⊢
      rw [List.flatMap_cons, runes_utf8EncodeChar_append, ih, List.map_cons]

@[simp] theorem decodeText_utf8 (content : List Char) :
    decodeText (utf8 content) = content := by
  unfold decodeText
  rw [runes_utf8, List.map_map]
  exact List.map_id content

/-- The bytes are valid UTF-8. -/
def IsUTF8 (bytes : Bytes) : Prop := utf8 (decodeText bytes) = bytes

instance (bytes : Bytes) : Decidable (IsUTF8 bytes) :=
  inferInstanceAs (Decidable (_ = _))

theorem isUTF8_utf8 (content : List Char) : IsUTF8 (utf8 content) :=
  congrArg utf8 (decodeText_utf8 content)

/-! ## Replacing ASCII words -/

def isASCII (c : Char) : Prop := c.toNat < 128

theorem utf8EncodeChar_of_isASCII {c : Char} (hc : isASCII c) :
    String.utf8EncodeChar c = [UInt8.ofNat c.toNat] := by
  have hle : c.val.toNat ≤ 127 := Nat.le_of_lt_succ hc
  exact if_pos hle

theorem le_of_mem_utf8EncodeChar {c : Char} (hc : ¬isASCII c) {byte : UInt8}
    (hbyte : byte ∈ String.utf8EncodeChar c) : 128 ≤ byte.toNat := by
  have hlt : ¬c.val.toNat ≤ 127 := fun h => hc (Nat.lt_succ_of_le h)
  unfold String.utf8EncodeChar at hbyte
  simp only [if_neg hlt] at hbyte
  split at hbyte
  · simp at hbyte
    rcases hbyte with rfl | rfl <;> simp <;> omega
  · split at hbyte
    · simp at hbyte
      rcases hbyte with rfl | rfl | rfl <;> simp <;> omega
    · simp at hbyte
      rcases hbyte with rfl | rfl | rfl | rfl <;> simp <;> omega

theorem utf8_cons_of_isASCII {c : Char} (hc : isASCII c) (content : List Char) :
    utf8 (c :: content) = UInt8.ofNat c.toNat :: utf8 content := by
  unfold utf8
  rw [List.flatMap_cons, utf8EncodeChar_of_isASCII hc, List.singleton_append]

theorem byte_inj_of_isASCII {c d : Char} (hc : isASCII c) (hd : isASCII d)
    (heq : UInt8.ofNat c.toNat = UInt8.ofNat d.toNat) : c = d := by
  unfold isASCII at hc hd
  have hnat := congrArg UInt8.toNat heq
  simp only [UInt8.toNat_ofNat'] at hnat
  rw [Nat.mod_eq_of_lt (by omega), Nat.mod_eq_of_lt (by omega)] at hnat
  exact Char.toNat_inj.mp hnat

theorem notMem_utf8EncodeChar {c d : Char} (hc : isASCII c) (hd : ¬isASCII d) :
    UInt8.ofNat c.toNat ∉ String.utf8EncodeChar d := by
  intro hmem
  have hle := le_of_mem_utf8EncodeChar hd hmem
  unfold isASCII at hc
  rw [UInt8.toNat_ofNat', Nat.mod_eq_of_lt (by omega)] at hle
  omega

theorem utf8_prefix_iff {word : List Char} (hword : ∀ c ∈ word, isASCII c)
    (content : List Char) : utf8 word <+: utf8 content ↔ word <+: content := by
  constructor
  · intro hfound
    induction word generalizing content with
    | nil => exact List.nil_prefix
    | cons c word ih =>
        have hc := hword c (by simp)
        rw [utf8_cons_of_isASCII hc] at hfound
        cases content with
        | nil => simp [utf8] at hfound
        | cons d content =>
            by_cases hd : isASCII d
            · rw [utf8_cons_of_isASCII hd, List.cons_prefix_cons] at hfound
              rw [List.cons_prefix_cons]
              exact ⟨byte_inj_of_isASCII hc hd hfound.1,
                ih (fun e he => hword e (by simp [he])) content hfound.2⟩
            · have hbytes := notMem_utf8EncodeChar hc hd
              unfold utf8 at hfound
              rw [List.flatMap_cons] at hfound
              cases hd' : String.utf8EncodeChar d with
              | nil => exact absurd hd' (by simp)
              | cons byte bytes =>
                  rw [hd', List.cons_append, List.cons_prefix_cons] at hfound
                  rw [hd', hfound.1] at hbytes
                  simp at hbytes
  · rintro ⟨rest, rfl⟩
    exact ⟨utf8 rest, (List.flatMap_append).symm⟩

theorem replaceAll_utf8 {lead : Char} {word : List Char}
    (hword : ∀ c ∈ lead :: word, isASCII c) (new content : List Char) :
    replaceAll (utf8 (lead :: word)) (utf8 new) (utf8 content) =
      utf8 (replaceAll (lead :: word) new content) := by
  have hlead : isASCII lead := hword lead (by simp)
  induction content using replaceAll_induction lead word with
  | nil => rfl
  | found rest ih =>
      rw [replaceAll_append, ← List.cons_append]
      unfold utf8 at ih ⊢
      rw [List.flatMap_append, List.flatMap_append, ← ih, List.flatMap_cons,
        utf8EncodeChar_of_isASCII hlead, List.singleton_append,
        List.cons_append, replaceAll_append]
  | kept c rest hmissing ih =>
      have hmissing' : ¬utf8 (lead :: word) <+: utf8 (c :: rest) :=
        fun h => hmissing ((utf8_prefix_iff hword _).mp h)
      rw [replaceAll_cons_of_missing hmissing]
      by_cases hc : isASCII c
      · rw [utf8_cons_of_isASCII hc] at hmissing' ⊢
        rw [replaceAll_cons_of_missing hmissing', ih, utf8_cons_of_isASCII hc]
      · rw [utf8_cons_of_isASCII hlead] at ih ⊢
        unfold utf8 at ih ⊢
        rw [List.flatMap_cons,
          replaceAll_append_of_notMem (notMem_utf8EncodeChar hlead hc), ih,
          List.flatMap_cons]

end GoP2P
