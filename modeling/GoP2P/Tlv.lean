import GoP2P.Bytes

/-!
# Tag–length–value framing

A frame is a one-byte tag, a two-byte big-endian length and that many bytes
of value.  Frames are self-delimiting, so a byte string splits into a sequence
of frames and a remainder in at most one way for each number of frames.
-/

namespace GoP2P

@[ext] structure Tlv where
  tag : UInt8
  value : Bytes
  fits : value.length ≤ 65535
  deriving DecidableEq, Repr

namespace Tlv

def encode (frame : Tlv) : Bytes :=
  frame.tag :: (beBytes 2 frame.value.length ++ frame.value)

def encodeAll (frames : List Tlv) : Bytes :=
  frames.flatMap encode

@[simp] theorem encodeAll_nil : encodeAll [] = [] := rfl

@[simp] theorem encodeAll_cons (frame : Tlv) (frames : List Tlv) :
    encodeAll (frame :: frames) = frame.encode ++ encodeAll frames := rfl

@[simp] theorem encodeAll_append (front back : List Tlv) :
    encodeAll (front ++ back) = encodeAll front ++ encodeAll back := by
  simp [encodeAll]

@[simp] theorem length_encode (frame : Tlv) :
    frame.encode.length = frame.value.length + 3 := by
  simp [encode]
  omega

theorem beNat_length_field (frame : Tlv) :
    beNat (beBytes 2 frame.value.length) = frame.value.length := by
  have hfits := frame.fits
  exact beNat_beBytes_of_lt (by omega)

theorem encode_append_inj
    {left right : Tlv} {leftRest rightRest : Bytes}
    (hequal : left.encode ++ leftRest = right.encode ++ rightRest) :
    left = right ∧ leftRest = rightRest := by
  simp only [encode, List.cons_append, List.append_assoc,
    List.cons.injEq] at hequal
  obtain ⟨htag, hbody⟩ := hequal
  obtain ⟨hfield, htail⟩ := List.append_inj hbody (by simp)
  have hlength : left.value.length = right.value.length := by
    rw [← left.beNat_length_field, ← right.beNat_length_field, hfield]
  obtain ⟨hvalue, hrest⟩ := List.append_inj htail hlength
  exact ⟨Tlv.ext htag hvalue, hrest⟩

/-- Two framings of one byte string agree as far as the shorter one goes. -/
theorem prefix_or_prefix_of_encodeAll_append_eq
    {left right : List Tlv} {leftRest rightRest : Bytes}
    (hequal : encodeAll left ++ leftRest = encodeAll right ++ rightRest) :
    (∃ more, right = left ++ more ∧
        leftRest = encodeAll more ++ rightRest) ∨
      ∃ more, left = right ++ more ∧
        rightRest = encodeAll more ++ leftRest := by
  induction left generalizing right with
  | nil => exact .inl ⟨right, rfl, by simpa using hequal⟩
  | cons frame frames ih =>
      cases right with
      | nil => exact .inr ⟨frame :: frames, rfl, by simpa using hequal.symm⟩
      | cons other others =>
          simp only [encodeAll_cons, List.append_assoc] at hequal
          obtain ⟨rfl, htail⟩ := encode_append_inj hequal
          rcases ih htail with ⟨more, rfl, hrest⟩ | ⟨more, rfl, hrest⟩
          · exact .inl ⟨more, rfl, hrest⟩
          · exact .inr ⟨more, rfl, hrest⟩

theorem length_le_length_encodeAll (frames : List Tlv) :
    frames.length ≤ (encodeAll frames).length := by
  induction frames with
  | nil => simp
  | cons frame frames ih =>
      simp only [encodeAll_cons, List.length_cons, List.length_append,
        length_encode]
      omega

theorem encodeAll_injective : Function.Injective encodeAll := by
  have hempty : ∀ more, encodeAll more = [] → more = [] := by
    intro more hmore
    have hlength := length_le_length_encodeAll more
    rw [hmore] at hlength
    exact List.eq_nil_of_length_eq_zero (by simpa using hlength)
  intro left right hequal
  have hpadded : encodeAll left ++ [] = encodeAll right ++ [] := by
    simpa using hequal
  rcases prefix_or_prefix_of_encodeAll_append_eq hpadded with
    ⟨more, rfl, hmore⟩ | ⟨more, rfl, hmore⟩
  · rw [hempty more (by simpa using hmore.symm), List.append_nil]
  · rw [hempty more (by simpa using hmore.symm), List.append_nil]

theorem exists_eq_encode_append
    (tag : UInt8) {field body : Bytes}
    (hfield : field.length = 2) (hbody : beNat field ≤ body.length) :
    ∃ frame : Tlv,
      frame.tag = tag ∧ frame.value = body.take (beNat field) ∧
        tag :: (field ++ body) = frame.encode ++ body.drop (beNat field) := by
  have hbound := beNat_lt field
  rw [hfield] at hbound
  have hlength : (body.take (beNat field)).length = beNat field := by
    simpa using hbody
  refine ⟨⟨tag, body.take (beNat field), by omega⟩, rfl, rfl, ?_⟩
  have hround := beBytes_beNat field
  rw [hfield] at hround
  simp only [encode, hlength, hround, List.cons_append, List.append_assoc,
    List.take_append_drop]

/-- A cut through a sequence of frames falls into one of them. -/
theorem exists_cut_of_encodeAll_eq
    {frames : List Tlv} {part rest : Bytes}
    (hsplit : encodeAll frames = part ++ rest) (hrest : rest ≠ []) :
    ∃ front frame back fragment missing,
      frames = front ++ frame :: back ∧
      part = encodeAll front ++ fragment ∧
      frame.encode = fragment ++ missing ∧ missing ≠ [] := by
  induction frames generalizing part with
  | nil =>
      have hempty := List.append_eq_nil_iff.mp hsplit.symm
      exact absurd hempty.2 hrest
  | cons frame frames ih =>
      rw [encodeAll_cons] at hsplit
      rcases List.append_eq_append_iff.mp hsplit with
        ⟨more, rfl, htail⟩ | ⟨missing, hframe, htail⟩
      · obtain ⟨front, cut, back, fragment, missing, rfl, rfl, hcut, hmissing⟩ :=
          ih htail
        exact ⟨frame :: front, cut, back, fragment, missing, rfl,
          by simp, hcut, hmissing⟩
      · by_cases hmissing : missing = []
        · -- the cut falls between two frames, so the next one is missing whole
          subst hmissing
          rw [List.append_nil] at hframe
          have hbetween : encodeAll frames = [] ++ rest := by
            simpa using htail.symm
          obtain ⟨front, cut, back, fragment, missing, rfl, hpart, hcut,
            hmissing⟩ := ih hbetween
          obtain ⟨hfront, rfl⟩ := List.append_eq_nil_iff.mp hpart.symm
          refine ⟨frame :: front, cut, back, [], missing, rfl, ?_, hcut, hmissing⟩
          simp [hfront, hframe]
        · exact ⟨[], frame, frames, part, missing, rfl, by simp, hframe,
            hmissing⟩

/-- What is left of a frame after a cut is not a frame with something behind
it. -/
theorem fragment_ne_encode_append
    {frame : Tlv} {fragment missing : Bytes}
    (hcut : frame.encode = fragment ++ missing) (hmissing : missing ≠ [])
    (other : Tlv) (rest : Bytes) : fragment ≠ other.encode ++ rest := by
  intro hfragment
  have hequal : frame.encode ++ [] = other.encode ++ (rest ++ missing) := by
    rw [List.append_nil, hcut, hfragment, List.append_assoc]
  have htail := (encode_append_inj hequal).2
  exact hmissing (List.append_eq_nil_iff.mp htail.symm).2

/-! ### The last frame with a tag -/

def lastValue? (tag : UInt8) (frames : List Tlv) : Option Bytes :=
  (frames.filter (·.tag = tag)).getLast?.map Tlv.value

@[simp] theorem lastValue?_nil (tag : UInt8) : lastValue? tag [] = none := rfl

theorem lastValue?_concat (tag : UInt8) (frames : List Tlv) (frame : Tlv) :
    lastValue? tag (frames ++ [frame]) =
      if frame.tag = tag then some frame.value else lastValue? tag frames := by
  unfold lastValue?
  rw [List.filter_append]
  by_cases htag : frame.tag = tag
  · rw [List.filter_singleton, htag]
    simp
  · rw [List.filter_singleton]
    simp [htag]

/-- Frames with other tags do not matter. -/
theorem lastValue?_filter {tag : UInt8} {keep : UInt8 → Bool}
    (hkeep : keep tag = true) (frames : List Tlv) :
    lastValue? tag (frames.filter fun frame => keep frame.tag) =
      lastValue? tag frames := by
  unfold lastValue?
  rw [List.filter_filter]
  congr 2
  apply List.filter_congr
  intro frame _
  by_cases htag : frame.tag = tag
  · simp [htag, hkeep]
  · simp [htag]

end Tlv

end GoP2P
