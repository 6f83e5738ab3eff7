import GoP2P.UepsStream

/-!
# What the reader computes

The meaning of a packet without the loop: each header field is read off the
last TLV with its tag, the signature is the value of the last HMAC TLV, and it
covers every other TLV, known or not, in the order of the stream.  The loop
accepts by this meaning and no other.
-/

namespace GoP2P.Ueps

def firstByte (value : Option Bytes) : UInt8 := (value.getD []).headD 0

def firstTwoBytes (value : Option Bytes) : UInt16 :=
  UInt16.ofNat (beNat ((value.getD []).take 2))

def declaredHeader (frames : List Tlv) : UEPSHeader where
  version := firstByte (Tlv.lastValue? tagVersion frames)
  currentLayer := firstByte (Tlv.lastValue? tagCurrentLay frames)
  targetLayer := firstByte (Tlv.lastValue? tagTargetLay frames)
  intentID := firstByte (Tlv.lastValue? tagIntent frames)
  threatScore := firstTwoBytes (Tlv.lastValue? tagThreatScore frames)

/-- The last signature is there, not empty, and the MAC of the other TLVs and
the payload. -/
def ProperlySigned (crypto : Primitives) (macKey : Bytes) (frames : List Tlv)
    (payload : Bytes) : Prop :=
  ∃ signature, Tlv.lastValue? tagHMAC frames = some signature ∧
    signature ≠ [] ∧
    signature = crypto.hmac macKey
      (Tlv.encodeAll (signedFrames frames) ++ payload)

/-- The tags of the five header fields. -/
def headerTags : List UInt8 :=
  [tagVersion, tagCurrentLay, tagTargetLay, tagIntent, tagThreatScore]

/-! ## The loop variables -/

theorem declaredHeader_concat (frames : List Tlv) (frame : Tlv) :
    declaredHeader (frames ++ [frame]) = (declaredHeader frames).set frame := by
  unfold UEPSHeader.set declaredHeader
  simp only [Tlv.lastValue?_concat]
  by_cases hversion : frame.tag = tagVersion
  · simp [hversion, firstByte, tagVersion, tagCurrentLay, tagTargetLay,
      tagIntent, tagThreatScore]
  by_cases hcurrent : frame.tag = tagCurrentLay
  · simp [hcurrent, firstByte, tagVersion, tagCurrentLay, tagTargetLay,
      tagIntent, tagThreatScore]
  by_cases htarget : frame.tag = tagTargetLay
  · simp [htarget, firstByte, tagVersion, tagCurrentLay, tagTargetLay,
      tagIntent, tagThreatScore]
  by_cases hintent : frame.tag = tagIntent
  · simp [hintent, firstByte, tagVersion, tagCurrentLay, tagTargetLay,
      tagIntent, tagThreatScore]
  by_cases hthreat : frame.tag = tagThreatScore
  · simp [hthreat, firstTwoBytes, tagVersion, tagCurrentLay, tagTargetLay,
      tagIntent, tagThreatScore]
  · simp only [hversion, hcurrent, htarget, hintent, hthreat, if_false]

theorem declaredHeader_filter (keep : UInt8 → Bool)
    (hkeep : ∀ tag ∈ headerTags, keep tag = true) (frames : List Tlv) :
    declaredHeader (frames.filter fun frame => keep frame.tag) =
      declaredHeader frames := by
  have hlast : ∀ tag ∈ headerTags,
      Tlv.lastValue? tag (frames.filter fun frame => keep frame.tag) =
        Tlv.lastValue? tag frames :=
    fun tag htag => Tlv.lastValue?_filter (hkeep tag htag) frames
  unfold declaredHeader
  rw [hlast tagVersion (by decide), hlast tagCurrentLay (by decide),
    hlast tagTargetLay (by decide), hlast tagIntent (by decide),
    hlast tagThreatScore (by decide)]

theorem foldl_set_eq_declaredHeader (frames : List Tlv) :
    frames.foldl UEPSHeader.set {} = declaredHeader frames := by
  induction frames using List.reverseRecOn with
  | nil => rfl
  | append_singleton frames frame ih =>
      rw [List.foldl_concat, ih, declaredHeader_concat]

theorem foldl_read_signature (frames : List Tlv) :
    (frames.foldl ReaderState.read {}).signature =
      (Tlv.lastValue? tagHMAC frames).getD [] := by
  induction frames using List.reverseRecOn with
  | nil => rfl
  | append_singleton frames frame ih =>
      rw [List.foldl_concat, Tlv.lastValue?_concat, ReaderState.read]
      by_cases htag : frame.tag = tagHMAC
      · simp [htag]
      · simp [htag, ih]

/-- The loop variables at the payload TLV. -/
theorem foldl_read_eq (frames : List Tlv) :
    frames.foldl ReaderState.read {} =
      { signedData := Tlv.encodeAll (signedFrames frames)
        header := declaredHeader frames
        signature := (Tlv.lastValue? tagHMAC frames).getD [] } := by
  have hdata := foldl_read_signedData frames {}
  have hheader := foldl_read_header frames {}
  have hsigned : declaredHeader (signedFrames frames) =
      declaredHeader frames :=
    declaredHeader_filter (fun tag => tag ≠ tagHMAC) (by decide) frames
  rw [foldl_set_eq_declaredHeader, hsigned] at hheader
  rw [List.nil_append] at hdata
  calc
    frames.foldl ReaderState.read {} =
        ⟨(frames.foldl ReaderState.read {}).signedData,
          (frames.foldl ReaderState.read {}).header,
          (frames.foldl ReaderState.read {}).signature⟩ := rfl
    _ = _ := by rw [hdata, hheader, foldl_read_signature]

/-! ## Acceptance -/

section

variable {crypto : Primitives} {sharedSecret macKey : Bytes}
  {frames : List Tlv} {stream payload rest : Bytes}

theorem readAndVerify_of_framed
    (hkey : derivePacketMACKey crypto sharedSecret = .returned macKey)
    (hframed : Framed stream frames payload rest)
    (hreadable : ∀ frame ∈ frames, Readable frame)
    (hsigned : ProperlySigned crypto macKey frames payload) :
    readAndVerify crypto stream sharedSecret =
      .returned (⟨declaredHeader frames, payload⟩, rest) := by
  obtain ⟨signature, hlast, hnonempty, hmac⟩ := hsigned
  have hread := readFrames_of_framed hframed hreadable
  rw [foldl_read_eq, hlast, Option.getD_some] at hread
  rw [readAndVerify, hread, Outcome.returned_bind]
  simp only [if_neg (List.length_eq_zero_iff.not.mpr hnonempty), hkey,
    Outcome.returned_bind]
  rw [if_neg (not_not.mpr hmac)]
  rfl

theorem properlySigned_of_readAndVerify
    (hkey : derivePacketMACKey crypto sharedSecret = .returned macKey)
    (hframed : Framed stream frames payload rest)
    (hreadable : ∀ frame ∈ frames, Readable frame)
    {result : ParsedPacket × Bytes}
    (haccepted : readAndVerify crypto stream sharedSecret =
      .returned result) :
    ProperlySigned crypto macKey frames payload := by
  have hread := readFrames_of_framed hframed hreadable
  rw [foldl_read_eq] at hread
  rw [readAndVerify, hread, Outcome.returned_bind] at haccepted
  simp only [hkey, Outcome.returned_bind] at haccepted
  split_ifs at haccepted with hempty hmac
  rw [List.length_eq_zero_iff] at hempty
  cases hlast : Tlv.lastValue? tagHMAC frames with
  | none =>
      rw [hlast] at hempty
      exact absurd rfl hempty
  | some signature =>
      rw [hlast] at hempty hmac
      exact ⟨signature, hlast, hempty, not_not.mp hmac⟩

end

/-- A packet is accepted by its meaning alone.  On acceptance the reader
returns the fields the TLVs declare, which the TLVs with other tags do not
touch, and has consumed the packet and nothing behind it. -/
theorem readAndVerify_accepts_by_meaning
    (crypto : Primitives) (sharedSecret macKey : Bytes)
    (hkey : derivePacketMACKey crypto sharedSecret = .returned macKey)
    (frames : List Tlv) (htags : ∀ frame ∈ frames, frame.tag ≠ tagPayload)
    (hwide : ∀ frame ∈ frames, fieldWidth frame.tag ≤ frame.value.length)
    (payload rest : Bytes) (hfits : payload.length ≤ 65535) :
    let stream := Tlv.encodeAll frames ++
      ((Tlv.mk tagPayload payload hfits).encode ++ rest)
    ((∃ result, readAndVerify crypto stream sharedSecret = .returned result) ↔
        ProperlySigned crypto macKey frames payload) ∧
      (∀ packet left,
        readAndVerify crypto stream sharedSecret = .returned (packet, left) →
          packet.header = declaredHeader frames ∧ packet.payload = payload ∧
            left = rest) ∧
      declaredHeader (frames.filter fun frame => frame.tag ∈ headerTags) =
        declaredHeader frames := by
  intro stream
  have hframed : Framed stream frames payload rest := ⟨htags, hfits, rfl⟩
  refine ⟨⟨?_, ?_⟩, ?_, ?_⟩
  · rintro ⟨result, haccepted⟩
    exact properlySigned_of_readAndVerify hkey hframed hwide haccepted
  · intro hsigned
    exact ⟨_, readAndVerify_of_framed hkey hframed hwide hsigned⟩
  · intro packet left haccepted
    have hsigned :=
      properlySigned_of_readAndVerify hkey hframed hwide haccepted
    rw [readAndVerify_of_framed hkey hframed hwide hsigned] at haccepted
    cases haccepted
    exact ⟨rfl, rfl, rfl⟩
  · exact declaredHeader_filter (fun tag => tag ∈ headerTags) (by decide) frames

/-- A repeated version, an unknown tag between two signatures of which the
first is wrong, and a byte behind the packet. -/
theorem readAndVerify_accepts_by_meaning_unknown_tag :
    let crypto : Primitives :=
      { expand := fun secret _ _ => .ok secret
        hmac := fun _ message => [UInt8.ofNat message.length] }
    let frames : List Tlv :=
      [⟨tagVersion, [8], by decide⟩, ⟨tagHMAC, [0], by decide⟩,
        ⟨0x20, [], by decide⟩, ⟨tagVersion, [9, 1], by decide⟩,
        ⟨tagHMAC, [14], by decide⟩]
    ∃ result, readAndVerify crypto (Tlv.encodeAll frames ++
      ((Tlv.mk tagPayload [1, 2] (by decide)).encode ++ [0xAA])) [7] =
        .returned result := by
  intro crypto frames
  refine (readAndVerify_accepts_by_meaning crypto [7] [7] rfl frames
    (by decide) (by decide) [1, 2] [0xAA] (by decide)).1.mpr ?_
  exact ⟨[14], rfl, by decide, rfl⟩

end GoP2P.Ueps
