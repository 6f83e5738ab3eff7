import GoP2P.UepsPacket

/-!
# Reading and verifying UEPS packets

`readAndVerify` follows the source: it reads TLVs up to the payload TLV,
records the header fields and the signed bytes on the way, and compares the
last signature it saw with the MAC of the signed bytes and the payload.  Field
reads happen before the MAC is checked and are bounds-checked here, so a TLV
that is too short for its tag panics.

The second half connects the loop to the framing of its input: on a stream
that splits into TLVs the loop is a fold over them.
-/

namespace GoP2P.Ueps

structure ParsedPacket where
  header : UEPSHeader
  payload : Bytes
  deriving DecidableEq, Repr

structure ReaderState where
  signedData : Bytes := []
  header : UEPSHeader := {}
  signature : Bytes := []
  deriving DecidableEq, Repr

def readByte : Bytes → Outcome CoreError (UInt8 × Bytes)
  | [] => .failed .eof
  | byte :: rest => .returned (byte, rest)

def readFull (r : Bytes) (count : ℕ) : Outcome CoreError (Bytes × Bytes) :=
  if count ≤ r.length then .returned (r.take count, r.drop count)
  else if r = [] then .failed .eof
  else .failed .unexpectedEOF

def bigEndianUint16 : Bytes → Outcome CoreError UInt16
  | hi :: lo :: _ => .returned (UInt16.ofNat (beNat [hi, lo]))
  | _ => .panicked

def readField (tag : UInt8) (value : Bytes) (header : UEPSHeader) :
    Outcome CoreError UEPSHeader :=
  if tag = tagVersion then do
    let byte ← index value 0
    return { header with version := byte }
  else if tag = tagCurrentLay then do
    let byte ← index value 0
    return { header with currentLayer := byte }
  else if tag = tagTargetLay then do
    let byte ← index value 0
    return { header with targetLayer := byte }
  else if tag = tagIntent then do
    let byte ← index value 0
    return { header with intentID := byte }
  else if tag = tagThreatScore then do
    let score ← bigEndianUint16 value
    return { header with threatScore := score }
  else
    -- unknown tag: verified but without meaning
    return header

/-- The switch on a tag other than the payload tag.  The HMAC TLV is the only
one left out of the signed data. -/
def handleTag (tag : UInt8) (lenBuf value : Bytes) (st : ReaderState) :
    Outcome CoreError ReaderState :=
  if tag = tagHMAC then return { st with signature := value }
  else do
    let header ← readField tag value st.header
    return { st with
      header := header
      signedData := st.signedData ++ [tag] ++ lenBuf ++ value }

/-- The TLV loop: its variables at the payload TLV, the payload, and what is
left of the stream. -/
def readLoop : ℕ → Bytes → ReaderState →
    Outcome CoreError (ReaderState × Bytes × Bytes)
  | 0, _, _ => .unfinished
  | fuel + 1, r, st => do
      let (tag, r) ← readByte r
      let (lenBuf, r) ← readFull r 2
      let length := beNat lenBuf
      let (value, r) ← readFull r length
      if tag = tagPayload then
        return (st, value, r)
      else
        let st ← handleTag tag lenBuf value st
        readLoop fuel r st

/-- Every iteration consumes a byte, so the length of the stream is fuel
enough. -/
def readFrames (r : Bytes) : Outcome CoreError (ReaderState × Bytes × Bytes) :=
  readLoop (r.length + 1) r {}

def readAndVerify (crypto : Primitives) (r sharedSecret : Bytes) :
    Outcome CoreError (ParsedPacket × Bytes) := do
  let (st, payload, r) ← readFrames r
  if st.signature.length = 0 then
    .failed (.op "ueps.ReadAndVerify"
      (text "UEPS packet missing HMAC signature"))
  else
    let macKey ← derivePacketMACKey crypto sharedSecret
    let expectedMAC := crypto.hmac macKey (st.signedData ++ payload)
    if st.signature ≠ expectedMAC then
      .failed (.op "ueps.ReadAndVerify"
        (text "integrity violation: HMAC mismatch (ThreatScore +100)"))
    else return (⟨st.header, payload⟩, r)

/-! ## What one TLV does to the loop -/

/-- How many bytes of a value the switch reads for its tag. -/
def fieldWidth (tag : UInt8) : ℕ :=
  if tag = tagVersion ∨ tag = tagCurrentLay ∨ tag = tagTargetLay ∨
      tag = tagIntent then 1
  else if tag = tagThreatScore then 2
  else 0

def Readable (frame : Tlv) : Prop := fieldWidth frame.tag ≤ frame.value.length

instance (frame : Tlv) : Decidable (Readable frame) :=
  inferInstanceAs (Decidable (_ ≤ _))

def UEPSHeader.set (header : UEPSHeader) (frame : Tlv) : UEPSHeader :=
  if frame.tag = tagVersion then
    { header with version := frame.value.headD 0 }
  else if frame.tag = tagCurrentLay then
    { header with currentLayer := frame.value.headD 0 }
  else if frame.tag = tagTargetLay then
    { header with targetLayer := frame.value.headD 0 }
  else if frame.tag = tagIntent then
    { header with intentID := frame.value.headD 0 }
  else if frame.tag = tagThreatScore then
    { header with threatScore := UInt16.ofNat (beNat (frame.value.take 2)) }
  else header

def ReaderState.read (st : ReaderState) (frame : Tlv) : ReaderState :=
  if frame.tag = tagHMAC then { st with signature := frame.value }
  else { st with
    header := st.header.set frame
    signedData := st.signedData ++ frame.encode }

theorem index_zero_bind (value : Bytes) (assign : UInt8 → UEPSHeader) :
    (index value 0 >>= fun byte => return assign byte) =
      if 1 ≤ value.length then
        (.returned (assign (value.headD 0)) : Outcome CoreError UEPSHeader)
      else .panicked := by
  cases value with
  | nil => rfl
  | cons byte rest => simp [index]

theorem bigEndianUint16_bind (value : Bytes)
    (assign : UInt16 → UEPSHeader) :
    (bigEndianUint16 value >>= fun score => return assign score) =
      if 2 ≤ value.length then
        .returned (assign (UInt16.ofNat (beNat (value.take 2))))
      else .panicked := by
  match value with
  | [] => rfl
  | [byte] => rfl
  | hi :: lo :: rest => simp [bigEndianUint16]

theorem readField_eq (frame : Tlv) (header : UEPSHeader) :
    readField frame.tag frame.value header =
      if Readable frame then .returned (header.set frame) else .panicked := by
  unfold readField UEPSHeader.set Readable fieldWidth
  by_cases hversion : frame.tag = tagVersion
  · simp only [hversion, if_true, true_or, index_zero_bind]
  simp only [hversion, if_false, false_or]
  by_cases hcurrent : frame.tag = tagCurrentLay
  · simp only [hcurrent, if_true, true_or, index_zero_bind]
  simp only [hcurrent, if_false, false_or]
  by_cases htarget : frame.tag = tagTargetLay
  · simp only [htarget, if_true, true_or, index_zero_bind]
  simp only [htarget, if_false, false_or]
  by_cases hintent : frame.tag = tagIntent
  · simp only [hintent, if_true, index_zero_bind]
  simp only [hintent, if_false]
  by_cases hthreat : frame.tag = tagThreatScore
  · simp only [hthreat, if_true, bigEndianUint16_bind]
  · simp [hthreat]

theorem readable_of_tag_eq_tagHMAC {frame : Tlv} (htag : frame.tag = tagHMAC) :
    Readable frame := by
  simp [Readable, fieldWidth, htag, tagHMAC, tagVersion, tagCurrentLay,
    tagTargetLay, tagIntent, tagThreatScore]

theorem handleTag_eq (frame : Tlv) (st : ReaderState) :
    handleTag frame.tag (beBytes 2 frame.value.length) frame.value st =
      if Readable frame then .returned (st.read frame) else .panicked := by
  unfold handleTag ReaderState.read
  by_cases htag : frame.tag = tagHMAC
  · simp [htag, readable_of_tag_eq_tagHMAC htag]
  · rw [readField_eq]
    by_cases hreadable : Readable frame <;>
      simp [htag, hreadable, Tlv.encode]

/-! ## One iteration -/

theorem readFull_append (part rest : Bytes) :
    readFull (part ++ rest) part.length = .returned (part, rest) := by
  simp [readFull]

theorem readLoop_frame (fuel : ℕ) (frame : Tlv) (rest : Bytes)
    (st : ReaderState) :
    readLoop (fuel + 1) (frame.encode ++ rest) st =
      if frame.tag = tagPayload then .returned (st, frame.value, rest)
      else if Readable frame then readLoop fuel rest (st.read frame)
      else .panicked := by
  have hfield := readFull_append (beBytes 2 frame.value.length)
    (frame.value ++ rest)
  rw [length_beBytes] at hfield
  have hvalue := readFull_append frame.value rest
  simp only [readLoop, Tlv.encode, List.cons_append, List.append_assoc,
    readByte, Outcome.returned_bind, hfield, frame.beNat_length_field, hvalue]
  rw [handleTag_eq]
  split_ifs <;> simp

theorem readFull_failed_of_lt
    {r : Bytes} {count : ℕ} (hshort : r.length < count) :
    ∃ error, readFull r count = .failed error := by
  have hcount : ¬ count ≤ r.length := by omega
  by_cases hempty : r = []
  · exact ⟨.eof, by simp [readFull, hempty] at hcount ⊢; omega⟩
  · exact ⟨.unexpectedEOF, by simp [readFull, hcount, hempty]⟩

theorem readLoop_failed_of_no_frame
    {stream : Bytes}
    (hnone : ∀ (frame : Tlv) rest, stream ≠ frame.encode ++ rest)
    (fuel : ℕ) (st : ReaderState) :
    ∃ error, readLoop (fuel + 1) stream st = .failed error := by
  cases stream with
  | nil => exact ⟨.eof, rfl⟩
  | cons tag body =>
      rcases Nat.lt_or_ge body.length 2 with hshort | hfield
      · obtain ⟨error, hread⟩ := readFull_failed_of_lt hshort
        exact ⟨error, by simp [readLoop, readByte, hread]⟩
      · have hread : readFull body 2 =
            .returned (body.take 2, body.drop 2) := by
          simp [readFull, hfield]
        have hlong : (body.drop 2).length < beNat (body.take 2) := by
          by_contra hbody
          have hcount : (body.take 2).length = 2 := by simpa using hfield
          obtain ⟨frame, -, -, hstream⟩ :=
            Tlv.exists_eq_encode_append tag hcount (Nat.le_of_not_lt hbody)
          rw [List.take_append_drop] at hstream
          exact hnone frame _ hstream
        obtain ⟨error, hvalue⟩ := readFull_failed_of_lt hlong
        exact ⟨error, by simp [readLoop, readByte, hread, hvalue]⟩

/-! ## Whole streams -/

def Headers (frames : List Tlv) : Prop := ∀ frame ∈ frames, frame.tag ≠ tagPayload

/-- Over a sequence of readable TLVs the loop is a fold. -/
theorem readLoop_frames
    {frames : List Tlv} (hheaders : Headers frames)
    (hreadable : ∀ frame ∈ frames, Readable frame)
    (fuel : ℕ) (rest : Bytes) (st : ReaderState) :
    readLoop (frames.length + fuel) (Tlv.encodeAll frames ++ rest) st =
      readLoop fuel rest (frames.foldl ReaderState.read st) := by
  induction frames generalizing st with
  | nil => simp
  | cons frame frames ih =>
      have htag := hheaders frame (by simp)
      have hframe := hreadable frame (by simp)
      rw [List.length_cons, Nat.add_right_comm, Tlv.encodeAll_cons,
        List.append_assoc, readLoop_frame, if_neg htag, if_pos hframe]
      exact ih (fun other hother => hheaders other (by simp [hother]))
        (fun other hother => hreadable other (by simp [hother])) _

/-- A TLV too short for its tag panics the loop, wherever it stands before
the payload TLV: an earlier one panics it no less. -/
theorem readLoop_panicked
    {frames : List Tlv} (hheaders : Headers frames)
    {frame : Tlv} (htag : frame.tag ≠ tagPayload) (hframe : ¬ Readable frame)
    (fuel : ℕ) (rest : Bytes) (st : ReaderState) :
    readLoop (frames.length + (fuel + 1))
      (Tlv.encodeAll frames ++ (frame.encode ++ rest)) st = .panicked := by
  induction frames generalizing st with
  | nil =>
      simp [readLoop_frame, htag, hframe]
  | cons first frames ih =>
      have hfirst := hheaders first (by simp)
      rw [List.length_cons, Nat.add_right_comm, Tlv.encodeAll_cons,
        List.append_assoc, readLoop_frame, if_neg hfirst]
      split_ifs
      · exact ih (fun other hother => hheaders other (by simp [hother])) _
      · rfl

theorem readLoop_eq_returned
    {fuel : ℕ} {stream : Bytes} {st st' : ReaderState} {payload rest : Bytes}
    (hloop : readLoop fuel stream st = .returned (st', payload, rest)) :
    ∃ (frames : List Tlv) (hfits : payload.length ≤ 65535),
      Headers frames ∧ (∀ frame ∈ frames, Readable frame) ∧
      stream = Tlv.encodeAll frames ++
        ((Tlv.mk tagPayload payload hfits).encode ++ rest) ∧
      st' = frames.foldl ReaderState.read st := by
  induction fuel generalizing stream st with
  | zero => simp [readLoop] at hloop
  | succ fuel ih =>
      by_cases hframe : ∃ (frame : Tlv) (tail : Bytes),
          stream = frame.encode ++ tail
      · obtain ⟨frame, tail, rfl⟩ := hframe
        rw [readLoop_frame] at hloop
        split_ifs at hloop with htag hreadable
        · simp only [Outcome.returned.injEq, Prod.mk.injEq] at hloop
          obtain ⟨rfl, rfl, rfl⟩ := hloop
          refine ⟨[], frame.fits, by simp [Headers], by simp, ?_, rfl⟩
          simp [← htag]
        · obtain ⟨frames, hfits, hheaders, hall, rfl, rfl⟩ := ih hloop
          refine ⟨frame :: frames, hfits, ?_, ?_, by simp, rfl⟩
          · simpa [Headers, htag] using hheaders
          · simpa [hreadable] using hall
      · push Not at hframe
        obtain ⟨error, hfailed⟩ := readLoop_failed_of_no_frame hframe fuel st
        rw [hfailed] at hloop
        contradiction

/-! ## Which streams panic the reader -/

/-- Every TLV the reader comes to before the payload TLV is long enough for
its tag. -/
def HeadersReadable (stream : Bytes) : Prop :=
  ∀ (frames : List Tlv) (frame : Tlv) (rest : Bytes),
    stream = Tlv.encodeAll frames ++ (frame.encode ++ rest) →
      Headers frames → Readable frame

theorem readable_of_tag_eq_tagPayload
    {frame : Tlv} (htag : frame.tag = tagPayload) : Readable frame := by
  simp [Readable, fieldWidth, htag, tagPayload, tagVersion, tagCurrentLay,
    tagTargetLay, tagIntent, tagThreatScore]

theorem HeadersReadable.tail
    {frame : Tlv} {rest : Bytes} (htag : frame.tag ≠ tagPayload)
    (hstream : HeadersReadable (frame.encode ++ rest)) :
    HeadersReadable rest := by
  intro frames other tail hrest hheaders
  refine hstream (frame :: frames) other tail (by simp [hrest]) ?_
  simpa [Headers, htag] using hheaders

theorem readLoop_ends
    {fuel : ℕ} {stream : Bytes} (hfuel : stream.length < fuel)
    (hreadable : HeadersReadable stream) (st : ReaderState) :
    (readLoop fuel stream st).Ends := by
  induction fuel generalizing stream st with
  | zero => omega
  | succ fuel ih =>
      by_cases hframe : ∃ (frame : Tlv) (rest : Bytes),
          stream = frame.encode ++ rest
      · obtain ⟨frame, rest, rfl⟩ := hframe
        have hfirst : Readable frame :=
          hreadable [] frame rest rfl (by simp [Headers])
        rw [readLoop_frame]
        split_ifs with htag
        · simp
        · apply ih
          · simp only [List.length_append, Tlv.length_encode] at hfuel
            omega
          · exact hreadable.tail htag
      · push Not at hframe
        obtain ⟨error, hfailed⟩ := readLoop_failed_of_no_frame hframe fuel st
        simp [hfailed]

/-- The fuel of `readFrames` covers the frames at the front of its stream and
one iteration more. -/
theorem exists_spare_fuel (frames : List Tlv) (rest : Bytes) :
    ∃ spare, (Tlv.encodeAll frames ++ rest).length + 1 =
      frames.length + (spare + 1) := by
  have hlength := Tlv.length_le_length_encodeAll frames
  refine ⟨(Tlv.encodeAll frames ++ rest).length - frames.length, ?_⟩
  simp only [List.length_append]
  omega

theorem readFrames_ends_iff (stream : Bytes) :
    (readFrames stream).Ends ↔ HeadersReadable stream := by
  constructor
  · rintro hends frames frame rest rfl hheaders
    by_contra hframe
    have htag : frame.tag ≠ tagPayload := fun htag =>
      hframe (readable_of_tag_eq_tagPayload htag)
    obtain ⟨spare, hspare⟩ := exists_spare_fuel frames (frame.encode ++ rest)
    rw [readFrames, hspare,
      readLoop_panicked hheaders htag hframe] at hends
    exact Outcome.not_ends_panicked hends
  · exact fun hreadable => readLoop_ends (Nat.lt_succ_self _) hreadable {}

/-- The reader comes back with a packet or an error on exactly the streams
whose header TLVs are long enough for their tags. -/
theorem readAndVerify_ends_iff
    (crypto : Primitives) (stream sharedSecret : Bytes) :
    (readAndVerify crypto stream sharedSecret).Ends ↔
      HeadersReadable stream := by
  rw [← readFrames_ends_iff]
  unfold readAndVerify
  cases readFrames stream with
  | returned scan =>
      obtain ⟨st, payload, rest⟩ := scan
      simp only [Outcome.returned_bind, Outcome.ends_returned, iff_true]
      split_ifs
      · simp
      · unfold derivePacketMACKey
        cases crypto.expand sharedSecret uepsMACKeyInfoV1 sha256Size with
        | error err => simp
        | ok macKey =>
            simp only [Outcome.returned_bind]
            split_ifs <;> simp
  | failed | panicked | unfinished => simp

/-- A version TLV without a value panics the reader, whatever the secret. -/
theorem readAndVerify_panics_on_empty_version :
    ¬ ∀ (crypto : Primitives) (stream sharedSecret : Bytes),
      (readAndVerify crypto stream sharedSecret).Ends := by
  intro hends
  have hstream := hends
    { expand := fun secret _ _ => .ok secret, hmac := fun _ _ => [] }
    [0x01, 0x00, 0x00] []
  revert hstream
  decide

end GoP2P.Ueps
