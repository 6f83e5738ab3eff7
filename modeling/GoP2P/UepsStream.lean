import GoP2P.UepsBinding

/-!
# Several packets on one stream

Frames are self-delimiting, so packets written one after the other are read
back one after the other, whatever bytes their payloads and tags hold and
whatever stands behind the last of them.  A frame that is cut short is never
taken for a packet.
-/

namespace GoP2P.Ueps

/-- The MAC returns tags of the digest's size, and a key is derived from every
secret. -/
structure Primitives.DigestMac (crypto : Primitives) : Prop where
  tagSize : ∀ key message, (crypto.hmac key message).length = sha256Size
  derives : ∀ sharedSecret, ∃ macKey,
    derivePacketMACKey crypto sharedSecret = .returned macKey

/-- Successive calls of the reader on one stream, up to the first that
fails. -/
def readPackets (crypto : Primitives) (sharedSecret : Bytes) :
    ℕ → Bytes → Outcome CoreError (List ParsedPacket × Bytes)
  | 0, r => .returned ([], r)
  | count + 1, r => do
      let (packet, r) ← readAndVerify crypto r sharedSecret
      let (packets, r) ← readPackets crypto sharedSecret count r
      return (packet :: packets, r)

def PacketBuilder.parsed (p : PacketBuilder) : ParsedPacket :=
  ⟨p.header, p.payload⟩

theorem Primitives.DigestMac.fits
    {crypto : Primitives} (hmac : crypto.DigestMac) (key message : Bytes) :
    (crypto.hmac key message).length ≤ 65535 := by
  rw [hmac.tagSize]
  decide

/-! ## Writing -/

theorem marshalAndSign_succeeds_iff
    {crypto : Primitives} (hmac : crypto.DigestMac)
    (p : PacketBuilder) (sharedSecret : Bytes) :
    (∃ frame, p.marshalAndSign crypto sharedSecret = .returned frame) ↔
      p.payload.length ≤ 65535 := by
  simp only [PacketBuilder.marshalAndSign_eq_returned_iff]
  constructor
  · rintro ⟨_, _, _, _, hpayload, _⟩
    exact hpayload
  · intro hpayload
    obtain ⟨macKey, hkey⟩ := hmac.derives sharedSecret
    exact ⟨_, macKey, hkey, hmac.fits _ _, hpayload, rfl⟩

/-! ## Reading one frame -/

section Frame

variable {signature : Bytes}
  (hsig : signature.length ≤ 65535)

/-- The TLVs before the payload TLV. -/
def PacketBuilder.openingTlvs (p : PacketBuilder) {signature : Bytes}
    (hsig : signature.length ≤ 65535) : List Tlv :=
  p.headerTlvs ++ [⟨tagHMAC, signature, hsig⟩]

theorem PacketBuilder.openingTlvs_concat (p : PacketBuilder) (last : Tlv) :
    p.openingTlvs hsig ++ [last] =
      p.headerTlvs ++ [⟨tagHMAC, signature, hsig⟩, last] := by
  simp [PacketBuilder.openingTlvs]

theorem PacketBuilder.headers_openingTlvs (p : PacketBuilder) :
    Headers (p.openingTlvs hsig) := by
  intro frame hframe
  rcases List.mem_append.mp hframe with hheader | hhmac
  · exact p.headers_headerTlvs frame hheader
  · rw [List.mem_singleton.mp hhmac]
    change tagHMAC ≠ tagPayload
    decide

theorem PacketBuilder.readable_openingTlvs (p : PacketBuilder) :
    ∀ frame ∈ p.openingTlvs hsig, Readable frame := by
  intro frame hframe
  rcases List.mem_append.mp hframe with hheader | hhmac
  · exact p.readable_headerTlvs frame hheader
  · rw [List.mem_singleton.mp hhmac]
    exact readable_of_tag_eq_tagHMAC rfl

theorem PacketBuilder.signedFrames_openingTlvs (p : PacketBuilder) :
    signedFrames (p.openingTlvs hsig) = p.headerTlvs := by
  rw [PacketBuilder.openingTlvs, signedFrames_append,
    p.signedFrames_headerTlvs]
  simp [signedFrames]

/-- The loop variables at the payload TLV of a frame the builder wrote. -/
theorem PacketBuilder.foldl_read_openingTlvs (p : PacketBuilder) :
    (p.openingTlvs hsig).foldl ReaderState.read {} =
      { signedData := Tlv.encodeAll p.headerTlvs
        header := p.header
        signature := signature } := by
  have hdata := foldl_read_signedData (p.openingTlvs hsig) {}
  have hheader := foldl_read_header (p.openingTlvs hsig) {}
  rw [p.signedFrames_openingTlvs] at hdata hheader
  rw [p.foldl_set_headerTlvs] at hheader
  have hsignature : ((p.openingTlvs hsig).foldl
      ReaderState.read {}).signature = signature := by
    simp [PacketBuilder.openingTlvs, ReaderState.read]
  calc
    (p.openingTlvs hsig).foldl ReaderState.read {} =
        ⟨((p.openingTlvs hsig).foldl ReaderState.read {}).signedData,
          ((p.openingTlvs hsig).foldl ReaderState.read {}).header,
          ((p.openingTlvs hsig).foldl ReaderState.read {}).signature⟩ := rfl
    _ = _ := by rw [hdata, hheader, hsignature, List.nil_append]

end Frame

theorem readAndVerify_marshalAndSign
    {crypto : Primitives} (hmac : crypto.DigestMac)
    {p : PacketBuilder} {sharedSecret frame : Bytes}
    (hframe : p.marshalAndSign crypto sharedSecret = .returned frame)
    (rest : Bytes) :
    readAndVerify crypto (frame ++ rest) sharedSecret =
      .returned (p.parsed, rest) := by
  obtain ⟨macKey, hkey, hsig, hpayload, rfl⟩ :=
    PacketBuilder.marshalAndSign_eq_returned_iff.mp hframe
  have hframed : Framed
      (Tlv.encodeAll (p.headerTlvs ++
        [⟨tagHMAC, crypto.hmac macKey p.signedBytes, hsig⟩,
          ⟨tagPayload, p.payload, hpayload⟩]) ++ rest)
      (p.openingTlvs hsig) p.payload rest := by
    refine ⟨p.headers_openingTlvs hsig, hpayload, ?_⟩
    rw [← p.openingTlvs_concat]
    simp
  have hread := readFrames_of_framed hframed (p.readable_openingTlvs hsig)
  have hsize := hmac.tagSize macKey p.signedBytes
  have hlength : (crypto.hmac macKey p.signedBytes).length ≠ 0 := by
    rw [hsize]
    decide
  rw [p.foldl_read_openingTlvs] at hread
  rw [readAndVerify, hread, Outcome.returned_bind]
  simp only [if_neg hlength, hkey, Outcome.returned_bind]
  -- the signed data and the payload are what the builder signed
  rw [← PacketBuilder.signedBytes, if_neg (not_not.mpr rfl)]
  rfl

/-- A frame cut anywhere leaves the reader waiting for the rest of a TLV. -/
theorem readAndVerify_failed_of_cut
    {crypto : Primitives} {p : PacketBuilder} {sharedSecret part rest : Bytes}
    (hframe : p.marshalAndSign crypto sharedSecret = .returned (part ++ rest))
    (hrest : rest ≠ []) :
    ∃ error, readAndVerify crypto part sharedSecret = .failed error := by
  obtain ⟨macKey, hkey, hsig, hpayload, hsplit⟩ :=
    PacketBuilder.marshalAndSign_eq_returned_iff.mp hframe
  obtain ⟨front, cut, back, fragment, missing, hframes, rfl, hcut, hmissing⟩ :=
    Tlv.exists_cut_of_encodeAll_eq hsplit.symm hrest
  have hfront : ∀ frame ∈ front, frame ∈ p.openingTlvs hsig := by
    intro frame hmem
    rw [← p.openingTlvs_concat] at hframes
    have hopening := congrArg List.dropLast hframes
    rw [List.dropLast_concat, List.dropLast_append_of_ne_nil (by simp)]
      at hopening
    rw [hopening]
    exact List.mem_append_left _ hmem
  obtain ⟨spare, hspare⟩ := exists_spare_fuel front fragment
  obtain ⟨error, hfailed⟩ := readLoop_failed_of_no_frame
    (Tlv.fragment_ne_encode_append hcut hmissing) spare
    (front.foldl ReaderState.read {})
  have hread : readFrames (Tlv.encodeAll front ++ fragment) =
      .failed error := by
    rw [readFrames, hspare, readLoop_frames]
    · exact hfailed
    · exact fun frame hmem =>
        p.headers_openingTlvs hsig frame (hfront frame hmem)
    · exact fun frame hmem =>
        p.readable_openingTlvs hsig frame (hfront frame hmem)
  exact ⟨error, by rw [readAndVerify, hread, Outcome.failed_bind]⟩

/-! ## Reading a stream -/

theorem readPackets_marshalAndSign
    {crypto : Primitives} (hmac : crypto.DigestMac) {sharedSecret : Bytes}
    {packets : List PacketBuilder} {frames : List Bytes}
    (hframes : List.Forall₂
      (fun p frame => p.marshalAndSign crypto sharedSecret = .returned frame)
      packets frames)
    (rest : Bytes) :
    readPackets crypto sharedSecret packets.length (frames.flatten ++ rest) =
      .returned (packets.map PacketBuilder.parsed, rest) := by
  induction hframes with
  | nil => rfl
  | cons hframe _ ih =>
      rw [List.length_cons, readPackets, List.flatten_cons, List.append_assoc,
        readAndVerify_marshalAndSign hmac hframe]
      simp only [Outcome.returned_bind, ih, List.map_cons]
      rfl

/-- The packets that can be written are those whose payload fits a TLV; a
stream of them is read back as it was written, up to whatever follows it; and
no part of a frame is read as a packet. -/
theorem packet_stream_round_trip
    {crypto : Primitives} (hmac : crypto.DigestMac) (sharedSecret : Bytes) :
    (∀ p : PacketBuilder,
      (∃ frame, p.marshalAndSign crypto sharedSecret = .returned frame) ↔
        p.payload.length ≤ 65535) ∧
    (∀ (packets : List PacketBuilder) (frames : List Bytes) (t : Bytes),
      List.Forall₂
        (fun p frame =>
          p.marshalAndSign crypto sharedSecret = .returned frame)
        packets frames →
      readPackets crypto sharedSecret packets.length (frames.flatten ++ t) =
        .returned (packets.map PacketBuilder.parsed, t)) ∧
    ∀ (p : PacketBuilder) (frame part : Bytes),
      p.marshalAndSign crypto sharedSecret = .returned frame →
      part <+: frame → part ≠ frame →
        ∃ error, readAndVerify crypto part sharedSecret = .failed error := by
  refine ⟨?_, ?_, ?_⟩
  · exact fun p => marshalAndSign_succeeds_iff hmac p sharedSecret
  · exact fun packets frames t hframes =>
      readPackets_marshalAndSign hmac hframes t
  · rintro p _ part hframe ⟨rest, rfl⟩ hpart
    refine readAndVerify_failed_of_cut hframe ?_
    rintro rfl
    exact hpart (List.append_nil part).symm

/-- A MAC whose tags all consist of the payload tag's byte. -/
def payloadTagMac : Primitives where
  expand _ _ _ := .ok []
  hmac _ _ := List.replicate sha256Size tagPayload

theorem packet_stream_round_trip_two :
    ∃ frames, List.Forall₂
        (fun p frame => p.marshalAndSign payloadTagMac [] = .returned frame)
        [newBuilder 1 [tagPayload, tagHMAC, 0], newBuilder 2 []] frames ∧
      readPackets payloadTagMac [] 2 (frames.flatten ++ [tagHMAC]) =
        .returned ([newBuilder 1 [tagPayload, tagHMAC, 0],
          newBuilder 2 []].map PacketBuilder.parsed, [tagHMAC]) := by
  have hmac : payloadTagMac.DigestMac :=
    ⟨fun _ _ => List.length_replicate, fun _ => ⟨[], rfl⟩⟩
  obtain ⟨hwrites, hreads, -⟩ := packet_stream_round_trip hmac []
  obtain ⟨first, hfirst⟩ :=
    (hwrites (newBuilder 1 [tagPayload, tagHMAC, 0])).mpr (by decide)
  obtain ⟨second, hsecond⟩ := (hwrites (newBuilder 2 [])).mpr (by decide)
  have hframes : List.Forall₂
      (fun p frame => p.marshalAndSign payloadTagMac [] = .returned frame)
      [newBuilder 1 [tagPayload, tagHMAC, 0], newBuilder 2 []]
      [first, second] := .cons hfirst (.cons hsecond .nil)
  exact ⟨[first, second], hframes, hreads _ _ _ hframes⟩

end GoP2P.Ueps
