import GoP2P.Dispatcher

/-!
# What a UEPS signature binds

The signed bytes are the header TLVs followed by the bare payload, with nothing
to mark where the payload begins.  Under an ideal MAC an accepted stream with
the builder's tag therefore carries the builder's signed bytes, but it may
frame them differently: a trailing header TLV can move into the payload, and a
leading TLV of the payload can move into the header.  The results below say
exactly when the framing, and with it the header and the payload, is the
builder's.
-/

namespace GoP2P.Ueps

def PacketBuilder.Signs
    (crypto : Primitives) (p : PacketBuilder)
    (sharedSecret signature : Bytes) : Prop :=
  ∃ (hsig : signature.length ≤ 65535) (hpayload : p.payload.length ≤ 65535),
    p.marshalAndSign crypto sharedSecret = .returned (Tlv.encodeAll
      (p.headerTlvs ++
        [⟨tagHMAC, signature, hsig⟩, ⟨tagPayload, p.payload, hpayload⟩]))

/-- The reader accepts the stream as `packet`, having taken `signature` for
its signature. -/
def Accepts
    (crypto : Primitives) (stream sharedSecret : Bytes)
    (packet : ParsedPacket) (signature : Bytes) : Prop :=
  (∃ rest, readAndVerify crypto stream sharedSecret =
      .returned (packet, rest)) ∧
    ∃ st payload rest,
      readFrames stream = .returned (st, payload, rest) ∧
        st.signature = signature

def ParsedPacket.Matches (packet : ParsedPacket) (p : PacketBuilder) : Prop :=
  packet.header = p.header ∧ packet.payload = p.payload

/-! ## The loop variables as functions of the frames -/

def signedFrames (frames : List Tlv) : List Tlv :=
  frames.filter fun frame => frame.tag ≠ tagHMAC

@[simp] theorem signedFrames_append (front back : List Tlv) :
    signedFrames (front ++ back) = signedFrames front ++ signedFrames back := by
  simp [signedFrames]

theorem foldl_read_signedData (frames : List Tlv) (st : ReaderState) :
    (frames.foldl ReaderState.read st).signedData =
      st.signedData ++ Tlv.encodeAll (signedFrames frames) := by
  induction frames generalizing st with
  | nil => simp [signedFrames]
  | cons frame frames ih =>
      rw [List.foldl_cons, ih]
      by_cases htag : frame.tag = tagHMAC <;>
        simp [ReaderState.read, signedFrames, htag]

theorem foldl_read_header (frames : List Tlv) (st : ReaderState) :
    (frames.foldl ReaderState.read st).header =
      (signedFrames frames).foldl UEPSHeader.set st.header := by
  induction frames generalizing st with
  | nil => rfl
  | cons frame frames ih =>
      rw [List.foldl_cons, ih]
      by_cases htag : frame.tag = tagHMAC <;>
        simp [ReaderState.read, signedFrames, htag]

theorem PacketBuilder.foldl_set_headerTlvs (p : PacketBuilder) :
    p.headerTlvs.foldl UEPSHeader.set {} = p.header := by
  have hscore : beNat ((beBytes 2 p.header.threatScore.toNat).take 2) =
      p.header.threatScore.toNat := by
    rw [List.take_of_length_le (by simp)]
    exact beNat_beBytes_of_lt p.header.threatScore.toNat_lt
  simp [PacketBuilder.headerTlvs, PacketBuilder.routingTlvs,
    PacketBuilder.threatTlv, UEPSHeader.set, hscore, tagVersion,
    tagCurrentLay, tagTargetLay, tagIntent, tagThreatScore]

theorem PacketBuilder.signedFrames_headerTlvs (p : PacketBuilder) :
    signedFrames p.headerTlvs = p.headerTlvs := by
  simp [signedFrames, PacketBuilder.headerTlvs, PacketBuilder.routingTlvs,
    PacketBuilder.threatTlv, tagHMAC, tagVersion, tagCurrentLay,
    tagTargetLay, tagIntent, tagThreatScore]

theorem PacketBuilder.headers_headerTlvs (p : PacketBuilder) :
    Headers p.headerTlvs := by
  simp [Headers, PacketBuilder.headerTlvs, PacketBuilder.routingTlvs,
    PacketBuilder.threatTlv, tagPayload, tagVersion, tagCurrentLay,
    tagTargetLay, tagIntent, tagThreatScore]

theorem PacketBuilder.readable_headerTlvs (p : PacketBuilder) :
    ∀ frame ∈ p.headerTlvs, Readable frame := by
  simp [Readable, fieldWidth, PacketBuilder.headerTlvs,
    PacketBuilder.routingTlvs, PacketBuilder.threatTlv, tagVersion,
    tagCurrentLay, tagTargetLay, tagIntent, tagThreatScore]

/-! ## Acceptance in terms of the framing of the stream -/

/-- The stream as the reader sees it: header frames, a payload and a rest. -/
def Framed (stream : Bytes) (frames : List Tlv) (payload rest : Bytes) : Prop :=
  Headers frames ∧
    ∃ hfits : payload.length ≤ 65535,
      stream = Tlv.encodeAll frames ++
        ((Tlv.mk tagPayload payload hfits).encode ++ rest)

theorem readFrames_of_framed
    {stream : Bytes} {frames : List Tlv} {payload rest : Bytes}
    (hframed : Framed stream frames payload rest)
    (hreadable : ∀ frame ∈ frames, Readable frame) :
    readFrames stream =
      .returned (frames.foldl ReaderState.read {}, payload, rest) := by
  obtain ⟨hheaders, hfits, rfl⟩ := hframed
  obtain ⟨spare, hspare⟩ := exists_spare_fuel frames
    ((Tlv.mk tagPayload payload hfits).encode ++ rest)
  rw [readFrames, hspare, readLoop_frames hheaders hreadable,
    readLoop_frame, if_pos rfl]

theorem framed_of_readFrames
    {stream : Bytes} {st : ReaderState} {payload rest : Bytes}
    (hread : readFrames stream = .returned (st, payload, rest)) :
    ∃ frames, Framed stream frames payload rest ∧
      (∀ frame ∈ frames, Readable frame) ∧
      st = frames.foldl ReaderState.read {} := by
  obtain ⟨frames, hfits, hheaders, hreadable, hstream, hst⟩ :=
    readLoop_eq_returned hread
  exact ⟨frames, ⟨hheaders, hfits, hstream⟩, hreadable, hst⟩

theorem Headers.eq_nil_of_encode_eq
    {frames more : List Tlv} {last : Tlv} {rest tail : Bytes}
    (hheaders : Headers (frames ++ more)) (hlast : last.tag = tagPayload)
    (hequal : last.encode ++ rest = Tlv.encodeAll more ++ tail) :
    more = [] := by
  cases more with
  | nil => rfl
  | cons frame more =>
      rw [Tlv.encodeAll_cons, List.append_assoc] at hequal
      obtain ⟨rfl, -⟩ := Tlv.encode_append_inj hequal
      exact absurd hlast (hheaders last (by simp))

theorem Framed.unique
    {stream : Bytes} {frames frames' : List Tlv}
    {payload payload' rest rest' : Bytes}
    (hleft : Framed stream frames payload rest)
    (hright : Framed stream frames' payload' rest') :
    frames = frames' ∧ payload = payload' := by
  obtain ⟨hheaders, hfits, rfl⟩ := hleft
  obtain ⟨hheaders', hfits', hequal⟩ := hright
  rcases Tlv.prefix_or_prefix_of_encodeAll_append_eq hequal with
    ⟨more, rfl, hrest⟩ | ⟨more, rfl, hrest⟩
  · obtain rfl := hheaders'.eq_nil_of_encode_eq rfl hrest
    obtain ⟨hframe, -⟩ := Tlv.encode_append_inj hrest
    exact ⟨by simp, congrArg Tlv.value hframe⟩
  · obtain rfl := hheaders.eq_nil_of_encode_eq rfl hrest
    obtain ⟨hframe, -⟩ := Tlv.encode_append_inj hrest
    exact ⟨by simp, (congrArg Tlv.value hframe).symm⟩

/-- Acceptance under a key: the framing is readable, the last signature is not
empty, and it is the MAC of the signed frames and the payload. -/
theorem accepts_iff
    {crypto : Primitives} {stream sharedSecret macKey signature : Bytes}
    {packet : ParsedPacket}
    (hkey : derivePacketMACKey crypto sharedSecret = .returned macKey) :
    Accepts crypto stream sharedSecret packet signature ↔
      ∃ frames rest, Framed stream frames packet.payload rest ∧
        (∀ frame ∈ frames, Readable frame) ∧
        packet.header = (signedFrames frames).foldl UEPSHeader.set {} ∧
        (frames.foldl ReaderState.read {}).signature = signature ∧
        signature ≠ [] ∧
        signature = crypto.hmac macKey
          (Tlv.encodeAll (signedFrames frames) ++ packet.payload) := by
  constructor
  · rintro ⟨⟨rest', haccept⟩, st, payload, rest, hread, rfl⟩
    obtain ⟨frames, hframed, hreadable, rfl⟩ := framed_of_readFrames hread
    simp only [readAndVerify, hread, Outcome.returned_bind, hkey,
      foldl_read_signedData, foldl_read_header, List.nil_append] at haccept
    split_ifs at haccept with hempty hmac
    simp only [Outcome.pure_eq_returned, Outcome.returned.injEq,
      Prod.mk.injEq] at haccept
    obtain ⟨rfl, rfl⟩ := haccept
    refine ⟨frames, rest, hframed, hreadable, rfl, rfl, ?_, ?_⟩
    · simpa using hempty
    · simpa using hmac
  · rintro ⟨frames, rest, hframed, hreadable, hheader, rfl, hempty, hmac⟩
    have hread := readFrames_of_framed hframed hreadable
    refine ⟨⟨rest, ?_⟩, _, _, _, hread, rfl⟩
    simp only [readAndVerify, hread, Outcome.returned_bind, hkey,
      foldl_read_signedData, foldl_read_header, List.nil_append]
    rw [if_neg (by simpa using hempty), if_neg (by simpa using hmac),
      ← hheader]
    rfl

/-! ## Re-framing the signed bytes -/

theorem PacketBuilder.Signs.key
    {crypto : Primitives} {p : PacketBuilder} {sharedSecret signature : Bytes}
    (hsigned : p.Signs crypto sharedSecret signature) :
    ∃ macKey, derivePacketMACKey crypto sharedSecret = .returned macKey ∧
      signature = crypto.hmac macKey p.signedBytes := by
  obtain ⟨hsig, hpayload, hmarshal⟩ := hsigned
  obtain ⟨macKey, hkey, hsig', hpayload', hframe⟩ :=
    PacketBuilder.marshalAndSign_eq_returned_iff.mp hmarshal
  refine ⟨macKey, hkey, ?_⟩
  simp only [Tlv.encodeAll_append, Tlv.encodeAll_cons,
    List.append_cancel_left_eq] at hframe
  obtain ⟨hequal, -⟩ := Tlv.encode_append_inj hframe
  exact congrArg Tlv.value hequal

/-- Under an ideal MAC an accepted stream with the builder's tag carries the
builder's signed bytes, and conversely any readable framing of them with that
tag is accepted. -/
theorem PacketBuilder.Signs.accepts_iff
    {crypto : Primitives} (hideal : crypto.IdealMac)
    {p : PacketBuilder} {stream sharedSecret signature : Bytes}
    {packet : ParsedPacket}
    (hsigned : p.Signs crypto sharedSecret signature) :
    Accepts crypto stream sharedSecret packet signature ↔
      ∃ frames rest, Framed stream frames packet.payload rest ∧
        (∀ frame ∈ frames, Readable frame) ∧
        packet.header = (signedFrames frames).foldl UEPSHeader.set {} ∧
        (frames.foldl ReaderState.read {}).signature = signature ∧
        Tlv.encodeAll (signedFrames frames) ++ packet.payload =
          p.signedBytes := by
  obtain ⟨macKey, hkey, rfl⟩ := hsigned.key
  rw [Ueps.accepts_iff hkey]
  constructor
  · rintro ⟨frames, rest, hframed, hreadable, hheader, hlast, -, hmac⟩
    exact ⟨frames, rest, hframed, hreadable, hheader, hlast,
      (hideal.injective macKey hmac).symm⟩
  · rintro ⟨frames, rest, hframed, hreadable, hheader, hlast, hbytes⟩
    exact ⟨frames, rest, hframed, hreadable, hheader, hlast,
      hideal.nonempty macKey _, by rw [hbytes]⟩

def FramesPayload (stream : Bytes) (length : ℕ) : Prop :=
  ∃ frames payload rest,
    Framed stream frames payload rest ∧ payload.length = length

theorem matches_of_length_eq
    {p : PacketBuilder} {frames : List Tlv} {packet : ParsedPacket}
    (hheader : packet.header = (signedFrames frames).foldl UEPSHeader.set {})
    (hbytes : Tlv.encodeAll (signedFrames frames) ++ packet.payload =
      p.signedBytes)
    (hlength : packet.payload.length = p.payload.length) :
    packet.Matches p := by
  have htotal := congrArg List.length hbytes
  simp only [PacketBuilder.signedBytes, List.length_append] at htotal
  obtain ⟨hencode, hpayload⟩ := List.append_inj hbytes (by omega)
  have hframes : signedFrames frames = p.headerTlvs :=
    Tlv.encodeAll_injective hencode
  refine ⟨?_, hpayload⟩
  rw [hheader, hframes, p.foldl_set_headerTlvs]

theorem matches_iff_framesPayload
    {crypto : Primitives} (hideal : crypto.IdealMac)
    {p : PacketBuilder} {stream sharedSecret signature : Bytes}
    {packet : ParsedPacket}
    (hsigned : p.Signs crypto sharedSecret signature)
    (haccepts : Accepts crypto stream sharedSecret packet signature) :
    packet.Matches p ↔ FramesPayload stream p.payload.length := by
  obtain ⟨frames, rest, hframed, -, hheader, -, hbytes⟩ :=
    (hsigned.accepts_iff hideal).mp haccepts
  constructor
  · rintro ⟨-, hpayload⟩
    exact ⟨frames, packet.payload, rest, hframed, by rw [hpayload]⟩
  · rintro ⟨frames', payload', rest', hframed', hlength⟩
    obtain ⟨-, rfl⟩ := hframed.unique hframed'
    exact matches_of_length_eq hheader hbytes hlength

/-- Any split of the signed bytes into readable header frames and a payload
that fits can be sent under the builder's tag. -/
theorem PacketBuilder.Signs.accepts_reframed
    {crypto : Primitives} (hideal : crypto.IdealMac)
    {p : PacketBuilder} {sharedSecret signature payload : Bytes}
    (hsigned : p.Signs crypto sharedSecret signature)
    {frames : List Tlv} (hheaders : Headers frames)
    (hreadable : ∀ frame ∈ frames, Readable frame)
    (hunsigned : signedFrames frames = frames)
    (hfits : payload.length ≤ 65535)
    (hbytes : Tlv.encodeAll frames ++ payload = p.signedBytes) :
    ∃ stream, Accepts crypto stream sharedSecret
      ⟨frames.foldl UEPSHeader.set {}, payload⟩ signature := by
  obtain ⟨hsig, -⟩ := id hsigned
  let hmacTlv : Tlv := ⟨tagHMAC, signature, hsig⟩
  have hfilter : signedFrames (frames ++ [hmacTlv]) = frames := by
    rw [signedFrames_append, hunsigned]
    simp [signedFrames, hmacTlv]
  refine ⟨Tlv.encodeAll (frames ++ [hmacTlv]) ++
    ((Tlv.mk tagPayload payload hfits).encode ++ []),
    (hsigned.accepts_iff hideal).mpr
      ⟨frames ++ [hmacTlv], [], ⟨?_, hfits, rfl⟩, ?_, ?_, ?_, ?_⟩⟩
  · intro frame hframe
    rcases List.mem_append.mp hframe with hframe | hframe
    · exact hheaders frame hframe
    · rw [List.mem_singleton.mp hframe]
      change tagHMAC ≠ tagPayload
      decide
  · intro frame hframe
    rcases List.mem_append.mp hframe with hframe | hframe
    · exact hreadable frame hframe
    · rw [List.mem_singleton.mp hframe]
      exact readable_of_tag_eq_tagHMAC rfl
  · rw [hfilter]
  · simp [ReaderState.read, hmacTlv]
  · rw [hfilter, hbytes]

/-- The byte string opens with a complete TLV which the reader would take
for a header field. -/
def StartsWithHeader (payload : Bytes) : Prop :=
  ∃ (frame : Tlv) (rest : Bytes), payload = frame.encode ++ rest ∧
    frame.tag ≠ tagPayload ∧ frame.tag ≠ tagHMAC ∧ Readable frame

/-- The threat score can be moved out of the header when the payload leaves
room for its TLV. -/
theorem exists_accepts_without_threat
    {crypto : Primitives} (hideal : crypto.IdealMac)
    {p : PacketBuilder} {sharedSecret signature : Bytes}
    (hsigned : p.Signs crypto sharedSecret signature)
    (hroom : p.payload.length ≤ 65530) :
    ∃ stream, Accepts crypto stream sharedSecret
      ⟨{ p.header with threatScore := 0 }, p.threatTlv.encode ++ p.payload⟩
      signature := by
  have hheader : p.routingTlvs.foldl UEPSHeader.set {} =
      { p.header with threatScore := 0 } := by
    simp [PacketBuilder.routingTlvs, UEPSHeader.set, tagVersion,
      tagCurrentLay, tagTargetLay, tagIntent]
  have hsub : ∀ frame ∈ p.routingTlvs, frame ∈ p.headerTlvs := by
    intro frame hframe
    exact List.mem_append_left _ hframe
  rw [← hheader]
  apply hsigned.accepts_reframed hideal
  · exact fun frame hframe => p.headers_headerTlvs frame (hsub frame hframe)
  · exact fun frame hframe => p.readable_headerTlvs frame (hsub frame hframe)
  · simp [signedFrames, PacketBuilder.routingTlvs, tagHMAC, tagVersion,
      tagCurrentLay, tagTargetLay, tagIntent]
  · simp only [List.length_append, Tlv.length_encode,
      PacketBuilder.threatTlv, length_beBytes]
    omega
  · simp [PacketBuilder.signedBytes, PacketBuilder.headerTlvs]

theorem exists_accepts_with_extra_header
    {crypto : Primitives} (hideal : crypto.IdealMac)
    {p : PacketBuilder} {sharedSecret signature : Bytes}
    (hsigned : p.Signs crypto sharedSecret signature)
    (hstart : StartsWithHeader p.payload) :
    ∃ stream packet, Accepts crypto stream sharedSecret packet signature ∧
      packet.payload ≠ p.payload := by
  obtain ⟨frame, rest, hpayload, htag, hhmac, hreadable⟩ := hstart
  obtain ⟨-, hfits, -⟩ := id hsigned
  have hlength := congrArg List.length hpayload
  simp only [List.length_append, Tlv.length_encode] at hlength
  have hframes : signedFrames (p.headerTlvs ++ [frame]) =
      p.headerTlvs ++ [frame] := by
    rw [signedFrames_append, p.signedFrames_headerTlvs]
    simp [signedFrames, hhmac]
  have hheaders : Headers (p.headerTlvs ++ [frame]) := by
    simpa [Headers, or_imp, forall_and, htag] using p.headers_headerTlvs
  have hall : ∀ other ∈ p.headerTlvs ++ [frame], Readable other := by
    simpa [or_imp, forall_and, hreadable] using p.readable_headerTlvs
  obtain ⟨stream, haccepts⟩ :=
    hsigned.accepts_reframed hideal hheaders hall hframes
      (show rest.length ≤ 65535 by omega)
      (by simp [PacketBuilder.signedBytes, hpayload])
  refine ⟨stream, _, haccepts, ?_⟩
  intro hsame
  have hsame := congrArg List.length hsame
  simp only at hsame
  omega

/-- A payload too long to take in the threat TLV, and which does not itself
open with a header TLV, leaves only the builder's framing. -/
theorem length_eq_of_unambiguous
    {p : PacketBuilder} {frames : List Tlv} {payload : Bytes}
    (hheaders : Headers frames)
    (hreadable : ∀ frame ∈ frames, Readable frame)
    (hfits : payload.length ≤ 65535)
    (hbytes : Tlv.encodeAll (signedFrames frames) ++ payload = p.signedBytes)
    (hlong : 65530 < p.payload.length)
    (hstart : ¬ StartsWithHeader p.payload) :
    payload.length = p.payload.length := by
  rcases Tlv.prefix_or_prefix_of_encodeAll_append_eq hbytes with
    ⟨more, hmore, hpayload⟩ | ⟨more, hmore, hpayload⟩
  · -- header TLVs have moved into the payload: the threat TLV is the last
    rcases List.eq_nil_or_concat more with rfl | ⟨front, last, rfl⟩
    · simp [hpayload]
    · rw [List.concat_eq_append, PacketBuilder.headerTlvs,
        ← List.append_assoc] at hmore
      obtain ⟨-, hlast⟩ := List.append_inj' hmore rfl
      obtain rfl := List.singleton_inj.mp hlast
      have hlength := congrArg List.length hpayload
      simp [PacketBuilder.threatTlv] at hlength
      omega
  · -- TLVs of the payload have moved into the header
    cases more with
    | nil => simp [hpayload]
    | cons frame more =>
        have hmem : frame ∈ signedFrames frames := by
          rw [hmore]
          simp
        obtain ⟨hframe, htag⟩ := List.mem_filter.mp hmem
        rw [Tlv.encodeAll_cons, List.append_assoc] at hpayload
        refine absurd ⟨frame, _, hpayload, ?_⟩ hstart
        exact ⟨hheaders frame hframe, by simpa using htag,
          hreadable frame hframe⟩

/-- When a signature binds header and payload.  A single accepted stream gives
back the builder's packet exactly when the payload it frames has the signed
length.  All streams accepted under the tag do so exactly when the payload
leaves no room for the threat TLV and does not open with a header TLV. -/
theorem readAndVerify_binds_iff
    (crypto : Primitives) (hideal : crypto.IdealMac)
    (p : PacketBuilder) (sharedSecret signature : Bytes)
    (hsigned : p.Signs crypto sharedSecret signature) :
    (∀ stream packet,
      Accepts crypto stream sharedSecret packet signature →
        (packet.Matches p ↔ FramesPayload stream p.payload.length)) ∧
    ((∀ stream packet,
        Accepts crypto stream sharedSecret packet signature →
          packet.Matches p) ↔
      65530 < p.payload.length ∧ ¬ StartsWithHeader p.payload) := by
  refine ⟨fun stream packet => matches_iff_framesPayload hideal hsigned, ?_⟩
  constructor
  · intro hbinds
    constructor
    · by_contra hroom
      obtain ⟨stream, haccepts⟩ :=
        exists_accepts_without_threat hideal hsigned (Nat.le_of_not_lt hroom)
      have hpayload := congrArg List.length (hbinds stream _ haccepts).2
      simp at hpayload
    · intro hstart
      obtain ⟨stream, packet, haccepts, hpayload⟩ :=
        exists_accepts_with_extra_header hideal hsigned hstart
      exact hpayload (hbinds stream packet haccepts).2
  · rintro ⟨hlong, hstart⟩ stream packet haccepts
    obtain ⟨frames, rest, hframed, hreadable, hheader, -, hbytes⟩ :=
      (hsigned.accepts_iff hideal).mp haccepts
    obtain ⟨hheaders, hfits, -⟩ := hframed
    exact matches_of_length_eq hheader hbytes
      (length_eq_of_unambiguous hheaders hreadable hfits hbytes hlong hstart)

/-! ## A packet whose threat score is stripped on the path -/

/-- The simplest ideal MAC: the tag spells the message out. -/
def transparentPrimitives : Primitives where
  expand secret _ _ := .ok secret
  hmac _ message := 1 :: message

theorem transparentPrimitives_idealMac : transparentPrimitives.IdealMac where
  injective _ := List.cons_injective
  nonempty _ _ := List.cons_ne_nil _ _

def hostileBuilder : PacketBuilder where
  header := { (newBuilder 0x01 []).header with threatScore := 60000 }
  payload := text "hi"

def hostileSignature : Bytes := 1 :: hostileBuilder.signedBytes

theorem hostileBuilder_signs :
    hostileBuilder.Signs transparentPrimitives [] hostileSignature :=
  ⟨by decide, by decide, by decide⟩

/-- The frame of `hostileBuilder` with the threat TLV moved to the front of
the payload. -/
def strippedStream : Bytes :=
  Tlv.encodeAll hostileBuilder.routingTlvs ++
    (Tlv.mk tagHMAC hostileSignature (by decide)).encode ++
    (Tlv.mk tagPayload
      (hostileBuilder.threatTlv.encode ++ hostileBuilder.payload)
      (by decide)).encode

def strippedPacket : ParsedPacket where
  header := { hostileBuilder.header with threatScore := 0 }
  payload := [0x05, 0x00, 0x02, 0xEA, 0x60, 0x68, 0x69]

theorem readAndVerify_binds_iff_hostile :
    hostileBuilder.Signs transparentPrimitives [] hostileSignature ∧
      ¬ ∀ stream packet,
        Accepts transparentPrimitives stream [] packet hostileSignature →
          packet.Matches hostileBuilder := by
  refine ⟨hostileBuilder_signs, ?_⟩
  rw [(readAndVerify_binds_iff transparentPrimitives
    transparentPrimitives_idealMac hostileBuilder [] hostileSignature
    hostileBuilder_signs).2]
  exact fun hbound => absurd hbound.1 (by decide)

/-- The stripped frame is accepted under the original signature, carries a
threat score of zero, and reaches the handler which the dispatcher keeps from
the packet that was signed. -/
theorem stripped_threat_score_is_accepted :
    transparentPrimitives.IdealMac ∧
    hostileBuilder.Signs transparentPrimitives [] hostileSignature ∧
    Accepts transparentPrimitives strippedStream [] strippedPacket
      hostileSignature ∧
    ¬ strippedPacket.Matches hostileBuilder ∧
    (∀ (d : Node.Dispatcher Unit),
      d.dispatch (some ⟨hostileBuilder.header, hostileBuilder.payload⟩) =
        .failed Node.errThreatScoreExceeded) ∧
    (Node.newDispatcher.registerHandler 0x01 fun _ => .returned ()).dispatch
      (some strippedPacket) = .returned () := by
  refine ⟨transparentPrimitives_idealMac, hostileBuilder_signs,
    ⟨⟨[], by decide⟩, _, _, _, rfl, rfl⟩, ?_, fun d => rfl, rfl⟩
  intro hmatches
  exact absurd hmatches.2 (by decide)

end GoP2P.Ueps
