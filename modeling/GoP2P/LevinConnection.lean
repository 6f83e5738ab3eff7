import GoP2P.ChunkedRead
import GoP2P.LevinHeader

/-!
# Packets on a Levin connection

What the two write calls put into a header, and how the other end reads
packets off the byte stream.  The stream is the list of chunks in which it
arrives, and reading returns what is left of it also when it fails, so that
the calls after a failed one are part of the model.
-/

namespace GoP2P.Levin

def flagRequest : UInt32 := 0x00000001
def flagResponse : UInt32 := 0x00000002

def levinProtocolVersion : UInt32 := 1

structure ReadPacketResult where
  header : Header
  payload : Bytes := []
  deriving DecidableEq, Repr

/-- The arguments of `WritePacket` and of `WriteResponse`. -/
inductive WriteCall where
  | writePacket (cmd : UInt32) (payload : Bytes) (expectResponse : Bool)
  | writeResponse (cmd : UInt32) (payload : Bytes) (returnCode : Int32)
  deriving DecidableEq, Repr

namespace WriteCall

def payload : WriteCall → Bytes
  | .writePacket _ payload _ => payload
  | .writeResponse _ payload _ => payload

def header : WriteCall → Header
  | .writePacket cmd payload expectResponse =>
      { signature := signature
        payloadSize := UInt64.ofNat payload.length
        expectResponse := expectResponse
        command := cmd
        returnCode := returnOK
        flags := flagRequest
        protocolVersion := levinProtocolVersion }
  | .writeResponse cmd payload returnCode =>
      { signature := signature
        payloadSize := UInt64.ofNat payload.length
        expectResponse := false
        command := cmd
        returnCode := returnCode
        flags := flagResponse
        protocolVersion := levinProtocolVersion }

def packet (call : WriteCall) : ReadPacketResult :=
  { header := call.header, payload := call.payload }

/-- The bytes of both writes together. -/
def frame (call : WriteCall) : Bytes :=
  encodeHeader call.header ++ call.payload

/-- The payload is within the package's limit and within the reader's. -/
def Fits (limit : UInt64) (call : WriteCall) : Prop :=
  call.payload.length ≤ maxPayloadSize.toNat ∧
    call.payload.length ≤ limit.toNat

instance (limit : UInt64) (call : WriteCall) : Decidable (call.Fits limit) :=
  inferInstanceAs (Decidable (_ ∧ _))

theorem header_signature (call : WriteCall) :
    call.header.signature = signature := by
  cases call <;> rfl

theorem header_payloadSize (call : WriteCall) :
    call.header.payloadSize = UInt64.ofNat call.payload.length := by
  cases call <;> rfl

theorem length_frame (call : WriteCall) :
    call.frame.length = headerSize + call.payload.length := by
  rw [frame, List.length_append, length_encodeHeader]

theorem frame_ne_nil (call : WriteCall) : call.frame ≠ [] := by
  intro hframe
  have hlength := call.length_frame
  rw [hframe, headerSize, List.length_nil] at hlength
  omega

theorem Fits.toNat_payloadSize {limit : UInt64} {call : WriteCall}
    (hfits : call.Fits limit) :
    call.header.payloadSize.toNat = call.payload.length := by
  have hlimit := limit.toNat_lt
  rw [header_payloadSize, UInt64.toNat_ofNat']
  exact Nat.mod_eq_of_lt (lt_of_le_of_lt hfits.2 hlimit)

theorem Fits.decodeHeader {limit : UInt64} {call : WriteCall}
    (hfits : call.Fits limit) :
    decodeHeader (encodeHeader call.header) = .ok call.header := by
  have hsize : ¬ call.header.payloadSize > maxPayloadSize := by
    rw [gt_iff_lt, UInt64.lt_iff_toNat_lt, hfits.toNat_payloadSize]
    exact Nat.not_lt.mpr hfits.1
  rw [decodeHeader_encodeHeader, if_neg (not_not.mpr call.header_signature),
    if_neg hsize]

theorem Fits.payloadSize_le {limit : UInt64} {call : WriteCall}
    (hfits : call.Fits limit) : ¬ call.header.payloadSize > limit := by
  rw [gt_iff_lt, UInt64.lt_iff_toNat_lt, hfits.toNat_payloadSize]
  exact Nat.not_lt.mpr hfits.2

end WriteCall

/-! ## Reading -/

/-- `io.ReadFull` into a buffer of the given size.  The stream ends or goes on:
a `Read` that fails in the middle, at a deadline, is left out. -/
def readFull (size : ℕ) (conn : List Bytes) :
    Except CoreError Bytes × List Bytes :=
  match readFullChunks size conn with
  | .filled data rest => (.ok data, rest)
  | .ended [] => (.error .eof, [])
  | .ended (_ :: _) => (.error .unexpectedEOF, [])

/-- The part of `ReadPacket` behind the header.  `limit` is the
`MaxPayloadSize` of the connection that reads. -/
def readPayload (limit : UInt64) (h : Header) (conn : List Bytes) :
    Except CoreError ReadPacketResult × List Bytes :=
  if h.payloadSize > limit then (.error errPayloadTooBig, conn)
  else if h.payloadSize = 0 then (.ok { header := h }, conn)
  else
    match readFull h.payloadSize.toNat conn with
    | (.error err, conn) => (.error err, conn)
    | (.ok payload, conn) => (.ok { header := h, payload := payload }, conn)

/-- `deadline` is what setting the read deadline returned. -/
def readPacket (limit : UInt64) (deadline : Except CoreError Unit)
    (conn : List Bytes) : Except CoreError ReadPacketResult × List Bytes :=
  match deadline with
  | .error err => (.error err, conn)
  | .ok () =>
      match readFull headerSize conn with
      | (.error err, conn) => (.error err, conn)
      | (.ok hdrBuf, conn) =>
          match decodeHeader hdrBuf with
          | .error err => (.error err, conn)
          | .ok h => readPayload limit h conn

/-- Successive calls, one for each deadline that is set; a call that fails
does not keep the next from being made. -/
def readPackets (limit : UInt64) :
    List (Except CoreError Unit) → List Bytes →
      List (Except CoreError ReadPacketResult)
  | [], _ => []
  | deadline :: deadlines, conn =>
      (readPacket limit deadline conn).1 ::
        readPackets limit deadlines (readPacket limit deadline conn).2

theorem readFull_append {conn : List Bytes} {front back : Bytes}
    (hconn : conn.flatten = front ++ back) :
    ∃ rest, readFull front.length conn = (.ok front, rest) ∧
      rest.flatten = back := by
  obtain ⟨rest, hread, hrest⟩ := readFullChunks_append hconn
  exact ⟨rest, by rw [readFull, hread], hrest⟩

theorem readFull_short {conn : List Bytes} {size : ℕ}
    (hshort : conn.flatten.length < size) :
    ∃ err, readFull size conn = (.error err, []) := by
  rw [readFull, readFullChunks_ended hshort]
  cases conn.flatten with
  | nil => exact ⟨.eof, rfl⟩
  | cons byte rest => exact ⟨.unexpectedEOF, rfl⟩

theorem readFull_eq_ok {conn rest : List Bytes} {size : ℕ} {data : Bytes}
    (hread : readFull size conn = (.ok data, rest)) :
    data.length = size ∧ conn.flatten = data ++ rest.flatten := by
  unfold readFull at hread
  cases hfull : readFullChunks size conn with
  | filled data' rest' =>
      rw [hfull] at hread
      cases hread
      exact readFullChunks_eq_filled hfull
  | ended got =>
      rw [hfull] at hread
      cases got <;> cases hread

/-- A whole frame is read as the packet it was written for. -/
theorem readPacket_frame {limit : UInt64} {call : WriteCall}
    (hfits : call.Fits limit) {conn : List Bytes} {back : Bytes}
    (hconn : conn.flatten = call.frame ++ back) :
    ∃ rest, readPacket limit (.ok ()) conn = (.ok call.packet, rest) ∧
      rest.flatten = back := by
  rw [WriteCall.frame, List.append_assoc] at hconn
  obtain ⟨middle, hheader, hmiddle⟩ := readFull_append hconn
  rw [length_encodeHeader] at hheader
  have hsize := hfits.toNat_payloadSize
  simp only [readPacket, hheader, hfits.decodeHeader, readPayload,
    if_neg hfits.payloadSize_le]
  by_cases hempty : call.header.payloadSize = 0
  · have hnil : call.payload = [] := by
      rw [hempty, UInt64.toNat_zero] at hsize
      exact List.eq_nil_of_length_eq_zero hsize.symm
    rw [hnil, List.nil_append] at hmiddle
    exact ⟨middle, by rw [if_pos hempty, WriteCall.packet, hnil], hmiddle⟩
  · obtain ⟨rest, hpayload, hrest⟩ := readFull_append hmiddle
    rw [← hsize] at hpayload
    exact ⟨rest, by rw [if_neg hempty, hpayload]; rfl, hrest⟩

/-- The front of a frame of which something is missing. -/
def IsFragment (limit : UInt64) (fragment : Bytes) : Prop :=
  ∃ (call : WriteCall) (missing : Bytes), call.Fits limit ∧
    call.frame = fragment ++ missing ∧ missing ≠ []

theorem isFragment_nil (limit : UInt64) : IsFragment limit [] :=
  ⟨.writePacket 0 [] false, _, ⟨Nat.zero_le _, Nat.zero_le _⟩,
    (List.nil_append _).symm, WriteCall.frame_ne_nil _⟩

/-- A stream that ends within a frame is read to its end in vain. -/
theorem readPacket_fragment {limit : UInt64} {conn : List Bytes}
    (hfragment : IsFragment limit conn.flatten) :
    ∃ err, readPacket limit (.ok ()) conn = (.error err, []) := by
  obtain ⟨call, missing, hfits, hcut, hmissing⟩ := hfragment
  rcases Nat.lt_or_ge conn.flatten.length headerSize with hshort | hheader
  · obtain ⟨err, hread⟩ := readFull_short hshort
    exact ⟨err, by simp only [readPacket, hread]⟩
  · -- the header is whole, so it is the payload that is cut
    rw [WriteCall.frame] at hcut
    obtain ⟨part, hconn, hpayload⟩ : ∃ part,
        conn.flatten = encodeHeader call.header ++ part ∧
          call.payload = part ++ missing := by
      rcases List.append_eq_append_iff.mp hcut with
        ⟨part, hconn, hpayload⟩ | ⟨part, hcall, hpayload⟩
      · exact ⟨part, hconn, hpayload⟩
      · have hlength := congrArg List.length hcall
        rw [length_encodeHeader, List.length_append] at hlength
        have hpart : part = [] :=
          List.eq_nil_of_length_eq_zero (by omega)
        subst hpart
        exact ⟨[], by simpa using hcall.symm, by simpa using hpayload.symm⟩
    obtain ⟨middle, hread, hmiddle⟩ := readFull_append hconn
    rw [length_encodeHeader] at hread
    have hpart : middle.flatten.length < call.header.payloadSize.toNat := by
      have hpos := List.length_pos_of_ne_nil hmissing
      rw [hfits.toNat_payloadSize, hpayload, hmiddle, List.length_append]
      omega
    have hsize : call.header.payloadSize ≠ 0 := by
      intro hzero
      rw [hzero, UInt64.toNat_zero] at hpart
      omega
    obtain ⟨err, hshort⟩ := readFull_short hpart
    exact ⟨err, by simp only [readPacket, hread, hfits.decodeHeader,
      readPayload, if_neg hfits.payloadSize_le, if_neg hsize, hshort]⟩

theorem readPayload_consumes {limit : UInt64} {h : Header}
    {conn rest : List Bytes} {packet : ReadPacketResult}
    (hread : readPayload limit h conn = (.ok packet, rest)) :
    packet.header = h ∧
      conn.flatten.length = h.payloadSize.toNat + rest.flatten.length := by
  unfold readPayload at hread
  by_cases hlimit : h.payloadSize > limit
  · rw [if_pos hlimit] at hread
    cases hread
  rw [if_neg hlimit] at hread
  by_cases hempty : h.payloadSize = 0
  · rw [if_pos hempty] at hread
    cases hread
    rw [hempty, UInt64.toNat_zero, Nat.zero_add]
    exact ⟨rfl, rfl⟩
  rw [if_neg hempty] at hread
  rcases hpayload : readFull h.payloadSize.toNat conn with ⟨result, rest'⟩
  rw [hpayload] at hread
  cases result with
  | error err => cases hread
  | ok payload =>
      cases hread
      obtain ⟨hsize, hconn⟩ := readFull_eq_ok hpayload
      rw [hconn, List.length_append, hsize]
      exact ⟨rfl, rfl⟩

/-- A call that returns a packet consumes its header and its payload and
nothing more, whatever is on the stream. -/
theorem readPacket_consumes {limit : UInt64} {deadline : Except CoreError Unit}
    {conn rest : List Bytes} {packet : ReadPacketResult}
    (hread : readPacket limit deadline conn = (.ok packet, rest)) :
    conn.flatten.length = headerSize + packet.header.payloadSize.toNat +
      rest.flatten.length := by
  unfold readPacket at hread
  cases deadline with
  | error err => cases hread
  | ok _ =>
      rcases hheader : readFull headerSize conn with ⟨result, middle⟩
      rw [hheader] at hread
      cases result with
      | error err => cases hread
      | ok hdrBuf =>
          obtain ⟨hlength, hconn⟩ := readFull_eq_ok hheader
          dsimp only at hread
          cases hdecode : decodeHeader hdrBuf with
          | error err =>
              rw [hdecode] at hread
              cases hread
          | ok h =>
              rw [hdecode] at hread
              obtain ⟨rfl, hmiddle⟩ := readPayload_consumes hread
              rw [hconn, List.length_append, hlength, hmiddle, Nat.add_assoc]

/-- The packets among the results of successive calls. -/
def packetsOf (results : List (Except CoreError ReadPacketResult)) :
    List ReadPacketResult :=
  results.filterMap Except.toOption

@[simp] theorem packetsOf_error (err : CoreError)
    (results : List (Except CoreError ReadPacketResult)) :
    packetsOf (.error err :: results) = packetsOf results := rfl

@[simp] theorem packetsOf_ok (packet : ReadPacketResult)
    (results : List (Except CoreError ReadPacketResult)) :
    packetsOf (.ok packet :: results) = packet :: packetsOf results := rfl

/-- Of a stream of frames, the last of which may be cut, the calls return one
packet after the other, and none for the fragment or after it. -/
theorem packetsOf_readPackets {limit : UInt64} {calls : List WriteCall}
    (hfits : ∀ call ∈ calls, call.Fits limit)
    {fragment : Bytes} (hfragment : IsFragment limit fragment)
    {conn : List Bytes}
    (hconn : conn.flatten = calls.flatMap WriteCall.frame ++ fragment)
    (deadlines : List (Except CoreError Unit)) :
    packetsOf (readPackets limit deadlines conn) =
      (calls.map WriteCall.packet).take
        (deadlines.countP fun deadline => deadline.isOk) := by
  induction deadlines generalizing calls fragment conn with
  | nil => simp [readPackets, packetsOf]
  | cons deadline deadlines ih =>
      rw [readPackets]
      cases deadline with
      | error err =>
          -- the call fails before it reads
          exact ih hfits hfragment hconn
      | ok _ =>
          cases calls with
          | nil =>
              rw [List.flatMap_nil, List.nil_append] at hconn
              rw [← hconn] at hfragment
              obtain ⟨err, hread⟩ := readPacket_fragment hfragment
              have hempty : ([] : List Bytes).flatten =
                  ([] : List WriteCall).flatMap WriteCall.frame ++ [] := rfl
              have hrest := ih (by simp) (isFragment_nil limit) hempty
              rw [hread, packetsOf_error, hrest, List.map_nil, List.take_nil,
                List.take_nil]
          | cons call calls =>
              rw [List.flatMap_cons, List.append_assoc] at hconn
              obtain ⟨rest, hread, hrest⟩ :=
                readPacket_frame (hfits call (by simp)) hconn
              have htail := ih (fun other hother =>
                hfits other (List.mem_cons_of_mem call hother)) hfragment hrest
              rw [hread, packetsOf_ok, htail, List.countP_cons_of_pos rfl,
                List.map_cons, List.take_succ_cons]

end GoP2P.Levin
