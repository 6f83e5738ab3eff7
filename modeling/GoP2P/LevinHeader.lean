import GoP2P.CoreError

/-!
# The Levin header

Thirty-three bytes at fixed offsets, little-endian, with a signature in front
and the size of the payload behind it.  The encoder writes whatever header it
is given; the decoder refuses another signature and a payload above the
package's limit.
-/

namespace GoP2P.Levin

def headerSize : ℕ := 33

def signature : UInt64 := 0x0101010101012101

def maxPayloadSize : UInt64 := 100 * 1024 * 1024

def returnOK : Int32 := 0

def errBadSignature : CoreError := .op "levin" (text "bad signature")

def errPayloadTooBig : CoreError :=
  .op "levin" (text "payload exceeds maximum size")

structure Header where
  signature : UInt64
  payloadSize : UInt64
  expectResponse : Bool
  command : UInt32
  returnCode : Int32
  flags : UInt32
  protocolVersion : UInt32
  deriving DecidableEq, Repr

/-! ## Fields at offsets -/

/-- A write into `buf[offset:]`. -/
def putAt (buf : Bytes) (offset : ℕ) (bytes : Bytes) : Bytes :=
  buf.take offset ++ bytes ++ buf.drop (offset + bytes.length)

def putUint64 (buf : Bytes) (offset : ℕ) (v : UInt64) : Bytes :=
  putAt buf offset (leBytes 8 v.toNat)

def putUint32 (buf : Bytes) (offset : ℕ) (v : UInt32) : Bytes :=
  putAt buf offset (leBytes 4 v.toNat)

def uint64At (buf : Bytes) (offset : ℕ) : UInt64 :=
  UInt64.ofNat (leNat ((buf.drop offset).take 8))

def uint32At (buf : Bytes) (offset : ℕ) : UInt32 :=
  UInt32.ofNat (leNat ((buf.drop offset).take 4))

@[simp] theorem uint64At_zero (v : UInt64) (rest : Bytes) :
    uint64At (leBytes 8 v.toNat ++ rest) 0 = v := by
  have htake : (leBytes 8 v.toNat ++ rest).take 8 = leBytes 8 v.toNat :=
    List.take_left' (length_leBytes 8 v.toNat)
  rw [uint64At, List.drop_zero, htake, leNat_leBytes_of_lt v.toNat_lt,
    UInt64.ofNat_toNat]

@[simp] theorem uint32At_zero (v : UInt32) (rest : Bytes) :
    uint32At (leBytes 4 v.toNat ++ rest) 0 = v := by
  have htake : (leBytes 4 v.toNat ++ rest).take 4 = leBytes 4 v.toNat :=
    List.take_left' (length_leBytes 4 v.toNat)
  rw [uint32At, List.drop_zero, htake, leNat_leBytes_of_lt v.toNat_lt,
    UInt32.ofNat_toNat]

theorem uint64At_append
    {front : Bytes} {offset : ℕ} (hoffset : front.length ≤ offset)
    (rest : Bytes) :
    uint64At (front ++ rest) offset = uint64At rest (offset - front.length) := by
  rw [uint64At, uint64At, List.drop_append,
    List.drop_of_length_le hoffset, List.nil_append]

theorem uint32At_append
    {front : Bytes} {offset : ℕ} (hoffset : front.length ≤ offset)
    (rest : Bytes) :
    uint32At (front ++ rest) offset = uint32At rest (offset - front.length) := by
  rw [uint32At, uint32At, List.drop_append,
    List.drop_of_length_le hoffset, List.nil_append]

/-! ## The codec -/

def encodeHeader (h : Header) : Bytes :=
  let buf := List.replicate headerSize 0
  let buf := putUint64 buf 0 h.signature
  let buf := putUint64 buf 8 h.payloadSize
  let buf := putAt buf 16 [if h.expectResponse then 0x01 else 0x00]
  let buf := putUint32 buf 17 h.command
  let buf := putUint32 buf 21 h.returnCode.toUInt32
  let buf := putUint32 buf 25 h.flags
  putUint32 buf 29 h.protocolVersion

/-- The argument is an array of the header's size. -/
def decodeHeader (buf : Bytes) : Except CoreError Header :=
  let sig := uint64At buf 0
  if sig ≠ signature then .error errBadSignature
  else
    let payloadSize := uint64At buf 8
    if payloadSize > maxPayloadSize then .error errPayloadTooBig
    else
      .ok
        { signature := sig
          payloadSize := payloadSize
          expectResponse := buf.getD 16 0 == 0x01
          command := uint32At buf 17
          returnCode := (uint32At buf 21).toInt32
          flags := uint32At buf 25
          protocolVersion := uint32At buf 29 }

/-- The first write into the zeros behind what is written already. -/
theorem putAt_replicate
    {written : Bytes} {offset : ℕ} (hoffset : written.length = offset)
    (bytes : Bytes) (blank : ℕ) :
    putAt (written ++ List.replicate blank 0) offset bytes =
      (written ++ bytes) ++ List.replicate (blank - bytes.length) 0 := by
  subst hoffset
  simp [putAt, List.drop_append]

/-- The writes cover the array one behind the other. -/
theorem encodeHeader_eq (h : Header) :
    encodeHeader h =
      leBytes 8 h.signature.toNat ++ (leBytes 8 h.payloadSize.toNat ++
        (leBytes 1 h.expectResponse.toNat ++
          (leBytes 4 h.command.toNat ++
            (leBytes 4 h.returnCode.toUInt32.toNat ++
              (leBytes 4 h.flags.toNat ++
                (leBytes 4 h.protocolVersion.toNat ++ [])))))) := by
  have hblank : List.replicate headerSize (0 : UInt8) =
      [] ++ List.replicate headerSize 0 := rfl
  have hbit : [if h.expectResponse then (0x01 : UInt8) else 0x00] =
      leBytes 1 h.expectResponse.toNat := by
    cases h.expectResponse <;> rfl
  unfold encodeHeader putUint64 putUint32
  dsimp only
  rw [hbit, hblank, putAt_replicate List.length_nil, putAt_replicate (by simp),
    putAt_replicate (by simp), putAt_replicate (by simp),
    putAt_replicate (by simp), putAt_replicate (by simp),
    putAt_replicate (by simp)]
  simp [headerSize]

@[simp] theorem length_encodeHeader (h : Header) :
    (encodeHeader h).length = headerSize := by
  rw [encodeHeader_eq]
  simp [headerSize]

theorem decodeHeader_encodeHeader (h : Header) :
    decodeHeader (encodeHeader h) =
      if h.signature ≠ signature then .error errBadSignature
      else if h.payloadSize > maxPayloadSize then .error errPayloadTooBig
      else .ok h := by
  have hsignature : uint64At (encodeHeader h) 0 = h.signature := by
    rw [encodeHeader_eq, uint64At_zero]
  have hsize : uint64At (encodeHeader h) 8 = h.payloadSize := by
    simp [encodeHeader_eq, uint64At_append]
  have hexpect : ((encodeHeader h).getD 16 0 == 0x01) = h.expectResponse := by
    cases hbit : h.expectResponse <;>
      simp [encodeHeader_eq, leBytes, hbit]
  have hcommand : uint32At (encodeHeader h) 17 = h.command := by
    simp [encodeHeader_eq, uint32At_append]
  have hreturn : uint32At (encodeHeader h) 21 = h.returnCode.toUInt32 := by
    simp [encodeHeader_eq, uint32At_append]
  have hflags : uint32At (encodeHeader h) 25 = h.flags := by
    simp [encodeHeader_eq, uint32At_append]
  have hversion : uint32At (encodeHeader h) 29 = h.protocolVersion := by
    simp [encodeHeader_eq, uint32At_append, -List.append_nil]
  simp only [decodeHeader, hsignature, hsize, hexpect, hcommand, hreturn,
    hflags, hversion]
  rfl

/-! ## Arrays that decode -/

theorem take_drop_append_drop (buf : Bytes) (offset width : ℕ) :
    (buf.drop offset).take width ++ buf.drop (offset + width) =
      buf.drop offset := by
  rw [← List.drop_drop, List.take_append_drop]

theorem leBytes_uint64At {buf : Bytes} {offset : ℕ}
    (hoffset : offset + 8 ≤ buf.length) :
    leBytes 8 (uint64At buf offset).toNat = (buf.drop offset).take 8 := by
  have hlength : ((buf.drop offset).take 8).length = 8 := by
    simp only [List.length_take, List.length_drop]
    omega
  have hlt := leNat_lt ((buf.drop offset).take 8)
  rw [hlength] at hlt
  rw [uint64At, UInt64.toNat_ofNat_of_lt' hlt]
  nth_rewrite 1 [← hlength]
  exact leBytes_leNat _

theorem leBytes_uint32At {buf : Bytes} {offset : ℕ}
    (hoffset : offset + 4 ≤ buf.length) :
    leBytes 4 (uint32At buf offset).toNat = (buf.drop offset).take 4 := by
  have hlength : ((buf.drop offset).take 4).length = 4 := by
    simp only [List.length_take, List.length_drop]
    omega
  have hlt := leNat_lt ((buf.drop offset).take 4)
  rw [hlength] at hlt
  rw [uint32At, UInt32.toNat_ofNat_of_lt' hlt]
  nth_rewrite 1 [← hlength]
  exact leBytes_leNat _

theorem eq_of_decodeHeader {buf : Bytes} {h : Header}
    (hdecoded : decodeHeader buf = .ok h) :
    h = { signature := uint64At buf 0
          payloadSize := uint64At buf 8
          expectResponse := buf.getD 16 0 == 0x01
          command := uint32At buf 17
          returnCode := (uint32At buf 21).toInt32
          flags := uint32At buf 25
          protocolVersion := uint32At buf 29 } := by
  unfold decodeHeader at hdecoded
  dsimp only at hdecoded
  split_ifs at hdecoded
  cases hdecoded
  rfl

/-- The fields lie one behind the other, so writing back what was read gives
the array again; only the byte of the flag is normalised. -/
theorem encodeHeader_of_decodeHeader {buf : Bytes} {h : Header}
    (hlength : buf.length = headerSize)
    (hdecoded : decodeHeader buf = .ok h) :
    encodeHeader h = buf.set 16 (if buf.getD 16 0 = 0x01 then 0x01 else 0x00) := by
  unfold headerSize at hlength
  have hinside : 16 < buf.length := by omega
  have hfront : (buf.drop 0).take 8 ++ (buf.drop 8).take 8 = buf.take 16 := by
    rw [List.drop_zero, ← List.take_add]
  have hback : (buf.drop 17).take 4 ++ ((buf.drop 21).take 4 ++
      ((buf.drop 25).take 4 ++ ((buf.drop 29).take 4 ++ []))) =
        buf.drop 17 := by
    have hend : [] = buf.drop 33 := by simp [hlength]
    rw [hend, take_drop_append_drop buf 29 4, take_drop_append_drop buf 25 4,
      take_drop_append_drop buf 21 4, take_drop_append_drop buf 17 4]
  have hflag : leBytes 1 (buf.getD 16 0 == 0x01).toNat =
      [if buf.getD 16 0 = 0x01 then 0x01 else 0x00] := by
    generalize buf.getD 16 0 = byte
    by_cases hbyte : byte = 0x01
    · simp [hbyte, leBytes]
    · have hflag : (byte == 0x01) = false := beq_false_of_ne hbyte
      simp [hbyte, hflag, leBytes]
  rw [eq_of_decodeHeader hdecoded, encodeHeader_eq]
  dsimp only
  rw [leBytes_uint64At (by omega), leBytes_uint64At (by omega),
    leBytes_uint32At (by omega), UInt32.toUInt32_toInt32,
    leBytes_uint32At (by omega), leBytes_uint32At (by omega),
    leBytes_uint32At (by omega), hback, hflag, ← List.append_assoc, hfront,
    List.set_eq_take_append_cons_drop, if_pos hinside]
  rfl

theorem decodeHeader_encodeHeader_cases (h : Header) :
    decodeHeader (encodeHeader h) =
      if h.signature = signature ∧ h.payloadSize ≤ maxPayloadSize then .ok h
      else if h.signature ≠ signature then .error errBadSignature
      else .error errPayloadTooBig := by
  rw [decodeHeader_encodeHeader]
  by_cases hsignature : h.signature = signature
  · by_cases hsize : h.payloadSize ≤ maxPayloadSize
    · simp [hsignature, hsize]
    · have hbig : maxPayloadSize < h.payloadSize :=
        UInt64.not_le.mp hsize
      simp [hsignature, hsize, hbig]
  · simp [hsignature]

/-- Decoding what was encoded gives the header back or the reason why it is
refused, and encoding what was decoded gives the array back up to the flag. -/
theorem header_codec_exact :
    (∀ h : Header, decodeHeader (encodeHeader h) =
      if h.signature = signature ∧ h.payloadSize ≤ maxPayloadSize then .ok h
      else if h.signature ≠ signature then .error errBadSignature
      else .error errPayloadTooBig) ∧
    ∀ (buf : Bytes) (h : Header), buf.length = headerSize →
      decodeHeader buf = .ok h →
        encodeHeader h =
          buf.set 16 (if buf.getD 16 0 = 0x01 then 0x01 else 0x00) := by
  constructor
  · exact decodeHeader_encodeHeader_cases
  · intro buf h hlength hdecoded
    exact encodeHeader_of_decodeHeader hlength hdecoded

/-- A header with the flag byte 2, and the one it is encoded to. -/
theorem header_codec_exact_flag_two :
    encodeHeader
        { signature := signature, payloadSize := 5, expectResponse := false
          command := 1001, returnCode := -7, flags := 3, protocolVersion := 1 } =
      (leBytes 8 signature.toNat ++ leBytes 8 5 ++ [2] ++ leBytes 4 1001 ++
        [249, 255, 255, 255] ++ leBytes 4 3 ++ leBytes 4 1).set 16 0 :=
  header_codec_exact.2 _ _ (by decide) (by decide)

end GoP2P.Levin
