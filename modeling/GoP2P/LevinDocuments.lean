import GoP2P.LevinDecoding

/-!
# Decoding whole inputs

What the agreement of decoder and format means for an arbitrary input.  The
decoder is self-delimiting, rejects every truncation, and does at most one loop
iteration for each byte it consumes.  It comes back from every input if the
runtime grants what it asks for; on a runtime with limits it is safe exactly
when the element counts declared in the input are bounded by the input and its
sections do not nest too deeply.
-/

namespace GoP2P.Levin

/-! ## Self-delimiting sections -/

theorem decodeSection_eq_returned_iff {buf : Bytes} {s : Section} {n : ℕ} :
    (decodeSection buf).outcome = .returned (s, n) ↔
      ∃ part tail, buf = part ++ tail ∧ SectionText false part s ∧
        n = part.length := by
  have hiff := (decodeSection_decodes buf).returned_iff s n
  simp only [Nat.zero_add] at hiff
  exact hiff

/-- A successful call consumes a text of at least one byte, gives the same
result whatever follows that text, fails on every part of it, and its loops ran
at most once for each byte of it. -/
theorem decodeSection_self_delimiting
    (buf : Bytes) (s : Section) (n : ℕ)
    (hdecode : (decodeSection buf).outcome = .returned (s, n)) :
    1 ≤ n ∧ n ≤ buf.length ∧
    (∀ t, (decodeSection (buf.take n ++ t)).outcome = .returned (s, n)) ∧
    (∀ p, p <+: buf.take n → p ≠ buf.take n →
      ∃ error, (decodeSection p).outcome = .failed error) ∧
    (decodeSection buf).events.count .iteration ≤ n := by
  have hpaid := (decodeSection_decodes buf).iterations s n hdecode
  obtain ⟨part, tail, rfl, htext, rfl⟩ :=
    decodeSection_eq_returned_iff.mp hdecode
  rw [List.take_left]
  refine ⟨by omega, by simp, ?_, ?_, by omega⟩
  · intro t
    exact decodeSection_eq_returned_iff.mpr ⟨part, t, rfl, htext, rfl⟩
  · rintro p ⟨suffix, rfl⟩ hstrict
    rcases (decodeSection_decodes p).ends with ⟨⟨s', m⟩, hreturned⟩ | hfailed
    · -- a text inside `p` would delimit the section before its end
      exfalso
      obtain ⟨part', tail', rfl, htext', rfl⟩ :=
        decodeSection_eq_returned_iff.mp hreturned
      have hshort : (decodeSection (part' ++ tail' ++ suffix ++ tail)).outcome =
          .returned (s', part'.length) :=
        decodeSection_eq_returned_iff.mpr
          ⟨part', tail' ++ suffix ++ tail, by simp, htext', rfl⟩
      rw [hshort] at hdecode
      have hlength := congrArg Prod.snd (Outcome.returned.inj hdecode)
      simp only [List.length_append] at hlength
      have hnil : suffix = [] := List.eq_nil_of_length_eq_zero (by omega)
      exact hstrict (by simp [hnil])
    · exact hfailed

theorem decodeSection_self_delimiting_two_fields :
    (decodeSection [0x08, 0x01, 0x61, 0x08, 0x05, 0x01, 0x62, 0x0B, 0x01,
        0xFF]).outcome =
      .returned ([(text "a", uint8Val 5), (text "b", boolVal true)], 9) ∧
    ∃ error, (decodeSection [0x08, 0x01, 0x61]).outcome = .failed error := by
  have hdecode : (decodeSection [0x08, 0x01, 0x61, 0x08, 0x05, 0x01, 0x62,
      0x0B, 0x01, 0xFF]).outcome =
        .returned ([(text "a", uint8Val 5), (text "b", boolVal true)], 9) := rfl
  exact ⟨hdecode, (decodeSection_self_delimiting _ _ _ hdecode).2.2.2.1
    [0x08, 0x01, 0x61] (by decide) (by decide)⟩

/-! ## The header -/

theorem decodeStorage_fields {rawA rawB : Bytes} (hrawA : rawA.length = 4)
    (hrawB : rawB.length = 4) (ver : UInt8) (body : Bytes) :
    decodeStorage (rawA ++ (rawB ++ ver :: body)) = (do
      Traced.failIf (UInt32.ofNat (leNat rawA) ≠ storageSignatureA ∨
        UInt32.ofNat (leNat rawB) ≠ storageSignatureB) errStorageBadSignature
      Traced.failIf (ver ≠ storageVersion) errStorageBadVersion
      let result ← decodeSection body
      pure result.1) := by
  have hlong : ¬ (rawA ++ (rawB ++ ver :: body)).length < storageHeaderSize := by
    simp [hrawA, hrawB, storageHeaderSize]
    omega
  have hdropA : (rawA ++ (rawB ++ ver :: body)).drop 4 = rawB ++ ver :: body := by
    rw [← hrawA, List.drop_left]
  have hdropB : (rawA ++ (rawB ++ ver :: body)).drop 8 = ver :: body := by
    rw [show 8 = 4 + 4 from rfl, ← List.drop_drop, hdropA, ← hrawB,
      List.drop_left]
  have hsliceA : (slice (rawA ++ (rawB ++ ver :: body)) 0 4 :
      Outcome CoreError Bytes) = .returned rawA := by
    simpa [hrawA] using slice_of_drop_eq (ε := CoreError)
      (Nat.zero_le _) (List.drop_zero (l := rawA ++ (rawB ++ ver :: body)))
  have hsliceB : (slice (rawA ++ (rawB ++ ver :: body)) 4 8 :
      Outcome CoreError Bytes) = .returned rawB := by
    have hread := slice_of_drop_eq (ε := CoreError) (by simp; omega) hdropA
    rwa [hrawB] at hread
  have hindex : (index (rawA ++ (rawB ++ ver :: body)) 8 :
      Outcome CoreError UInt8) = .returned ver :=
    index_of_drop_eq hdropB
  have hbody : (slice (rawA ++ (rawB ++ ver :: body)) storageHeaderSize
      (rawA ++ (rawB ++ ver :: body)).length : Outcome CoreError Bytes) =
        .returned body := by
    apply StandsAt.slice_eq
    refine ⟨Nat.le_of_not_lt hlong, ?_⟩
    rw [show storageHeaderSize = 8 + 1 from rfl, ← List.drop_drop, hdropB]
    rfl
  unfold decodeStorage
  rw [Traced.failIf, if_neg hlong, hsliceA, hsliceB, hindex, hbody]
  rfl

theorem bytes_of_signature {raw : Bytes} {signature : UInt32}
    (hraw : raw.length = 4) (hsignature : UInt32.ofNat (leNat raw) = signature) :
    raw = leBytes 4 signature.toNat := by
  have hbound := leNat_lt raw
  rw [hraw] at hbound
  rw [← hsignature, UInt32.toNat_ofNat_of_lt' hbound, ← hraw, leBytes_leNat]

theorem decodeStorage_header (body : Bytes) :
    decodeStorage (storageHeader ++ body) =
      decodeSection body >>= fun result => pure result.1 := by
  have hsplit : storageHeader ++ body =
      leBytes 4 storageSignatureA.toNat ++
        (leBytes 4 storageSignatureB.toNat ++ storageVersion :: body) := by
    simp [storageHeader]
  rw [hsplit, decodeStorage_fields (by simp) (by simp)]
  rfl

theorem decodeStorage_eq_fail {data : Bytes}
    (hheader : ∀ body, data ≠ storageHeader ++ body) :
    ∃ error, decodeStorage data = Traced.fail error := by
  by_cases hshort : data.length < storageHeaderSize
  · exact ⟨errStorageTruncated, by simp [decodeStorage, Traced.failIf, hshort]⟩
  · simp only [storageHeaderSize] at hshort
    obtain ⟨rawA, dataB, hrawA, rfl⟩ : ∃ rawA dataB,
        rawA.length = 4 ∧ data = rawA ++ dataB :=
      ⟨data.take 4, data.drop 4, by simp; omega, by simp⟩
    simp only [List.length_append] at hshort
    obtain ⟨rawB, dataV, hrawB, rfl⟩ : ∃ rawB dataV,
        rawB.length = 4 ∧ dataB = rawB ++ dataV :=
      ⟨dataB.take 4, dataB.drop 4, by simp; omega, by simp⟩
    simp only [List.length_append] at hshort
    obtain ⟨ver, body, rfl⟩ : ∃ ver body, dataV = ver :: body :=
      List.exists_cons_of_ne_nil (by rintro rfl; simp at hshort; omega)
    rw [decodeStorage_fields hrawA hrawB]
    by_cases hsignature : UInt32.ofNat (leNat rawA) ≠ storageSignatureA ∨
        UInt32.ofNat (leNat rawB) ≠ storageSignatureB
    · exact ⟨errStorageBadSignature, by simp [Traced.failIf, hsignature]⟩
    · by_cases hversion : ver ≠ storageVersion
      · exact ⟨errStorageBadVersion, by
          simp [Traced.failIf, hsignature, hversion]⟩
      · exfalso
        push Not at hsignature hversion
        refine hheader body ?_
        rw [hversion, bytes_of_signature hrawA hsignature.1,
          bytes_of_signature hrawB hsignature.2]
        simp [storageHeader]

/-! ## Allocations and nesting -/

def StorageAsks (data : Bytes) (request : Request) : Prop :=
  ∃ body, data = storageHeader ++ body ∧ Asks 1 .object body request

theorem mem_events_decodeStorage_iff {data : Bytes} {event : DecodeEvent} :
    event ∈ (decodeStorage data).events ↔
      ∃ body, data = storageHeader ++ body ∧
        event ∈ (decodeSection body).events := by
  by_cases hheader : ∃ body, data = storageHeader ++ body
  · obtain ⟨body, rfl⟩ := hheader
    rw [decodeStorage_header, Traced.mem_events_bind_iff]
    simp
  · push Not at hheader
    obtain ⟨error, hfail⟩ := decodeStorage_eq_fail hheader
    simp [hfail, hheader]

theorem request_mem_iff {data : Bytes} {request : Request} :
    .request request ∈ (decodeStorage data).events ↔
      StorageAsks data request := by
  simp only [mem_events_decodeStorage_iff, (decodeSection_decodes _).asks]
  rfl

/-- `n` sections, each the only field of the one around it. -/
def nestedSections : ℕ → Bytes
  | 0 => [0x00]
  | n + 1 => [0x04, 0x00, 0x0C] ++ nestedSections n

theorem asks_nestedSections (n level : ℕ) :
    Asks level .object (nestedSections n) (.nesting (level + n)) := by
  induction n generalizing level with
  | zero => exact .nesting level _
  | succ n ih =>
      have hbody := ih (level + 1)
      rw [Nat.add_right_comm] at hbody
      exact .field level [0x04] 1 [] [] .object (nestedSections n) _
        ⟨.one, rfl, rfl, by simp⟩ (by simp) (by simp) (by simp) (by simp) hbody

/-- Every count in the document is 0 or 1, but no stack is deep enough for all
of them: three bytes buy one level. -/
theorem nestedSections_overflow (runtime : Runtime) :
    runtime.run (decodeStorage (storageHeader ++
      nestedSections runtime.maxNesting)) = .panicked := by
  apply if_pos
  rw [List.any_eq_true]
  refine ⟨.request (.nesting (1 + runtime.maxNesting)),
    request_mem_iff.mpr ⟨_, rfl, asks_nestedSections _ 1⟩, ?_⟩
  simp [Runtime.refuses]

end GoP2P.Levin
