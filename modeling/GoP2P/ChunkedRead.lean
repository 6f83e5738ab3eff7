import Mathlib.Tactic

/-!
# Filling a buffer from a stream in chunks

A stream arrives in chunks of any sizes, empty ones included.  A read into a
buffer takes what the next chunk has, up to the size of the buffer, and a
buffer is filled by reading until it is full or the stream has ended.  How the
stream was cut makes no difference to what is read.
-/

namespace GoP2P

variable {α : Type*}

inductive FullRead (α : Type*) where
  | filled (data : List α) (rest : List (List α))
  | ended (got : List α)
  deriving DecidableEq, Repr

/-- The loop of `io.ReadFull`, with what it has got so far. -/
def readFullLoop (size : ℕ) (got : List α) : List (List α) → FullRead α
  | [] => if size ≤ got.length then .filled got [] else .ended got
  | chunk :: rest =>
      if size ≤ got.length then .filled got (chunk :: rest)
      else if chunk.length ≤ size - got.length then
        readFullLoop size (got ++ chunk) rest
      else
        .filled (got ++ chunk.take (size - got.length))
          (chunk.drop (size - got.length) :: rest)

def readFullChunks (size : ℕ) (chunks : List (List α)) : FullRead α :=
  readFullLoop size [] chunks

theorem readFullLoop_filled
    {size : ℕ} {got : List α} {chunks : List (List α)}
    (hgot : got.length ≤ size)
    (henough : size ≤ got.length + chunks.flatten.length) :
    ∃ rest,
      readFullLoop size got chunks =
        .filled (got ++ chunks.flatten.take (size - got.length)) rest ∧
      rest.flatten = chunks.flatten.drop (size - got.length) := by
  induction chunks generalizing got with
  | nil =>
      have hsize : size = got.length := by
        simp only [List.flatten_nil, List.length_nil] at henough
        omega
      exact ⟨[], by simp [readFullLoop, hsize], by simp⟩
  | cons chunk chunks ih =>
      unfold readFullLoop
      by_cases hfull : size ≤ got.length
      · have hzero : size - got.length = 0 := by omega
        exact ⟨chunk :: chunks, by simp [hfull, hzero], by simp [hzero]⟩
      rw [if_neg hfull]
      by_cases hchunk : chunk.length ≤ size - got.length
      · have hlength : (got ++ chunk).length = got.length + chunk.length :=
          List.length_append
        have hleft : size - (got ++ chunk).length =
            size - got.length - chunk.length := by omega
        rw [List.flatten_cons, List.length_append] at henough
        have hroom : (got ++ chunk).length ≤ size := by omega
        obtain ⟨rest, hread, hrest⟩ := ih hroom (by omega)
        refine ⟨rest, ?_, ?_⟩
        · rw [if_pos hchunk, hread, hleft, List.flatten_cons,
            List.take_append, List.take_of_length_le hchunk,
            List.append_assoc]
        · rw [hrest, hleft, List.flatten_cons, List.drop_append,
            List.drop_of_length_le hchunk, List.nil_append]
      · have hle : size - got.length ≤ chunk.length := by omega
        refine ⟨chunk.drop (size - got.length) :: chunks, ?_, ?_⟩
        · rw [if_neg hchunk, List.flatten_cons,
            List.take_append_of_le_length hle]
        · rw [List.flatten_cons, List.flatten_cons,
            List.drop_append_of_le_length hle]

theorem readFullLoop_ended
    {size : ℕ} {got : List α} {chunks : List (List α)}
    (hshort : got.length + chunks.flatten.length < size) :
    readFullLoop size got chunks = .ended (got ++ chunks.flatten) := by
  induction chunks generalizing got with
  | nil =>
      simp only [List.flatten_nil, List.length_nil] at hshort
      rw [readFullLoop, if_neg (by omega), List.flatten_nil, List.append_nil]
  | cons chunk chunks ih =>
      rw [List.flatten_cons, List.length_append] at hshort
      rw [readFullLoop, if_neg (by omega), if_pos (by omega),
        ih (by rw [List.length_append]; omega), List.flatten_cons,
        List.append_assoc]

/-- A stream that has enough fills the buffer with its front. -/
theorem readFullChunks_append
    {chunks : List (List α)} {front back : List α}
    (hstream : chunks.flatten = front ++ back) :
    ∃ rest, readFullChunks front.length chunks = .filled front rest ∧
      rest.flatten = back := by
  have henough : front.length ≤ ([] : List α).length + chunks.flatten.length := by
    simp [hstream]
  obtain ⟨rest, hread, hrest⟩ :=
    readFullLoop_filled (Nat.zero_le _) henough
  rw [hstream] at hread hrest
  exact ⟨rest, by simpa [readFullChunks] using hread, by simpa using hrest⟩

theorem readFullChunks_ended
    {chunks : List (List α)} {size : ℕ}
    (hshort : chunks.flatten.length < size) :
    readFullChunks size chunks = .ended chunks.flatten := by
  have hempty : ([] : List α).length + chunks.flatten.length < size := by
    simpa using hshort
  rw [readFullChunks, readFullLoop_ended hempty, List.nil_append]

theorem readFullChunks_eq_filled
    {chunks rest : List (List α)} {size : ℕ} {data : List α}
    (hread : readFullChunks size chunks = .filled data rest) :
    data.length = size ∧ chunks.flatten = data ++ rest.flatten := by
  rcases Nat.lt_or_ge chunks.flatten.length size with hshort | henough
  · rw [readFullChunks_ended hshort] at hread
    cases hread
  · have hfront : (chunks.flatten.take size).length = size := by
      rw [List.length_take]
      omega
    obtain ⟨rest', hread', hrest⟩ := readFullChunks_append
      (List.take_append_drop size chunks.flatten).symm
    rw [hfront, hread] at hread'
    cases hread'
    rw [hrest]
    exact ⟨hfront, (List.take_append_drop size chunks.flatten).symm⟩

end GoP2P
