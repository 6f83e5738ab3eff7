import Mathlib.Tactic

/-!
# Buffered channels

A channel with a bounded buffer: a send that would block is given up, as in a
`select` with a default case, and a send on a closed channel panics whether or
not the buffer has room.
-/

namespace GoP2P

structure Channel (α : Type*) (capacity : ℕ) where
  buffer : List α := []
  closed : Bool := false
  bounded : buffer.length ≤ capacity := by simp
  deriving DecidableEq, Repr

namespace Channel

variable {α : Type*} {capacity : ℕ}

inductive SendResult (α : Type*) (capacity : ℕ) where
  | sent (channel : Channel α capacity)
  | notReady
  | panicked

def trySend (channel : Channel α capacity) (value : α) :
    SendResult α capacity :=
  if channel.closed then .panicked
  else if hroom : channel.buffer.length < capacity then
    .sent
      { buffer := channel.buffer ++ [value]
        bounded := by
          rw [List.length_append]
          exact hroom }
  else .notReady

def receive? (channel : Channel α capacity) :
    Option (α × Channel α capacity) :=
  match h : channel.buffer with
  | [] => none
  | value :: rest =>
      some (value,
        { buffer := rest
          closed := channel.closed
          bounded := by
            have := channel.bounded
            rw [h, List.length_cons] at this
            omega })

def close (channel : Channel α capacity) : Channel α capacity :=
  { channel with closed := true }

theorem trySend_eq_panicked_iff {channel : Channel α capacity} {value : α} :
    channel.trySend value = .panicked ↔ channel.closed = true := by
  unfold trySend
  split
  next hclosed => simp [hclosed]
  next hopen =>
    simp only [hopen, Bool.false_eq_true, iff_false]
    split <;> simp

theorem closed_of_trySend {channel channel' : Channel α capacity} {value : α}
    (hsent : channel.trySend value = .sent channel') :
    channel'.closed = false := by
  unfold trySend at hsent
  split at hsent
  · cases hsent
  · split at hsent
    · cases hsent
      rfl
    · cases hsent

theorem closed_of_receive? {channel channel' : Channel α capacity} {value : α}
    (hreceived : channel.receive? = some (value, channel')) :
    channel'.closed = channel.closed := by
  unfold receive? at hreceived
  split at hreceived
  · cases hreceived
  · cases hreceived
    rfl

theorem buffer_of_trySend {channel channel' : Channel α capacity} {value : α}
    (hsent : channel.trySend value = .sent channel') :
    channel'.buffer = channel.buffer ++ [value] := by
  unfold trySend at hsent
  split at hsent
  · cases hsent
  · split at hsent
    · cases hsent
      rfl
    · cases hsent

theorem room_of_trySend {channel channel' : Channel α capacity} {value : α}
    (hsent : channel.trySend value = .sent channel') :
    channel.buffer.length < capacity := by
  unfold trySend at hsent
  split at hsent
  · cases hsent
  · split at hsent
    next hroom => exact hroom
    next => cases hsent

theorem full_of_trySend {channel : Channel α capacity} {value : α}
    (hnotReady : channel.trySend value = .notReady) :
    channel.buffer.length = capacity := by
  unfold trySend at hnotReady
  split at hnotReady
  · cases hnotReady
  · split at hnotReady
    · cases hnotReady
    next hfull => exact le_antisymm channel.bounded (not_lt.mp hfull)

theorem buffer_of_receive? {channel channel' : Channel α capacity} {value : α}
    (hreceived : channel.receive? = some (value, channel')) :
    channel.buffer = value :: channel'.buffer := by
  unfold receive? at hreceived
  split at hreceived
  · cases hreceived
  next first rest hbuffer =>
    cases hreceived
    exact hbuffer

end Channel

end GoP2P
