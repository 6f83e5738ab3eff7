import Mathlib.Tactic

/-!
# Traced computations

A modelled call returns a value, returns an error, panics, or has used up the
fuel that stands in for its running time.  `Traced` adds the list of ghost
events which the call emits on the way, so that one definition of a decoder
answers questions about its result and questions about the work it did.
The events of a call that fails or panics are those emitted before it did.
-/

namespace GoP2P

universe u v w

/-- How a call ends.  `unfinished` is reserved for exhausted fuel; a model
whose fuel suffices never ends there. -/
inductive Outcome (ε : Type u) (α : Type v) where
  | returned (value : α)
  | failed (error : ε)
  | panicked
  | unfinished
  deriving DecidableEq, Repr

namespace Outcome

variable {ε : Type u} {α β : Type v}

def bind (outcome : Outcome ε α) (next : α → Outcome ε β) : Outcome ε β :=
  match outcome with
  | .returned value => next value
  | .failed error => .failed error
  | .panicked => .panicked
  | .unfinished => .unfinished

instance : Monad (Outcome ε) where
  pure := .returned
  bind := Outcome.bind

/-- Replace the error of a failed call, as in `core.Fail(coreerr.E(.., err))`. -/
def mapError (wrap : ε → ε) : Outcome ε α → Outcome ε α
  | .failed error => .failed (wrap error)
  | outcome => outcome

def ofExcept : Except ε α → Outcome ε α
  | .ok value => .returned value
  | .error error => .failed error

/-- The call comes back to its caller, with a value or with an error. -/
def Ends (outcome : Outcome ε α) : Prop :=
  (∃ value, outcome = .returned value) ∨ ∃ error, outcome = .failed error

instance (outcome : Outcome ε α) : Decidable outcome.Ends :=
  match outcome with
  | .returned value => isTrue (.inl ⟨value, rfl⟩)
  | .failed error => isTrue (.inr ⟨error, rfl⟩)
  | .panicked => isFalse (by simp [Ends])
  | .unfinished => isFalse (by simp [Ends])

@[simp] theorem pure_eq_returned (value : α) :
    (pure value : Outcome ε α) = .returned value := rfl

@[simp] theorem returned_bind (value : α) (next : α → Outcome ε β) :
    (Outcome.returned value >>= next) = next value := rfl

@[simp] theorem failed_bind (error : ε) (next : α → Outcome ε β) :
    (Outcome.failed error >>= next) = .failed error := rfl

@[simp] theorem panicked_bind (next : α → Outcome ε β) :
    ((.panicked : Outcome ε α) >>= next) = .panicked := rfl

@[simp] theorem unfinished_bind (next : α → Outcome ε β) :
    ((.unfinished : Outcome ε α) >>= next) = .unfinished := rfl

theorem bind_eq_returned_iff
    {outcome : Outcome ε α} {next : α → Outcome ε β} {result : β} :
    (outcome >>= next) = .returned result ↔
      ∃ value, outcome = .returned value ∧ next value = .returned result := by
  cases outcome <;> simp

@[simp] theorem ofExcept_eq_returned_iff
    {call : Except ε α} {value : α} :
    ofExcept call = .returned value ↔ call = .ok value := by
  cases call <;> simp [ofExcept]

@[simp] theorem mapError_eq_returned_iff
    {wrap : ε → ε} {outcome : Outcome ε α} {value : α} :
    outcome.mapError wrap = .returned value ↔ outcome = .returned value := by
  cases outcome <;> simp [mapError]

@[simp] theorem ends_returned (value : α) :
    (Outcome.returned value : Outcome ε α).Ends := .inl ⟨value, rfl⟩

@[simp] theorem ends_failed (error : ε) :
    (Outcome.failed error : Outcome ε α).Ends := .inr ⟨error, rfl⟩

@[simp] theorem not_ends_panicked :
    ¬ (Outcome.panicked : Outcome ε α).Ends := by
  simp [Ends]

@[simp] theorem not_ends_unfinished :
    ¬ (Outcome.unfinished : Outcome ε α).Ends := by
  simp [Ends]

@[simp] theorem ends_mapError_iff
    {wrap : ε → ε} {outcome : Outcome ε α} :
    (outcome.mapError wrap).Ends ↔ outcome.Ends := by
  cases outcome <;> simp [mapError, Ends]

theorem ends_bind
    {outcome : Outcome ε α} {next : α → Outcome ε β}
    (hfirst : outcome.Ends)
    (hnext : ∀ value, outcome = .returned value → (next value).Ends) :
    (outcome >>= next).Ends := by
  rcases hfirst with ⟨value, rfl⟩ | ⟨error, rfl⟩
  · exact hnext value rfl
  · simp

end Outcome

structure Traced (σ : Type w) (ε : Type u) (α : Type v) where
  events : List σ
  outcome : Outcome ε α
  deriving DecidableEq, Repr

namespace Traced

variable {σ : Type w} {ε : Type u} {α β : Type v}

def bind (call : Traced σ ε α) (next : α → Traced σ ε β) : Traced σ ε β :=
  match call.outcome with
  | .returned value =>
      ⟨call.events ++ (next value).events, (next value).outcome⟩
  | .failed error => ⟨call.events, .failed error⟩
  | .panicked => ⟨call.events, .panicked⟩
  | .unfinished => ⟨call.events, .unfinished⟩

instance : Monad (Traced σ ε) where
  pure value := ⟨[], .returned value⟩
  bind := Traced.bind

def lift (outcome : Outcome ε α) : Traced σ ε α := ⟨[], outcome⟩

def fail (error : ε) : Traced σ ε α := ⟨[], .failed error⟩

def emit (event : σ) : Traced σ ε PUnit := ⟨[event], .returned ⟨⟩⟩

/-- The guard `if condition { return core.Fail(error) }`. -/
def failIf (condition : Prop) [Decidable condition] (error : ε) :
    Traced σ ε PUnit :=
  if condition then fail error else pure ⟨⟩

def mapError (wrap : ε → ε) (call : Traced σ ε α) : Traced σ ε α :=
  ⟨call.events, call.outcome.mapError wrap⟩

@[simp] theorem pure_outcome (value : α) :
    (pure value : Traced σ ε α).outcome = .returned value := rfl

@[simp] theorem pure_events (value : α) :
    (pure value : Traced σ ε α).events = [] := rfl

@[simp] theorem lift_outcome (outcome : Outcome ε α) :
    (lift outcome : Traced σ ε α).outcome = outcome := rfl

@[simp] theorem lift_events (outcome : Outcome ε α) :
    (lift outcome : Traced σ ε α).events = [] := rfl

@[simp] theorem fail_outcome (error : ε) :
    (fail error : Traced σ ε α).outcome = .failed error := rfl

@[simp] theorem fail_events (error : ε) :
    (fail error : Traced σ ε α).events = [] := rfl

@[simp] theorem emit_outcome (event : σ) :
    (emit event : Traced σ ε PUnit).outcome = .returned ⟨⟩ := rfl

@[simp] theorem emit_events (event : σ) :
    (emit event : Traced σ ε PUnit).events = [event] := rfl

@[simp] theorem mapError_outcome (wrap : ε → ε) (call : Traced σ ε α) :
    (call.mapError wrap).outcome = call.outcome.mapError wrap := rfl

@[simp] theorem mapError_events (wrap : ε → ε) (call : Traced σ ε α) :
    (call.mapError wrap).events = call.events := rfl

@[simp] theorem failIf_outcome
    (condition : Prop) [Decidable condition] (error : ε) :
    (failIf condition error : Traced σ ε PUnit).outcome =
      if condition then .failed error else .returned ⟨⟩ := by
  unfold failIf
  split_ifs <;> rfl

@[simp] theorem failIf_events
    (condition : Prop) [Decidable condition] (error : ε) :
    (failIf condition error : Traced σ ε PUnit).events = [] := by
  unfold failIf
  split_ifs <;> rfl

theorem failIf_of {condition : Prop} [Decidable condition]
    (hcondition : condition) (error : ε) :
    (failIf condition error : Traced σ ε PUnit) = fail error :=
  if_pos hcondition

theorem failIf_of_not {condition : Prop} [Decidable condition]
    (hcondition : ¬ condition) (error : ε) :
    (failIf condition error : Traced σ ε PUnit) = pure ⟨⟩ :=
  if_neg hcondition

@[simp] theorem pure_bind (value : α) (next : α → Traced σ ε β) :
    ((pure value : Traced σ ε α) >>= next) = next value := by
  change Traced.bind ⟨[], .returned value⟩ next = next value
  simp [Traced.bind]

@[simp] theorem fail_bind (error : ε) (next : α → Traced σ ε β) :
    ((fail error : Traced σ ε α) >>= next) = fail error := rfl

theorem bind_of_returned
    {call : Traced σ ε α} {value : α}
    (hcall : call.outcome = .returned value) (next : α → Traced σ ε β) :
    (call >>= next) =
      ⟨call.events ++ (next value).events, (next value).outcome⟩ := by
  change Traced.bind call next = _
  simp [Traced.bind, hcall]

theorem bind_of_failed
    {call : Traced σ ε α} {error : ε}
    (hcall : call.outcome = .failed error) (next : α → Traced σ ε β) :
    (call >>= next) = ⟨call.events, .failed error⟩ := by
  change Traced.bind call next = _
  simp [Traced.bind, hcall]

theorem bind_events_of_not_returned
    {call : Traced σ ε α} (hcall : ∀ value, call.outcome ≠ .returned value)
    (next : α → Traced σ ε β) : (call >>= next).events = call.events := by
  change (Traced.bind call next).events = _
  cases houtcome : call.outcome with
  | returned value => exact absurd houtcome (hcall value)
  | failed | panicked | unfinished => rw [Traced.bind, houtcome]

@[simp] theorem bind_outcome (call : Traced σ ε α) (next : α → Traced σ ε β) :
    (call >>= next).outcome =
      call.outcome >>= fun value => (next value).outcome := by
  change (Traced.bind call next).outcome = _
  cases hcall : call.outcome <;> simp [Traced.bind, hcall]

theorem bind_assoc {γ : Type v} (call : Traced σ ε α)
    (next : α → Traced σ ε β) (last : β → Traced σ ε γ) :
    (call >>= next) >>= last = call >>= fun value => next value >>= last := by
  change Traced.bind (Traced.bind call next) last =
    Traced.bind call fun value => Traced.bind (next value) last
  cases hcall : call.outcome with
  | returned value =>
      cases hnext : (next value).outcome <;> simp [Traced.bind, hcall, hnext]
  | failed | panicked | unfinished => simp [Traced.bind, hcall]

theorem ends_bind {call : Traced σ ε α} {next : α → Traced σ ε β}
    (hcall : call.outcome.Ends)
    (hnext : ∀ value, call.outcome = .returned value →
      (next value).outcome.Ends) :
    (call >>= next).outcome.Ends := by
  rw [bind_outcome]
  exact Outcome.ends_bind hcall hnext

theorem mem_events_bind_iff
    {call : Traced σ ε α} {next : α → Traced σ ε β} {event : σ} :
    event ∈ (call >>= next).events ↔
      event ∈ call.events ∨
        ∃ value, call.outcome = .returned value ∧
          event ∈ (next value).events := by
  change event ∈ (Traced.bind call next).events ↔ _
  cases hcall : call.outcome <;> simp [Traced.bind, hcall]

def Emits (P : σ → Prop) (call : Traced σ ε α) : Prop :=
  ∀ event ∈ call.events, P event

section Emits

variable {P : σ → Prop}

theorem emits_of_events_eq_nil {call : Traced σ ε α}
    (hevents : call.events = []) : call.Emits P := by
  simp [Emits, hevents]

@[simp] theorem emits_pure (value : α) :
    (pure value : Traced σ ε α).Emits P :=
  emits_of_events_eq_nil rfl

@[simp] theorem emits_fail (error : ε) :
    (fail error : Traced σ ε α).Emits P :=
  emits_of_events_eq_nil rfl

@[simp] theorem emits_lift (outcome : Outcome ε α) :
    (lift outcome : Traced σ ε α).Emits P :=
  emits_of_events_eq_nil rfl

@[simp] theorem emits_failIf
    (condition : Prop) [Decidable condition] (error : ε) :
    (failIf condition error : Traced σ ε PUnit).Emits P :=
  emits_of_events_eq_nil (failIf_events condition error)

@[simp] theorem emits_emit_iff {event : σ} :
    (emit event : Traced σ ε PUnit).Emits P ↔ P event := by
  simp [Emits]

@[simp] theorem emits_mapError_iff {wrap : ε → ε} {call : Traced σ ε α} :
    (call.mapError wrap).Emits P ↔ call.Emits P := Iff.rfl

theorem Emits.bind {call : Traced σ ε α} {next : α → Traced σ ε β}
    (hcall : call.Emits P)
    (hnext : ∀ value, call.outcome = .returned value →
      (next value).Emits P) :
    (call >>= next).Emits P := by
  intro event hevent
  rcases mem_events_bind_iff.mp hevent with hfirst | ⟨value, hvalue, hsecond⟩
  · exact hcall event hfirst
  · exact hnext value hvalue event hsecond

theorem emits_failIf_bind
    {condition : Prop} [Decidable condition] {error : ε}
    {next : PUnit → Traced σ ε β}
    (hnext : ¬ condition → (next ⟨⟩).Emits P) :
    (failIf condition error >>= next).Emits P := by
  refine Emits.bind (emits_failIf condition error) ?_
  intro value hvalue
  apply hnext
  intro hcondition
  simp [hcondition] at hvalue

theorem emits_lift_bind {outcome : Outcome ε α} {next : α → Traced σ ε β}
    (hnext : ∀ value, outcome = .returned value → (next value).Emits P) :
    (lift outcome >>= next).Emits P :=
  Emits.bind (emits_lift outcome) hnext

end Emits

end Traced

end GoP2P
