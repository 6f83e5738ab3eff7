import Mathlib.Tactic

/-!
# Runs of a machine

A machine has initial states, actions that may be enabled in a state, and a
next state for each action; whatever the environment chooses is part of the
action.  `Run M allowed s` says that `s` ends a run of `M` each of whose
actions was allowed in the state it was taken in, so one machine serves both
for statements about all its runs and for statements about some of them.
-/

namespace GoP2P

structure Machine (σ α : Type*) where
  initial : σ → Prop
  enabled : σ → α → Prop
  next : σ → α → σ

namespace Machine

variable {σ α : Type*} {M : Machine σ α} {allowed : σ → α → Prop}

inductive Run (M : Machine σ α) (allowed : σ → α → Prop) : σ → Prop where
  | start {state : σ} : M.initial state → Run M allowed state
  | step {state : σ} {action : α} :
      Run M allowed state → M.enabled state action → allowed state action →
        Run M allowed (M.next state action)

def Reachable (M : Machine σ α) : σ → Prop := M.Run fun _ _ => True

theorem Run.reachable {state : σ} (hrun : M.Run allowed state) :
    M.Reachable state := by
  induction hrun with
  | start hinitial => exact .start hinitial
  | step _ henabled _ ih => exact .step ih henabled trivial

/-- What holds initially and is kept by every allowed step holds after every
run.  The step may use that the state it starts from ends a run itself. -/
theorem Run.invariant {Inv : σ → Prop}
    (hinitial : ∀ state, M.initial state → Inv state)
    (hstep : ∀ state action, M.Run allowed state → Inv state →
      M.enabled state action → allowed state action →
        Inv (M.next state action))
    {state : σ} (hrun : M.Run allowed state) : Inv state := by
  induction hrun with
  | start h => exact hinitial _ h
  | step hbefore henabled hallowed ih =>
      exact hstep _ _ hbefore ih henabled hallowed

def replay (M : Machine σ α) : σ → List α → σ
  | state, [] => state
  | state, action :: rest => M.replay (M.next state action) rest

def Replays (M : Machine σ α) (allowed : σ → α → Prop) : σ → List α → Prop
  | _, [] => True
  | state, action :: rest =>
      M.enabled state action ∧ allowed state action ∧
        M.Replays allowed (M.next state action) rest

instance decidableReplays [∀ state action, Decidable (M.enabled state action)]
    [∀ state action, Decidable (allowed state action)] :
    ∀ (state : σ) (actions : List α),
      Decidable (M.Replays allowed state actions)
  | _, [] => .isTrue trivial
  | state, action :: rest =>
      have := decidableReplays (M.next state action) rest
      inferInstanceAs (Decidable (M.enabled state action ∧
        allowed state action ∧ M.Replays allowed (M.next state action) rest))

theorem Run.replay {state : σ} (hrun : M.Run allowed state) {actions : List α}
    (hactions : M.Replays allowed state actions) :
    M.Run allowed (M.replay state actions) := by
  induction actions generalizing state with
  | nil => exact hrun
  | cons action rest ih =>
      rcases hactions with ⟨henabled, hallowed, hrest⟩
      exact ih (.step hrun henabled hallowed) hrest

@[simp] theorem replay_append (state : σ) (first second : List α) :
    M.replay state (first ++ second) =
      M.replay (M.replay state first) second := by
  induction first generalizing state with
  | nil => rfl
  | cons action rest ih => exact ih (M.next state action)

theorem replays_append {state : σ} {first second : List α} :
    M.Replays allowed state (first ++ second) ↔
      M.Replays allowed state first ∧
        M.Replays allowed (M.replay state first) second := by
  induction first generalizing state with
  | nil => simp [Replays, replay]
  | cons action rest ih => simp [Replays, replay, ih, and_assoc]

/-- As `Run.invariant`, for what relates a state to the actions that led to
it. -/
theorem Replays.invariant {start : σ} (Inv : List α → σ → Prop)
    (hstart : Inv [] start)
    (hstep : ∀ actions action, Inv actions (M.replay start actions) →
      M.enabled (M.replay start actions) action →
      allowed (M.replay start actions) action →
        Inv (actions ++ [action]) (M.next (M.replay start actions) action))
    {actions : List α} (hactions : M.Replays allowed start actions) :
    Inv actions (M.replay start actions) := by
  induction actions using List.reverseRecOn with
  | nil => exact hstart
  | append_singleton rest action ih =>
      rcases replays_append.mp hactions with ⟨hrest, henabled, hallowed, -⟩
      rw [replay_append]
      exact hstep rest action (ih hrest) henabled hallowed

/-- Where a step keeps `Inv` exactly if it is allowed, `Inv` holds all along a
sequence of actions exactly if each of them is. -/
theorem Replays.forall_prefix_iff (Inv : σ → Prop)
    (hstep : ∀ state action, Inv state → M.enabled state action →
      (Inv (M.next state action) ↔ allowed state action))
    {start : σ} (hstart : Inv start) {actions : List α}
    (hactions : M.Replays (fun _ _ => True) start actions) :
    (∀ part, part <+: actions → Inv (M.replay start part)) ↔
      M.Replays allowed start actions := by
  induction actions generalizing start with
  | nil =>
      apply iff_of_true _ trivial
      intro part hpart
      rw [List.prefix_nil.mp hpart]
      exact hstart
  | cons action rest ih =>
      rcases hactions with ⟨henabled, -, hrest⟩
      have hiff := hstep start action hstart henabled
      constructor
      · intro hall
        have hnext : Inv (M.next start action) := by
          apply hall [action]
          simp
        refine ⟨henabled, hiff.mp hnext, (ih hnext hrest).mp ?_⟩
        intro part hpart
        exact hall (action :: part) (List.cons_prefix_cons.mpr ⟨rfl, hpart⟩)
      · rintro ⟨-, hallowed, hreplays⟩ part hpart
        cases part with
        | nil => exact hstart
        | cons first part =>
            rcases List.cons_prefix_cons.mp hpart with ⟨rfl, htail⟩
            exact (ih (hiff.mpr hallowed) hrest).mpr hreplays part htail

end Machine

end GoP2P
