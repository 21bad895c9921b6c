import Mathlib.Data.Nat.Basic
import Mathlib.Order.Basic
import Mathlib.Tactic.Push

/-!
# Fair runs

A system takes steps, each of them by one of its actors. In an infinite run an actor that can
always move eventually does. What a run reaches under this assumption is shown with a rank: as
long as the goal is not reached, some actor can move and lowers the rank, and the steps of the
others neither raise the rank nor change which actor that is.
-/

namespace Kiac

/-- The steps of the actors. -/
abbrev Moves (State Actor : Type) := Actor → State → State → Prop

namespace Moves

variable {State Actor : Type} (moves : Moves State Actor)

def Enabled (actor : Actor) (state : State) : Prop := ∃ next, moves actor state next

/-- The states that steps lead to. -/
inductive Reachable (start : State) : State → Prop where
  | refl : Reachable start start
  | step {actor : Actor} {state next : State} (reached : Reachable start state)
      (move : moves actor state next) : Reachable start next

/-- An infinite run, in which nobody may move for a while. -/
structure Run where
  state : ℕ → State
  actor : ℕ → Option Actor
  moved : ∀ n actor', actor n = some actor' → moves actor' (state n) (state (n + 1))
  idle : ∀ n, actor n = none → state (n + 1) = state n

/-- An actor that can always move from some point on does so. -/
def Run.Fair {moves : Moves State Actor} (run : Run moves) (actor : Actor) : Prop :=
  ∀ n, (∀ m, n ≤ m → moves.Enabled actor (run.state m)) → ∃ m, n ≤ m ∧ run.actor m = some actor

variable {moves}

theorem Reachable.invariant (inv : State → Prop) {start state : State}
    (keeps : ∀ actor s t, inv s → moves actor s t → inv t) (initially : inv start)
    (reached : Reachable moves start state) : inv state := by
  induction reached with
  | refl => exact initially
  | step _ move ih => exact keeps _ _ _ ih move

namespace Run

variable (run : Run moves)

theorem reachable (n : ℕ) : Reachable moves (run.state 0) (run.state n) := by
  induction n with
  | zero => exact .refl
  | succ n ih =>
    cases acts : run.actor n with
    | none => rw [run.idle n acts]; exact ih
    | some actor => exact ih.step (run.moved n actor acts)

/--
A goal is reached if some actor can always lower the rank, fairness lets it, and the steps of the
others keep the rank and the actor.
-/
theorem eventually_of_rank (inv goal : State → Prop) (rank : State → ℕ) (helper : State → Actor)
    (fair : ∀ state, run.Fair (helper state))
    (enabled : ∀ m, inv (run.state m) → ¬ goal (run.state m) →
      moves.Enabled (helper (run.state m)) (run.state m))
    (lowers : ∀ m actor, inv (run.state m) → ¬ goal (run.state m) → run.actor m = some actor →
      inv (run.state (m + 1)) ∧ (goal (run.state (m + 1)) ∨
        rank (run.state (m + 1)) < rank (run.state m) ∨
        rank (run.state (m + 1)) = rank (run.state m) ∧
          helper (run.state (m + 1)) = helper (run.state m) ∧ actor ≠ helper (run.state m)))
    {n : ℕ} (holds : inv (run.state n)) : ∃ m, n ≤ m ∧ goal (run.state m) := by
  induction bound : rank (run.state n) using Nat.strong_induction_on generalizing n with
  | _ bound' ih =>
    subst bound
    by_contra never
    push Not at never
    -- As long as the rank stays, the helper is the same one and does not move.
    have waits : ∀ m, n ≤ m → inv (run.state m) ∧ rank (run.state m) = rank (run.state n) ∧
        helper (run.state m) = helper (run.state n) ∧
        ∀ k, n ≤ k → k < m → run.actor k ≠ some (helper (run.state n)) := by
      intro m later
      induction m, later using Nat.le_induction with
      | base => exact ⟨holds, rfl, rfl, fun k above below => absurd below (by omega)⟩
      | succ m later waiting =>
        rcases waiting with ⟨holdsHere, sameRank, sameHelper, quiet⟩
        cases acts : run.actor m with
        | none =>
          rw [run.idle m acts]
          refine ⟨holdsHere, sameRank, sameHelper, fun k above below => ?_⟩
          by_cases here : k = m
          · rw [here, acts]
            simp
          · exact quiet k above (by omega)
        | some actor =>
          rcases lowers m actor holdsHere (never m later) acts with
            ⟨holdsNext, reached | lower | ⟨keeps, sameNext, other⟩⟩
          · exact absurd reached (never (m + 1) (by omega))
          · rw [sameRank] at lower
            rcases ih _ lower holdsNext rfl with ⟨k, after, reached⟩
            exact absurd reached (never k (by omega))
          · refine ⟨holdsNext, keeps.trans sameRank, sameNext.trans sameHelper,
              fun k above below => ?_⟩
            by_cases here : k = m
            · rw [here, acts, ← sameHelper]
              intro same
              exact other (Option.some.inj same)
            · exact quiet k above (by omega)
    have ready : ∀ m, n ≤ m → moves.Enabled (helper (run.state n)) (run.state m) := by
      intro m later
      rcases waits m later with ⟨holdsHere, _, sameHelper, _⟩
      rw [← sameHelper]
      exact enabled m holdsHere (never m later)
    rcases fair (run.state n) n ready with ⟨m, later, acts⟩
    exact (waits (m + 1) (by omega)).2.2.2 m later (by omega) acts

end Run

end Moves

end Kiac
