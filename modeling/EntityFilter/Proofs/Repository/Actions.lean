/-
This file runs actions on a repository step by step.
-/
import EntityFilter.Mutation.Resolution

namespace EntityFilter

namespace Action

variable {State First Last Result : Type}

/-- An action goes on with the result and the state of its first step. -/
theorem run_bind_of_ok {first : Action State First} {next : First → Action State Last}
    {state middle : State} {value : First} (ran : first.run state = .ok value middle) :
    (first >>= next).run state = (next value).run middle := by
  rw [EStateM.run_bind, ran]

/-- An action in two steps succeeds when both steps do. -/
theorem run_bind_eq_ok {first : Action State First} {next : First → Action State Last}
    {state final : State} {result : Last} :
    (first >>= next).run state = .ok result final ↔
      ∃ value middle, first.run state = .ok value middle ∧
        (next value).run middle = .ok result final := by
  rw [EStateM.run_bind]
  cases first.run state with
  | error cause middle => simp
  | ok value middle =>
      refine ⟨fun ran => ⟨value, middle, rfl, ran⟩, ?_⟩
      rintro ⟨_, _, ⟨⟩, ran⟩
      exact ran

/-- An action that reads the state first goes on with it. -/
theorem run_get_bind (next : State → Action State Last) (state : State) :
    (get >>= next).run state = (next state).run state :=
  rfl

theorem run_absorbed (action : Action State (Option Result)) (state : State) :
    action.absorbed.run state =
      match action.run state with
      | .ok result next => .ok result next
      | .error _ next => .ok none next :=
  rfl

theorem run_of_outcome {action : Action State Result} {state next : State} {result : Result}
    (ran : action.outcome state = (.ok result, next)) : action.run state = .ok result next := by
  rw [outcome] at ran
  split at ran <;> cases ran
  assumption

theorem outcome_of_ok {action : Action State Result} {state next : State} {result : Result}
    (ran : action.run state = .ok result next) : action.outcome state = (.ok result, next) := by
  rw [outcome, ran]

/-- Actions succeed side by side, with results and states that are related. -/
def Agree {Left Right First Second : Type} (left : Action Left First)
    (right : Action Right Second) (state : Left) (other : Right)
    (related : First → Second → Left → Right → Prop) : Prop :=
  ∃ first second next last, left.run state = .ok first next ∧
    right.run other = .ok second last ∧ related first second next last

namespace Agree

variable {Left Right First Second Third Fourth : Type} {left : Action Left First}
  {right : Action Right Second} {state : Left} {other : Right}
  {related : First → Second → Left → Right → Prop}

theorem pure {first : First} {second : Second} (holds : related first second state other) :
    Agree (Pure.pure first) (Pure.pure second) state other related :=
  ⟨first, second, state, other, rfl, rfl, holds⟩

theorem mono (agree : Agree left right state other related)
    {weaker : First → Second → Left → Right → Prop}
    (follows : ∀ first second next last, related first second next last →
      weaker first second next last) : Agree left right state other weaker := by
  obtain ⟨first, second, next, last, ranLeft, ranRight, holds⟩ := agree
  exact ⟨first, second, next, last, ranLeft, ranRight, follows _ _ _ _ holds⟩

/-- Actions in two steps agree when both steps do. -/
theorem bind (agree : Agree left right state other related)
    {nextLeft : First → Action Left Third} {nextRight : Second → Action Right Fourth}
    {final : Third → Fourth → Left → Right → Prop}
    (follows : ∀ first second next last, related first second next last →
      Agree (nextLeft first) (nextRight second) next last final) :
    Agree (left >>= nextLeft) (right >>= nextRight) state other final := by
  obtain ⟨first, second, next, last, ranLeft, ranRight, holds⟩ := agree
  obtain ⟨third, fourth, _, _, ranNext, ranLast, holds⟩ := follows _ _ _ _ holds
  refine ⟨third, fourth, _, _, ?_, ?_, holds⟩
  · rw [run_bind_of_ok ranLeft, ranNext]
  · rw [run_bind_of_ok ranRight, ranLast]

theorem map {final : Third → Fourth → Left → Right → Prop} {firstResult : First → Third}
    {secondResult : Second → Fourth}
    (agree : Agree left right state other fun first second next last =>
      final (firstResult first) (secondResult second) next last) :
    Agree (firstResult <$> left) (secondResult <$> right) state other final := by
  rw [map_eq_pure_bind, map_eq_pure_bind]
  exact agree.bind fun _ _ _ _ => pure

theorem absorbed {left : Action Left (Option First)} {right : Action Right (Option Second)}
    {related : Option First → Option Second → Left → Right → Prop}
    (agree : Agree left right state other related) :
    Agree left.absorbed right.absorbed state other related := by
  obtain ⟨first, second, next, last, ranLeft, ranRight, holds⟩ := agree
  refine ⟨first, second, next, last, ?_, ?_, holds⟩
  · rw [run_absorbed, ranLeft]
  · rw [run_absorbed, ranRight]

end Agree

/-- An action keeps an invariant of the state, whether or not it fails, and its result passes a
test. -/
def Keeps (action : Action State Result) (state : State) (invariant : State → Prop)
    (passes : Result → Prop) : Prop :=
  match action.run state with
  | .ok result next => passes result ∧ invariant next
  | .error _ next => invariant next

namespace Keeps

variable {first : Action State First} {state : State} {invariant : State → Prop}
  {passes : First → Prop}

theorem of_ok {value : First} {next : State} (ran : first.run state = .ok value next)
    (result : passes value) (kept : invariant next) : Keeps first state invariant passes := by
  rw [Keeps, ran]
  exact ⟨result, kept⟩

/-- An action in two steps keeps what both steps keep. -/
theorem bind {next : First → Action State Last} {ends : Last → Prop}
    (keeps : Keeps first state invariant passes)
    (follows : ∀ result middle, passes result → invariant middle →
      Keeps (next result) middle invariant ends) :
    Keeps (first >>= next) state invariant ends := by
  unfold Keeps at keeps ⊢
  rw [EStateM.run_bind]
  cases ran : first.run state with
  | ok value middle =>
      rw [ran] at keeps
      exact follows value middle keeps.1 keeps.2
  | error cause middle =>
      rw [ran] at keeps
      exact keeps

/-- The state after an action, even after one that failed. -/
theorem outcome (keeps : Keeps first state invariant passes) :
    invariant (first.outcome state).2 := by
  unfold Keeps at keeps
  rw [Action.outcome]
  cases ran : first.run state with
  | ok value next =>
      rw [ran] at keeps
      exact keeps.2
  | error cause next =>
      rw [ran] at keeps
      exact keeps

end Keeps

end Action

namespace Session

variable {State Result : Type}

theorem run_onState (action : Action State Result) (session : Session State) :
    (onState action).run session =
      match action.run session.state with
      | .ok result state => .ok result { session with state }
      | .error cause state => .error cause { session with state } :=
  rfl

theorem run_onState_of_ok {action : Action State Result} {session : Session State}
    {result : Result} {state : State} (ran : action.run session.state = .ok result state) :
    (onState action).run session = .ok result { session with state } := by
  rw [run_onState, ran]

theorem run_onState_eq_ok {action : Action State Result} {session final : Session State}
    {result : Result} :
    (onState action).run session = .ok result final ↔
      action.run session.state = .ok result final.state ∧ final.root = session.root := by
  rw [run_onState]
  obtain ⟨root, state⟩ := final
  cases action.run session.state with
  | error cause next => simp
  | ok value next =>
      simp only [EStateM.Result.ok.injEq, mk.injEq]
      exact ⟨fun ⟨value, root, state⟩ => ⟨⟨value, state⟩, root.symm⟩,
        fun ⟨⟨value, state⟩, root⟩ => ⟨value, root.symm, state⟩⟩

/-- A count that only tells whether anything was counted leaves the root as it was. -/
theorem of_counted {action : Action State Nat} {session final : Session State} {changed : Bool}
    (ran : EStateM.run (do
      let count ← onState action
      pure (decide (0 < count))) session = .ok changed final) :
    ∃ count, action.run session.state = .ok count final.state ∧ final.root = session.root := by
  obtain ⟨count, middle, counted, rest⟩ := Action.run_bind_eq_ok.mp ran
  cases rest
  exact ⟨count, run_onState_eq_ok.mp counted⟩

/-- An action on the repository alone keeps what it keeps there, and the root. -/
theorem keeps_onState {action : Action State Result} {session : Session State}
    {invariant : State → Prop} {passes : Result → Prop} {holds : Entity → Prop}
    (keeps : Action.Keeps action session.state invariant passes) (root : holds session.root) :
    Action.Keeps (onState action) session
      (fun next => holds next.root ∧ invariant next.state) passes := by
  unfold Action.Keeps at keeps ⊢
  rw [run_onState]
  cases ran : action.run session.state with
  | ok result next =>
      rw [ran] at keeps
      exact ⟨keeps.1, root, keeps.2⟩
  | error cause next =>
      rw [ran] at keeps
      exact ⟨root, keeps⟩

/-- Actions on the repositories alone agree when they do so on the states of the repositories. -/
theorem agree_onState {Left Right First Second : Type} {left : Action Left First}
    {right : Action Right Second} {session : Session Left} {other : Session Right}
    {related : First → Second → Left → Right → Prop}
    (agree : Action.Agree left right session.state other.state related) :
    Action.Agree (onState left) (onState right) session other fun first second next last =>
      next.root = session.root ∧ last.root = other.root ∧
        related first second next.state last.state := by
  obtain ⟨first, second, next, last, ranLeft, ranRight, holds⟩ := agree
  exact ⟨first, second, _, _, run_onState_of_ok ranLeft, run_onState_of_ok ranRight, rfl, rfl,
    holds⟩

end Session

end EntityFilter
