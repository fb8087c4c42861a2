import InveniOps.Domain.Types

/-!
# The work item state machine

`domain/state`: a state object holds its outgoing transitions, each with an
optional guard; the graph wires the four states of a work item.
-/

namespace InveniOps.Domain

/-- What the state machine reads of a work item. -/
structure WorkItemSnapshot where
  id : WorkItemId
  state : WorkItemStatus
  firstSignalAt : Instant

/-- `TransitionContext`; an absent payload is `none`. -/
structure TransitionContext (P : Type) where
  workItem : WorkItemSnapshot
  toState : WorkItemStatus
  payload : Option P

/-- What a transition can depend on besides its states. -/
abbrev TransitionGuard (P : Type) := TransitionContext P → Bool

/-- An edge of the graph. -/
structure TransitionEntry (P : Type) where
  target : WorkItemStatus
  guard : Option (TransitionGuard P)

/-- `InvalidTransitionError`. -/
structure InvalidTransitionError where
  currentState : WorkItemStatus
  attemptedState : WorkItemStatus
deriving DecidableEq

/-- Its text. -/
def InvalidTransitionError.message (e : InvalidTransitionError) : String :=
  "Cannot transition work item from " ++ e.currentState.name ++ " to " ++ e.attemptedState.name

/-- `BaseWorkItemState`: a name and the map of its transitions by target. -/
structure WorkItemState (P : Type) where
  name : WorkItemStatus
  transitions : List (TransitionEntry P)

variable {P : Type}

/-- The state that a transition leads to, if there is such an edge and its guard lets it pass. -/
def WorkItemState.transition (state : WorkItemState P) (context : TransitionContext P) :
    Except InvalidTransitionError WorkItemStatus :=
  match state.transitions.find? (·.target = context.toState) with
  | none => .error ⟨state.name, context.toState⟩
  | some entry =>
    match entry.guard with
    | none => .ok entry.target
    | some guard => if guard context then .ok entry.target else .error ⟨state.name, context.toState⟩

/-- `getLegalNextStates` of a state object. -/
def WorkItemState.getLegalNextStates (state : WorkItemState P) : List WorkItemStatus :=
  state.transitions.map (·.target)

/-- The states with their edges; only the edge into `CLOSED` has a guard. -/
def createWorkItemStateGraph (canClose : TransitionGuard P) : WorkItemStatus → WorkItemState P
  | .OPEN => ⟨.OPEN, [⟨.INVESTIGATING, none⟩]⟩
  | .INVESTIGATING => ⟨.INVESTIGATING, [⟨.RESOLVED, none⟩]⟩
  | .RESOLVED => ⟨.RESOLVED, [⟨.CLOSED, some canClose⟩]⟩
  | .CLOSED => ⟨.CLOSED, []⟩

/-- `getLegalNextStates` of `graph.ts`, whatever the payload's type. -/
def getLegalNextStates (state : WorkItemStatus) : List WorkItemStatus :=
  (@createWorkItemStateGraph Unit (fun _ => true) state).getLegalNextStates

/-- No transition leads from a state to itself. -/
lemma ne_of_mem_getLegalNextStates {state toState : WorkItemStatus}
    (h : toState ∈ getLegalNextStates state) : state ≠ toState := by
  rintro rfl
  revert h
  cases state <;> decide

/-- A transition succeeds along an edge, and into `CLOSED` only past the guard. -/
lemma transition_ok_iff {canClose : TransitionGuard P} {state target : WorkItemStatus}
    {context : TransitionContext P} :
    (createWorkItemStateGraph canClose state).transition context = .ok target ↔
      target = context.toState ∧ target ∈ getLegalNextStates state ∧
        (target = .CLOSED → canClose context = true) := by
  obtain ⟨workItem, toState, payload⟩ := context
  cases state <;> cases toState <;>
    simp [createWorkItemStateGraph, WorkItemState.transition, getLegalNextStates,
      WorkItemState.getLegalNextStates] <;> grind

end InveniOps.Domain
