import ModuleBoundary.Instant

/-! Events handed to a target, until the target has dealt with them. -/

set_option autoImplicit false

namespace ModuleBoundary

/-- An event on its way to one target. Completion happens at most once. -/
structure Publication (Event : Type) where
  event : Event
  target : String
  published : Instant
  completed : Option Instant := none
  deriving DecidableEq

/-- What is missing for a publication. -/
inductive PublicationError where
  | noEvent
  | noTarget
  deriving DecidableEq

def PublicationError.message : PublicationError → String
  | .noEvent => "Event must not be absent"
  | .noTarget => "TargetIdentifier must not be absent"

namespace Publication

variable {Event : Type}

/-- An incomplete publication. A missing event is noticed before a missing target. -/
def of? (event : Option Event) (target : Option String) (published : Instant) :
    Except PublicationError (Publication Event) :=
  match event, target with
  | none, _ => .error .noEvent
  | some _, none => .error .noTarget
  | some event, some target => .ok { event, target, published }

def isCompleted (publication : Publication Event) : Bool := publication.completed.isSome

/-- The first completion date stays. -/
def complete (publication : Publication Event) (date : Instant) : Publication Event :=
  { publication with completed := publication.completed.or (some date) }

/-- Whether this is the event that is published. Events are told apart by their equality. -/
def carries [DecidableEq Event] (publication : Publication Event) (event : Event) : Bool :=
  publication.event = event

end Publication

end ModuleBoundary
