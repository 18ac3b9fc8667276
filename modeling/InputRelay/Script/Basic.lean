import InputRelay.Event
import InputRelay.Time.Duration

/-!
# Scripts ready to run

The compiled form of a script: every key is an event, every frequency an interval. Steps run once at
the start; a trigger runs its steps each time one of its events is seen.
-/

namespace InputRelay.Script

/-- When a repeat ticks and when it ends. -/
structure Pace where
  /-- The time between two ticks. -/
  interval : Duration
  /-- The time after which it ends. -/
  limit : Option Duration
  /-- The events that end it. -/
  stop : List InputEvent
  deriving DecidableEq

/-- A step that can be run. -/
inductive Step where
  /-- Sends events in order. -/
  | send (events : List InputEvent)
  /-- Runs steps at a pace. -/
  | repeating (pace : Pace) (body : List Step)
  deriving Inhabited

/-- Steps to run whenever an event is seen. -/
structure Trigger where
  on : List InputEvent
  steps : List Step

/-- The steps and triggers of a script. -/
structure Plan where
  steps : List Step := []
  triggers : List Trigger := []

/-- One script after another. -/
def Plan.append (a b : Plan) : Plan := ⟨a.steps ++ b.steps, a.triggers ++ b.triggers⟩

instance : Append Plan := ⟨Plan.append⟩

mutual

/-- Running the step sends the event, at some depth. -/
def Step.sends (e : InputEvent) : Step → Bool
  | .send events => events.contains e
  | .repeating _ body => sendsAny e body

/-- Running one of the steps sends the event. -/
def sendsAny (e : InputEvent) : List Step → Bool
  | [] => false
  | s :: ss => s.sends e || sendsAny e ss

end

end InputRelay.Script
