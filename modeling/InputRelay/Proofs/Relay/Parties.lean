import InputRelay.Consumer
import InputRelay.Proofs.Bridge.Release

/-!
# The relay and its parties

A bridge with its pumps, the consumer that takes events from the bridge, and the inbox into which
the consumer puts every event that it reports. Pumps, consumer and the readers of the inbox take
turns in any order; anybody starts and stops the bridge, and messages come whenever they like. Only
a pump puts events into the mailbox of the bridge.

To the crowd at the bridge the consumer is one of the others, so a step of the relay is at most one
happening there (`Relay.step?_crowd`).
-/

namespace InputRelay

open HostBridge (Outside act control)

/-- A bridge with its pumps, a consumer, and an inbox. -/
structure Relay where
  crowd : Crowd (Host Unit) (Loop Unit)
  consumer : Consumer
  inbox : Mailbox := {}

namespace Relay

/-- What happens at the bridge without the consumer. -/
inductive AtBridge where
  | start
  | pump (number : Nat)
  | stop
  | arrive (m : Message)
  | requestQuit

def AtBridge.happening : AtBridge → Crowd.Happening Outside
  | start => .start
  | pump number => .pump number
  | stop => .stop
  | arrive m => .outside (.arrive m)
  | requestQuit => .outside .requestQuit

/-- What can happen next. -/
inductive Happening where
  | bridge (d : AtBridge)
  /-- The consumer goes on, with this text in the clipboard. -/
  | consume (clipboard : String)
  /-- Somebody takes the event in the inbox, if there is one. -/
  | read
  | shutInbox

variable (failure : Option String)

/-- The relay after the consumer's report: an event goes into the inbox. -/
def hear (r : Relay) : Report → Relay
  | .input e => { r with inbox := r.inbox.deposit e }
  | .clipboard _ => r

/-- The relay answers its consumer. -/
def answer (clipboard : String) : Surroundings Consumer.Ask Consumer.Answer Relay
  | .take, r => r.crowd.bridge.mailbox.take?.map fun (e, mailbox) =>
      (e, { r with crowd.bridge.mailbox := mailbox })
  | .overwritten, r => some (r.crowd.bridge.mailbox.overwritten, r)
  | .report c, r => some ((), r.hear c)
  | .clipboard, r => some (clipboard, r)
  | .stop, r => some ((), { r with crowd.bridge := r.crowd.bridge.stop (control failure) })

/-- The relay after something has happened; none if it cannot happen. -/
def step? (r : Relay) : Happening → Option Relay
  | .bridge d => (r.crowd.step? (control failure) act d.happening).map fun crowd => { r with crowd }
  | .consume clipboard =>
    (r.consumer.move.make? (answer failure clipboard) r).map fun (consumer, r) =>
      { r with consumer }
  | .read => some { r with inbox := r.inbox.tryTake.2 }
  | .shutInbox => some { r with inbox := r.inbox.shutDown }

end Relay

/-! ## The consumer at work -/

namespace Consumer

/-- The event that the consumer has taken and not yet handed on. -/
def carried (c : Consumer) : List InputEvent :=
  match c.phase with
  | .counting e | .reporting e => [e]
  | _ => []

/-- The consumer takes no more events. -/
def IsLeaving (c : Consumer) : Prop := c.phase = .closing ∨ c.phase = .ended

theorem carried_took (c : Consumer) (e : InputEvent) :
    (c.took e).carried = if e = .sentinel then [] else [e] := by
  unfold took
  by_cases he : e = .sentinel
  · rw [if_pos ((InputEvent.isSentinel_iff e).mpr he), if_pos he]
    rfl
  · rw [if_neg (by rwa [InputEvent.isSentinel_iff]), if_neg he]
    rfl

theorem isLeaving_took {c : Consumer} {e : InputEvent} (h : (c.took e).IsLeaving) :
    e = .sentinel := by
  by_contra he
  rw [took, if_neg (by rwa [InputEvent.isSentinel_iff])] at h
  simp [IsLeaving] at h

end Consumer

namespace Relay

variable {failure : Option String} {r r' : Relay}

/-- The steps of the consumer, with the relay before and after. -/
inductive Consumes (failure : Option String) (r : Relay) : Relay → Prop where
  | takes {e : InputEvent} {mailbox : Mailbox} (hphase : r.consumer.phase = .taking)
      (h : r.crowd.bridge.mailbox.take? = some (e, mailbox)) :
    Consumes failure r
      { r with crowd.bridge.mailbox := mailbox, consumer := r.consumer.took e }
  | handsOn {e : InputEvent} {c : Consumer} (hphase : r.consumer.phase = .reporting e)
      (hcarried : c.carried = []) (hstays : ¬ c.IsLeaving) :
    Consumes failure r { r with consumer := c, inbox := r.inbox.deposit e }
  | stops {e : InputEvent} {c : Consumer} (hphase : r.consumer.phase = .deciding e)
      (hcarried : c.carried = []) :
    Consumes failure r
      { r with crowd.bridge := r.crowd.bridge.stop (control failure), consumer := c }
  | goesOn {c : Consumer} (hphase : r.consumer.phase ≠ .taking)
      (hreports : ∀ e, r.consumer.phase ≠ .reporting e)
      (hcarried : c.carried = r.consumer.carried)
      (hleaving : c.IsLeaving → r.consumer.IsLeaving) :
    Consumes failure r { r with consumer := c }

theorem step?_consume {clipboard : String} (h : r.step? failure (.consume clipboard) = some r') :
    r.Consumes failure r' := by
  obtain ⟨⟨c, r₁⟩, hmake, rfl⟩ := Option.map_eq_some_iff.mp h
  rw [Consumer.move] at hmake
  cases hphase : r.consumer.phase with
  | taking =>
    simp only [hphase, Move.make?, answer, Option.map_eq_some_iff] at hmake
    obtain ⟨_, ⟨⟨e, mailbox⟩, htake, rfl⟩, hc⟩ := hmake
    cases hc
    exact .takes hphase htake
  | reporting e =>
    simp only [hphase, Move.make?, answer, Option.map_some] at hmake
    cases hmake
    by_cases hclipboard : some e = r.consumer.bindings.clipboard
    · rw [if_pos hclipboard]
      exact .handsOn hphase rfl (by simp [Consumer.IsLeaving])
    · rw [if_neg hclipboard]
      exact .handsOn hphase rfl (by simp [Consumer.IsLeaving])
  | deciding e =>
    by_cases hstop : some e = r.consumer.bindings.stop
    · simp only [hphase, if_pos hstop, Move.make?, answer, Option.map_some] at hmake
      cases hmake
      exact .stops hphase rfl
    · simp only [hphase, if_neg hstop, Move.make?] at hmake
      cases hmake
      refine .goesOn (by simp [hphase]) (by simp [hphase]) ?_ (by simp [Consumer.IsLeaving])
      simp [Consumer.carried, hphase]
  | counting e | reading e | quoting e text | closing =>
    simp only [hphase, Move.make?, answer, hear, Option.map_some] at hmake
    cases hmake
    refine .goesOn (by simp [hphase]) (by simp [hphase]) ?_ (by simp [Consumer.IsLeaving, hphase])
    simp [Consumer.carried, hphase]
  | ended =>
    simp only [hphase, Move.make?] at hmake
    exact nomatch hmake

/-- To the crowd at the bridge, a step of the relay is one happening or none. -/
theorem step?_crowd {x : Happening} (h : r.step? failure x = some r') :
    r'.crowd = r.crowd ∨ ∃ y, r.crowd.step? (control failure) act y = some r'.crowd := by
  cases x with
  | bridge d =>
    obtain ⟨crowd, hcrowd, rfl⟩ := Option.map_eq_some_iff.mp h
    exact .inr ⟨d.happening, hcrowd⟩
  | consume clipboard =>
    cases step?_consume h with
    | takes _ htake =>
      right
      refine ⟨.outside .take, ?_⟩
      rw [Mailbox.take?] at htake
      split at htake
      · cases htake
        rfl
      · exact nomatch htake
    | handsOn => exact .inl rfl
    | stops => exact .inr ⟨.stop, rfl⟩
    | goesOn => exact .inl rfl
  | read | shutInbox =>
    cases h
    exact .inl rfl

end Relay

end InputRelay
