import InputRelay.Mailbox
import InputRelay.Proofs.Host.Tally
import InputRelay.Proofs.Runs
import Mathlib.Logic.Function.Basic

/-!
# A host at work

Any threads install listeners at a host and remove them, send it messages and ask its loop to
return; one thread at a time runs the loop, and others may work on the mailboxes that it deposits
into. They take turns in any order.

The handles that are given out have the numbers 1, 2, and so on, and whatever is asked for is given
out or refused (`Station.counts_run`). A message is meant for the listeners of one kind
(`recipients`), and these are the ones that the host looks up (`Host.listeners_eq`).
-/

namespace InputRelay

/-- What is to be deposited into the boxes of listeners: the event, if there is one, once into each.
-/
def deliveries {β : Type} (e : Option InputEvent) (boxes : List β) : List (β × InputEvent) :=
  match e with
  | some e => boxes.map fun box => (box, e)
  | none => []

@[simp] theorem deliveries_nil {β : Type} (e : Option InputEvent) :
    deliveries e ([] : List β) = [] := by
  cases e <;> rfl

theorem deliveries_cons {β : Type} (e : Option InputEvent) (box : β) (boxes : List β) :
    deliveries e (box :: boxes) = (e.map fun e => (box, e)).toList ++ deliveries e boxes := by
  cases e <;> rfl

/-- The boxes of those among the listeners whom a message is meant for, in the same order: a keyboard
message is for listeners to the keyboard, a mouse message for listeners to the mouse. -/
def recipients {β : Type} (m : Message) (live : List (Listener β)) : List β :=
  match m with
  | .keyboard _ _ => (live.filter fun l => l.kind = .keyboard).map Listener.box
  | .mouse _ => (live.filter fun l => l.kind = .mouse).map Listener.box
  | .quit => []

theorem Host.listeners_eq {β : Type} (m : Message) (h : Host β) :
    h.listeners m = recipients m h.live := by
  cases m with
  | quit => simp [listeners, recipients, Message.kind?]
  | keyboard | mouse => simp [listeners, recipients, Message.kind?]

/-- The message that a loop is about to look up, with the boxes of those whom it is meant for. -/
def Loop.finds? {β : Type} : Loop β → Host β → Option (Message × List β)
  | .received m, h => some (m, recipients m h.live)
  | _, _ => none

/-- A host, the mailboxes of its listeners, and the loop that runs on it, if one does. -/
structure Station (β : Type) where
  host : Host β
  boxes : β → Mailbox
  loop : Option (Loop β) := none

namespace Station

variable {β : Type}

/-- What can happen next. -/
inductive Happening (β : Type) where
  /-- Somebody asks for a listener with a box. -/
  | install (kind : ListenerKind) (box : β)
  /-- Somebody gives a handle back, whatever it is. -/
  | uninstall (handle : ListenerHandle)
  /-- A message comes; it may be a quit. -/
  | arrive (m : Message)
  /-- Somebody asks the loop to return. -/
  | requestQuit
  /-- Somebody enters the loop, in which nobody else may be. -/
  | enter
  /-- The loop makes a step, or returns once it has ended. -/
  | work
  /-- Somebody else works on a mailbox. -/
  | visit (box : β) (change : Mailbox → Mailbox)

/-- A station at which nothing has happened. -/
def fresh (refuses : Option ListenerKind) (boxes : β → Mailbox) : Station β where
  host := { refuses }
  boxes

/-! ## What can be seen of a happening -/

/-- The handle that is given out. -/
def issued? (s : Station β) : Happening β → Option ListenerHandle
  | .install kind box => (s.host.install kind box).1.toOption
  | _ => none

/-- The kind of listener that is refused. -/
def refused? (s : Station β) : Happening β → Option ListenerKind
  | .install kind _ => if s.host.refuses = some kind then some kind else none
  | _ => none

/-- The message that comes into the queue. -/
def Happening.arrives? : Happening β → Option Message
  | arrive m => some m
  | requestQuit => some .quit
  | _ => none

/-- The message that the loop looks up, with the boxes of those whom it is meant for. -/
def serves? (s : Station β) : Happening β → Option (Message × List β)
  | .work => s.loop.bind fun loop => loop.finds? s.host
  | _ => none

/-- The event that the loop deposits, with the box. -/
def deposits? (s : Station β) : Happening β → Option (β × InputEvent)
  | .work => s.loop.bind fun loop => (loop.step? s.host).bind fun next => next.2.2
  | _ => none

/-! ## Handles and refusals -/

variable {s s' c : Station β}

/-- Between two moments these handles were given out and these kinds refused. -/
structure Counts (s s' : Station β) (issued : List ListenerHandle) (refused : List ListenerKind) :
    Prop where
  numbers : issued = (List.range' s.host.nextHandle issued.length).map ListenerHandle.mk
  next : s'.host.nextHandle = s.host.nextHandle + issued.length
  asked : s'.host.installs.length = s.host.installs.length + issued.length + refused.length

theorem counts_of_same (hnext : s'.host.nextHandle = s.host.nextHandle)
    (hinstalls : s'.host.installs = s.host.installs) : Counts s s' [] [] :=
  ⟨rfl, hnext, congrArg List.length hinstalls⟩

theorem Counts.trans {is is' : List ListenerHandle} {rs rs' : List ListenerKind}
    (h : Counts s c is rs) (h' : Counts c s' is' rs') : Counts s s' (is ++ is') (rs ++ rs') := by
  refine ⟨?_, ?_, ?_⟩
  · rw [List.length_append, List.range'_append_1.symm, List.map_append, ← h.numbers, ← h.next,
      ← h'.numbers]
  · rw [h'.next, h.next, List.length_append, Nat.add_assoc]
  · rw [h'.asked, h.asked, List.length_append, List.length_append]
    omega

/-! ## What happens -/

variable [DecidableEq β]

/-- The mailboxes after a deposit, if there is one. -/
def deposit (boxes : β → Mailbox) : Option (β × InputEvent) → β → Mailbox
  | some (box, e) => Function.update boxes box ((boxes box).deposit e)
  | none => boxes

/-- The station after something has happened; none if it cannot happen. -/
def step? (s : Station β) : Happening β → Option (Station β)
  | .install kind box => some { s with host := (s.host.install kind box).2 }
  | .uninstall handle => some { s with host := s.host.uninstall handle }
  | .arrive m => some { s with host := s.host.enqueue m }
  | .requestQuit => some { s with host := s.host.requestQuit }
  | .enter => if s.loop.isNone then some { s with loop := some .receiving } else none
  | .work =>
    match s.loop with
    | none => none
    | some .ended => some { s with loop := none }
    | some loop =>
      (loop.step? s.host).map fun (loop, host, d) => ⟨host, deposit s.boxes d, some loop⟩
  | .visit box change => some { s with boxes := Function.update s.boxes box (change (s.boxes box)) }

/-- The station after a row of happenings. -/
def run? (s : Station β) (hs : List (Happening β)) : Option (Station β) := hs.foldlM step? s

/-- The handles that are given out in a run, in order. -/
def issued (s : Station β) (hs : List (Happening β)) : List ListenerHandle :=
  collected step? issued? hs s

/-- The kinds of listeners that are refused in a run, in order. -/
def refused (s : Station β) (hs : List (Happening β)) : List ListenerKind :=
  collected step? refused? hs s

/-- The messages that the loop comes to in a run, in order, each with the boxes of those whom it is
meant for and who are installed at that moment. -/
def served (s : Station β) (hs : List (Happening β)) : List (Message × List β) :=
  collected step? serves? hs s

/-- What the loop deposits in a run, in order. -/
def deposited (s : Station β) (hs : List (Happening β)) : List (β × InputEvent) :=
  collected step? deposits? hs s

variable {x : Happening β} {hs : List (Happening β)}

theorem step?_work (h : s.step? .work = some s') :
    (s.loop = some .ended ∧ s' = { s with loop := none }) ∨
      ∃ loop loop' d, s.loop = some loop ∧ s'.loop = some loop' ∧
        loop.step? s.host = some (loop', s'.host, d) ∧ s'.boxes = deposit s.boxes d := by
  rw [step?] at h
  split at h
  · exact nomatch h
  · next hended =>
    cases h
    exact .inl ⟨hended, rfl⟩
  · next loop _ hloop =>
    obtain ⟨⟨loop', host, d⟩, hstep, rfl⟩ := Option.map_eq_some_iff.mp h
    exact .inr ⟨loop, loop', d, hloop, rfl, hstep, rfl⟩

/-! ## How the host keeps count -/

/-- Only those who ask for a listener or give a handle back change anything about the listeners. -/
theorem sameListeners_step (h : s.step? x = some s') (hinstall : ∀ kind box, x ≠ .install kind box)
    (huninstall : ∀ handle, x ≠ .uninstall handle) : s.host.SameListeners s'.host := by
  cases x with
  | install kind box => exact absurd rfl (hinstall kind box)
  | uninstall handle => exact absurd rfl (huninstall handle)
  | arrive m | requestQuit | visit box change =>
    cases h
    exact ⟨rfl, rfl, rfl, rfl, rfl⟩
  | enter =>
    rw [step?] at h
    split at h
    · cases h
      exact ⟨rfl, rfl, rfl, rfl, rfl⟩
    · exact nomatch h
  | work =>
    rcases step?_work h with ⟨-, rfl⟩ | ⟨loop, loop', d, -, -, hstep, -⟩
    · exact ⟨rfl, rfl, rfl, rfl, rfl⟩
    · generalize s'.host = host at hstep ⊢
      cases Loop.moves_of_step? hstep <;> exact ⟨rfl, rfl, rfl, rfl, rfl⟩

theorem tallies_step (h : s.step? x = some s') (ht : s.host.Tallies) : s'.host.Tallies := by
  cases x with
  | install kind box =>
    cases h
    exact ht.install
  | uninstall handle =>
    cases h
    exact ht.uninstall
  | _ =>
    have hsame := sameListeners_step h nofun nofun
    exact ht.congr hsame.live hsame.nextHandle hsame.granted_eq hsame.uninstalls

theorem counts_step (h : s.step? x = some s') :
    Counts s s' (s.issued? x).toList (s.refused? x).toList := by
  cases x with
  | install kind box =>
    cases h
    by_cases hrefused : s.host.refuses = some kind
    · simp only [issued?, refused?, Host.install_of_refused hrefused, if_pos hrefused]
      exact ⟨rfl, rfl, List.length_append⟩
    · simp only [issued?, refused?, Host.install_of_granted hrefused, if_neg hrefused]
      exact ⟨rfl, rfl, List.length_append⟩
  | uninstall handle =>
    cases h
    unfold Host.uninstall
    split <;> exact counts_of_same rfl rfl
  | _ =>
    have hsame := sameListeners_step h nofun nofun
    exact counts_of_same hsame.nextHandle hsame.installs

theorem counts_run (h : s.run? hs = some s') : Counts s s' (s.issued hs) (s.refused hs) := by
  induction hs generalizing s with
  | nil =>
    cases h
    exact counts_of_same rfl rfl
  | cons x hs ih =>
    obtain ⟨c, hc, hrest⟩ := foldlM_cons_eq_some.mp h
    rw [issued, refused, collected_cons hc, collected_cons hc]
    exact (counts_step hc).trans (ih hrest)

end Station

end InputRelay
