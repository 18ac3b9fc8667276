import InputRelay.Proofs.Program.Phases

/-!
# From the bridge to the script

In a run of a program with a script, the events that the consumer takes from the bridge and those
that it puts into the inbox are the same, in the same order, but for one that it may still carry
(`Program.handsOn_run`). They come into the inbox before it is shut down (`Program.deposit_step`).
-/

namespace InputRelay.Program

variable {p p' : Program} {x : Happening}

/-- The event that the consumer takes; the sentinel is none. -/
def takes? (p : Program) : Happening → Option InputEvent
  | .step .consumer =>
    match p.consumer.phase with
    | .taking => (p.bridge.mailbox.take?.map Prod.fst).filter fun e => !e.isSentinel
    | _ => none
  | _ => none

/-- The event that the consumer puts into the inbox of the script. -/
def deposits? (p : Program) : Happening → Option InputEvent
  | .step .consumer =>
    match p.consumer.phase with
    | .reporting e => if p.script.isSome then some e else none
    | _ => none
  | _ => none

/-- What comes of the happenings of a run, in order. -/
def collect {α : Type} (f : Program → Happening → Option α) : List Happening → Program → List α
  | [], _ => []
  | x :: hs, p =>
    (f p x).toList ++
      match p.step? x with
      | some p' => collect f hs p'
      | none => []

/-! ## One step -/

theorem takes?_of_taking {e : InputEvent} {mailbox : Mailbox} (hphase : p.consumer.phase = .taking)
    (htake : p.bridge.mailbox.take? = some (e, mailbox)) :
    (p.takes? (.step .consumer)).toList = (p.consumer.took e).carried := by
  rw [Consumer.carried_took]
  have hsentinel := InputEvent.isSentinel_iff e
  by_cases he : e = .sentinel
  · rw [if_pos he]
    simp [takes?, hphase, htake, Option.filter, hsentinel.mpr he]
  · rw [if_neg he]
    simp [takes?, hphase, htake, Option.filter, hsentinel, he]

/-- What the consumer carries and takes, it puts into the inbox or carries afterwards. -/
theorem handsOn_consumer (hscript : p.script.isSome = true) (hp : p.stepConsumer? = some p') :
    p.consumer.carried ++ (p.takes? (.step .consumer)).toList =
      (p.deposits? (.step .consumer)).toList ++ p'.consumer.carried := by
  obtain ⟨c, p₁, hmake, rfl⟩ := make?_of_stepConsumer? hp
  clear hp
  show _ = _ ++ c.carried
  rw [Consumer.move] at hmake
  cases hphase : p.consumer.phase with
  | taking =>
    simp only [hphase, Move.make?, answer, Option.map_eq_some_iff] at hmake
    obtain ⟨_, ⟨⟨e, mailbox⟩, htake, rfl⟩, hc⟩ := hmake
    cases hc
    rw [takes?_of_taking hphase htake]
    simp [deposits?, Consumer.carried, hphase]
  | reporting e =>
    simp only [hphase, Move.make?, answer, Option.map_some] at hmake
    cases hmake
    have hone : p.deposits? (.step .consumer) = some e := by simp [deposits?, hphase, hscript]
    rw [hone]
    by_cases hclipboard : some e = p.consumer.bindings.clipboard
    · rw [if_pos hclipboard]
      simp [takes?, Consumer.carried, hphase]
    · rw [if_neg hclipboard]
      simp [takes?, Consumer.carried, hphase]
  | deciding e =>
    by_cases hstop : some e = p.consumer.bindings.stop
    · simp only [hphase, if_pos hstop, Move.make?, answer, Option.map_some] at hmake
      cases hmake
      simp [takes?, deposits?, Consumer.carried, hphase]
    · simp only [hphase, if_neg hstop, Move.make?] at hmake
      cases hmake
      simp [takes?, deposits?, Consumer.carried, hphase]
  | counting e | reading e | quoting e text | closing =>
    simp only [hphase, Move.make?, answer, Option.map_some] at hmake
    cases hmake
    simp [takes?, deposits?, Consumer.carried, hphase]
  | ended =>
    simp only [hphase, Move.make?] at hmake
    cases hmake

/-- The main thread changes neither the consumer nor the script. -/
theorem stepMain?_leaves (hp : p.stepMain? = some p') :
    p'.consumer = p.consumer ∧ p'.script = p.script := by
  cases advances_of_stepMain? hp with
  | hushes =>
    obtain ⟨hconsumer, hscript, -⟩ := p.hush_leaves
    exact ⟨hconsumer, hscript⟩
  | _ => exact ⟨rfl, rfl⟩

/-- Only its own steps change the consumer. -/
theorem step?_consumer_eq (hx : x ≠ .step .consumer) (hp : p.step? x = some p') :
    p'.consumer = p.consumer := by
  cases x with
  | step t =>
    cases t with
    | consumer => exact absurd rfl hx
    | main => exact (stepMain?_leaves hp).1
    | pump =>
      obtain ⟨_, -, rfl⟩ := Option.map_eq_some_iff.mp hp
      rfl
    | script =>
      obtain ⟨_, -, hp⟩ := Option.bind_eq_some_iff.mp hp
      obtain ⟨_, -, rfl⟩ := Option.map_eq_some_iff.mp hp
      rfl
    | signal =>
      replace hp : p.stepSignal? = some p' := hp
      unfold stepSignal? at hp
      split at hp <;> cases hp <;> rfl
  | arrive m | pass d =>
    cases hp
    rfl
  | interrupt =>
    cases hp
    unfold Program.interrupt
    split <;> rfl
  | expire =>
    obtain ⟨_, -, hp⟩ := Option.bind_eq_some_iff.mp hp
    split at hp
    · split_ifs at hp
      cases hp
      rfl
    · exact nomatch hp

/-- A script neither comes nor goes. -/
theorem step?_script_isSome (hp : p.step? x = some p') : p'.script.isSome = p.script.isSome := by
  by_cases hx : x = .step .main
  · subst hx
    rw [(stepMain?_leaves hp).2]
  · exact (step?_spares hx hp).script

theorem handsOn_step (hscript : p.script.isSome = true) (hp : p.step? x = some p') :
    p.consumer.carried ++ (p.takes? x).toList = (p.deposits? x).toList ++ p'.consumer.carried := by
  by_cases hx : x = .step .consumer
  · subst hx
    exact handsOn_consumer hscript hp
  · have htakes : p.takes? x = none := by
      unfold takes?
      split
      · exact absurd rfl hx
      · rfl
    have hdeposits : p.deposits? x = none := by
      unfold deposits?
      split
      · exact absurd rfl hx
      · rfl
    rw [htakes, hdeposits, step?_consumer_eq hx hp]
    exact List.append_nil _

/-- While the consumer is at work, the inbox is not shut down. -/
theorem Befits.inbox_open (hb : p.Befits p.main) (hworks : p.consumer.phase ≠ .ended) :
    p.desk.inbox.shuttingDown = false := by
  cases hmain : p.main with
  | announcing | consuming =>
    rw [hmain] at hb
    exact hb
  | hushing | closing | awaitingScript =>
    rw [hmain] at hb
    exact absurd hb.2 hworks
  | awaitingPump | counting | concluding | ended =>
    rw [hmain] at hb
    exact absurd hb.2.1 hworks

/-- A step that puts an event into the inbox puts it there before the inbox is shut down. -/
theorem deposit_step {e : InputEvent} (hb : p.Befits p.main) (hp : p.step? x = some p')
    (he : p.deposits? x = some e) :
    p.desk.inbox.shuttingDown = false ∧ p'.desk.inbox = p.desk.inbox.deposit e := by
  unfold deposits? at he
  split at he
  · split at he
    · next e' hphase =>
      split_ifs at he with hscript
      cases he
      refine ⟨hb.inbox_open (by simp [hphase]), ?_⟩
      obtain ⟨runner, hrunner⟩ := Option.isSome_iff_exists.mp hscript
      obtain ⟨c, p₁, hmake, rfl⟩ := make?_of_stepConsumer? hp
      simp only [Consumer.move, hphase, Move.make?, answer, Option.map_some] at hmake
      cases hmake
      simp only [hear, note, hrunner]
    · cases he
  · cases he

/-! ## Runs -/

theorem collect_cons {α : Type} {f : Program → Happening → Option α} (hp : p.step? x = some p')
    (hs : List Happening) : collect f (x :: hs) p = (f p x).toList ++ collect f hs p' := by
  rw [collect, hp]

/-- **The consumer hands on what it takes.** In a run of a program with a script, what the consumer
takes is what it puts into the inbox, in the same order, but for what it carries before and after.
-/
theorem handsOn_run {hs : List Happening} (hscript : p.script.isSome = true)
    (h : run? hs p = some p') :
    p.consumer.carried ++ collect takes? hs p = collect deposits? hs p ++ p'.consumer.carried := by
  induction hs generalizing p with
  | nil =>
    cases h
    exact List.append_nil _
  | cons x hs ih =>
    obtain ⟨q, hq, hrest⟩ := Option.bind_eq_some_iff.mp h
    have hlater := ih ((step?_script_isSome hq).trans hscript) hrest
    rw [collect_cons hq, collect_cons hq, ← List.append_assoc, handsOn_step hscript hq,
      List.append_assoc, hlater, List.append_assoc]

end InputRelay.Program
