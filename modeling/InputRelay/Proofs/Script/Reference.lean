import InputRelay.Proofs.Script.Counting
import InputRelay.Proofs.Script.Within

/-!
# What a script without repeats sends

`run_of_repeatFree`: a script of `send` steps has a meaning that needs no runner. Each step hands
its events to the sender, up to and including the first one that is refused, and the steps come in a
row: those of the startup, and then for each event in order those of each trigger that waits for it
(`Plan.unfolded`). A runner of such a script comes to an end and leaves the sender, the record of
what it was asked to send, and the inbox as that meaning has them, whatever the sender is and
whatever events the inbox hands out before the sentinel.

A run is put together from the runs of its tasks (`Runner.Makes`): one for a list of steps, one for
the triggers that an event fires and one for the events.
-/

namespace InputRelay.Script

variable {σ : Type}

/-! ## The meaning of a script -/

/-- There is no repeat in the script. -/
structure Plan.RepeatFree (plan : Plan) : Prop where
  steps : ∀ s ∈ plan.steps, s.IsSend
  triggers : ∀ t ∈ plan.triggers, ∀ s ∈ t.steps, s.IsSend

/-- The steps of a script on these events: those of the startup, and then for each event in order
those of each trigger that waits for it. -/
def Plan.unfolded (plan : Plan) (events : List InputEvent) : List Step :=
  plan.steps ++ (events.flatMap (pairsOf plan.triggers)).flatMap fun p => p.2.steps

/-- A sender with a record of what it was asked to send, and what an inbox will hand out. -/
structure Feed (σ : Type) where
  sender : σ
  attempts : List InputEvent := []
  coming : List InputEvent

namespace Feed

/-- The inbox will hand out other events. -/
def expecting (coming : List InputEvent) (k : Feed σ) : Feed σ := { k with coming }

/-- An attempt to send an event is recorded, whatever becomes of it. -/
def recording (sender : Sender σ) : Sender (Feed σ) where
  send e k :=
    ((sender.send e k.sender).1,
      { k with sender := (sender.send e k.sender).2, attempts := k.attempts ++ [e] })

/-- The feed answers a runner. It has no clock, and once the inbox has handed out everything the
runner has to wait. -/
def answer (sender : Sender σ) : Surroundings Ask Answer (Feed σ)
  | .send e, k => some ((recording sender).send e k)
  | .takeNext, k =>
    match k.coming with
    | [] => none
    | e :: es => some (e, k.expecting es)
  | .clock, _ => none
  | .takeWithin _, _ => none

theorem answer_send (sender : Sender σ) (e : InputEvent) (k : Feed σ) :
    answer sender (.send e) k = some ((recording sender).send e k) := rfl

/-- The events of a step go to the sender, up to and including the first one that is refused. -/
def deliver (sender : Sender σ) (k : Feed σ) (s : Step) : Feed σ :=
  match sender.sendAll s.events k.sender with
  | (.ok _, sender) => { k with sender, attempts := k.attempts ++ s.events }
  | (.error (n, _), sender) =>
    { k with sender, attempts := k.attempts ++ s.events.take (n + 1) }

/-- One step after the other. -/
def deliverAll (sender : Sender σ) (k : Feed σ) (ss : List Step) : Feed σ :=
  ss.foldl (deliver sender) k

theorem send_recording {sender : Sender σ} {k : Feed σ} {e : InputEvent} {s : σ}
    {sent : Except SendError Unit} (h : sender.send e k.sender = (sent, s)) :
    (recording sender).send e k =
      (sent, { k with sender := s, attempts := k.attempts ++ [e] }) := by
  dsimp only [recording]
  rw [h]

/-- What is recorded one by one is what the step as a whole contributes. -/
theorem sendAll_recording (sender : Sender σ) (es : List InputEvent) (k : Feed σ) :
    ((recording sender).sendAll es k).2 = k.deliver sender (.send es) := by
  induction es generalizing k with
  | nil => simp [deliver, Step.events, Sender.sendAll]
  | cons e es ih =>
    rw [deliver, Step.events]
    rcases hsend : sender.send e k.sender with ⟨err | _, s⟩
    · rw [Sender.sendAll_of_error es (send_recording hsend), Sender.sendAll_of_error es hsend]
      rfl
    · rw [Sender.sendAll_of_ok es (send_recording hsend), ih, deliver, Step.events, Sender.sendAll,
        hsend]
      dsimp only
      rcases sender.sendAll es s with ⟨⟨n, err⟩ | n, s'⟩ <;> simp

theorem foldl_recording (sender : Sender σ) (ss : List Step) (hss : ∀ s ∈ ss, s.IsSend)
    (k : Feed σ) :
    ss.foldl (fun k s => ((recording sender).sendAll s.events k).2) k = k.deliverAll sender ss := by
  induction ss generalizing k with
  | nil => rfl
  | cons s ss ih =>
    obtain ⟨hs, hothers⟩ := List.forall_mem_cons.mp hss
    cases s with
    | repeating pace body => exact hs.elim
    | send es =>
      rw [List.foldl_cons, ih hothers, Step.events, sendAll_recording]
      rfl

theorem deliverAll_append (sender : Sender σ) (k : Feed σ) (ss ts : List Step) :
    k.deliverAll sender (ss ++ ts) = (k.deliverAll sender ss).deliverAll sender ts :=
  List.foldl_append

/-- What the inbox will hand out makes no difference to the sender. -/
theorem deliver_expecting (sender : Sender σ) (k : Feed σ) (s : Step) (coming : List InputEvent) :
    (k.expecting coming).deliver sender s = (k.deliver sender s).expecting coming := by
  unfold deliver
  dsimp only [expecting]
  split <;> rfl

theorem deliverAll_expecting (sender : Sender σ) (k : Feed σ) (ss : List Step)
    (coming : List InputEvent) :
    (k.expecting coming).deliverAll sender ss = (k.deliverAll sender ss).expecting coming := by
  induction ss generalizing k with
  | nil => rfl
  | cons s ss ih =>
    rw [deliverAll, List.foldl_cons, deliver_expecting]
    exact ih (k.deliver sender s)

end Feed

/-! ## Runs of the tasks -/

namespace Runner

variable {sender : Sender σ} {r r₁ : Runner} {k k₁ k' : Feed σ} {rest : List Task}

/-- The runner comes down to these tasks, with the feed as it is then. -/
def Makes (sender : Sender σ) (r : Runner) (k : Feed σ) (rest : List Task) (k' : Feed σ) : Prop :=
  ∃ r', Plays (Feed.answer sender) r k r' k' ∧ r'.tasks = rest ∧ r'.breakdown = r.breakdown

theorem Makes.here (ht : r.tasks = rest) : Makes sender r k rest k := ⟨r, .here, ht, rfl⟩

theorem Makes.after (h : Plays (Feed.answer sender) r k r₁ k₁)
    (hb : r₁.breakdown = r.breakdown) (h' : Makes sender r₁ k₁ rest k') :
    Makes sender r k rest k' := by
  obtain ⟨r', hplays, ht, hb'⟩ := h'
  exact ⟨r', h.trans hplays, ht, hb'.trans hb⟩

theorem Makes.after_quiet (hm : r.move = .quiet r₁) (hb : r₁.breakdown = r.breakdown)
    (h : Makes sender r₁ k rest k') : Makes sender r k rest k' :=
  h.after (.quiet hm .here) hb

variable (sender) in
theorem makes_steps (ss : List Step) (hss : ∀ s ∈ ss, s.IsSend) (ht : r.tasks = .steps ss :: rest) :
    Makes sender r k rest (k.deliverAll sender ss) := by
  obtain ⟨r', hlasts, ht', hb⟩ :=
    lasts_steps (k := k) (Feed.answer_send sender) ss hss ht (Nat.zero_le _)
  rw [Feed.foldl_recording sender ss hss] at hlasts
  exact ⟨r', hlasts.plays, ht', hb⟩

variable (sender) in
/-- An event fires the triggers that wait for it, in the order of the script. -/
theorem makes_firing (e : InputEvent) (ts : List Trigger)
    (hts : ∀ t ∈ ts, ∀ s ∈ t.steps, s.IsSend) (ht : r.tasks = .firing e ts :: rest) :
    Makes sender r k rest (k.deliverAll sender ((pairsOf ts e).flatMap fun p => p.2.steps)) := by
  induction ts generalizing r k with
  | nil =>
    have hm : r.move = .quiet (r.goOn rest) := by rw [move, ht]
    exact .after_quiet hm rfl (.here rfl)
  | cons t ts ih =>
    obtain ⟨hsteps, hts⟩ := List.forall_mem_cons.mp hts
    cases hon : t.on.contains e with
    | false =>
      rw [pairsOf_cons_of_not_mem hon]
      have hm : r.move = .quiet (r.goOn (.firing e ts :: rest)) := by
        simp only [move, ht, hon, Bool.false_eq_true, if_false]
      exact .after_quiet hm rfl (ih hts rfl)
    | true =>
      rw [pairsOf_cons_of_mem hon, List.flatMap_cons, Feed.deliverAll_append]
      let fired : Runner :=
        { r with
          tasks := .steps t.steps :: .firing e ts :: rest
          totals := { r.totals with triggered := r.totals.triggered + 1 } }
      have hm : r.move = .quiet fired := by simp only [move, ht, hon, if_true, fired]
      obtain ⟨r₁, hplays, ht₁, hb⟩ := makes_steps sender (k := k) t.steps hsteps
        (show fired.tasks = _ from rfl)
      exact .after_quiet hm rfl (.after hplays hb (ih hts ht₁))

theorem move_of_listening {triggers : List Trigger} (hne : triggers ≠ [])
    (ht : r.tasks = [.listening triggers]) :
    r.move = .ask .takeNext fun e => r.afterTake triggers [] e := by
  obtain ⟨t, ts, rfl⟩ := List.exists_cons_of_ne_nil hne
  rw [move, ht]

theorem afterTake_of_ne_sentinel {triggers : List Trigger} {e : InputEvent} (he : e ≠ .sentinel) :
    r.afterTake triggers rest e = r.goOn (.firing e triggers :: .listening triggers :: rest) := by
  rw [afterTake, if_neg]
  rwa [InputEvent.isSentinel_iff]

/-- The trigger loop takes one event after the other and ends with the sentinel. -/
theorem makes_listening {triggers : List Trigger} (hne : triggers ≠ [])
    (hts : ∀ t ∈ triggers, ∀ s ∈ t.steps, s.IsSend) {events : List InputEvent}
    (hevents : InputEvent.sentinel ∉ events) (later : List InputEvent)
    (ht : r.tasks = [.listening triggers]) :
    Makes sender r (k.expecting (events ++ .sentinel :: later)) []
      ((k.expecting later).deliverAll sender
        ((events.flatMap (pairsOf triggers)).flatMap fun p => p.2.steps)) := by
  induction events generalizing r k with
  | nil => exact .after (.ask (move_of_listening hne ht) rfl .here) rfl (.here rfl)
  | cons e events ih =>
    rw [List.mem_cons, not_or] at hevents
    obtain ⟨he, hevents⟩ := hevents
    let taken : Runner := r.goOn [.firing e triggers, .listening triggers]
    have htake : r.afterTake triggers [] e = taken := afterTake_of_ne_sentinel (Ne.symm he)
    obtain ⟨r₁, hplays, ht₁, hb⟩ := makes_firing sender (r := taken)
      (k := k.expecting (events ++ .sentinel :: later)) e triggers hts rfl
    rw [Feed.deliverAll_expecting, ← htake] at hplays
    have hfirst : Plays (Feed.answer sender) r (k.expecting (e :: events ++ .sentinel :: later)) r₁
        _ := .ask (move_of_listening hne ht) rfl hplays
    rw [List.flatMap_cons, List.flatMap_append, Feed.deliverAll_append, Feed.deliverAll_expecting]
    exact .after hfirst hb (ih hevents ht₁)

/-- The trigger loop is left at once where there are no triggers. -/
theorem makes_listening_nil (ht : r.tasks = [.listening []]) : Makes sender r k [] k := by
  have hm : r.move = .quiet (r.goOn []) := by rw [move, ht]
  exact .after_quiet hm rfl (.here rfl)

/-! ## Runs of scripts -/

/-- A runner that comes down to no tasks returns. -/
theorem Makes.exists_rehearse (h : Makes sender r k [] k') (hb : r.breakdown = none) :
    ∃ fuel totals, ∀ more,
      rehearse Runner.move (Feed.answer sender) (fuel + more) r k = (some (.ok totals), k') := by
  obtain ⟨r', hplays, ht, hb'⟩ := h
  have hdone : r'.move = .done (.ok r'.totals) := move_of_tasks_eq_nil ht (hb'.trans hb)
  obtain ⟨fuel, hfuel⟩ := hplays.exists_rehearse hdone
  exact ⟨fuel, r'.totals, hfuel⟩

/-- The startup steps come first, and then whatever the trigger loop makes. -/
theorem makes_ofPlan {plan : Plan} (hplan : plan.RepeatFree)
    (h : ∀ r, r.tasks = [.listening plan.triggers] →
      Makes sender r (k.deliverAll sender plan.steps) [] k') :
    Makes sender (ofPlan plan) k [] k' := by
  obtain ⟨r, hplays, ht, hb⟩ :=
    makes_steps sender (k := k) (r := ofPlan plan) plan.steps hplan.steps rfl
  exact .after hplays hb (h r ht)

end Runner

/-- **A script without repeats sends what its steps say.** Whatever the sender is, and whatever
events the inbox hands out before the sentinel, a run comes to an end, and the attempts to send and
the sender are then those of the startup steps and after them, for each event in order, of the steps
of each trigger that waits for it: of each step the events up to and including the first refusal,
and then the next step. Without triggers the run returns after the startup steps and leaves the
inbox alone, whatever is in it. -/
theorem run_of_repeatFree {plan : Plan} (hplan : plan.RepeatFree) (sender : Sender σ) (s : σ) :
    (plan.triggers ≠ [] → ∀ events later, InputEvent.sentinel ∉ events →
      ∃ fuel totals, ∀ more,
        rehearse Runner.move (Feed.answer sender) (fuel + more) (.ofPlan plan)
            { sender := s, coming := events ++ .sentinel :: later } =
          (some (.ok totals),
            Feed.deliverAll sender { sender := s, coming := later } (plan.unfolded events))) ∧
      (plan.triggers = [] → ∀ coming, ∃ fuel totals, ∀ more,
        rehearse Runner.move (Feed.answer sender) (fuel + more) (.ofPlan plan)
            { sender := s, coming } =
          (some (.ok totals), Feed.deliverAll sender { sender := s, coming } plan.steps)) := by
  constructor
  · intro hne events later hevents
    let k : Feed σ := { sender := s, coming := [] }
    have hmakes : Runner.Makes sender (.ofPlan plan) (k.expecting (events ++ .sentinel :: later)) []
        ((k.expecting later).deliverAll sender (plan.unfolded events)) := by
      apply Runner.makes_ofPlan hplan
      intro r ht
      rw [Plan.unfolded, Feed.deliverAll_append, Feed.deliverAll_expecting,
        Feed.deliverAll_expecting sender k]
      exact Runner.makes_listening hne hplan.triggers hevents later ht
    exact hmakes.exists_rehearse rfl
  · intro hnil coming
    have hmakes : Runner.Makes sender (.ofPlan plan) { sender := s, coming } []
        (Feed.deliverAll sender { sender := s, coming } plan.steps) := by
      apply Runner.makes_ofPlan hplan
      intro r ht
      rw [hnil] at ht
      exact Runner.makes_listening_nil ht
    exact hmakes.exists_rehearse rfl

/-! ## A sender that refuses releases -/

/-- A sender that presses keys and does not release them. -/
def pressing : Sender Unit :=
  ⟨fun e _ => (if e.action = .keyUp then .error (.platform "stuck") else .ok (), ())⟩

/-- A script that clicks A, and two triggers that wait for B. -/
def echoingPlan : Plan :=
  { steps := [.send [.keyDown 0x41, .keyUp 0x41]]
    triggers :=
      [⟨[.keyDown 0x42],
          [.send [.keyDown 0x43, .keyUp 0x43, .keyDown 0x44], .send [.keyDown 0x45]]⟩,
        ⟨[.keyUp 0x42], [.send [.keyDown 0x46]]⟩,
        ⟨[.keyDown 0x41, .keyDown 0x42], [.send [.keyDown 0x47]]⟩] }

/-- B is pressed, released and pressed again. -/
def clicks : List InputEvent := [.keyDown 0x42, .keyUp 0x42, .keyDown 0x42]

theorem repeatFree_echoing : echoingPlan.RepeatFree where
  steps := by simp [echoingPlan, Step.IsSend]
  triggers := by simp [echoingPlan, Step.IsSend]

/-- A press of B begins the steps of the first trigger and of the third, a release those of the
second, and the step with a refused release is left there. -/
theorem run_of_repeatFree_of_echoing :
    ∃ fuel totals k, rehearse Runner.move (Feed.answer pressing) fuel (.ofPlan echoingPlan)
        { sender := (), coming := clicks ++ [.sentinel] } = (some (.ok totals), k) ∧
      k.coming = [] ∧
      k.attempts = [.keyDown 0x41, .keyUp 0x41, .keyDown 0x43, .keyUp 0x43, .keyDown 0x45,
        .keyDown 0x47, .keyDown 0x46, .keyDown 0x43, .keyUp 0x43, .keyDown 0x45,
        .keyDown 0x47] := by
  have hrun := (run_of_repeatFree repeatFree_echoing pressing ()).1
  obtain ⟨fuel, totals, hfuel⟩ := hrun (List.cons_ne_nil _ _) clicks [] (by decide)
  exact ⟨fuel, totals, _, hfuel 0, by decide, by decide⟩

end InputRelay.Script
