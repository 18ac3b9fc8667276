import InputRelay.Proofs.Script.Compiled
import InputRelay.Proofs.Script.Counting

/-!
# What compiled scripts ask to send

`compiled_sends_valid`: wherever an event stands in a compiled script, in a `send` step, among the
events that end a repeat or among those that fire a trigger, it is a transition of a key that has a
name or of a mouse button. A sender refuses an event as invalid only if it describes nothing
(`Checks`), so no run of such a script ever meets that refusal.
-/

namespace InputRelay

theorem InputEvent.Known.action_ne_none {e : InputEvent} (h : e.Known) : e.action ≠ .none := by
  intro hnone
  rcases h with ⟨ha, -⟩ | ⟨ha, -⟩
  · rw [hnone] at ha
    exact nomatch ha
  · rw [hnone] at ha
    exact nomatch ha

theorem InputEvent.Known.validate {e : InputEvent} (h : e.Known) : e.validate = .ok e := by
  rw [InputEvent.validate, if_neg h.action_ne_none]

/-- A recorder refuses an event as invalid only if it describes nothing. -/
theorem Recorder.validate_of_invalidAction {k : Recorder} {e : InputEvent} {a : Action}
    (h : (k.send e).1 = .error (.invalidAction a)) : e.validate = .error (.invalidAction a) := by
  unfold send at h
  cases hvalid : e.validate with
  | error err =>
    rw [hvalid] at h
    cases h
    rfl
  | ok e' =>
    rw [hvalid] at h
    dsimp only at h
    split at h <;> cases h

namespace Script

/-! ## Events and paces at every depth -/

/-- The events that a script sends, at every depth of its steps and of its triggers. -/
def Plan.events (plan : Plan) : List InputEvent :=
  eventsOf plan.steps ++ plan.triggers.flatMap fun t => eventsOf t.steps

mutual

theorem Step.Sound.known {s : Step} (h : s.Sound) :
    (∀ e ∈ s.events, e.Known) ∧ ∀ p ∈ s.paces, p.Bounded := by
  cases s with
  | send events =>
    rw [Step.events, Step.paces]
    exact ⟨h, List.forall_mem_nil _⟩
  | repeating pace body =>
    obtain ⟨hpace, hbody⟩ := h
    have hknown := AllSound.known hbody
    rw [Step.events, Step.paces]
    exact ⟨hknown.1, List.forall_mem_cons.mpr ⟨hpace, hknown.2⟩⟩

theorem AllSound.known {ss : List Step} (h : AllSound ss) :
    (∀ e ∈ eventsOf ss, e.Known) ∧ ∀ p ∈ pacesOf ss, p.Bounded := by
  cases ss with
  | nil =>
    rw [eventsOf, pacesOf]
    exact ⟨List.forall_mem_nil _, List.forall_mem_nil _⟩
  | cons s ss =>
    obtain ⟨hs, hss⟩ := h
    have hfirst := Step.Sound.known hs
    have hothers := AllSound.known hss
    rw [eventsOf, pacesOf]
    exact ⟨List.forall_mem_append.mpr ⟨hfirst.1, hothers.1⟩,
      List.forall_mem_append.mpr ⟨hfirst.2, hothers.2⟩⟩

end

theorem Plan.Sound.known {plan : Plan} (h : plan.Sound) :
    (∀ e ∈ plan.events, e.Known) ∧ ∀ p ∈ plan.paces, p.Bounded := by
  constructor
  · intro e he
    rcases List.mem_append.mp he with he | he
    · exact h.steps.known.1 e he
    · obtain ⟨t, ht, he⟩ := List.mem_flatMap.mp he
      exact (h.triggers t ht).steps.known.1 e he
  · intro p hp
    rcases List.mem_append.mp hp with hp | hp
    · exact h.steps.known.2 p hp
    · obtain ⟨t, ht, hp⟩ := List.mem_flatMap.mp hp
      exact (h.triggers t ht).steps.known.2 p hp

/-! ## Senders that check -/

/-- In these surroundings an event is refused as invalid only if it describes nothing. -/
def Checks {ε : Type} (answer : Surroundings Ask Answer ε) : Prop :=
  ∀ e k a k', answer (.send e) k = some (Except.error (.invalidAction a), k') →
    e.validate = .error (.invalidAction a)

theorem checks_stage : Checks Stage.answer := by
  intro e s a s' h
  have hsent : some (s.desk.recorder.send e).1 = some (Except.error (.invalidAction a)) :=
    congrArg (Option.map Prod.fst) h
  exact Recorder.validate_of_invalidAction (Option.some.inj hsent)

/-- The sender has refused an event as invalid. -/
def Exchange.IsInvalid (x : Exchange) : Prop :=
  ∃ e a, x = ⟨.send e, Except.error (.invalidAction a)⟩

theorem Told.validate_of_isInvalid {ε : Type} {answer : Surroundings Ask Answer ε}
    (hchecks : Checks answer) {k k' : ε} {xs : List Exchange} (h : Told answer k xs k')
    {e : InputEvent} {a : Action}
    (hx : (⟨.send e, Except.error (.invalidAction a)⟩ : Exchange) ∈ xs) :
    e.validate = .error (.invalidAction a) := by
  induction h with
  | nothing => exact absurd hx List.not_mem_nil
  | answered ha h ih =>
    rcases List.mem_cons.mp hx with heq | hx
    · cases heq
      exact hchecks e _ a _ ha
    · exact ih hx

namespace Runner

variable {plan : Plan} {r : Runner} {xs : List Exchange}

theorem Reached.known_of_send (hplan : plan.Sound) (h : Reached plan r) {e : InputEvent}
    {resume : Answer (.send e) → Runner} (hm : r.move = .ask (.send e) resume) : e.Known := by
  obtain ⟨task, rest, ht, hasks⟩ := asks_of_move hm
  have htask : task.Sound := by
    apply h.sound hplan
    rw [ht]
    exact List.mem_cons_self
  cases hasks with
  | sending => exact htask e List.mem_cons_self

theorem Goes.known_of_mem (hplan : plan.Sound) (h : (ofPlan plan).Goes xs r) {e : InputEvent}
    {a : Answer (.send e)} (hx : (⟨.send e, a⟩ : Exchange) ∈ xs) : e.Known := by
  obtain ⟨before, after, rfl⟩ := List.append_of_mem hx
  obtain ⟨r₁, resume, hbefore, hm, -⟩ := h.split
  exact (Goes.reached hbefore .start).known_of_send hplan hm

end Runner

/-- **A compiled script sends only events that a sender accepts as valid.** At every depth of its
steps and triggers, the events that it sends, those that end a repeat and those that fire a trigger
are transitions of keys that have a name or of mouse buttons, and never describe nothing; each
repeat ends by time or by an event. So every event that a run asks to send is a valid one, in
whatever surroundings, and where a sender refuses as invalid only what describes nothing, nothing is
ever refused as invalid. -/
theorem compiled_sends_valid {library : Library} {written : List WrittenStep} {plan : Plan}
    (h : compile library written = .ok plan) :
    (∀ e ∈ plan.events, e.Known ∧ e.action ≠ .none) ∧
      (∀ p ∈ plan.paces, (∀ e ∈ p.stop, e.Known ∧ e.action ≠ .none) ∧
        (p.limit ≠ none ∨ p.stop ≠ [])) ∧
      (∀ t ∈ plan.triggers, ∀ e ∈ t.on, e.Known ∧ e.action ≠ .none) ∧
      ∀ xs r, (Runner.ofPlan plan).Goes xs r →
        (∀ e resume, r.move = .ask (.send e) resume → e.validate = .ok e) ∧
        ∀ (ε : Type) (answer : Surroundings Ask Answer ε) (k k' : ε),
          Checks answer → Told answer k xs k' → ∀ x ∈ xs, ¬ x.IsInvalid := by
  have hsound := sound_of_compile h
  obtain ⟨hevents, hpaces⟩ := hsound.known
  have htransition {e : InputEvent} (he : e.Known) : e.Known ∧ e.action ≠ .none :=
    ⟨he, he.action_ne_none⟩
  refine ⟨fun e he => htransition (hevents e he), ?_, ?_, ?_⟩
  · intro p hp
    exact ⟨fun e he => htransition ((hpaces p hp).known e he), (hpaces p hp).ends⟩
  · intro t ht e he
    exact htransition ((hsound.triggers t ht).on e he)
  · intro xs r hgoes
    refine ⟨fun e resume hm => ?_, ?_⟩
    · exact ((hgoes.reached .start).known_of_send hsound hm).validate
    · rintro ε answer k k' hchecks htold x hx ⟨e, a, rfl⟩
      have hvalid := (hgoes.known_of_mem hsound hx).validate
      rw [htold.validate_of_isInvalid hchecks hx] at hvalid
      exact nomatch hvalid

/-! ## A trigger with a repeat of a file -/

/-- A script that waits for the left mouse button and then repeats the steps of a file. -/
def rattling : List WrittenStep :=
  [.group (some [.name "left click"])
    [.repeating "250hz" none (some [.name "esc"]) [.file "click"]]]

/-- The file clicks the right mouse button. -/
def rattlingLibrary : Library := fun path =>
  if path = "click" then some [.press [.name "right click"]] else none

def rattlingPace : Pace := ⟨⟨4000000, by decide⟩, none, [.keyDown 0x1B]⟩

def rattlingPlan : Plan :=
  { triggers := [⟨[.mouse .leftMouseDown],
      [.repeating rattlingPace [.send [.mouse .rightMouseDown, .mouse .rightMouseUp]]]⟩] }

theorem compile_rattling : compile rattlingLibrary rattling = .ok rattlingPlan := by
  have hrate : frequency "250hz" = .ok rattlingPace.interval := by
    have hread : Time.readFrequency? "250hz" = some rattlingPace.interval := by decide +kernel
    rw [frequency, hread]
  have hpace : pace "250hz" none (some [.name "esc"]) = .ok rattlingPace := by
    rw [pace, hrate]
    rfl
  simp only [compile, rattling, compileAll, WrittenStep.compile, hpace]
  rfl

/-- A stage whose recorder has no room and whose inbox holds the click that fires the trigger. -/
def fullStage : Stage :=
  { desk :=
      { recorder := { limit := some 0 }, inbox := { pending := some (.mouse .leftMouseDown) } } }

/-- The trigger fires, the repeat waits and ticks, and the click is refused. -/
def rattlingExchanges : List Exchange :=
  [⟨.takeNext, InputEvent.mouse .leftMouseDown⟩, ⟨.clock, Instant.origin⟩,
    ⟨.clock, Instant.origin⟩, ⟨.takeWithin rattlingPace.interval, (none : Option InputEvent)⟩,
    ⟨.clock, (⟨4000000, by decide⟩ : Instant)⟩,
    ⟨.send (.mouse .rightMouseDown), Except.error (.platform "mock failure")⟩]

/-- The click is refused because there is no room, and not as invalid. -/
theorem compiled_sends_valid_of_rattling :
    compile rattlingLibrary rattling = .ok rattlingPlan ∧
      rattlingPlan.events = [.mouse .rightMouseDown, .mouse .rightMouseUp] ∧
      rattlingPlan.paces = [rattlingPace] ∧ (∀ e ∈ rattlingPlan.events, e.Known) ∧
      ∃ s, Told Stage.answer fullStage rattlingExchanges s ∧
        ∀ x ∈ rattlingExchanges, ¬ x.IsInvalid := by
  obtain ⟨hevents, -, -, hruns⟩ := compiled_sends_valid compile_rattling
  have hgoes : ∃ r, (Runner.ofPlan rattlingPlan).Goes rattlingExchanges r := by
    exact ⟨_, .quiet rfl (.ask rfl _ (.quiet rfl (.quiet rfl (.ask rfl _ (.ask rfl _
      (.ask rfl _ (.ask rfl _ (.quiet rfl (.ask rfl _ .here)))))))))⟩
  have htold : ∃ s, Told Stage.answer fullStage rattlingExchanges s := by
    exact ⟨_, .answered rfl (.answered rfl (.answered rfl (.answered rfl (.answered rfl
      (.answered rfl .nothing)))))⟩
  obtain ⟨r, hgoes⟩ := hgoes
  obtain ⟨s, htold⟩ := htold
  refine ⟨compile_rattling, rfl, rfl, fun e he => (hevents e he).1, s, htold, ?_⟩
  exact (hruns rattlingExchanges r hgoes).2 Stage Stage.answer fullStage s checks_stage htold

end Script

end InputRelay
