import InputRelay.Proofs.Script.Compiled
import InputRelay.Proofs.Script.Occurrence
import InputRelay.Proofs.Script.Reading

/-!
# Which scripts are accepted

What a script must be is said of each of its steps, wherever it stands (`WellFormed`): its names and
numbers can be read, a repeat comes to an end, a trigger stands inside groups only, and its steps do
not send what fires it. Just the scripts that are so compile; their triggers, and their other steps,
come out in the order in which they are written (`accepts_iff_wellFormed`).
-/

namespace InputRelay.Script

/-! ## What steps send -/

/-- The step itself sends the event, whatever the steps inside it do. -/
def WrittenStep.Sends (e : InputEvent) : WrittenStep → Prop
  | .press keys => ∃ k ∈ keys, ∃ m, k.Means m ∧
      (m.event = e ∨ m.directed = false ∧ m.event.released = e)
  | .hold keys => ∃ k ∈ keys, ∃ m, k.Means m ∧ m.event = e
  | .release keys => ∃ k ∈ keys, ∃ m, k.Means m ∧
      (if m.directed then m.event else m.event.released) = e
  | _ => False

/-- Some step sends the event, at whatever depth. -/
def SendsWithin (e : InputEvent) (ss : List WrittenStep) : Prop :=
  ∃ above s, Occurs above s ss ∧ s.Sends e

/-! ## What steps must be -/

/-- Steps to run each time a key is seen. -/
def WrittenStep.isTrigger : WrittenStep → Bool
  | .group (some _) _ => true
  | _ => false

/-- Steps that stand for themselves. -/
def WrittenStep.isGroup : WrittenStep → Bool
  | .group none _ => true
  | _ => false

/-- The step may stand inside the steps `above`, as far as it depends on itself. -/
def WrittenStep.IsProper (above : List WrittenStep) : WrittenStep → Prop
  | .press keys | .hold keys | .release keys => ∀ k ∈ keys, k.IsReadable
  | .repeating rate limit stop _ => HasPace rate limit stop
  | .group (some on) body =>
    (∀ t ∈ above, t.isGroup = true) ∧ (∀ k ∈ on, k.IsReadable) ∧
      ∀ k ∈ on, ∀ m, k.Means m → ¬ SendsWithin m.event body
  | .group none _ | .file _ => True

/-- Every step, at every depth, may stand where it stands. -/
def WellFormed (ss : List WrittenStep) : Prop := ∀ above s, Occurs above s ss → s.IsProper above

/-! ## What steps become -/

mutual

/-- The step or, if it is a group, the steps inside it. -/
def WrittenStep.spread : WrittenStep → List WrittenStep
  | .group none body => spreadAll body
  | s => [s]

/-- The steps as they are written one after the other, those of groups in the places of the
groups. -/
def spreadAll : List WrittenStep → List WrittenStep
  | [] => []
  | s :: ss => s.spread ++ spreadAll ss

end

/-- The step is run as another. -/
inductive WrittenStep.Becomes : WrittenStep → Step → Prop where
  | press {keys : List WrittenKey} {ms : List Key.Meaning}
      (h : List.Forall₂ WrittenKey.Means keys ms) : Becomes (.press keys) (.send (pressEvents ms))
  | hold {keys : List WrittenKey} {ms : List Key.Meaning}
      (h : List.Forall₂ WrittenKey.Means keys ms) : Becomes (.hold keys) (.send (holdEvents ms))
  | release {keys : List WrittenKey} {ms : List Key.Meaning}
      (h : List.Forall₂ WrittenKey.Means keys ms) :
      Becomes (.release keys) (.send (releaseEvents ms))
  | repeating {rate : String} {limit : Option String} {stop : Option (List WrittenKey)}
      {p : Pace} {body : List WrittenStep} {steps : List Step} (hp : p.IsWritten rate limit stop)
      (h : List.Forall₂ Becomes (spreadAll body) steps) :
      Becomes (.repeating rate limit stop body) (.repeating p steps)

/-- The step is the trigger. -/
inductive WrittenStep.Fires : WrittenStep → Trigger → Prop where
  | mk {on : List WrittenKey} {ms : List Key.Meaning} {body : List WrittenStep}
      {steps : List Step} (hon : List.Forall₂ WrittenKey.Means on ms)
      (h : List.Forall₂ Becomes (spreadAll body) steps) :
      Fires (.group (some on) body) ⟨ms.map Key.Meaning.event, steps⟩

/-- The triggers of the plan are the triggers among the steps, in order, and its steps are the
others. -/
structure Plan.IsOf (ss : List WrittenStep) (plan : Plan) : Prop where
  steps : List.Forall₂ WrittenStep.Becomes (ss.filter fun s => !s.isTrigger) plan.steps
  triggers : List.Forall₂ WrittenStep.Fires (ss.filter WrittenStep.isTrigger) plan.triggers

theorem Plan.isOf_singleton {s : WrittenStep} {step : Step} (hs : s.isTrigger = false)
    (h : s.Becomes step) : Plan.IsOf [s] ⟨[step], []⟩ := by
  refine ⟨?_, ?_⟩
  · rw [List.filter_cons_of_pos (by rw [hs]; rfl)]
    exact .cons h .nil
  · rw [List.filter_cons_of_neg (by rw [hs]; exact Bool.false_ne_true)]
    exact .nil

theorem Plan.IsOf.append {ss ts : List WrittenStep} {p q : Plan} (hp : p.IsOf ss)
    (hq : q.IsOf ts) : (p ++ q).IsOf (ss ++ ts) := by
  refine ⟨?_, ?_⟩
  · rw [List.filter_append]
    exact List.rel_append hp.steps hq.steps
  · rw [List.filter_append]
    exact List.rel_append hp.triggers hq.triggers

/-- Where there is no trigger, every step is run. -/
theorem Plan.IsOf.all {ss : List WrittenStep} {p : Plan} (h : p.IsOf ss)
    (hss : ∀ s ∈ ss, s.isTrigger = false) :
    List.Forall₂ WrittenStep.Becomes ss p.steps ∧ p.triggers = [] := by
  refine ⟨?_, ?_⟩
  · have hall := h.steps
    rwa [List.filter_eq_self.mpr fun s hs => by rw [hss s hs]; rfl] at hall
  · have hnone := h.triggers
    rwa [List.filter_eq_nil_iff.mpr fun s hs => by rw [hss s hs]; exact Bool.false_ne_true,
      List.forall₂_nil_left_iff] at hnone

/-! ## Steps that compile -/

section

variable {ofFile : Bool → String → Except Error Plan} {top : Bool} {plan : Plan}
  {keys on : List WrittenKey} {body ss : List WrittenStep} {s : WrittenStep} {e : InputEvent}

theorem sending_eq_ok {use : KeyUse} {events : List Key.Meaning → List InputEvent} :
    ((resolveKeys use keys).map fun ms => sending (events ms)) = .ok plan ↔
      ∃ ms, List.Forall₂ WrittenKey.Means keys ms ∧ sending (events ms) = plan := by
  rw [map_eq_ok]
  simp only [resolveKeys_eq_ok]

theorem exists_sending_eq_ok {use : KeyUse} {events : List Key.Meaning → List InputEvent} :
    (∃ plan, ((resolveKeys use keys).map fun ms => sending (events ms)) = .ok plan) ↔
      ∀ k ∈ keys, k.IsReadable := by
  simp only [sending_eq_ok]
  rw [exists_comm]
  simp only [exists_and_left, exists_eq', and_true, exists_forall₂_means]

theorem compile_repeating_eq_ok {rate : String} {limit : Option String}
    {stop : Option (List WrittenKey)} :
    (WrittenStep.repeating rate limit stop body).compile ofFile top = .ok plan ↔
      ∃ p, p.IsWritten rate limit stop ∧ ∃ b, compileAll ofFile false body = .ok b ∧
        ⟨[.repeating p b.steps], b.triggers⟩ = plan := by
  rw [WrittenStep.compile]
  simp only [bind_eq_ok, pace_eq_ok]
  constructor
  · rintro ⟨p, hp, b, hb, h⟩
    exact ⟨p, hp, b, hb, Except.ok.inj h⟩
  · rintro ⟨p, hp, b, hb, rfl⟩
    exact ⟨p, hp, b, hb, rfl⟩

theorem compile_trigger_eq_ok :
    (WrittenStep.group (some on) body).compile ofFile top = .ok plan ↔
      top = true ∧ ∃ ms, List.Forall₂ WrittenKey.Means on ms ∧
        ∃ b, compileAll ofFile false body = .ok b ∧
          (∀ m ∈ ms, sendsAny m.event b.steps = false) ∧
          ⟨[], b.triggers ++ [⟨ms.map Key.Meaning.event, b.steps⟩]⟩ = plan := by
  rw [WrittenStep.compile]
  cases top with
  | false => simp [throw, throwThe, MonadExceptOf.throw, bind, Except.bind]
  | true =>
    simp only [Bool.not_true, Bool.false_eq_true, if_false, true_and]
    rw [bind_eq_ok]
    simp only [bind_eq_ok, resolveEvents_eq_ok, triggered_eq_ok]
    constructor
    · rintro ⟨es, ⟨ms, hms, rfl⟩, b, hb, hquiet, h⟩
      exact ⟨ms, hms, b, hb, fun m hm => hquiet _ (List.mem_map_of_mem hm), h⟩
    · rintro ⟨ms, hms, b, hb, hquiet, h⟩
      exact ⟨_, ⟨ms, hms, rfl⟩, b, hb, List.forall_mem_map.mpr hquiet, h⟩

theorem compileAll_cons_eq_ok :
    compileAll ofFile top (s :: ss) = .ok plan ↔
      ∃ p, s.compile ofFile top = .ok p ∧ ∃ q, compileAll ofFile top ss = .ok q ∧ p ++ q = plan := by
  rw [compileAll]
  simp only [bind_eq_ok]
  constructor
  · rintro ⟨p, hp, q, hq, h⟩
    exact ⟨p, hp, q, hq, Except.ok.inj h⟩
  · rintro ⟨p, hp, q, hq, rfl⟩
    exact ⟨p, hp, q, hq, rfl⟩

end

/-! ## What the steps of a plan send -/

theorem mem_pressEvents {ms : List Key.Meaning} {e : InputEvent} :
    e ∈ pressEvents ms ↔
      ∃ m ∈ ms, m.event = e ∨ m.directed = false ∧ m.event.released = e := by
  simp only [pressEvents, List.mem_append, List.mem_map, List.mem_filter, Bool.not_eq_true']
  constructor
  · rintro (⟨m, hm, rfl⟩ | ⟨m, ⟨hm, hbare⟩, rfl⟩)
    · exact ⟨m, hm, .inl rfl⟩
    · exact ⟨m, hm, .inr ⟨hbare, rfl⟩⟩
  · rintro ⟨m, hm, rfl | ⟨hbare, rfl⟩⟩
    · exact .inl ⟨m, hm, rfl⟩
    · exact .inr ⟨m, ⟨hm, hbare⟩, rfl⟩

theorem exists_mem_means {keys : List WrittenKey} {ms : List Key.Meaning}
    (h : List.Forall₂ WrittenKey.Means keys ms) {Q : Key.Meaning → Prop} :
    (∃ m ∈ ms, Q m) ↔ ∃ k ∈ keys, ∃ m, k.Means m ∧ Q m := by
  induction h with
  | nil => simp
  | @cons k m ks ms hm hms ih =>
    have hone : (∃ m', k.Means m' ∧ Q m') ↔ Q m := by
      constructor
      · rintro ⟨m', hm', hq⟩
        exact hm.unique hm' ▸ hq
      · exact fun hq => ⟨m, hm, hq⟩
    rw [List.exists_mem_cons_iff, List.exists_mem_cons_iff, hone, ih]

theorem sendsAny_append {e : InputEvent} (ss ts : List Step) :
    sendsAny e (ss ++ ts) = (sendsAny e ss || sendsAny e ts) := by
  induction ss with
  | nil => rfl
  | cons s ss ih => rw [List.cons_append, sendsAny, sendsAny, ih, Bool.or_assoc]

theorem sendsAny_sending {e : InputEvent} {es : List InputEvent} :
    sendsAny e (sending es).steps = true ↔ e ∈ es := by
  simp [sending, sendsAny, Step.sends]

mutual

theorem WrittenStep.sends_compile {ofFile : Bool → String → Except Error Plan} {e : InputEvent}
    (s : WrittenStep) (hfiles : s.files = []) (plan : Plan)
    (h : s.compile ofFile false = .ok plan) :
    sendsAny e plan.steps = true ↔ s.Sends e ∨ SendsWithin e s.body := by
  have hnone : ¬ SendsWithin e [] := fun ⟨_, _, hs, _⟩ => not_occurs_nil hs
  cases s with
  | press keys =>
    rw [WrittenStep.compile] at h
    obtain ⟨ms, hms, rfl⟩ := sending_eq_ok.mp h
    rw [sendsAny_sending, mem_pressEvents, exists_mem_means hms]
    exact (or_iff_left hnone).symm
  | hold keys =>
    rw [WrittenStep.compile] at h
    obtain ⟨ms, hms, rfl⟩ := sending_eq_ok.mp h
    rw [sendsAny_sending, holdEvents, List.mem_map, exists_mem_means hms]
    exact (or_iff_left hnone).symm
  | release keys =>
    rw [WrittenStep.compile] at h
    obtain ⟨ms, hms, rfl⟩ := sending_eq_ok.mp h
    rw [sendsAny_sending, releaseEvents, List.mem_map, exists_mem_means hms]
    exact (or_iff_left hnone).symm
  | repeating rate limit stop body =>
    obtain ⟨p, -, b, hb, rfl⟩ := compile_repeating_eq_ok.mp h
    have hbody := sends_compileAll body hfiles b hb (e := e)
    simp only [sendsAny, Step.sends, Bool.or_false, hbody]
    exact (or_iff_right id).symm
  | group on body =>
    cases on with
    | none =>
      have hbody := sends_compileAll body hfiles plan h (e := e)
      rw [hbody]
      exact (or_iff_right id).symm
    -- Off the top level there are no triggers, so nothing that a trigger sends is missing.
    | some on => exact absurd (compile_trigger_eq_ok.mp h).1 Bool.false_ne_true
  | file path => exact absurd hfiles (List.cons_ne_nil _ _)

theorem sends_compileAll {ofFile : Bool → String → Except Error Plan} {e : InputEvent}
    (ss : List WrittenStep) (hfiles : filesOf ss = []) (plan : Plan)
    (h : compileAll ofFile false ss = .ok plan) :
    sendsAny e plan.steps = true ↔ SendsWithin e ss := by
  cases ss with
  | nil =>
    cases h
    simp [sendsAny, SendsWithin]
  | cons s ss =>
    obtain ⟨hs, hss⟩ := List.append_eq_nil_iff.mp hfiles
    obtain ⟨p, hp, q, hq, rfl⟩ := compileAll_cons_eq_ok.mp h
    show sendsAny e (p.steps ++ q.steps) = true ↔ _
    rw [sendsAny_append, Bool.or_eq_true, WrittenStep.sends_compile s hs p hp,
      sends_compileAll ss hss q hq]
    exact exists_occurs_cons.symm

end

/-- The compiled steps send no event of a trigger just if the written ones send none. -/
theorem quiet_iff {ofFile : Bool → String → Except Error Plan} {body : List WrittenStep}
    {on : List WrittenKey} {ms : List Key.Meaning} {b : Plan} (hfiles : filesOf body = [])
    (hb : compileAll ofFile false body = .ok b) (hms : List.Forall₂ WrittenKey.Means on ms) :
    (∀ m ∈ ms, sendsAny m.event b.steps = false) ↔
      ∀ k ∈ on, ∀ m, k.Means m → ¬ SendsWithin m.event body := by
  have hsends : ∀ m : Key.Meaning,
      sendsAny m.event b.steps = false ↔ ¬ SendsWithin m.event body := by
    intro m
    rw [← sends_compileAll body hfiles b hb, Bool.not_eq_true]
  have hsome := exists_mem_means hms (Q := fun m => SendsWithin m.event body)
  simp only [hsends]
  simpa only [not_exists, not_and] using not_congr hsome

/-! ## The order of a plan -/

mutual

theorem WrittenStep.isOf_compile {ofFile : Bool → String → Except Error Plan} (s : WrittenStep)
    (hfiles : s.files = []) (top : Bool) (plan : Plan) (h : s.compile ofFile top = .ok plan) :
    plan.IsOf s.spread ∧ (top = false → ∀ t ∈ s.spread, t.isTrigger = false) := by
  cases s with
  | press keys =>
    rw [WrittenStep.compile] at h
    obtain ⟨ms, hms, rfl⟩ := sending_eq_ok.mp h
    exact ⟨Plan.isOf_singleton rfl (.press hms), fun _ => List.forall_mem_singleton.mpr rfl⟩
  | hold keys =>
    rw [WrittenStep.compile] at h
    obtain ⟨ms, hms, rfl⟩ := sending_eq_ok.mp h
    exact ⟨Plan.isOf_singleton rfl (.hold hms), fun _ => List.forall_mem_singleton.mpr rfl⟩
  | release keys =>
    rw [WrittenStep.compile] at h
    obtain ⟨ms, hms, rfl⟩ := sending_eq_ok.mp h
    exact ⟨Plan.isOf_singleton rfl (.release hms), fun _ => List.forall_mem_singleton.mpr rfl⟩
  | repeating rate limit stop body =>
    obtain ⟨p, hp, b, hb, rfl⟩ := compile_repeating_eq_ok.mp h
    -- The body has no triggers, so its plan has none to hand on and loses none of its steps.
    obtain ⟨hof, hno⟩ := isOf_compileAll body hfiles false b hb
    obtain ⟨hsteps, htriggers⟩ := hof.all (hno rfl)
    rw [htriggers]
    exact ⟨Plan.isOf_singleton rfl (.repeating hp hsteps), fun _ => List.forall_mem_singleton.mpr rfl⟩
  | group on body =>
    cases on with
    | none => exact isOf_compileAll body hfiles top plan h
    | some on =>
      obtain ⟨htop, ms, hms, b, hb, -, rfl⟩ := compile_trigger_eq_ok.mp h
      obtain ⟨hof, hno⟩ := isOf_compileAll body hfiles false b hb
      obtain ⟨hsteps, htriggers⟩ := hof.all (hno rfl)
      rw [htriggers]
      exact ⟨⟨.nil, .cons (.mk hms hsteps) .nil⟩, fun hfalse => absurd (htop.symm.trans hfalse) nofun⟩
  | file path => exact absurd hfiles (List.cons_ne_nil _ _)

theorem isOf_compileAll {ofFile : Bool → String → Except Error Plan} (ss : List WrittenStep)
    (hfiles : filesOf ss = []) (top : Bool) (plan : Plan)
    (h : compileAll ofFile top ss = .ok plan) :
    plan.IsOf (spreadAll ss) ∧ (top = false → ∀ t ∈ spreadAll ss, t.isTrigger = false) := by
  cases ss with
  | nil =>
    cases h
    exact ⟨⟨.nil, .nil⟩, fun _ => List.forall_mem_nil _⟩
  | cons s ss =>
    obtain ⟨hs, hss⟩ := List.append_eq_nil_iff.mp hfiles
    obtain ⟨p, hp, q, hq, rfl⟩ := compileAll_cons_eq_ok.mp h
    obtain ⟨hofp, hnop⟩ := WrittenStep.isOf_compile s hs top p hp
    obtain ⟨hofq, hnoq⟩ := isOf_compileAll ss hss top q hq
    exact ⟨hofp.append hofq, fun htop => List.forall_mem_append.mpr ⟨hnop htop, hnoq htop⟩⟩

end

/-! ## Acceptance -/

mutual

/-- A step inside the steps `outer` compiles just if it and all steps inside it may stand there. -/
theorem WrittenStep.compiles_iff {ofFile : Bool → String → Except Error Plan} (s : WrittenStep)
    (hfiles : s.files = []) (outer : List WrittenStep) :
    (∃ plan, s.compile ofFile (outer.all WrittenStep.isGroup) = .ok plan) ↔
      s.IsProper outer ∧ ∀ above t, Occurs above t s.body → t.IsProper (outer ++ s :: above) := by
  have hempty : ∀ above t, Occurs above t [] → t.IsProper (outer ++ s :: above) :=
    fun _ _ h => absurd h not_occurs_nil
  cases s with
  | press keys =>
    rw [WrittenStep.compile, exists_sending_eq_ok]
    exact (and_iff_left hempty).symm
  | hold keys =>
    rw [WrittenStep.compile, exists_sending_eq_ok]
    exact (and_iff_left hempty).symm
  | release keys =>
    rw [WrittenStep.compile, exists_sending_eq_ok]
    exact (and_iff_left hempty).symm
  | repeating rate limit stop body =>
    -- What stands in the body has this step above it, which is no group: so no trigger is allowed.
    have hbody : (∃ b, compileAll ofFile
        ((outer ++ [WrittenStep.repeating rate limit stop body]).all WrittenStep.isGroup) body =
          .ok b) ↔ _ := compilesAll_iff body hfiles _
    simp only [List.all_append, List.all_cons, WrittenStep.isGroup, Bool.false_and, Bool.and_false,
      List.append_assoc, List.cons_append, List.nil_append] at hbody
    rw [WrittenStep.IsProper, ← exists_isWritten, WrittenStep.body, ← hbody]
    simp only [compile_repeating_eq_ok]
    constructor
    · rintro ⟨plan, p, hp, b, hb, -⟩
      exact ⟨⟨p, hp⟩, b, hb⟩
    · rintro ⟨⟨p, hp⟩, b, hb⟩
      exact ⟨_, p, hp, b, hb, rfl⟩
  | group on body =>
    have hbody : (∃ b, compileAll ofFile
        ((outer ++ [WrittenStep.group on body]).all WrittenStep.isGroup) body = .ok b) ↔ _ :=
      compilesAll_iff body hfiles _
    simp only [List.append_assoc, List.cons_append, List.nil_append] at hbody
    cases on with
    | none =>
      simp only [List.all_append, List.all_cons, List.all_nil, WrittenStep.isGroup,
        Bool.and_true] at hbody
      rw [WrittenStep.compile, hbody]
      exact (and_iff_right trivial).symm
    | some on =>
      simp only [List.all_append, List.all_cons, WrittenStep.isGroup, Bool.false_and,
        Bool.and_false] at hbody
      rw [WrittenStep.IsProper, WrittenStep.body, ← hbody]
      simp only [compile_trigger_eq_ok, List.all_eq_true, ← exists_forall₂_means]
      constructor
      · rintro ⟨plan, houter, ms, hms, b, hb, hquiet, -⟩
        exact ⟨⟨houter, ⟨ms, hms⟩, (quiet_iff hfiles hb hms).mp hquiet⟩, b, hb⟩
      · rintro ⟨⟨houter, ⟨ms, hms⟩, hquiet⟩, b, hb⟩
        exact ⟨_, houter, ms, hms, b, hb, (quiet_iff hfiles hb hms).mpr hquiet, rfl⟩
  | file path => exact absurd hfiles (List.cons_ne_nil _ _)

theorem compilesAll_iff {ofFile : Bool → String → Except Error Plan} (ss : List WrittenStep)
    (hfiles : filesOf ss = []) (outer : List WrittenStep) :
    (∃ plan, compileAll ofFile (outer.all WrittenStep.isGroup) ss = .ok plan) ↔
      ∀ above t, Occurs above t ss → t.IsProper (outer ++ above) := by
  cases ss with
  | nil => exact ⟨fun _ _ _ h => absurd h not_occurs_nil, fun _ => ⟨_, rfl⟩⟩
  | cons s ss =>
    obtain ⟨hs, hss⟩ := List.append_eq_nil_iff.mp hfiles
    rw [forall_occurs_cons, List.append_nil, ← WrittenStep.compiles_iff s hs outer,
      ← compilesAll_iff ss hss outer]
    simp only [compileAll_cons_eq_ok]
    constructor
    · rintro ⟨plan, p, hp, q, hq, -⟩
      exact ⟨⟨p, hp⟩, q, hq⟩
    · rintro ⟨⟨p, hp⟩, q, hq⟩
      exact ⟨p ++ q, p, hp, q, hq, rfl⟩

end

/-- **Just the well-formed scripts are accepted.** A script without files compiles if and only if
every step, at every depth, may stand where it stands. The triggers of the plan are then the
triggers of the script in the order in which they are written, and its steps are the others in
their order. -/
theorem accepts_iff_wellFormed {library : Library} {steps : List WrittenStep}
    (hfiles : filesOf steps = []) :
    ((∃ plan, compile library steps = .ok plan) ↔ WellFormed steps) ∧
      ∀ plan, compile library steps = .ok plan →
        List.Forall₂ WrittenStep.Fires ((spreadAll steps).filter WrittenStep.isTrigger)
          plan.triggers ∧
        List.Forall₂ WrittenStep.Becomes ((spreadAll steps).filter fun s => !s.isTrigger)
          plan.steps := by
  refine ⟨compilesAll_iff steps hfiles [], fun plan h => ?_⟩
  obtain ⟨hof, -⟩ := isOf_compileAll steps hfiles true plan h
  exact ⟨hof.triggers, hof.steps⟩

/-- A trigger in a group is accepted. It is not if a repeat in it lets go of the key that fires it. -/
theorem accepts_iff_wellFormed_of_clicking :
    let clicking : WrittenStep :=
      .repeating "10hz" (some "2s") none [.press [.digit 1, .name "f9"]]
    let steps : List WrittenStep := [.group none [.hold [.name "a"],
      .group (some [.name "f8"]) [clicking]], .release [.name "a"]]
    let firing : List WrittenStep := [.group (some [.name "f9 up"]) [clicking]]
    filesOf steps = [] ∧ filesOf firing = [] ∧ ¬ WellFormed firing ∧ WellFormed steps ∧
      ∃ plan, compile (fun _ => none) steps = .ok plan ∧
        List.Forall₂ WrittenStep.Fires [.group (some [.name "f8"]) [clicking]] plan.triggers ∧
        List.Forall₂ WrittenStep.Becomes [.hold [.name "a"], .release [.name "a"]] plan.steps := by
  intro clicking steps firing
  have hrate : frequency "10hz" = .ok ⟨100000000, by decide⟩ := by
    have hread : Time.readFrequency? "10hz" = some ⟨100000000, by decide⟩ := by decide +kernel
    rw [frequency, hread]
  have hlimit : timeLimit (some "2s") = .ok (some ⟨2000000000, by decide⟩) := by
    have hread : Time.readDuration? "2s" = some ⟨2000000000, by decide⟩ := by decide +kernel
    rw [timeLimit, duration, hread]
    rfl
  have hpace : pace "10hz" (some "2s") none =
      .ok ⟨⟨100000000, by decide⟩, some ⟨2000000000, by decide⟩, []⟩ := by
    rw [pace, hrate, hlimit]
    rfl
  have hsteps : ∃ plan, compile (fun _ => none) steps = .ok plan := by
    simp only [compile, steps, clicking, compileAll, WrittenStep.compile, hpace]
    exact ⟨_, rfl⟩
  have hfiring : compile (fun _ => none) firing = .error (.selfTrigger (.keyUp 0x78)) := by
    simp only [compile, firing, clicking, compileAll, WrittenStep.compile, hpace]
    rfl
  obtain ⟨plan, hplan⟩ := hsteps
  have hfiles : filesOf steps = [] := rfl
  have hfiles' : filesOf firing = [] := rfl
  obtain ⟨hiff, horder⟩ := accepts_iff_wellFormed hfiles
  obtain ⟨htriggers, hothers⟩ := horder plan hplan
  refine ⟨hfiles, hfiles', fun hwell => ?_, hiff.mp ⟨plan, hplan⟩, plan, hplan, htriggers, hothers⟩
  obtain ⟨plan, h⟩ := (accepts_iff_wellFormed hfiles').1.mpr hwell
  rw [hfiring] at h
  cases h

end InputRelay.Script
