import InputRelay.Proofs.Key.Grammar
import InputRelay.Proofs.Outcome
import InputRelay.Proofs.Script.Reach
import InputRelay.Script.Compile

/-!
# What compiled scripts are made of

A name stands for a known event (`Key.known_of_parse`), which is never the sentinel, and a pace that
is written names only known events and comes to an end (`bounded_of_pace`). A property that passes
from such parts to the whole holds of every compiled script, files included
(`Hereditary.of_compile`). So every event and every pace in a compiled script is as it can be
written, at every depth (`sound_of_compile`), and with it whatever a runner of that script has still
to do (`Reached.sound`).
-/

namespace InputRelay

/-! ## Events that names stand for -/

/-- A transition of a key that has a name, or of a mouse button. -/
def InputEvent.Known (e : InputEvent) : Prop :=
  (e.action.isKeyboard = true ∧ e.code ∈ Key.table.map Prod.snd) ∨
    (e.action.isMouse = true ∧ e.code = 0)

theorem InputEvent.Known.ne_sentinel {e : InputEvent} (h : e.Known) : e ≠ .sentinel := by
  rintro rfl
  rcases h with ⟨h, -⟩ | ⟨h, -⟩
  · exact nomatch h
  · exact nomatch h

theorem InputEvent.Known.released {e : InputEvent} (h : e.Known) : e.released.Known := by
  obtain ⟨code, action⟩ := e
  rcases h with ⟨ha, hc⟩ | ⟨ha, hc⟩
  · left
    refine ⟨?_, hc⟩
    cases action <;> first | rfl | exact nomatch ha
  · right
    refine ⟨?_, hc⟩
    cases action <;> first | rfl | exact nomatch ha

namespace Key

theorem IsKey.mem_codes {name : List Char} {code : Code} (h : IsKey name code) :
    code ∈ table.map Prod.snd :=
  List.mem_map.mpr ⟨_, isKey_iff.mp h, rfl⟩

theorem IsButton.code_eq {name : List Char} {m : Meaning} (h : IsButton name m) :
    m.event.code = 0 := by
  cases h <;> rfl

theorem Names.known {name : List Char} {m : Meaning} (h : Names name m) : m.event.Known := by
  cases h with
  | button h => exact .inr ⟨h.isMouse, h.code_eq⟩
  | key h => exact .inl ⟨rfl, h.mem_codes⟩
  | directed h d => cases d <;> exact .inl ⟨rfl, h.mem_codes⟩

theorem known_of_parse {name : String} {m : Meaning} (h : parse name = .ok m) : m.event.Known :=
  (parse_eq_ok_iff.mp h).known

end Key

namespace Script

theorem known_of_resolve {use : KeyUse} {k : WrittenKey} {m : Key.Meaning}
    (h : k.resolve use = .ok m) : m.event.Known := by
  unfold WrittenKey.resolve at h
  split at h
  · split at h
    · exact Key.known_of_parse (mapError_eq_ok.mp h)
    · exact nomatch h
  · exact Key.known_of_parse (mapError_eq_ok.mp h)

theorem known_of_resolveKeys {use : KeyUse} {keys : List WrittenKey} {ms : List Key.Meaning}
    (h : resolveKeys use keys = .ok ms) : ∀ m ∈ ms, m.event.Known := by
  induction keys generalizing ms with
  | nil =>
    cases h
    simp
  | cons k ks ih =>
    obtain ⟨first, hfirst, h⟩ := bind_eq_ok.mp h
    obtain ⟨others, hothers, h⟩ := bind_eq_ok.mp h
    cases h
    intro m hm
    rcases List.mem_cons.mp hm with rfl | hm
    · exact known_of_resolve hfirst
    · exact ih hothers m hm

theorem known_of_resolveEvents {use : KeyUse} {keys : List WrittenKey} {es : List InputEvent}
    (h : resolveEvents use keys = .ok es) : ∀ e ∈ es, e.Known := by
  obtain ⟨ms, hms, rfl⟩ := map_eq_ok.mp h
  intro e he
  obtain ⟨m, hm, rfl⟩ := List.mem_map.mp he
  exact known_of_resolveKeys hms m hm

theorem known_of_pressEvents {ms : List Key.Meaning} (h : ∀ m ∈ ms, m.event.Known) :
    ∀ e ∈ pressEvents ms, e.Known := by
  intro e he
  rcases List.mem_append.mp he with he | he
  · obtain ⟨m, hm, rfl⟩ := List.mem_map.mp he
    exact h m hm
  · obtain ⟨m, hm, rfl⟩ := List.mem_map.mp he
    exact (h m (List.mem_filter.mp hm).1).released

theorem known_of_holdEvents {ms : List Key.Meaning} (h : ∀ m ∈ ms, m.event.Known) :
    ∀ e ∈ holdEvents ms, e.Known := by
  intro e he
  obtain ⟨m, hm, rfl⟩ := List.mem_map.mp he
  exact h m hm

theorem known_of_releaseEvents {ms : List Key.Meaning} (h : ∀ m ∈ ms, m.event.Known) :
    ∀ e ∈ releaseEvents ms, e.Known := by
  intro e he
  obtain ⟨m, hm, rfl⟩ := List.mem_map.mp he
  cases m.directed with
  | true => exact h m hm
  | false => exact (h m hm).released

/-! ## Paces that can be written -/

/-- A pace names only known events, and it comes to an end by time or by one of them. -/
structure Pace.Bounded (p : Pace) : Prop where
  known : ∀ e ∈ p.stop, e.Known
  ends : p.limit ≠ none ∨ p.stop ≠ []

theorem bounded_of_pace {rate : String} {limit : Option String} {stop : Option (List WrittenKey)}
    {p : Pace} (h : pace rate limit stop = .ok p) : p.Bounded := by
  obtain ⟨interval, -, h⟩ := bind_eq_ok.mp h
  obtain ⟨limit, -, h⟩ := bind_eq_ok.mp h
  obtain ⟨events, hevents, h⟩ := bind_eq_ok.mp h
  dsimp only at h
  split at h
  · exact nomatch h
  · next hends =>
    cases h
    refine ⟨?_, ?_⟩
    · cases stop with
      | none =>
        cases hevents
        simp
      | some keys => exact known_of_resolveEvents hevents
    · simpa [← not_and_or] using hends

/-! ## What all compiled scripts have in common -/

theorem triggered_eq_ok {es : List InputEvent} {b plan : Plan} :
    triggered es b = .ok plan ↔
      (∀ e ∈ es, sendsAny e b.steps = false) ∧ ⟨[], b.triggers ++ [⟨es, b.steps⟩]⟩ = plan := by
  unfold triggered
  cases hf : es.find? fun e => sendsAny e b.steps with
  | some e =>
    have hsends := List.find?_some hf
    simp only [reduceCtorEq, false_iff, not_and]
    intro hquiet
    rw [hquiet e (List.mem_of_find?_eq_some hf)] at hsends
    exact absurd hsends Bool.false_ne_true
  | none =>
    have hquiet : ∀ e ∈ es, sendsAny e b.steps = false := by
      simpa using List.find?_eq_none.mp hf
    simp only [Except.ok.injEq]
    exact ⟨fun h => ⟨hquiet, h⟩, fun h => h.2⟩

/-- A property that passes from the parts of a script to the script, with every part as it can be
written. -/
structure Hereditary (P : Plan → Prop) : Prop where
  empty : P {}
  append {p q : Plan} : P p → P q → P (p ++ q)
  sending {es : List InputEvent} : (∀ e ∈ es, e.Known) → P (sending es)
  repeating {pace : Pace} {body : Plan} : pace.Bounded → P body →
    P { steps := [.repeating pace body.steps], triggers := body.triggers }
  triggered {on : List InputEvent} {body plan : Plan} : (∀ e ∈ on, e.Known) → P body →
    triggered on body = .ok plan → P plan

section

variable {P : Plan → Prop} {ofFile : Bool → String → Except Error Plan} {library : Library}

mutual

theorem WrittenStep.keeps_compile (hP : Hereditary P)
    (hfile : ∀ top path plan, ofFile top path = .ok plan → P plan) (s : WrittenStep) (top : Bool)
    (plan : Plan) (h : s.compile ofFile top = .ok plan) : P plan := by
  cases s with
  | press keys =>
    obtain ⟨ms, hms, rfl⟩ := map_eq_ok.mp h
    exact hP.sending (known_of_pressEvents (known_of_resolveKeys hms))
  | hold keys =>
    obtain ⟨ms, hms, rfl⟩ := map_eq_ok.mp h
    exact hP.sending (known_of_holdEvents (known_of_resolveKeys hms))
  | release keys =>
    obtain ⟨ms, hms, rfl⟩ := map_eq_ok.mp h
    exact hP.sending (known_of_releaseEvents (known_of_resolveKeys hms))
  | repeating rate limit stop body =>
    rw [WrittenStep.compile] at h
    obtain ⟨p, hp, h⟩ := bind_eq_ok.mp h
    obtain ⟨b, hb, h⟩ := bind_eq_ok.mp h
    cases h
    exact hP.repeating (bounded_of_pace hp) (keeps_compileAll hP hfile body false b hb)
  | group on body =>
    cases on with
    | none => exact keeps_compileAll hP hfile body top plan h
    | some on =>
      rw [WrittenStep.compile] at h
      dsimp only at h
      split at h
      · exact nomatch h
      · obtain ⟨es, hes, h⟩ := bind_eq_ok.mp h
        obtain ⟨b, hb, h⟩ := bind_eq_ok.mp h
        have hbody := keeps_compileAll hP hfile body false b hb
        exact hP.triggered (known_of_resolveEvents hes) hbody h
  | file path => exact hfile top path plan h

theorem keeps_compileAll (hP : Hereditary P)
    (hfile : ∀ top path plan, ofFile top path = .ok plan → P plan) (ss : List WrittenStep)
    (top : Bool) (plan : Plan) (h : compileAll ofFile top ss = .ok plan) : P plan := by
  cases ss with
  | nil =>
    cases h
    exact hP.empty
  | cons s ss =>
    rw [compileAll] at h
    obtain ⟨first, hfirst, h⟩ := bind_eq_ok.mp h
    obtain ⟨rest, hrest, h⟩ := bind_eq_ok.mp h
    cases h
    exact hP.append (WrittenStep.keeps_compile hP hfile s top first hfirst)
      (keeps_compileAll hP hfile ss top rest hrest)

end

theorem keeps_compileFile (hP : Hereditary P) {room : Nat} {chain : List String} (top : Bool)
    (path : String) (plan : Plan) (h : compileFile library room chain top path = .ok plan) :
    P plan := by
  induction room generalizing chain top path plan with
  | zero => exact nomatch h
  | succ room ih =>
    rw [compileFile] at h
    split at h
    · exact nomatch h
    · split at h
      · exact nomatch h
      · next steps _ =>
        exact keeps_compileAll hP (fun top path plan h => ih top path plan h) steps top plan h

theorem Hereditary.of_compile (hP : Hereditary P) {written : List WrittenStep} {plan : Plan}
    (h : compile library written = .ok plan) : P plan :=
  keeps_compileAll hP (keeps_compileFile hP) written true plan h

end

/-! ## Scripts as they can be written -/

mutual

/-- Every event and every pace in the step is as it can be written, at every depth. -/
def Step.Sound : Step → Prop
  | .send events => ∀ e ∈ events, e.Known
  | .repeating pace body => pace.Bounded ∧ AllSound body

/-- Every event and every pace in the steps is as it can be written. -/
def AllSound : List Step → Prop
  | [] => True
  | s :: ss => s.Sound ∧ AllSound ss

end

/-- The events and the steps of the trigger are as they can be written. -/
structure Trigger.Sound (t : Trigger) : Prop where
  on : ∀ e ∈ t.on, e.Known
  steps : AllSound t.steps

/-- The steps and the triggers of the script are as they can be written. -/
structure Plan.Sound (p : Plan) : Prop where
  steps : AllSound p.steps
  triggers : ∀ t ∈ p.triggers, t.Sound

theorem AllSound.append {ss ts : List Step} (hs : AllSound ss) (ht : AllSound ts) :
    AllSound (ss ++ ts) := by
  induction ss with
  | nil => exact ht
  | cons s ss ih => exact ⟨hs.1, ih hs.2⟩

theorem Plan.Sound.append {p q : Plan} (hp : p.Sound) (hq : q.Sound) : (p ++ q).Sound where
  steps := hp.steps.append hq.steps
  triggers t ht := (List.mem_append.mp ht).elim (hp.triggers t) (hq.triggers t)

theorem sound_sending {es : List InputEvent} (h : ∀ e ∈ es, e.Known) : (sending es).Sound where
  steps := ⟨h, trivial⟩
  triggers := by simp [sending]

theorem sound_triggered {on : List InputEvent} {body plan : Plan} (hon : ∀ e ∈ on, e.Known)
    (hbody : body.Sound) (h : triggered on body = .ok plan) : plan.Sound := by
  obtain ⟨-, rfl⟩ := triggered_eq_ok.mp h
  refine ⟨trivial, fun t ht => ?_⟩
  rcases List.mem_append.mp ht with ht | ht
  · exact hbody.triggers t ht
  · cases List.mem_singleton.mp ht
    exact ⟨hon, hbody.steps⟩

/-- Scripts as they can be written are put together from scripts as they can be written. -/
theorem hereditary_sound : Hereditary Plan.Sound where
  empty := ⟨trivial, by simp⟩
  append := Plan.Sound.append
  sending := sound_sending
  repeating hpace hbody := ⟨⟨⟨hpace, hbody.steps⟩, trivial⟩, hbody.triggers⟩
  triggered := sound_triggered

/-- A compiled script consists of events and paces as they can be written. -/
theorem sound_of_compile {library : Library} {written : List WrittenStep} {plan : Plan}
    (h : compile library written = .ok plan) : plan.Sound :=
  hereditary_sound.of_compile h

/-! ## Runs of compiled scripts -/

/-- What the task is about is as it can be written. -/
def Task.Sound : Task → Prop
  | .steps ss => AllSound ss
  | .sending es => ∀ e ∈ es, e.Known
  | .beginning pace body => pace.Bounded ∧ AllSound body
  | .polling t | .waiting t _ | .resuming t _ | .ticked t => t.pace.Bounded ∧ AllSound t.body
  | .firing _ ts | .listening ts => ∀ t ∈ ts, t.Sound

namespace Runner

open List in
theorem Turn.sound {r r' : Runner} {task : Task} {rest : List Task} (h : r.Turn task rest r')
    (htask : task.Sound) (hrest : ∀ u ∈ rest, u.Sound) : ∀ u ∈ r'.tasks, u.Sound := by
  cases h with
  | noSteps => exact hrest
  | send => exact forall_mem_cons.mpr ⟨htask.1, forall_mem_cons.mpr ⟨htask.2, hrest⟩⟩
  | repeating => exact forall_mem_cons.mpr ⟨htask.1, forall_mem_cons.mpr ⟨htask.2, hrest⟩⟩
  | noEvents => exact hrest
  | sent result =>
    cases result with
    | ok => exact forall_mem_cons.mpr ⟨fun e he => htask e (mem_cons_of_mem _ he), hrest⟩
    | error => exact hrest
  | @begins pace body _ now =>
    rcases r.begin_cases pace body rest now with ⟨_, _, -, -, he⟩ | he
    · rw [he]
      exact forall_mem_cons.mpr ⟨htask, hrest⟩
    · rw [he]
      exact forall_mem_nil _
  | polls now =>
    unfold poll
    split_ifs
    · exact hrest
    · exact forall_mem_cons.mpr ⟨htask.2, forall_mem_cons.mpr ⟨htask, hrest⟩⟩
    · exact forall_mem_cons.mpr ⟨htask, hrest⟩
  | waited e =>
    cases e with
    | none => exact forall_mem_cons.mpr ⟨htask, hrest⟩
    | some e =>
      unfold afterWait
      dsimp only
      split_ifs
      · exact forall_mem_nil _
      · exact hrest
      · exact forall_mem_cons.mpr ⟨htask, hrest⟩
  | ticked => exact forall_mem_cons.mpr ⟨htask, hrest⟩
  | overflows => exact forall_mem_nil _
  | resumes => exact forall_mem_cons.mpr ⟨htask, hrest⟩
  | fired => exact hrest
  | fires =>
    obtain ⟨ht, hts⟩ := forall_mem_cons.mp htask
    exact forall_mem_cons.mpr ⟨ht.steps, forall_mem_cons.mpr ⟨hts, hrest⟩⟩
  | passes => exact forall_mem_cons.mpr ⟨(forall_mem_cons.mp htask).2, hrest⟩
  | noTriggers => exact hrest
  | took e =>
    unfold afterTake
    split_ifs
    · exact forall_mem_nil _
    · exact forall_mem_cons.mpr ⟨htask, forall_mem_cons.mpr ⟨htask, hrest⟩⟩

theorem Reached.sound {plan : Plan} (hp : plan.Sound) {r : Runner} (h : Reached plan r) :
    ∀ u ∈ r.tasks, u.Sound := by
  induction h with
  | start =>
    refine List.forall_mem_cons.mpr ⟨hp.steps, ?_⟩
    exact List.forall_mem_singleton.mpr hp.triggers
  | @next r r' hr hn ih =>
    obtain ⟨task, rest, ht, hturn⟩ := turn_of_next hn
    rw [ht] at ih
    obtain ⟨htask, hrest⟩ := List.forall_mem_cons.mp ih
    exact hturn.sound htask hrest

end Runner

end Script

end InputRelay
