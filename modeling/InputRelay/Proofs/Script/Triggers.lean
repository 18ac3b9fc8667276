import InputRelay.Proofs.Script.Compiled
import InputRelay.Proofs.Script.Contents
import InputRelay.Proofs.Script.Trace

/-!
# No trigger feeds itself

A trigger of a compiled script contains no event that fires it (`not_mem_events_of_compile`). While
a runner executes the steps of a trigger, what it has to do above the rest of its stack comes from
those steps, however often a repeat in them ticks (`Executing.stack`). So until the steps are made
or the run is over (`Executing.goes_on`), it sends none of the events that fire the trigger
(`no_self_trigger`).
-/

namespace InputRelay.Script

/-! ## Compiled triggers -/

/-- No step of a trigger sends an event that fires it. -/
def Trigger.Silent (t : Trigger) : Prop := ∀ e ∈ t.on, e ∉ eventsOf t.steps

theorem silent_triggered {on : List InputEvent} {body plan : Plan}
    (hbody : ∀ t ∈ body.triggers, t.Silent) (h : triggered on body = .ok plan) :
    ∀ t ∈ plan.triggers, t.Silent := by
  obtain ⟨hquiet, rfl⟩ := triggered_eq_ok.mp h
  intro t ht
  rcases List.mem_append.mp ht with ht | ht
  · exact hbody t ht
  · cases List.mem_singleton.mp ht
    intro e he hsent
    have hsends : sendsAny e body.steps = true := (sendsAny_iff e body.steps).mpr hsent
    exact absurd hsends (by rw [hquiet e he]; exact Bool.false_ne_true)

theorem hereditary_silent : Hereditary fun plan => ∀ t ∈ plan.triggers, t.Silent where
  empty := List.forall_mem_nil _
  append hp hq t ht := (List.mem_append.mp ht).elim (hp t) (hq t)
  sending _ := List.forall_mem_nil _
  repeating _ hbody := hbody
  triggered _ hbody h := silent_triggered hbody h

theorem not_mem_events_of_compile {library : Library} {written : List WrittenStep} {plan : Plan}
    (h : compile library written = .ok plan) {t : Trigger} (ht : t ∈ plan.triggers)
    {e : InputEvent} (he : e ∈ t.on) : e ∉ eventsOf t.steps :=
  hereditary_silent.of_compile h t ht e he

namespace Runner

/-! ## The steps of a trigger under way -/

/-- The runner executes the steps of a trigger on top of other tasks: the trigger has just fired, or
the runner was doing so before its last move and has not come down to those tasks. -/
inductive Executing (t : Trigger) : List Task → Runner → Prop where
  | fires {r r' : Runner} {e : InputEvent} {ts : List Trigger} {rest : List Task}
      (ht : r.tasks = .firing e (t :: ts) :: rest) (he : t.on.contains e = true)
      (hn : r.Next r') : Executing t (.firing e ts :: rest) r'
  | next {r r' : Runner} {above under : List Task} (h : Executing t under r) (hn : r.Next r')
      (ht : r'.tasks = above ++ under) (hne : above ≠ []) : Executing t under r'

section

variable {t : Trigger} {under : List Task} {r r' : Runner}

/-- All there is above the tasks that the trigger was fired on top of comes from its steps. -/
theorem Executing.stack (h : Executing t under r) :
    ∃ above, above ≠ [] ∧ r.tasks = above ++ under ∧
      ∀ u ∈ above, u.events ⊆ eventsOf t.steps := by
  induction h with
  | @fires r r' e ts rest ht he hn =>
    cases hn.turn ht with
    | fires =>
      refine ⟨[.steps t.steps], List.cons_ne_nil _ _, rfl, ?_⟩
      exact List.forall_mem_singleton.mpr (List.Subset.refl _)
    | passes hpass => exact absurd he (by rw [hpass]; exact Bool.false_ne_true)
  | @next r r' above under h hn ht hne ih =>
    refine ⟨above, hne, ht, ?_⟩
    obtain ⟨before, hbefore, hstack, hevents⟩ := ih
    obtain ⟨top, below, rfl⟩ := List.exists_cons_of_ne_nil hbefore
    have hturn : r.Turn top (below ++ under) r' := hn.turn hstack
    obtain ⟨htop, hbelow⟩ := List.forall_mem_cons.mp hevents
    rcases hturn.replaces with ⟨pre, hpre, hwithin⟩ | ⟨hnil, -⟩
    · -- The move leaves `below` where it was, so what is new above `under` is `pre`.
      have hboth : above ++ under = (pre ++ below) ++ under :=
        ht.symm.trans (hpre.trans (List.append_assoc pre below under).symm)
      have habove : above = pre ++ below := List.append_cancel_right hboth
      rw [habove]
      intro u hu
      rcases List.mem_append.mp hu with hu | hu
      · exact List.Subset.trans (hwithin u hu).1 htop
      · exact hbelow u hu
    · rw [hnil] at ht
      exact absurd (List.append_eq_nil_iff.mp ht.symm).1 hne

/-- The steps of a trigger are under way until they are made or the run is over. -/
theorem Executing.goes_on (h : Executing t under r) (hn : r.Next r') :
    Executing t under r' ∨ r'.tasks = under ∨ r'.tasks = [] := by
  obtain ⟨before, hbefore, hstack, -⟩ := h.stack
  obtain ⟨top, below, rfl⟩ := List.exists_cons_of_ne_nil hbefore
  have hturn : r.Turn top (below ++ under) r' := hn.turn hstack
  rcases hturn.replaces with ⟨pre, hpre, -⟩ | ⟨hnil, -⟩
  · have htasks : r'.tasks = (pre ++ below) ++ under :=
      hpre.trans (List.append_assoc pre below under).symm
    by_cases habove : pre ++ below = []
    · rw [habove] at htasks
      exact .inr (.inl htasks)
    · exact .inl (h.next hn htasks habove)
  · exact .inr (.inr hnil)

/-- **What a trigger sends never fires it.** While a runner executes the steps of a trigger of a
compiled script, no event that it asks the sender for is one of the trigger's own, whatever the
sender, the clock and the inbox answered before. -/
theorem no_self_trigger {library : Library} {written : List WrittenStep} {plan : Plan}
    (hplan : compile library written = .ok plan) (ht : t ∈ plan.triggers)
    (h : Executing t under r) {e : InputEvent} {resume : Answer (.send e) → Runner}
    (hm : r.move = .ask (.send e) resume) : e ∉ t.on := by
  intro he
  obtain ⟨above, hne, hstack, hevents⟩ := h.stack
  obtain ⟨top, below, rfl⟩ := List.exists_cons_of_ne_nil hne
  have hsent : e ∈ top.events := by
    cases asks_of_tasks hm hstack with
    | sending => exact List.mem_cons_self
  exact not_mem_events_of_compile hplan ht he (hevents top List.mem_cons_self hsent)

end

/-! ## A trigger that answers one key with another -/

/-- Whenever A is pressed, B is pressed and released. -/
def answering : List WrittenStep := [.group (some [.name "a"]) [.press [.name "b"]]]

/-- The trigger of that script. -/
def answeringTrigger : Trigger := ⟨[.keyDown 0x41], [.send [.keyDown 0x42, .keyUp 0x42]]⟩

/-- The script, compiled. -/
def answeringPlan : Plan := { triggers := [answeringTrigger] }

theorem compile_answering : compile (fun _ => none) answering = .ok answeringPlan := by
  rfl

/-- A was pressed, and B is about to be. -/
theorem no_self_trigger_of_answering :
    ∃ under r resume, Reached answeringPlan r ∧ Executing answeringTrigger under r ∧
      r.move = .ask (.send (.keyDown 0x42)) resume ∧
      InputEvent.keyDown 0x42 ∉ answeringTrigger.on := by
  have hlistens : Reached answeringPlan { tasks := [.listening answeringPlan.triggers] } :=
    .next .start (.quiet rfl)
  have htook := hlistens.next (.ask (q := .takeNext) rfl (InputEvent.keyDown 0x41))
  let r : Runner :=
    { tasks := [.firing (.keyDown 0x41) answeringPlan.triggers, .listening answeringPlan.triggers] }
  have hfiring : Reached answeringPlan r := htook
  have hfired := hfiring.next (.quiet rfl)
  have he : answeringTrigger.on.contains (.keyDown 0x41) = true := by decide
  have hfires : Executing answeringTrigger _ _ := .fires (show r.tasks = _ from rfl) he (.quiet rfl)
  have hsends := hfires.next (.quiet rfl)
    (show _ = [.sending [.keyDown 0x42, .keyUp 0x42], .steps []] ++ _ from rfl)
    (List.cons_ne_nil _ _)
  exact ⟨_, _, _, hfired.next (.quiet rfl), hsends, rfl,
    no_self_trigger compile_answering List.mem_cons_self hsends rfl⟩

end Runner

end InputRelay.Script
