import InputRelay.Proofs.Script.Reach

/-!
# What there is in a script

The events that steps send and the paces at which they repeat, at every depth, and so for what a
runner has still to do. A move puts other tasks in the place of the one on top, with nothing in them
that was not there before, or it ends the run (`Turn.replaces`).
-/

namespace InputRelay.Script

/-! ## Steps -/

mutual

/-- The events that a step sends, at every depth. -/
def Step.events : Step → List InputEvent
  | .send events => events
  | .repeating _ body => eventsOf body

/-- The events that steps send. -/
def eventsOf : List Step → List InputEvent
  | [] => []
  | s :: ss => s.events ++ eventsOf ss

end

mutual

/-- The paces at which a step repeats others, at every depth. -/
def Step.paces : Step → List Pace
  | .send _ => []
  | .repeating pace body => pace :: pacesOf body

/-- The paces in steps. -/
def pacesOf : List Step → List Pace
  | [] => []
  | s :: ss => s.paces ++ pacesOf ss

end

/-- The paces in a script. -/
def Plan.paces (plan : Plan) : List Pace :=
  pacesOf plan.steps ++ plan.triggers.flatMap fun t => pacesOf t.steps

mutual

theorem Step.sends_iff (e : InputEvent) (s : Step) : s.sends e = true ↔ e ∈ s.events := by
  cases s with
  | send events => simp [Step.sends, Step.events]
  | repeating pace body =>
    rw [Step.sends, Step.events]
    exact sendsAny_iff e body

theorem sendsAny_iff (e : InputEvent) (ss : List Step) :
    sendsAny e ss = true ↔ e ∈ eventsOf ss := by
  cases ss with
  | nil => simp [sendsAny, eventsOf]
  | cons s ss =>
    rw [sendsAny, eventsOf, Bool.or_eq_true, List.mem_append, Step.sends_iff e s,
      sendsAny_iff e ss]

end

/-! ## Tasks -/

namespace Task

/-- The events that a runner may send for a task. -/
def events : Task → List InputEvent
  | .steps ss => eventsOf ss
  | .sending es => es
  | .beginning _ body => eventsOf body
  | .polling t | .waiting t _ | .resuming t _ | .ticked t => eventsOf t.body
  | .firing _ ts | .listening ts => ts.flatMap fun t => eventsOf t.steps

/-- The paces in a task. -/
def paces : Task → List Pace
  | .steps ss => pacesOf ss
  | .sending _ => []
  | .beginning pace body => pace :: pacesOf body
  | .polling t | .waiting t _ | .resuming t _ | .ticked t => t.pace :: pacesOf t.body
  | .firing _ ts | .listening ts => ts.flatMap fun t => pacesOf t.steps

/-- There is nothing in a task that is not in the other. -/
def Within (u task : Task) : Prop := u.events ⊆ task.events ∧ u.paces ⊆ task.paces

theorem within_refl (task : Task) : task.Within task :=
  ⟨List.Subset.refl _, List.Subset.refl _⟩

theorem within_steps {s : Step} {ss : List Step} : (Task.steps ss).Within (.steps (s :: ss)) :=
  ⟨List.subset_append_right _ _, List.subset_append_right _ _⟩

theorem within_first {s : Step} {ss : List Step} {u : Task} (hevents : u.events = s.events)
    (hpaces : u.paces = s.paces) : u.Within (.steps (s :: ss)) := by
  constructor
  · rw [hevents]
    exact List.subset_append_left _ _
  · rw [hpaces]
    exact List.subset_append_left _ _

theorem within_body {t : Ticking} : (Task.steps t.body).Within (.polling t) :=
  ⟨List.Subset.refl _, List.subset_cons_self _ _⟩

theorem within_firing {e : InputEvent} {t : Trigger} {ts : List Trigger} :
    (Task.firing e ts).Within (.firing e (t :: ts)) := by
  constructor
  · simp [events]
  · simp [paces]

theorem within_fired {e : InputEvent} {t : Trigger} {ts : List Trigger} :
    (Task.steps t.steps).Within (.firing e (t :: ts)) := by
  constructor
  · simp [events]
  · simp [paces]

/-- The task is to wait at the inbox. -/
def AtInbox : Task → Prop
  | .waiting _ _ | .listening (_ :: _) => True
  | _ => False

end Task

/-! ## Moves -/

namespace Runner

variable {r r' : Runner} {task : Task} {rest : List Task}

open List in
/-- A move puts tasks in the place of the one on top, or it ends the run. -/
theorem Turn.replaces (h : r.Turn task rest r') :
    (∃ pre, r'.tasks = pre ++ rest ∧ ∀ u ∈ pre, u.Within task) ∨
      r'.tasks = [] ∧ (task.AtInbox ∨ r'.breakdown ≠ none) := by
  cases h with
  | noSteps => exact .inl ⟨[], rfl, forall_mem_nil _⟩
  | @send es ss =>
    exact .inl ⟨[.sending es, .steps ss], rfl, forall_mem_cons.mpr
      ⟨Task.within_first rfl rfl, forall_mem_singleton.mpr Task.within_steps⟩⟩
  | @repeating pace body ss =>
    exact .inl ⟨[.beginning pace body, .steps ss], rfl, forall_mem_cons.mpr
      ⟨Task.within_first rfl rfl, forall_mem_singleton.mpr Task.within_steps⟩⟩
  | noEvents => exact .inl ⟨[], rfl, forall_mem_nil _⟩
  | @sent e es _ result =>
    cases result with
    | ok =>
      refine .inl ⟨[.sending es], rfl, forall_mem_singleton.mpr ⟨?_, Subset.refl _⟩⟩
      exact subset_cons_self _ _
    | error => exact .inl ⟨[], rfl, forall_mem_nil _⟩
  | @begins pace body _ now =>
    rcases r.begin_cases pace body rest now with ⟨_, _, -, -, he⟩ | he
    · rw [he]
      exact .inl ⟨[_], rfl, forall_mem_singleton.mpr (Task.within_refl _)⟩
    · rw [he]
      exact .inr ⟨rfl, .inr (Option.some_ne_none _)⟩
  | @polls t _ now =>
    unfold poll
    split_ifs
    · exact .inl ⟨[], rfl, forall_mem_nil _⟩
    · exact .inl ⟨[.steps t.body, .ticked t], rfl, forall_mem_cons.mpr
      ⟨Task.within_body, forall_mem_singleton.mpr (Task.within_refl _)⟩⟩
    · exact .inl ⟨[_], rfl, forall_mem_singleton.mpr (Task.within_refl _)⟩
  | @waited t d _ e =>
    cases e with
    | none => exact .inl ⟨[.polling t], rfl, forall_mem_singleton.mpr (Task.within_refl _)⟩
    | some e =>
      unfold afterWait
      dsimp only
      split_ifs
      · exact .inr ⟨rfl, .inl trivial⟩
      · exact .inl ⟨[], rfl, forall_mem_nil _⟩
      · exact .inl ⟨[.polling t], rfl, forall_mem_singleton.mpr (Task.within_refl _)⟩
  | ticked => exact .inl ⟨[_], rfl, forall_mem_singleton.mpr (Task.within_refl _)⟩
  | overflows => exact .inr ⟨rfl, .inr (Option.some_ne_none _)⟩
  | resumes => exact .inl ⟨[_], rfl, forall_mem_singleton.mpr (Task.within_refl _)⟩
  | fired => exact .inl ⟨[], rfl, forall_mem_nil _⟩
  | @fires e t ts =>
    exact .inl ⟨[.steps t.steps, .firing e ts], rfl, forall_mem_cons.mpr
      ⟨Task.within_fired, forall_mem_singleton.mpr Task.within_firing⟩⟩
  | passes => exact .inl ⟨[_], rfl, forall_mem_singleton.mpr Task.within_firing⟩
  | noTriggers => exact .inl ⟨[], rfl, forall_mem_nil _⟩
  | took e =>
    unfold afterTake
    split_ifs
    · exact .inr ⟨rfl, .inl trivial⟩
    · exact .inl ⟨[_, _], rfl, forall_mem_cons.mpr
        ⟨Task.within_refl _, forall_mem_singleton.mpr (Task.within_refl _)⟩⟩

/-- The paces that a runner meets are paces of its script. -/
theorem Reached.paces {plan : Plan} (h : Reached plan r) :
    ∀ u ∈ r.tasks, u.paces ⊆ plan.paces := by
  induction h with
  | start =>
    rw [ofPlan, List.forall_mem_cons, List.forall_mem_singleton]
    exact ⟨List.subset_append_left _ _, List.subset_append_right _ _⟩
  | @next r r' hr hn ih =>
    obtain ⟨task, rest, ht, hturn⟩ := turn_of_next hn
    rw [ht, List.forall_mem_cons] at ih
    obtain ⟨htask, hrest⟩ := ih
    rcases hturn.replaces with ⟨pre, htasks, hwithin⟩ | ⟨hnone, -⟩
    · rw [htasks]
      intro u hu
      rcases List.mem_append.mp hu with hu | hu
      · exact List.Subset.trans (hwithin u hu).2 htask
      · exact hrest u hu
    · rw [hnone]
      exact List.forall_mem_nil _

end Runner

end InputRelay.Script
