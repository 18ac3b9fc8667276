import InputRelay.Script.Runner
import Mathlib.Tactic.ByContra
import Mathlib.Tactic.SplitIfs

/-!
# Where a runner can come

A runner may be answered anything. `Runner.Next` is one move with any answer, `Runner.Reached` what
a run of a script may come to, in whatever surroundings. `Runner.Turn` lists the moves by the task
on top of the stack; `turn_of_next` says that there are no others.
-/

namespace InputRelay.Script.Runner

/-! ## Moves with any answer -/

/-- What a runner may be after its next move. -/
inductive Next (r : Runner) : Runner → Prop where
  | quiet {r' : Runner} (h : r.move = .quiet r') : Next r r'
  | ask {q : Ask} {resume : Answer q → Runner} (h : r.move = .ask q resume) (a : Answer q) :
    Next r (resume a)

/-- What a run of a script may come to. -/
inductive Reached (plan : Plan) : Runner → Prop where
  | start : Reached plan (.ofPlan plan)
  | next {r r' : Runner} (h : Reached plan r) (hn : r.Next r') : Reached plan r'

/-! ## Moves by their tasks -/

/-- The moves of a runner with a task on top of others. -/
inductive Turn (r : Runner) : Task → List Task → Runner → Prop where
  | noSteps {rest : List Task} : Turn r (.steps []) rest (r.goOn rest)
  | send {es : List InputEvent} {ss : List Step} {rest : List Task} :
    Turn r (.steps (.send es :: ss)) rest (r.goOn (.sending es :: .steps ss :: rest))
  | repeating {pace : Pace} {body ss : List Step} {rest : List Task} :
    Turn r (.steps (.repeating pace body :: ss)) rest
      (r.goOn (.beginning pace body :: .steps ss :: rest))
  | noEvents {rest : List Task} : Turn r (.sending []) rest (r.goOn rest)
  | sent {e : InputEvent} {es : List InputEvent} {rest : List Task}
      (result : Except SendError Unit) :
    Turn r (.sending (e :: es)) rest (r.afterSend es rest result)
  | begins {pace : Pace} {body : List Step} {rest : List Task} (now : Instant) :
    Turn r (.beginning pace body) rest (r.begin pace body rest now)
  | polls {t : Ticking} {rest : List Task} (now : Instant) :
    Turn r (.polling t) rest (r.poll t rest now)
  | waited {t : Ticking} {d : Duration} {rest : List Task} (e : Option InputEvent) :
    Turn r (.waiting t d) rest (r.afterWait t rest e)
  | ticked {t : Ticking} {next : Instant} {rest : List Task}
      (h : t.nextTick.add? t.pace.interval = some next) :
    Turn r (.ticked t) rest (r.goOn (.resuming t next :: rest))
  | overflows {t : Ticking} {rest : List Task} (h : t.nextTick.add? t.pace.interval = none) :
    Turn r (.ticked t) rest (r.breakOff .clockOverflow)
  | resumes {t : Ticking} {next : Instant} {rest : List Task} (now : Instant) :
    Turn r (.resuming t next) rest
      (r.goOn (.polling { t with nextTick := next.later now } :: rest))
  | fired {e : InputEvent} {rest : List Task} : Turn r (.firing e []) rest (r.goOn rest)
  | fires {e : InputEvent} {t : Trigger} {ts : List Trigger} {rest : List Task}
      (h : t.on.contains e = true) :
    Turn r (.firing e (t :: ts)) rest
      { r with
        tasks := .steps t.steps :: .firing e ts :: rest
        totals := { r.totals with triggered := r.totals.triggered + 1 } }
  | passes {e : InputEvent} {t : Trigger} {ts : List Trigger} {rest : List Task}
      (h : t.on.contains e = false) :
    Turn r (.firing e (t :: ts)) rest (r.goOn (.firing e ts :: rest))
  | noTriggers {rest : List Task} : Turn r (.listening []) rest (r.goOn rest)
  | took {t : Trigger} {ts : List Trigger} {rest : List Task} (e : InputEvent) :
    Turn r (.listening (t :: ts)) rest (r.afterTake (t :: ts) rest e)

theorem next_of_quiet {r r' next : Runner} (h : r.Next r') (hm : r.move = .quiet next) :
    r' = next := by
  cases h with
  | quiet h =>
    rw [hm] at h
    cases h
    rfl
  | ask h a =>
    rw [hm] at h
    exact nomatch h

theorem next_of_ask {r r' : Runner} {q : Ask} {resume : Answer q → Runner} (h : r.Next r')
    (hm : r.move = .ask q resume) : ∃ a, r' = resume a := by
  cases h with
  | quiet h =>
    rw [hm] at h
    exact nomatch h
  | ask h a =>
    rw [hm] at h
    cases h
    exact ⟨a, rfl⟩

theorem turn_of_next {r r' : Runner} (h : r.Next r') :
    ∃ task rest, r.tasks = task :: rest ∧ r.Turn task rest r' := by
  cases ht : r.tasks with
  | nil =>
    cases h with
    | quiet hm =>
      rw [move, ht] at hm
      exact nomatch hm
    | ask hm a =>
      rw [move, ht] at hm
      exact nomatch hm
  | cons task rest =>
    refine ⟨task, rest, rfl, ?_⟩
    cases task with
    | steps ss =>
      rcases ss with - | ⟨s, ss⟩
      · cases next_of_quiet h (by rw [move, ht])
        exact .noSteps
      · cases s with
        | send es =>
          cases next_of_quiet h (by rw [move, ht])
          exact .send
        | repeating pace body =>
          cases next_of_quiet h (by rw [move, ht])
          exact .repeating
    | sending es =>
      rcases es with - | ⟨e, es⟩
      · cases next_of_quiet h (by rw [move, ht])
        exact .noEvents
      · obtain ⟨result, rfl⟩ := next_of_ask h (by rw [move, ht])
        exact .sent result
    | beginning pace body =>
      obtain ⟨now, rfl⟩ := next_of_ask h (by rw [move, ht])
      exact .begins now
    | polling t =>
      obtain ⟨now, rfl⟩ := next_of_ask h (by rw [move, ht])
      exact .polls now
    | waiting t d =>
      obtain ⟨e, rfl⟩ := next_of_ask h (by rw [move, ht])
      exact .waited e
    | resuming t next =>
      obtain ⟨now, rfl⟩ := next_of_ask h (by rw [move, ht])
      exact .resumes now
    | ticked t =>
      cases hn : t.nextTick.add? t.pace.interval with
      | some next =>
        have hm : r.move = .quiet (r.goOn (.resuming t next :: rest)) := by
          simp only [move, ht, hn]
        cases next_of_quiet h hm
        exact .ticked hn
      | none =>
        have hm : r.move = .quiet (r.breakOff .clockOverflow) := by simp only [move, ht, hn]
        cases next_of_quiet h hm
        exact .overflows hn
    | firing e ts =>
      rcases ts with - | ⟨t, ts⟩
      · cases next_of_quiet h (by rw [move, ht])
        exact .fired
      · cases hc : t.on.contains e with
        | true =>
          have hm : r.move = .quiet
              { r with
                tasks := .steps t.steps :: .firing e ts :: rest
                totals := { r.totals with triggered := r.totals.triggered + 1 } } := by
            simp only [move, ht, hc, if_true]
          cases next_of_quiet h hm
          exact .fires hc
        | false =>
          have hm : r.move = .quiet (r.goOn (.firing e ts :: rest)) := by
            simp only [move, ht, hc, Bool.false_eq_true, if_false]
          cases next_of_quiet h hm
          exact .passes hc
    | listening ts =>
      rcases ts with - | ⟨t, ts⟩
      · cases next_of_quiet h (by rw [move, ht])
        exact .noTriggers
      · obtain ⟨e, rfl⟩ := next_of_ask h (by rw [move, ht])
        exact .took e

theorem Next.turn {r r' : Runner} {task : Task} {rest : List Task} (h : r.Next r')
    (ht : r.tasks = task :: rest) : r.Turn task rest r' := by
  obtain ⟨task', rest', ht', hturn⟩ := turn_of_next h
  obtain ⟨rfl, rfl⟩ := List.cons_eq_cons.mp (ht.symm.trans ht')
  exact hturn

/-- A repeat begins with its deadline and its first tick, unless one of them would lie beyond the
range of the clock. -/
theorem begin_cases (r : Runner) (pace : Pace) (body : List Step) (rest : List Task)
    (now : Instant) :
    (∃ deadline nextTick, pace.limit.map now.add? = deadline.map some ∧
      now.add? pace.interval = some nextTick ∧
      r.begin pace body rest now = r.goOn (.polling ⟨pace, body, deadline, nextTick⟩ :: rest)) ∨
    r.begin pace body rest now = r.breakOff .clockOverflow := by
  unfold begin
  cases hn : now.add? pace.interval with
  | none =>
    right
    cases pace.limit with
    | none => rfl
    | some d => cases hd : now.add? d <;> simp [hd]
  | some nextTick =>
    cases hl : pace.limit with
    | none => exact .inl ⟨none, nextTick, rfl, rfl, rfl⟩
    | some d =>
      cases hd : now.add? d with
      | none => exact .inr (by simp [hd])
      | some deadline => exact .inl ⟨some deadline, nextTick, by simp [hd], rfl, by simp [hd]⟩

/-! ## Runs that broke off -/

theorem Turn.tasks_eq_nil {r r' : Runner} {task : Task} {rest : List Task}
    (h : r.Turn task rest r') (hr : r.breakdown = none) (hb : r'.breakdown ≠ none) :
    r'.tasks = [] := by
  cases h with
  | sent result => cases result <;> exact absurd hr hb
  | @begins pace body _ now =>
    rcases r.begin_cases pace body rest now with ⟨_, _, -, -, he⟩ | he
    · rw [he] at hb
      exact absurd hr hb
    · rw [he]
      rfl
  | polls now =>
    unfold poll at hb
    split_ifs at hb <;> exact absurd hr hb
  | @waited t _ _ e =>
    cases e with
    | none => exact absurd hr hb
    | some e =>
      unfold afterWait at hb
      dsimp only at hb
      split_ifs at hb <;> exact absurd hr hb
  | overflows => rfl
  | took e =>
    unfold afterTake at hb
    split_ifs at hb <;> exact absurd hr hb
  | _ => exact absurd hr hb

/-- A run that broke off has nothing left to do. -/
theorem Reached.tasks_eq_nil {plan : Plan} {r : Runner} (h : Reached plan r)
    (hb : r.breakdown ≠ none) : r.tasks = [] := by
  induction h with
  | start => exact absurd rfl hb
  | @next r r' hr hn ih =>
    obtain ⟨task, rest, ht, hturn⟩ := turn_of_next hn
    refine hturn.tasks_eq_nil ?_ hb
    by_contra hne
    rw [ih hne] at ht
    exact nomatch ht

end InputRelay.Script.Runner
