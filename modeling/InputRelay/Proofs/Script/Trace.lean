import InputRelay.Proofs.Exchanges
import InputRelay.Proofs.Script.Reach

/-!
# What a runner is told

A run, told by the questions that the runner asked and the answers that it was given, in order.
Every sender, every clock and every inbox gives such a run. `Runner.Asks` lists what a runner may
ask, by the task on top of the stack, and how it goes on from there.
-/

namespace InputRelay.Script

/-- A question of a runner with its answer. -/
abbrev Exchange := Move.Exchange Ask Answer

/-- The surroundings have given these answers one after the other, and are then the others. -/
abbrev Told {ε : Type} (answer : Surroundings Ask Answer ε) (k : ε) (xs : List Exchange) (k' : ε) :
    Prop :=
  Move.Told answer k xs k'

namespace Runner

/-! ## Runs -/

/-- The runner may go on to another one, with these questions asked on the way. -/
abbrev Goes (r : Runner) (xs : List Exchange) (r' : Runner) : Prop := Move.Goes move r xs r'

variable {r r' : Runner} {xs : List Exchange}

theorem Goes.reached {plan : Plan} (h : r.Goes xs r') (hr : Reached plan r) : Reached plan r' := by
  induction h with
  | here => exact hr
  | quiet hm h ih => exact ih (.next hr (.quiet hm))
  | ask hm a h ih => exact ih (.next hr (.ask hm a))

/-- A run that is over goes nowhere. -/
theorem Goes.of_tasks_eq_nil (h : r.Goes xs r') (ht : r.tasks = []) : xs = [] ∧ r' = r :=
  h.of_done (by rw [move, ht])

/-! ## Questions by their tasks -/

/-- The questions of a runner with a task on top of others. -/
inductive Asks (r : Runner) : Task → List Task → (q : Ask) → (Answer q → Runner) → Prop where
  | sending {e : InputEvent} {es : List InputEvent} {rest : List Task} :
    Asks r (.sending (e :: es)) rest (.send e) fun sent => r.afterSend es rest sent
  | beginning {pace : Pace} {body : List Step} {rest : List Task} :
    Asks r (.beginning pace body) rest .clock fun now => r.begin pace body rest now
  | polling {t : Ticking} {rest : List Task} :
    Asks r (.polling t) rest .clock fun now => r.poll t rest now
  | waiting {t : Ticking} {d : Duration} {rest : List Task} :
    Asks r (.waiting t d) rest (.takeWithin d) fun e => r.afterWait t rest e
  | resuming {t : Ticking} {next : Instant} {rest : List Task} :
    Asks r (.resuming t next) rest .clock fun now =>
      r.goOn (.polling { t with nextTick := next.later now } :: rest)
  | listening {t : Trigger} {ts : List Trigger} {rest : List Task} :
    Asks r (.listening (t :: ts)) rest .takeNext fun e => r.afterTake (t :: ts) rest e

theorem asks_of_move {r : Runner} {q : Ask} {resume : Answer q → Runner}
    (hm : r.move = .ask q resume) : ∃ task rest, r.tasks = task :: rest ∧ r.Asks task rest q resume
    := by
  unfold move at hm
  split at hm <;> try contradiction
  · cases hm
    exact ⟨_, _, ‹_›, .sending⟩
  · cases hm
    exact ⟨_, _, ‹_›, .beginning⟩
  · cases hm
    exact ⟨_, _, ‹_›, .polling⟩
  · cases hm
    exact ⟨_, _, ‹_›, .waiting⟩
  · split at hm <;> contradiction
  · cases hm
    exact ⟨_, _, ‹_›, .resuming⟩
  · split at hm <;> contradiction
  · cases hm
    exact ⟨_, _, ‹_›, .listening⟩

theorem asks_of_tasks {r : Runner} {q : Ask} {resume : Answer q → Runner} {task : Task}
    {rest : List Task} (hm : r.move = .ask q resume) (ht : r.tasks = task :: rest) :
    r.Asks task rest q resume := by
  obtain ⟨task', rest', ht', hasks⟩ := asks_of_move hm
  obtain ⟨rfl, rfl⟩ := List.cons_eq_cons.mp (ht.symm.trans ht')
  exact hasks

end Runner

end InputRelay.Script
