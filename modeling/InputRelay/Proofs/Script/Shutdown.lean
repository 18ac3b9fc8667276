import InputRelay.Proofs.Script.Contents
import InputRelay.Proofs.Script.Trace

/-!
# Nothing happens after a shutdown was seen

`nothing_after_shutdown`: once the inbox has answered a runner with the sentinel, wherever in its
script the runner was, it asks for nothing more, fires nothing more and returns what it had counted
by then. A run that returns before all startup steps are made returns in this way.

A runner that sees the sentinel drops its whole stack of tasks (`Asks.stop_of_shutdown`). Any other
move leaves the tasks below the one on top as they are, unless the run breaks off (`keeps_of_quiet`,
`keeps_of_ask`). So a run that returned and never saw the sentinel has come down to whatever was
at the bottom of its stack at any time (`Goes.comesDown`), and so to each tail of the startup steps.
-/

namespace InputRelay.Script

/-- The inbox has answered with the sentinel. -/
inductive Exchange.IsShutdown : Exchange → Prop where
  | takeNext : IsShutdown ⟨.takeNext, InputEvent.sentinel⟩
  | takeWithin {d : Duration} : IsShutdown ⟨.takeWithin d, some InputEvent.sentinel⟩

namespace Runner

variable {r r' : Runner} {task : Task} {rest : List Task} {xs : List Exchange} {q : Ask}
  {resume : Answer q → Runner}

/-! ## What a move leaves of the stack -/

theorem keeps_of_afterWait {t : Ticking} {e : Option InputEvent} (he : e ≠ some .sentinel) :
    ∃ pre, (r.afterWait t rest e).tasks = pre ++ rest := by
  cases e with
  | none => exact ⟨[.polling t], rfl⟩
  | some e =>
    have hsentinel : ¬ e.isSentinel = true := by
      rw [InputEvent.isSentinel_iff]
      rintro rfl
      exact he rfl
    rw [afterWait]
    simp only [if_neg hsentinel]
    by_cases hstop : t.pace.stop.contains e = true
    · rw [if_pos hstop]
      exact ⟨[], rfl⟩
    · rw [if_neg hstop]
      exact ⟨[.polling t], rfl⟩

theorem keeps_of_afterTake {ts : List Trigger} {e : InputEvent} (he : e ≠ .sentinel) :
    ∃ pre, (r.afterTake ts rest e).tasks = pre ++ rest := by
  rw [afterTake, if_neg (by rwa [InputEvent.isSentinel_iff])]
  exact ⟨[.firing e ts, .listening ts], rfl⟩

theorem Asks.stop_of_shutdown {a : Answer q} (h : r.Asks task rest q resume)
    (hx : Exchange.IsShutdown ⟨q, a⟩) : resume a = r.stop := by
  cases h with
  | waiting =>
    cases hx
    rfl
  | listening =>
    cases hx
    rfl
  | _ => exact nomatch hx

theorem Asks.keeps_of_atInbox {a : Answer q} (h : r.Asks task rest q resume)
    (hinbox : task.AtInbox) (hx : ¬ Exchange.IsShutdown ⟨q, a⟩) :
    ∃ pre, (resume a).tasks = pre ++ rest := by
  cases h with
  | waiting =>
    refine keeps_of_afterWait ?_
    rintro rfl
    exact hx .takeWithin
  | listening =>
    refine keeps_of_afterTake ?_
    rintro rfl
    exact hx .takeNext
  | _ => exact hinbox.elim

theorem not_atInbox_of_quiet (hm : r.move = .quiet r') (ht : r.tasks = task :: rest) :
    ¬ task.AtInbox := by
  intro hinbox
  rw [move, ht] at hm
  cases task with
  | waiting t d => cases hm
  | listening ts =>
    cases ts with
    | nil => exact hinbox
    | cons t ts => cases hm
  | _ => exact hinbox

theorem keeps_of_quiet (hm : r.move = .quiet r') (ht : r.tasks = task :: rest) :
    (∃ pre, r'.tasks = pre ++ rest) ∨ r'.tasks = [] ∧ r'.breakdown ≠ none := by
  have hturn : r.Turn task rest r' := Next.turn (.quiet hm) ht
  rcases hturn.replaces with ⟨pre, hpre, -⟩ | ⟨hnil, hinbox | hbroken⟩
  · exact .inl ⟨pre, hpre⟩
  · exact absurd hinbox (not_atInbox_of_quiet hm ht)
  · exact .inr ⟨hnil, hbroken⟩

theorem keeps_of_ask {a : Answer q} (hm : r.move = .ask q resume) (ht : r.tasks = task :: rest)
    (hx : ¬ Exchange.IsShutdown ⟨q, a⟩) :
    (∃ pre, (resume a).tasks = pre ++ rest) ∨
      (resume a).tasks = [] ∧ (resume a).breakdown ≠ none := by
  have hturn : r.Turn task rest (resume a) := Next.turn (.ask hm a) ht
  rcases hturn.replaces with ⟨pre, hpre, -⟩ | ⟨hnil, hinbox | hbroken⟩
  · exact .inl ⟨pre, hpre⟩
  · exact .inl ((asks_of_tasks hm ht).keeps_of_atInbox hinbox hx)
  · exact .inr ⟨hnil, hbroken⟩

/-! ## Runs that return -/

/-- On the way there is a runner that has just these tasks to do. -/
def PassesBy (r : Runner) (xs : List Exchange) (r' : Runner) (tasks : List Task) : Prop :=
  ∃ before after r₁, xs = before ++ after ∧ r.Goes before r₁ ∧ r₁.tasks = tasks ∧
    r₁.Goes after r'

/-- The last answer was the sentinel. -/
def EndsInShutdown (xs : List Exchange) : Prop := ∃ before x, xs = before ++ [x] ∧ x.IsShutdown

theorem EndsInShutdown.append {ys : List Exchange} (h : EndsInShutdown ys) (xs : List Exchange) :
    EndsInShutdown (xs ++ ys) := by
  obtain ⟨before, x, rfl, hx⟩ := h
  exact ⟨xs ++ before, x, (List.append_assoc _ _ _).symm, hx⟩

theorem PassesBy.after {r₁ : Runner} {tasks : List Task} {before after : List Exchange}
    (hbefore : r.Goes before r₁) (h : r₁.PassesBy after r' tasks) :
    r.PassesBy (before ++ after) r' tasks := by
  obtain ⟨before', after', r₂, rfl, hgoes, ht, hrest⟩ := h
  exact ⟨before ++ before', after', r₂, (List.append_assoc _ _ _).symm, hbefore.trans hgoes, ht,
    hrest⟩

/-- A run that returns comes down to what was at the bottom of the stack, unless it saw the
sentinel. -/
theorem Goes.comesDown {pre : List Task} (h : r.Goes xs r') (ht : r.tasks = pre ++ rest)
    (hend : r'.tasks = []) (hb : r'.breakdown = none) :
    r.PassesBy xs r' rest ∨ EndsInShutdown xs := by
  -- The invariant is that `rest` is at the bottom; what is above it is different after each move.
  induction h generalizing pre with
  | @here r =>
    rw [hend] at ht
    obtain ⟨-, rfl⟩ := List.append_eq_nil_iff.mp ht.symm
    exact .inl ⟨[], [], r, rfl, .here, hend, .here⟩
  | @quiet r r₁ r' xs hm h ih =>
    cases pre with
    | nil => exact .inl ⟨[], xs, r, rfl, .here, ht, .quiet hm h⟩
    | cons task pre =>
      rcases keeps_of_quiet hm ht with ⟨above, habove⟩ | ⟨hnil, hbroken⟩
      · have htasks : r₁.tasks = (above ++ pre) ++ rest :=
          habove.trans (List.append_assoc above pre rest).symm
        exact (ih htasks hend hb).imp_left (PassesBy.after (.quiet hm .here))
      · obtain ⟨-, rfl⟩ := Goes.of_tasks_eq_nil h hnil
        exact absurd hb hbroken
  | @ask r r' q resume xs hm a h ih =>
    cases pre with
    | nil => exact .inl ⟨[], ⟨q, a⟩ :: xs, r, rfl, .here, ht, .ask hm a h⟩
    | cons task pre =>
      by_cases hx : Exchange.IsShutdown ⟨q, a⟩
      · have hstop : resume a = r.stop := (asks_of_tasks hm ht).stop_of_shutdown hx
        rw [hstop] at h
        obtain ⟨rfl, -⟩ := Goes.of_tasks_eq_nil h rfl
        exact .inr ⟨[], _, rfl, hx⟩
      · rcases keeps_of_ask hm ht hx with ⟨above, habove⟩ | ⟨hnil, hbroken⟩
        · have htasks : (resume a).tasks = (above ++ pre) ++ rest :=
            habove.trans (List.append_assoc above pre rest).symm
          exact (ih htasks hend hb).imp (PassesBy.after (.ask hm a .here)) fun hs => hs.append [_]
        · obtain ⟨-, rfl⟩ := Goes.of_tasks_eq_nil h hnil
          exact absurd hb hbroken

theorem of_move_done {totals : Totals} (h : r.move = .done (.ok totals)) :
    r.tasks = [] ∧ r.breakdown = none ∧ r.totals = totals := by
  unfold move at h
  split at h <;> try contradiction
  · next hnil =>
    cases hb : r.breakdown with
    | none =>
      rw [hb] at h
      cases h
      exact ⟨hnil, rfl, rfl⟩
    | some b =>
      rw [hb] at h
      exact nomatch h
  · split at h <;> contradiction
  · split at h <;> contradiction

theorem move_of_tasks_eq_nil (ht : r.tasks = []) (hb : r.breakdown = none) :
    r.move = .done (.ok r.totals) := by
  rw [move, ht]
  simp only [hb]

/-- The first of several steps is made above the others. -/
theorem move_of_steps {s : Step} {ss : List Step} (ht : r.tasks = .steps (s :: ss) :: rest) :
    ∃ task r₁, r.move = .quiet r₁ ∧ r₁.tasks = [task] ++ .steps ss :: rest := by
  cases s with
  | send es => exact ⟨.sending es, _, by rw [move, ht], rfl⟩
  | repeating pace body => exact ⟨.beginning pace body, _, by rw [move, ht], rfl⟩

/-- A run that returns without the sentinel has made one startup step after the other. -/
theorem Goes.makes_steps {plan : Plan} (h : (ofPlan plan).Goes xs r') (hend : r'.tasks = [])
    (hb : r'.breakdown = none) (hnone : ¬ EndsInShutdown xs) (k : Nat)
    (hk : k ≤ plan.steps.length) :
    (ofPlan plan).PassesBy xs r' [.steps (plan.steps.drop k), .listening plan.triggers] := by
  induction k with
  | zero => exact ⟨[], xs, ofPlan plan, rfl, .here, rfl, h⟩
  | succ k ih =>
    obtain ⟨before, after, r₁, rfl, hbefore, ht, hafter⟩ := ih (by omega)
    rw [List.drop_eq_getElem_cons (by omega)] at ht
    obtain ⟨task, r₂, hm, ht₂⟩ := move_of_steps ht
    rcases hafter.of_quiet hm with ⟨-, rfl⟩ | hrest
    · rw [hend] at ht
      exact nomatch ht
    · rcases Goes.comesDown hrest ht₂ hend hb with hpass | hshutdown
      · exact (hpass.after (.quiet hm .here)).after hbefore
      · exact absurd (hshutdown.append before) hnone

/-- **Once the inbox has answered with the sentinel, nothing is asked for any more.** No further
event is sent, the inbox and the clock are left alone, no further trigger fires, and the run returns
what it had counted when it asked. A run that returns has otherwise made all its startup steps; one
that breaks off returns nothing. What the sender, the clock and the inbox answer is arbitrary. -/
theorem nothing_after_shutdown {plan : Plan} (h : (ofPlan plan).Goes xs r) :
    (∀ before x after, xs = before ++ x :: after → x.IsShutdown →
      after = [] ∧ ∃ r₁ resume, (ofPlan plan).Goes before r₁ ∧ r₁.move = .ask x.ask resume ∧
        r.totals = r₁.totals ∧ r.move = .done (.ok r₁.totals)) ∧
      ∀ totals, r.move = .done (.ok totals) →
        EndsInShutdown xs ∨ ∀ k ≤ plan.steps.length,
          (ofPlan plan).PassesBy xs r [.steps (plan.steps.drop k), .listening plan.triggers] := by
  refine ⟨?_, ?_⟩
  · rintro before x after rfl hx
    obtain ⟨r₁, resume, hbefore, hm, hafter⟩ := h.split
    obtain ⟨task, rest, ht, hasks⟩ := asks_of_move hm
    have hunbroken : r₁.breakdown = none := by
      by_contra hne
      rw [(Goes.reached hbefore .start).tasks_eq_nil hne] at ht
      exact nomatch ht
    rw [hasks.stop_of_shutdown hx] at hafter
    obtain ⟨rfl, rfl⟩ := Goes.of_tasks_eq_nil hafter rfl
    exact ⟨rfl, r₁, resume, hbefore, hm, rfl, move_of_tasks_eq_nil rfl hunbroken⟩
  · intro totals hdone
    obtain ⟨hend, hb, -⟩ := of_move_done hdone
    by_cases hshutdown : EndsInShutdown xs
    · exact .inl hshutdown
    · exact .inr (h.makes_steps hend hb hshutdown)

/-! ## A shutdown inside a repeat of a repeat -/

/-- A second. -/
def second : Duration := ⟨1000000000, by decide⟩

/-- A script that presses a key, and then every second releases it every second. -/
def nestedPlan : Plan :=
  let everySecond : Pace := ⟨second, none, [.keyDown 0x1B]⟩
  { steps := [.send [.keyDown 0x41],
      .repeating everySecond [.repeating everySecond [.send [.keyUp 0x41]]]] }

/-- The key is pressed, the outer repeat ticks after a second, and the inner one begins to wait. -/
def nestedExchanges : List Exchange :=
  let now : Instant := ⟨1000000000, by decide⟩
  [⟨.send (.keyDown 0x41), Except.ok ()⟩, ⟨.clock, Instant.origin⟩, ⟨.clock, now⟩, ⟨.clock, now⟩,
    ⟨.clock, now⟩]

/-- The inner repeat sees the shutdown, and nothing more is sent. -/
theorem nothing_after_shutdown_of_nested :
    ∃ r : Runner, (ofPlan nestedPlan).Goes
        (nestedExchanges ++ [⟨.takeWithin second, some InputEvent.sentinel⟩]) r ∧
      ∃ r₁, (ofPlan nestedPlan).Goes nestedExchanges r₁ ∧ r.move = .done (.ok r₁.totals) := by
  have hgoes : (ofPlan nestedPlan).Goes
      (nestedExchanges ++ [⟨.takeWithin second, some InputEvent.sentinel⟩])
      { tasks := [], totals := { sent := 1 } } := by
    refine .quiet rfl (.ask rfl _ (.quiet rfl (.quiet rfl (.ask rfl _ (.ask rfl _ ?_)))))
    exact .quiet rfl (.ask rfl _ (.ask rfl _ (.ask rfl _ .here)))
  obtain ⟨-, r₁, _, hbefore, -, -, hdone⟩ :=
    (nothing_after_shutdown hgoes).1 nestedExchanges _ [] rfl .takeWithin
  exact ⟨_, hgoes, r₁, hbefore, hdone⟩

end Runner

end InputRelay.Script
