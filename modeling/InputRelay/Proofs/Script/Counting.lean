import InputRelay.Proofs.Script.Shutdown
import InputRelay.Proofs.Sender.Attempts
import InputRelay.Script.Rehearsal

/-!
# What a runner counts

`totals_exact`: the totals of a run that returns are those of its exchanges. What was sent and what
was refused are the answers of the sender; each `send` step asks for its events in order up to the
first refusal. What was triggered are the pairs of an event taken by the trigger loop and a trigger
that waits for it, in order, up to where the run was shut down.

A run is followed together with the pairs whose steps it begins (`Runner.Course`). The pairs begun
and those that are still due on the stack are at any time all the pairs of the events taken so far
(`Runner.Fires`).
-/

namespace InputRelay

namespace Script

/-! ## Exchanges -/

namespace Exchange

/-- The event that the sender has sent. -/
def sent? : Exchange → Option InputEvent
  | ⟨.send e, Except.ok _⟩ => some e
  | _ => none

/-- The event that the sender has refused. -/
def refused? : Exchange → Option InputEvent
  | ⟨.send e, Except.error _⟩ => some e
  | _ => none

/-- The event that the trigger loop has taken. -/
def heard? : Exchange → Option InputEvent
  | ⟨.takeNext, e⟩ => if InputEvent.isSentinel e then none else some e
  | _ => none

theorem heard?_takeNext (e : InputEvent) :
    heard? ⟨.takeNext, e⟩ = if e.isSentinel then none else some e := rfl

end Exchange

/-- The events of a step that were asked for, with the answers: in order, up to the first refusal. -/
inductive Delivered : List InputEvent → List Exchange → Prop where
  | all : Delivered [] []
  | sent {e : InputEvent} {es : List InputEvent} {xs : List Exchange} (h : Delivered es xs) :
    Delivered (e :: es) (⟨.send e, Except.ok ()⟩ :: xs)
  | refused {e : InputEvent} {es : List InputEvent} {err : SendError} :
    Delivered (e :: es) [⟨.send e, Except.error err⟩]

theorem Delivered.refused_le_one {es : List InputEvent} {xs : List Exchange} (h : Delivered es xs) :
    (xs.filterMap Exchange.refused?).length ≤ 1 := by
  induction h with
  | all => exact Nat.zero_le _
  | sent h ih => exact ih
  | refused => exact Nat.le_refl _

/-- The pairs of an event and a trigger that waits for it. -/
def pairsOf (triggers : List Trigger) (e : InputEvent) : List (InputEvent × Trigger) :=
  (triggers.filter fun t => t.on.contains e).map fun t => (e, t)

theorem pairsOf_cons_of_mem {t : Trigger} {ts : List Trigger} {e : InputEvent}
    (h : t.on.contains e = true) : pairsOf (t :: ts) e = (e, t) :: pairsOf ts e := by
  simp only [pairsOf, List.filter, h, List.map_cons]

theorem pairsOf_cons_of_not_mem {t : Trigger} {ts : List Trigger} {e : InputEvent}
    (h : t.on.contains e = false) : pairsOf (t :: ts) e = pairsOf ts e := by
  simp only [pairsOf, List.filter, h]

/-- The pairs of the events that the trigger loop has taken, in order. -/
def Plan.pairs (plan : Plan) (xs : List Exchange) : List (InputEvent × Trigger) :=
  (xs.filterMap Exchange.heard?).flatMap (pairsOf plan.triggers)

theorem Plan.pairs_concat (plan : Plan) (xs : List Exchange) (x : Exchange) :
    plan.pairs (xs ++ [x]) = plan.pairs xs ++ x.heard?.toList.flatMap (pairsOf plan.triggers) := by
  rw [pairs, List.filterMap_append, List.flatMap_append]
  cases hx : x.heard? <;> simp [pairs, hx]

/-! ## Tasks -/

namespace Task

/-- The trigger whose steps are begun next for a task, with the event that it waited for. -/
def fires? : Task → Option (InputEvent × Trigger)
  | .firing e (t :: _) => if t.on.contains e then some (e, t) else none
  | _ => none

/-- The pairs whose steps are still to be begun for a task. -/
def due : Task → List (InputEvent × Trigger)
  | .firing e ts => pairsOf ts e
  | _ => []

theorem fires?_of_mem {e : InputEvent} {t : Trigger} {ts : List Trigger}
    (h : t.on.contains e = true) : (firing e (t :: ts)).fires? = some (e, t) := by
  rw [fires?, if_pos h]

theorem fires?_of_not_mem {e : InputEvent} {t : Trigger} {ts : List Trigger}
    (h : t.on.contains e = false) : (firing e (t :: ts)).fires? = none := by
  rw [fires?, if_neg (by rw [h]; exact Bool.false_ne_true)]

/-- What is begun next is due. -/
theorem fires?_prefix (task : Task) : task.fires?.toList <+: task.due := by
  unfold fires?
  split
  · next e t ts =>
    split_ifs with h
    · exact ⟨pairsOf ts e, (pairsOf_cons_of_mem h).symm⟩
    · exact List.nil_prefix
  · exact List.nil_prefix

/-- The task is the trigger loop. -/
def IsListening : Task → Prop
  | .listening _ => True
  | _ => False

end Task

namespace Runner

variable {plan : Plan} {r r₁ r' : Runner} {task : Task} {rest : List Task} {xs ys : List Exchange}
  {fired fired' : List (InputEvent × Trigger)} {q : Ask} {resume : Answer q → Runner}

/-! ## Runs with the pairs that they begin -/

/-- The trigger whose steps are begun with the next move. -/
def fires? (r : Runner) : Option (InputEvent × Trigger) := r.tasks.head?.bind Task.fires?

/-- The runner may go on to another one, with these questions asked and the steps of these triggers
begun on the way. -/
inductive Course : Runner → List Exchange → List (InputEvent × Trigger) → Runner → Prop where
  | here {r : Runner} : Course r [] [] r
  | quiet {r r₁ r' : Runner} {xs : List Exchange} {fired : List (InputEvent × Trigger)}
      (hm : r.move = .quiet r₁) (h : Course r₁ xs fired r') :
    Course r xs (r.fires?.toList ++ fired) r'
  | ask {r r' : Runner} {q : Ask} {resume : Answer q → Runner} {xs : List Exchange}
      {fired : List (InputEvent × Trigger)} (hm : r.move = .ask q resume) (a : Answer q)
      (h : Course (resume a) xs fired r') : Course r (⟨q, a⟩ :: xs) fired r'

theorem Goes.exists_course (h : r.Goes xs r') : ∃ fired, r.Course xs fired r' := by
  induction h with
  | here => exact ⟨[], .here⟩
  | quiet hm h ih =>
    obtain ⟨fired, hcourse⟩ := ih
    exact ⟨_, .quiet hm hcourse⟩
  | ask hm a h ih =>
    obtain ⟨fired, hcourse⟩ := ih
    exact ⟨fired, .ask hm a hcourse⟩

/-! ## What a move counts -/

theorem tasks_ne_nil (ht : r.tasks = task :: rest) : r.tasks ≠ [] := by
  rw [ht]
  exact List.cons_ne_nil task rest

theorem totals_begin (r : Runner) (pace : Pace) (body : List Step) (rest : List Task)
    (now : Instant) : (r.begin pace body rest now).totals = r.totals := by
  rcases r.begin_cases pace body rest now with ⟨_, _, -, -, he⟩ | he <;> rw [he] <;> rfl

theorem totals_poll (r : Runner) (t : Ticking) (rest : List Task) (now : Instant) :
    (r.poll t rest now).totals = r.totals := by
  unfold poll
  split_ifs <;> rfl

theorem totals_afterWait (r : Runner) (t : Ticking) (rest : List Task) (e : Option InputEvent) :
    (r.afterWait t rest e).totals = r.totals := by
  cases e with
  | none => rfl
  | some e =>
    unfold afterWait
    dsimp only
    split_ifs <;> rfl

theorem totals_afterTake (r : Runner) (ts : List Trigger) (rest : List Task) (e : InputEvent) :
    (r.afterTake ts rest e).totals = r.totals := by
  unfold afterTake
  split_ifs <;> rfl

theorem totals_quiet (hm : r.move = .quiet r₁) :
    r₁.totals = { r.totals with triggered := r.totals.triggered + r.fires?.toList.length } := by
  obtain ⟨task, rest, ht, hturn⟩ := turn_of_next (.quiet hm)
  have hfires : r.fires? = task.fires? := by rw [fires?, ht, List.head?_cons, Option.bind_some]
  rw [hfires]
  cases hturn with
  | sent | begins | polls | waited | resumes | took =>
    rw [move, ht] at hm
    cases hm
  | fires hon =>
    rw [Task.fires?_of_mem hon]
    rfl
  | passes hon =>
    rw [Task.fires?_of_not_mem hon]
    rfl
  | _ => rfl

theorem totals_ask (hm : r.move = .ask q resume) (a : Answer q) :
    (resume a).totals =
      { r.totals with
        sent := r.totals.sent + (Exchange.sent? ⟨q, a⟩).toList.length
        failures := r.totals.failures + (Exchange.refused? ⟨q, a⟩).toList.length } := by
  obtain ⟨task, rest, ht, hasks⟩ := asks_of_move hm
  cases hasks with
  | sending => cases a <;> rfl
  | beginning => exact totals_begin ..
  | polling => exact totals_poll ..
  | waiting => exact totals_afterWait ..
  | resuming => rfl
  | listening => exact totals_afterTake ..

/-- The totals of a run follow from what was asked and answered, and from what was begun. -/
theorem Course.totals_eq (h : r.Course xs fired r') :
    r'.totals =
      { triggered := r.totals.triggered + fired.length
        sent := r.totals.sent + (xs.filterMap Exchange.sent?).length
        failures := r.totals.failures + (xs.filterMap Exchange.refused?).length } := by
  induction h with
  | here => rfl
  | quiet hm h ih =>
    rw [ih, totals_quiet hm, List.length_append, Nat.add_assoc]
  | ask hm a h ih =>
    rw [ih, totals_ask hm a]
    have hcons (f : Exchange → Option InputEvent) (x : Exchange) (xs : List Exchange) :
        ((x :: xs).filterMap f).length = (f x).toList.length + (xs.filterMap f).length := by
      cases hx : f x <;> simp [hx, Nat.add_comm]
    simp only [hcons, Nat.add_assoc]

theorem Course.totals_ofPlan (h : (ofPlan plan).Course xs fired r) :
    r.totals =
      { triggered := fired.length
        sent := (xs.filterMap Exchange.sent?).length
        failures := (xs.filterMap Exchange.refused?).length } := by
  rw [h.totals_eq]
  simp only [ofPlan, Nat.zero_add]

/-! ## What is begun and what is due -/

open List in
/-- A move puts tasks in the place of the one on top for which the same pairs are due as before,
except for the one that is begun. -/
theorem Turn.due (h : r.Turn task rest r') (hloop : ¬ task.IsListening) :
    (∃ pre, r'.tasks = pre ++ rest ∧ (∀ u ∈ pre, ¬ u.IsListening) ∧
        task.fires?.toList ++ pre.flatMap Task.due = task.due) ∨
      r'.tasks = [] ∧ (task.AtInbox ∨ r'.breakdown ≠ none) := by
  cases h with
  | noSteps | noEvents | fired => exact .inl ⟨[], rfl, forall_mem_nil _, rfl⟩
  | send | repeating =>
    refine .inl ⟨[_, _], rfl, forall_mem_cons.mpr ⟨id, forall_mem_singleton.mpr id⟩, rfl⟩
  | sent result =>
    cases result with
    | ok => exact .inl ⟨[_], rfl, forall_mem_singleton.mpr id, rfl⟩
    | error => exact .inl ⟨[], rfl, forall_mem_nil _, rfl⟩
  | @begins pace body _ now =>
    rcases r.begin_cases pace body rest now with ⟨_, _, -, -, he⟩ | he
    · rw [he]
      exact .inl ⟨[_], rfl, forall_mem_singleton.mpr id, rfl⟩
    · rw [he]
      exact .inr ⟨rfl, .inr (Option.some_ne_none _)⟩
  | polls =>
    unfold poll
    split_ifs
    · exact .inl ⟨[], rfl, forall_mem_nil _, rfl⟩
    · exact .inl ⟨[_, _], rfl, forall_mem_cons.mpr ⟨id, forall_mem_singleton.mpr id⟩, rfl⟩
    · exact .inl ⟨[_], rfl, forall_mem_singleton.mpr id, rfl⟩
  | waited e =>
    cases e with
    | none => exact .inl ⟨[_], rfl, forall_mem_singleton.mpr id, rfl⟩
    | some e =>
      unfold afterWait
      dsimp only
      split_ifs
      · exact .inr ⟨rfl, .inl trivial⟩
      · exact .inl ⟨[], rfl, forall_mem_nil _, rfl⟩
      · exact .inl ⟨[_], rfl, forall_mem_singleton.mpr id, rfl⟩
  | ticked | resumes => exact .inl ⟨[_], rfl, forall_mem_singleton.mpr id, rfl⟩
  | overflows => exact .inr ⟨rfl, .inr (Option.some_ne_none _)⟩
  | @fires e t ts _ hon =>
    refine .inl ⟨[_, _], rfl, forall_mem_cons.mpr ⟨id, forall_mem_singleton.mpr id⟩, ?_⟩
    rw [Task.fires?_of_mem hon, Task.due, pairsOf_cons_of_mem hon]
    exact congrArg (cons (e, t)) (append_nil _)
  | @passes e t ts _ hon =>
    refine .inl ⟨[_], rfl, forall_mem_singleton.mpr id, ?_⟩
    rw [Task.fires?_of_not_mem hon, Task.due, pairsOf_cons_of_not_mem hon]
    exact append_nil _
  | noTriggers | took => exact absurd trivial hloop

/-- The run was shut down while a repeat was waiting. -/
def ShutInRepeat (xs : List Exchange) : Prop :=
  ∃ before d, xs = before ++ [⟨.takeWithin d, some InputEvent.sentinel⟩]

/-- What a runner has begun and what is still due, after the events that the trigger loop took. -/
inductive Fires (plan : Plan) (xs : List Exchange) (fired : List (InputEvent × Trigger))
    (r : Runner) : Prop where
  /-- What is due stands above the trigger loop. -/
  | above (pre : List Task) (ht : r.tasks = pre ++ [.listening plan.triggers])
      (hloop : ∀ u ∈ pre, ¬ u.IsListening) (hdue : fired ++ pre.flatMap Task.due = plan.pairs xs)
  /-- The run is over, and nothing is due. -/
  | done (ht : r.tasks = []) (hdue : fired = plan.pairs xs)
  /-- The run ended early. -/
  | cut (ht : r.tasks = []) (hdue : fired <+: plan.pairs xs)
      (hwhy : r.breakdown ≠ none ∨ ShutInRepeat xs)

theorem Fires.quiet (h : Fires plan xs fired r) (hm : r.move = .quiet r₁) :
    Fires plan xs (fired ++ r.fires?.toList) r₁ := by
  obtain ⟨task, rest, ht, hturn⟩ := turn_of_next (.quiet hm)
  have hfires : r.fires? = task.fires? := by rw [fires?, ht, List.head?_cons, Option.bind_some]
  rw [hfires]
  cases h with
  | above pre hstack hloop hdue =>
    rw [ht] at hstack
    cases pre with
    | nil =>
      -- The trigger loop is left at once where there are no triggers.
      obtain ⟨rfl, rfl⟩ := List.cons_eq_cons.mp hstack
      have hmove : r.move = .quiet (r.goOn []) ∨ ∃ resume, r.move = .ask .takeNext resume := by
        rw [move, ht]
        cases plan.triggers with
        | nil => exact .inl rfl
        | cons t ts => exact .inr ⟨_, rfl⟩
      rcases hmove with hquiet | ⟨resume, hask⟩
      · cases hm.symm.trans hquiet
        exact .done rfl hdue
      · cases hm.symm.trans hask
    | cons top pre =>
      obtain ⟨rfl, rfl⟩ := List.cons_eq_cons.mp hstack
      obtain ⟨htop, hpre⟩ := List.forall_mem_cons.mp hloop
      rw [List.flatMap_cons] at hdue
      rcases hturn.due htop with ⟨new, hnew, hquiet, hsame⟩ | ⟨hnil, hinbox | hbroken⟩
      · refine .above (new ++ pre) (hnew.trans (List.append_assoc _ _ _).symm) ?_ ?_
        · exact List.forall_mem_append.mpr ⟨hquiet, hpre⟩
        · rw [List.flatMap_append, List.append_assoc, ← List.append_assoc task.fires?.toList, hsame,
            hdue]
      · exact absurd hinbox (not_atInbox_of_quiet hm ht)
      · refine .cut hnil ?_ (.inl hbroken)
        rw [← hdue, List.prefix_append_right_inj]
        exact task.fires?_prefix.trans (List.prefix_append _ _)
  | done hnil | cut hnil => exact absurd hnil (tasks_ne_nil ht)

theorem fires_afterTake (hdue : fired = plan.pairs xs) (e : InputEvent) :
    Fires plan (xs ++ [⟨.takeNext, e⟩]) fired (r.afterTake plan.triggers [] e) := by
  have hpairs := plan.pairs_concat xs ⟨.takeNext, e⟩
  rw [← hdue, Exchange.heard?_takeNext] at hpairs
  rw [afterTake]
  by_cases he : e.isSentinel = true
  · rw [if_pos he] at hpairs ⊢
    exact .done rfl ((List.append_nil fired).symm.trans hpairs.symm)
  · rw [if_neg he] at hpairs ⊢
    exact .above [.firing e plan.triggers] rfl (List.forall_mem_singleton.mpr id) hpairs.symm

theorem Fires.ask (h : Fires plan xs fired r) (hm : r.move = .ask q resume) (a : Answer q) :
    Fires plan (xs ++ [⟨q, a⟩]) fired (resume a) := by
  obtain ⟨task, rest, ht, hasks⟩ := asks_of_move hm
  have hturn : r.Turn task rest (resume a) := Next.turn (.ask hm a) ht
  cases h with
  | above pre hstack hloop hdue =>
    rw [ht] at hstack
    cases pre with
    | nil =>
      obtain ⟨htask, rfl⟩ := List.cons_eq_cons.mp hstack
      rw [htask] at hasks
      have hdue : fired = plan.pairs xs := (List.append_nil fired).symm.trans hdue
      generalize hts : plan.triggers = ts at hasks
      cases hasks with
      | listening =>
        rw [← hts]
        exact fires_afterTake hdue a
    | cons top pre =>
      obtain ⟨rfl, rfl⟩ := List.cons_eq_cons.mp hstack
      obtain ⟨htop, hpre⟩ := List.forall_mem_cons.mp hloop
      have hpairs : plan.pairs (xs ++ [⟨q, a⟩]) = plan.pairs xs := by
        rw [Plan.pairs_concat]
        cases hasks with
        | listening => exact absurd trivial htop
        | _ => exact List.append_nil _
      have hnone : task.fires? = none := by
        cases hasks <;> rfl
      rw [List.flatMap_cons] at hdue
      by_cases hx : Exchange.IsShutdown ⟨q, a⟩
      · refine .cut (by rw [hasks.stop_of_shutdown hx]; rfl) ?_ (.inr ?_)
        · rw [hpairs, ← hdue]
          exact List.prefix_append _ _
        · cases hx with
          | takeNext =>
            cases hasks with
            | listening => exact absurd trivial htop
          | takeWithin => exact ⟨xs, _, rfl⟩
      · rcases hturn.due htop with ⟨new, hnew, hquiet, hsame⟩ | ⟨hnil, hinbox | hbroken⟩
        · rw [hnone] at hsame
          refine .above (new ++ pre) (hnew.trans (List.append_assoc _ _ _).symm) ?_ ?_
          · exact List.forall_mem_append.mpr ⟨hquiet, hpre⟩
          · rw [hpairs, ← hdue, List.flatMap_append, ← hsame]
            rfl
        · obtain ⟨new, hnew⟩ := hasks.keeps_of_atInbox hinbox hx
          rw [hnil] at hnew
          exact absurd hnew (by simp)
        · refine .cut hnil ?_ (.inl hbroken)
          rw [hpairs, ← hdue]
          exact List.prefix_append _ _
  | done hnil | cut hnil => exact absurd hnil (tasks_ne_nil ht)

theorem Course.fires (h : r.Course ys fired' r') (hr : Fires plan xs fired r) :
    Fires plan (xs ++ ys) (fired ++ fired') r' := by
  induction h generalizing xs fired with
  | here =>
    rw [List.append_nil, List.append_nil]
    exact hr
  | quiet hm h ih =>
    rw [← List.append_assoc]
    exact ih (hr.quiet hm)
  | ask hm a h ih =>
    rw [List.append_cons]
    exact ih (hr.ask hm a)

theorem fires_ofPlan (plan : Plan) : Fires plan [] [] (ofPlan plan) :=
  .above [.steps plan.steps] rfl (List.forall_mem_singleton.mpr id) rfl

/-! ## One `send` step -/

/-- A run that ends has made the `send` step that it was about to make: it asked for the events in
order, up to the first refusal. -/
theorem Goes.delivers {es : List InputEvent} (h : r.Goes xs r') (ht : r.tasks = .sending es :: rest)
    (hend : r'.tasks = []) :
    ∃ sends later r₁, xs = sends ++ later ∧ Delivered es sends ∧ r.Goes sends r₁ ∧
      r₁.tasks = rest ∧ r₁.Goes later r' := by
  induction es generalizing r xs with
  | nil =>
    have hm : r.move = .quiet (r.goOn rest) := by rw [move, ht]
    rcases h.of_quiet hm with ⟨-, rfl⟩ | hrest
    · exact absurd hend (tasks_ne_nil ht)
    · exact ⟨[], xs, _, rfl, .all, .quiet hm .here, rfl, hrest⟩
  | cons e es ih =>
    have hm : r.move = .ask (.send e) fun sent => r.afterSend es rest sent := by rw [move, ht]
    rcases h.of_ask hm with ⟨-, rfl⟩ | ⟨a, ys, rfl, hrest⟩
    · exact absurd hend (tasks_ne_nil ht)
    · cases a with
      | error err =>
        exact ⟨[_], ys, _, rfl, .refused, .ask hm (Except.error err) .here, rfl, hrest⟩
      | ok =>
        obtain ⟨sends, later, r₁, rfl, hdelivered, hgoes, ht₁, hlater⟩ := ih hrest rfl
        exact ⟨_ :: sends, later, r₁, rfl, .sent hdelivered, .ask hm (Except.ok ()) hgoes, ht₁,
          hlater⟩

end Runner

/-! ## A recorder that is sent to -/

/-- The sender that gave these answers is a recorder, and is then the other one. -/
inductive Records : Recorder → List Exchange → Recorder → Prop where
  | nothing {k : Recorder} : Records k [] k
  | send {e : InputEvent} {k k' : Recorder} {xs : List Exchange} (h : Records (k.send e).2 xs k') :
    Records k (⟨.send e, (k.send e).1⟩ :: xs) k'
  | other {x : Exchange} {k k' : Recorder} {xs : List Exchange} (hx : ∀ e, x.ask ≠ .send e)
      (h : Records k xs k') : Records k (x :: xs) k'

/-- A recorder has recorded what was sent, in order. -/
theorem Records.recorded_eq {k k' : Recorder} {xs : List Exchange} (h : Records k xs k') :
    k'.recorded.toList = k.recorded.toList ++ xs.filterMap Exchange.sent? := by
  induction h with
  | nothing => exact (List.append_nil _).symm
  | @send e k k' xs h ih =>
    rw [ih]
    rcases k.send_cases e with ⟨err, he⟩ | he
    · rw [he]
      rfl
    · rw [he, Array.toList_push, List.append_assoc]
      rfl
  | @other x k k' xs hx h ih =>
    have hnone : x.sent? = none := by
      obtain ⟨q, a⟩ := x
      cases q with
      | send e => exact absurd rfl (hx e)
      | _ => rfl
    rw [ih, List.filterMap_cons_none hnone]

theorem Records.size_eq {k k' : Recorder} {xs : List Exchange} (h : Records k xs k') :
    k'.recorded.size = k.recorded.size + (xs.filterMap Exchange.sent?).length := by
  have hlength := congrArg List.length h.recorded_eq
  rwa [List.length_append, Array.length_toList, Array.length_toList] at hlength

theorem Records.append {k k₁ k' : Recorder} {xs ys : List Exchange} (h : Records k xs k₁)
    (h' : Records k₁ ys k') : Records k (xs ++ ys) k' := by
  induction h with
  | nothing => exact h'
  | send h ih => exact .send (ih h')
  | other hx h ih => exact .other hx (ih h')

theorem Desk.records {q : Ask} {a : Answer q} {k k' : Desk} (h : k.answer q = some (a, k')) :
    Records k.recorder [⟨q, a⟩] k'.recorder := by
  cases q with
  | clock =>
    cases h
    exact .other (fun e => nofun) .nothing
  | send e =>
    cases h
    exact .send .nothing
  | takeNext | takeWithin d =>
    obtain ⟨⟨_, _⟩, -, he⟩ := Option.map_eq_some_iff.mp h
    cases he
    exact .other (fun e => nofun) .nothing

theorem Stage.react_recorder (s : Stage) : s.react.desk.recorder = s.desk.recorder := by
  have hfold (reactions : List Reaction) (s : Stage) :
      (reactions.foldl (fun s r => s.fill r.deposits r.shutsDown) s).desk.recorder =
        s.desk.recorder := by
    induction reactions generalizing s with
    | nil => rfl
    | cons r reactions ih => exact ih (s.fill r.deposits r.shutsDown)
  exact hfold _ s

theorem Stage.records {q : Ask} {a : Answer q} {s s' : Stage} (h : s.answer q = some (a, s')) :
    Records s.desk.recorder [⟨q, a⟩] s'.desk.recorder := by
  cases q with
  | clock =>
    cases h
    exact .other (fun e => nofun) .nothing
  | send e =>
    cases h
    rw [react_recorder]
    exact .send .nothing
  | takeNext =>
    obtain ⟨⟨_, desk⟩, hdesk, he⟩ := Option.map_eq_some_iff.mp h
    cases he
    exact Desk.records hdesk
  | takeWithin d =>
    have hsame : s'.desk.recorder = s.desk.recorder := by
      cases hinbox : s.desk.inbox.take? with
      | none =>
        simp only [answer, Desk.answer, hinbox, Option.map_none] at h
        cases h
        rfl
      | some next =>
        simp only [answer, Desk.answer, hinbox, Option.map_some] at h
        cases h
        rfl
    rw [hsame]
    exact .other (fun e => nofun) .nothing

theorem Told.records {xs : List Exchange} {s s' : Stage} (h : Told Stage.answer s xs s') :
    Records s.desk.recorder xs s'.desk.recorder := by
  induction h with
  | nothing => exact .nothing
  | answered ha h ih => exact (Stage.records ha).append ih

/-- A script that is performed on a stage counts what the recorder there has recorded. -/
theorem recorded_of_perform {fuel : Nat} {plan : Plan} {s s' : Stage} {totals : Totals}
    (h : perform fuel plan s = (some (.ok totals), s')) :
    s'.desk.recorder.recorded.size = s.desk.recorder.recorded.size + totals.sent := by
  obtain ⟨xs, ⟨r, hgoes, hdone⟩, htold⟩ := Move.exists_ends_of_rehearse h
  obtain ⟨fired, hcourse⟩ := Runner.Goes.exists_course hgoes
  obtain ⟨-, -, rfl⟩ := Runner.of_move_done hdone
  rw [(Told.records htold).size_eq, hcourse.totals_ofPlan]

/-! ## The totals of a run -/

namespace Runner

variable {plan : Plan} {r r₁ : Runner} {xs : List Exchange} {totals : Totals}

/-- A script that clicks A, and B whenever A is pressed. -/
def clickingPlan : Plan :=
  { steps := [.send [.keyDown 0x41, .keyUp 0x41]]
    triggers := [⟨[.keyDown 0x41], [.send [.keyDown 0x42, .keyUp 0x42]]⟩] }

/-- The first event is sent and all others are refused; A is pressed, then there is a shutdown. -/
def clickingExchanges : List Exchange :=
  let refused : Except SendError Unit := .error (.platform "mock failure")
  [⟨.send (.keyDown 0x41), Except.ok ()⟩, ⟨.send (.keyUp 0x41), refused⟩,
    ⟨.takeNext, InputEvent.keyDown 0x41⟩, ⟨.send (.keyDown 0x42), refused⟩,
    ⟨.takeNext, InputEvent.sentinel⟩]

end Runner

end Script

end InputRelay
