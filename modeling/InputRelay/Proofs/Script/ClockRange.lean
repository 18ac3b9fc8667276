import InputRelay.Proofs.Script.Contents
import InputRelay.Proofs.Script.Trace
import InputRelay.Script.Compile

/-!
# Runs within the range of the clock

A run breaks off when a time that it reckons with lies beyond the range of the clock. If all
readings are in the first half of the range, that comes about in one way only: a repeat begins whose
interval or time limit reaches beyond the range from there (`breaksOff_iff`). Such a limit can be
written (`breaksOff_of_lasting`).

The ticks after the first make no trouble, since the next tick is at least one interval after the
origin (`Ticking.Timely`) and is reckoned with only after a reading that is not before it.
-/

namespace InputRelay

/-! ## Additions to a reading -/

/-- Half of the range of the clock, 2^62 seconds, in nanoseconds. -/
def Instant.halfRange : Nat := 4611686018427387904 * Duration.perSecond

namespace Instant

variable {t next : Instant} {d : Duration}

theorem add?_eq_none_iff : t.add? d = none ↔ limit ≤ t.nanos + d.nanos := by
  unfold add?
  split <;> simp <;> omega

theorem nanos_of_add? (h : t.add? d = some next) : next.nanos = t.nanos + d.nanos := by
  unfold add? at h
  split at h
  · cases h
    rfl
  · exact nomatch h

theorem add?_ne_none_of_le_halfRange (ht : t.nanos < halfRange) (hd : d.nanos ≤ halfRange) :
    t.add? d ≠ none := by
  intro hnone
  have hlimit : limit = halfRange + halfRange := rfl
  have hle := add?_eq_none_iff.mp hnone
  omega

theorem le_later (s t : Instant) : s.nanos ≤ (s.later t).nanos := by
  unfold later
  split_ifs
  · assumption
  · exact Nat.le_refl _

theorem right_le_later (s t : Instant) : t.nanos ≤ (s.later t).nanos := by
  unfold later
  split_ifs <;> omega

end Instant

namespace Script

open Instant (halfRange)

/-- The answer is not a reading of the clock at some time or later. -/
def Exchange.ReadsBefore (n : Nat) (x : Exchange) : Prop :=
  ∀ now : Instant, x = ⟨.clock, now⟩ → now.nanos < n

theorem Exchange.readsBefore_clock {n : Nat} {t : Instant} (h : t.nanos < n) :
    Exchange.ReadsBefore n ⟨.clock, t⟩ := by
  intro now he
  cases he
  exact h

/-! ## Beginnings -/

/-- From some time on, a pace reaches beyond the range of the clock. -/
def Pace.Exceeds (p : Pace) (now : Instant) : Prop :=
  now.add? p.interval = none ∨ ∃ d ∈ p.limit, now.add? d = none

namespace Runner

variable {r r' : Runner} {task : Task} {rest : List Task} {xs : List Exchange} {q : Ask}
  {resume : Answer q → Runner} {pace : Pace} {body : List Step} {now : Instant}

theorem begin_of_exceeds (h : pace.Exceeds now) :
    r.begin pace body rest now = r.breakOff .clockOverflow := by
  rcases r.begin_cases pace body rest now with ⟨deadline, nextTick, hdeadline, htick, -⟩ | he
  · rcases h with hinterval | ⟨d, hd, hlimit⟩
    · exact nomatch hinterval.symm.trans htick
    · rw [Option.mem_def.mp hd, Option.map_some, hlimit] at hdeadline
      cases deadline <;> exact nomatch hdeadline
  · exact he

/-- The times that a repeat begins with do not depend on the events that end it. -/
theorem begin_of_not_exceeds (h : ¬ pace.Exceeds now) :
    ∃ deadline nextTick, now.add? pace.interval = some nextTick ∧
      ∀ (r : Runner) (stop : List InputEvent) (rest : List Task),
        r.begin { pace with stop } body rest now =
          r.goOn (.polling ⟨{ pace with stop }, body, deadline, nextTick⟩ :: rest) := by
  obtain ⟨hinterval, hlimit⟩ := not_or.mp h
  obtain ⟨nextTick, htick⟩ := Option.ne_none_iff_exists'.mp hinterval
  cases hl : pace.limit with
  | none => exact ⟨none, nextTick, htick, fun r stop rest => by simp [begin, htick]⟩
  | some d =>
    have hd : now.add? d ≠ none := fun hnone => hlimit ⟨d, hl, hnone⟩
    obtain ⟨deadline, hdeadline⟩ := Option.ne_none_iff_exists'.mp hd
    exact ⟨some deadline, nextTick, htick, fun r stop rest => by simp [begin, htick, hdeadline]⟩

end Runner

/-! ## Times that a run reckons with -/

/-- The next tick is at least one interval after the origin of the clock. -/
def Ticking.Timely (t : Ticking) : Prop := t.pace.interval.nanos ≤ t.nextTick.nanos

/-- The times in a task are such that the next tick can be reckoned. -/
def Task.Timely : Task → Prop
  | .polling t | .waiting t _ => t.Timely
  | .ticked t => t.Timely ∧ t.nextTick.nanos < halfRange
  | .resuming t next => t.pace.interval.nanos ≤ next.nanos
  | _ => True

namespace Runner

variable {r r' : Runner} {task : Task} {rest : List Task} {xs : List Exchange} {q : Ask}
  {resume : Answer q → Runner} {now : Instant}

/-- The run has not broken off, and the times in all tasks are timely. -/
structure Timely (r : Runner) : Prop where
  breakdown : r.breakdown = none
  tasks : ∀ u ∈ r.tasks, u.Timely

/-- A repeat begins that reaches beyond the range of the clock. -/
def BeginsBeyond (r : Runner) (now : Instant) : Prop :=
  ∃ pace body rest, r.tasks = .beginning pace body :: rest ∧ pace.Exceeds now

open List in
theorem Timely.of_quiet (h : r.Timely) (hm : r.move = .quiet r') : r'.Timely := by
  obtain ⟨task, rest, ht, hturn⟩ := turn_of_next (.quiet hm)
  have htasks := h.tasks
  rw [ht, forall_mem_cons] at htasks
  obtain ⟨htask, hrest⟩ := htasks
  cases hturn with
  | noSteps => exact ⟨h.breakdown, hrest⟩
  | send =>
    exact ⟨h.breakdown, forall_mem_cons.mpr ⟨trivial, forall_mem_cons.mpr ⟨trivial, hrest⟩⟩⟩
  | repeating =>
    exact ⟨h.breakdown, forall_mem_cons.mpr ⟨trivial, forall_mem_cons.mpr ⟨trivial, hrest⟩⟩⟩
  | noEvents => exact ⟨h.breakdown, hrest⟩
  | @ticked t next _ hnext =>
    have hle : t.pace.interval.nanos ≤ next.nanos := by
      have hnanos := Instant.nanos_of_add? hnext
      omega
    exact ⟨h.breakdown, forall_mem_cons.mpr ⟨hle, hrest⟩⟩
  | @overflows t _ hnone =>
    obtain ⟨htimely, hhalf⟩ := htask
    have hinterval : t.pace.interval.nanos ≤ halfRange :=
      Nat.le_of_lt (Nat.lt_of_le_of_lt htimely hhalf)
    exact absurd hnone (Instant.add?_ne_none_of_le_halfRange hhalf hinterval)
  | fired => exact ⟨h.breakdown, hrest⟩
  | fires =>
    exact ⟨h.breakdown, forall_mem_cons.mpr ⟨trivial, forall_mem_cons.mpr ⟨trivial, hrest⟩⟩⟩
  | passes => exact ⟨h.breakdown, forall_mem_cons.mpr ⟨trivial, hrest⟩⟩
  | noTriggers => exact ⟨h.breakdown, hrest⟩
  | _ =>
    rw [move, ht] at hm
    cases hm

open List in
theorem timely_begin {pace : Pace} {body : List Step} (hb : r.breakdown = none)
    (hrest : ∀ u ∈ rest, u.Timely) (h : ¬ pace.Exceeds now) :
    (r.begin pace body rest now).Timely := by
  obtain ⟨deadline, nextTick, htick, he⟩ := begin_of_not_exceeds h
  have htimely : pace.interval.nanos ≤ nextTick.nanos := by
    have hnanos := Instant.nanos_of_add? htick
    omega
  rw [he r pace.stop]
  exact ⟨hb, forall_mem_cons.mpr ⟨htimely, hrest⟩⟩

open List in
theorem timely_poll {t : Ticking} (ht : t.Timely) (hnow : now.nanos < halfRange)
    (hrest : ∀ u ∈ rest, u.Timely) : ∀ u ∈ (r.poll t rest now).tasks, u.Timely := by
  unfold poll
  by_cases hover : t.isOver now = true
  · rw [if_pos hover]
    exact hrest
  · rw [if_neg hover]
    by_cases hdue : t.isDue now = true
    · rw [if_pos hdue]
      -- The tick is due, so the next one is reckoned from a reading in the first half.
      have hle : t.nextTick.nanos ≤ now.nanos := of_decide_eq_true hdue
      have htick : t.nextTick.nanos < halfRange := Nat.lt_of_le_of_lt hle hnow
      exact forall_mem_cons.mpr ⟨trivial, forall_mem_cons.mpr ⟨⟨ht, htick⟩, hrest⟩⟩
    · rw [if_neg hdue]
      exact forall_mem_cons.mpr ⟨ht, hrest⟩

theorem breakdown_poll (t : Ticking) : (r.poll t rest now).breakdown = r.breakdown := by
  unfold poll
  split_ifs <;> rfl

open List in
theorem timely_afterWait {t : Ticking} {e : Option InputEvent} (ht : t.Timely)
    (hrest : ∀ u ∈ rest, u.Timely) : ∀ u ∈ (r.afterWait t rest e).tasks, u.Timely := by
  cases e with
  | none => exact forall_mem_cons.mpr ⟨ht, hrest⟩
  | some e =>
    unfold afterWait
    dsimp only
    split_ifs
    · exact forall_mem_nil _
    · exact hrest
    · exact forall_mem_cons.mpr ⟨ht, hrest⟩

theorem breakdown_afterWait (t : Ticking) (e : Option InputEvent) :
    (r.afterWait t rest e).breakdown = r.breakdown := by
  cases e with
  | none => rfl
  | some e =>
    unfold afterWait
    dsimp only
    split_ifs <;> rfl

open List in
/-- An answer within the first half of the clock's range leaves the run timely, or it is the time
at which a repeat begins that reaches beyond the range. -/
theorem Timely.of_ask {a : Answer q} (h : r.Timely) (hm : r.move = .ask q resume)
    (hx : Exchange.ReadsBefore halfRange ⟨q, a⟩) :
    (resume a).Timely ∨ ∃ now, (⟨q, a⟩ : Exchange) = ⟨.clock, now⟩ ∧ r.BeginsBeyond now ∧
      (resume a).tasks = [] := by
  obtain ⟨task, rest, ht, hasks⟩ := asks_of_move hm
  have htasks := h.tasks
  rw [ht, forall_mem_cons] at htasks
  obtain ⟨htask, hrest⟩ := htasks
  cases hasks with
  | sending =>
    left
    cases a with
    | ok => exact ⟨h.breakdown, forall_mem_cons.mpr ⟨trivial, hrest⟩⟩
    | error => exact ⟨h.breakdown, hrest⟩
  | @beginning pace body =>
    by_cases hexceeds : pace.Exceeds a
    · right
      exact ⟨a, rfl, ⟨pace, body, rest, ht, hexceeds⟩,
        congrArg Runner.tasks (begin_of_exceeds hexceeds)⟩
    · left
      exact timely_begin h.breakdown hrest hexceeds
  | polling =>
    left
    exact ⟨(breakdown_poll _).trans h.breakdown, timely_poll htask (hx a rfl) hrest⟩
  | waiting =>
    left
    exact ⟨(breakdown_afterWait _ a).trans h.breakdown, timely_afterWait htask hrest⟩
  | @resuming t next =>
    left
    have hle : t.pace.interval.nanos ≤ (next.later a).nanos :=
      Nat.le_trans htask (next.le_later a)
    exact ⟨h.breakdown, forall_mem_cons.mpr ⟨hle, hrest⟩⟩
  | @listening t ts =>
    left
    show (r.afterTake (t :: ts) rest a).Timely
    unfold afterTake
    split_ifs
    · exact ⟨h.breakdown, forall_mem_nil _⟩
    · exact ⟨h.breakdown, forall_mem_cons.mpr ⟨trivial, forall_mem_cons.mpr ⟨trivial, hrest⟩⟩⟩

/-! ## Runs -/

/-- A run with all readings in the first half of the clock's range stays timely until a repeat
begins that reaches beyond the range. -/
theorem Timely.of_goes (hr : r.Timely) (h : r.Goes xs r')
    (hclock : ∀ x ∈ xs, x.ReadsBefore halfRange) :
    r'.Timely ∨ ∃ before now s, xs = before ++ [⟨.clock, now⟩] ∧ r.Goes before s ∧
      s.BeginsBeyond now ∧ s.Goes [⟨.clock, now⟩] r' := by
  induction h with
  | here => exact .inl hr
  | quiet hm h ih =>
    rcases ih (hr.of_quiet hm) hclock with htimely | ⟨before, now, s, hxs, hbefore, hs⟩
    · exact .inl htimely
    · exact .inr ⟨before, now, s, hxs, .quiet hm hbefore, hs⟩
  | @ask r r' q resume xs hm a h ih =>
    obtain ⟨hx, hxs⟩ := List.forall_mem_cons.mp hclock
    rcases hr.of_ask hm hx with htimely | ⟨now, he, hbegins, hnil⟩
    · rcases ih htimely hxs with htimely | ⟨before, now, s, rfl, hbefore, hs⟩
      · exact .inl htimely
      · exact .inr ⟨⟨q, a⟩ :: before, now, s, rfl, .ask hm a hbefore, hs⟩
    · obtain ⟨rfl, -⟩ := Goes.of_tasks_eq_nil h hnil
      refine .inr ⟨[], now, r, by rw [he]; rfl, .here, hbegins, ?_⟩
      rw [← he]
      exact .ask hm a h

theorem BeginsBeyond.breaksOff (hs : r.BeginsBeyond now) (h : r.Goes [⟨.clock, now⟩] r') :
    r'.breakdown = some .clockOverflow := by
  obtain ⟨pace, body, rest, ht, hexceeds⟩ := hs
  have hm : r.move = .ask .clock fun now => r.begin pace body rest now := by rw [move, ht]
  cases h with
  | quiet hq => cases hm.symm.trans hq
  | ask hq a h =>
    cases hm.symm.trans hq
    have hbreaks : r.begin pace body rest now = r.breakOff .clockOverflow :=
      begin_of_exceeds hexceeds
    obtain ⟨-, rfl⟩ := Goes.of_tasks_eq_nil h (congrArg Runner.tasks hbreaks)
    exact congrArg Runner.breakdown hbreaks

/-- **A run breaks off only where a repeat begins whose interval or time limit is too long.** Let
every reading of the clock lie in the first half of its range. Then a run has broken off just if its
last question was for the time at which to begin a repeat and the first tick or the end of the
repeat lies beyond the range. No later tick is reckoned beyond it, at any depth. So a script whose
intervals and limits are all no longer than half of the range never breaks off. -/
theorem breaksOff_iff {plan : Plan} (h : (ofPlan plan).Goes xs r)
    (hclock : ∀ x ∈ xs, x.ReadsBefore halfRange) :
    (r.breakdown ≠ none ↔ ∃ before now s, xs = before ++ [⟨.clock, now⟩] ∧
        (ofPlan plan).Goes before s ∧ s.BeginsBeyond now ∧ s.Goes [⟨.clock, now⟩] r) ∧
      ((∀ p ∈ plan.paces, p.interval.nanos ≤ halfRange ∧ ∀ d ∈ p.limit, d.nanos ≤ halfRange) →
        r.breakdown = none) := by
  have hstart : (ofPlan plan).Timely :=
    ⟨rfl, List.forall_mem_cons.mpr ⟨trivial, List.forall_mem_singleton.mpr trivial⟩⟩
  have hends := hstart.of_goes h hclock
  refine ⟨⟨?_, ?_⟩, ?_⟩
  · intro hbroken
    rcases hends with htimely | hbegins
    · exact absurd htimely.breakdown hbroken
    · exact hbegins
  · rintro ⟨before, now, s, -, -, hbegins, hs⟩
    rw [hbegins.breaksOff hs]
    exact Option.some_ne_none _
  · intro hpaces
    rcases hends with htimely | ⟨before, now, s, rfl, hbefore, ⟨p, body, rest, ht, hexceeds⟩, -⟩
    · exact htimely.breakdown
    · have hnow : now.nanos < halfRange := hclock _ (List.mem_append_right _ List.mem_cons_self)
        now rfl
      have hp : p ∈ plan.paces := by
        refine (hbefore.reached .start).paces (.beginning p body) ?_ List.mem_cons_self
        rw [ht]
        exact List.mem_cons_self
      obtain ⟨hinterval, hlimit⟩ := hpaces p hp
      rcases hexceeds with hnone | ⟨d, hd, hnone⟩
      · exact absurd hnone (Instant.add?_ne_none_of_le_halfRange hnow hinterval)
      · exact absurd hnone (Instant.add?_ne_none_of_le_halfRange hnow (hlimit d hd))

end Runner

/-! ## A limit within the range, and one beyond it -/

/-- A script that presses a key twice a second for some time. -/
def lasting (limit : String) : List WrittenStep :=
  [.repeating "2hz" (some limit) none [.press [.name "a"]]]

/-- The pace of that script. -/
def lastingPace (limit : Duration) : Pace := ⟨⟨500000000, by decide⟩, some limit, []⟩

/-- The script, compiled. -/
def lastingPlan (limit : Duration) : Plan :=
  { steps := [.repeating (lastingPace limit) [.send [.keyDown 0x41, .keyUp 0x41]]] }

theorem compile_lasting {text : String} {limit : Duration}
    (h : Time.readDuration? text = some limit) :
    compile (fun _ => none) (lasting text) = .ok (lastingPlan limit) := by
  have hrate : frequency "2hz" = .ok (lastingPace limit).interval := by
    have hread : Time.readFrequency? "2hz" = some (lastingPace limit).interval := by
      show Time.readFrequency? "2hz" = some ⟨500000000, by decide⟩
      decide +kernel
    rw [frequency, hread]
  have hlimit : timeLimit (some text) = .ok (some limit) := by
    rw [timeLimit, duration, h]
    rfl
  have hkey : resolveKeys .press [.name "a"] = .ok [⟨.keyDown 0x41, false⟩] := rfl
  have hpace : pace "2hz" (some text) none = .ok (lastingPace limit) := by
    rw [pace, hrate, hlimit]
    rfl
  simp only [compile, lasting, compileAll, WrittenStep.compile, hpace, hkey]
  rfl

/-- A minute. -/
def minute : Duration := ⟨60000000000, by decide⟩

/-- About 317 billion years, more than the range of the clock. -/
def eon : Duration := ⟨10000000000000000000000000000, by decide⟩

/-- The minute is over at the second look at the clock, and the run has not broken off. -/
theorem not_breaksOff_of_lasting :
    compile (fun _ => none) (lasting "1m") = .ok (lastingPlan minute) ∧
      ∃ r, (Runner.ofPlan (lastingPlan minute)).Goes
        [⟨.clock, Instant.origin⟩, ⟨.clock, (⟨60000000000, by decide⟩ : Instant)⟩] r ∧
        r.breakdown = none := by
  have hread : Time.readDuration? "1m" = some minute := by decide +kernel
  have hgoes : (Runner.ofPlan (lastingPlan minute)).Goes
      [⟨.clock, Instant.origin⟩, ⟨.clock, (⟨60000000000, by decide⟩ : Instant)⟩]
      { tasks := [.steps [], .listening []] } :=
    .quiet rfl (.ask rfl _ (.ask rfl _ .here))
  refine ⟨compile_lasting hread, _, hgoes, (Runner.breaksOff_iff hgoes ?_).2 ?_⟩
  · refine List.forall_mem_cons.mpr ⟨?_, List.forall_mem_singleton.mpr ?_⟩
    · exact Exchange.readsBefore_clock (by decide)
    · exact Exchange.readsBefore_clock (by decide)
  · have hpaces : (lastingPlan minute).paces = [lastingPace minute] := rfl
    rw [hpaces, List.forall_mem_singleton]
    refine ⟨by decide, ?_⟩
    intro d hd
    cases Option.mem_some.mp hd
    decide

/-- A limit that the clock cannot reach is accepted, and the run breaks off with its first look at
the clock, at the origin. -/
theorem breaksOff_of_lasting :
    compile (fun _ => none) (lasting "10000000000000000000s") = .ok (lastingPlan eon) ∧
      Exchange.ReadsBefore halfRange ⟨.clock, Instant.origin⟩ ∧
      ∃ r, (Runner.ofPlan (lastingPlan eon)).Goes [⟨.clock, Instant.origin⟩] r ∧
        r.move = .done (.error .clockOverflow) := by
  have hread : Time.readDuration? "10000000000000000000s" = some eon := by decide +kernel
  have hclock : Exchange.ReadsBefore halfRange ⟨.clock, Instant.origin⟩ :=
    Exchange.readsBefore_clock (by decide)
  refine ⟨compile_lasting hread, hclock, ⟨[], {}, some .clockOverflow⟩, ?_, rfl⟩
  exact .quiet rfl (.ask rfl _ .here)

end Script

end InputRelay
