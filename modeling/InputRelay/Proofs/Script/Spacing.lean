import InputRelay.Proofs.Script.Ticks

/-!
# Ticks that are missed

`ticks_spaced`: on a clock that only goes on, any two ticks of a repeat are at least as many
intervals apart as there are ticks between them. However long the steps of a tick take, what was
missed meanwhile is not made up for: a stretch of time holds at most two ticks more than it holds
intervals (`length_window_le`).

After the steps of a tick the next one is set no earlier than the clock has then come to, and so no
earlier than the tick itself; from there on, every tick is an interval after the last one or later
(`Task.TickedSince`).
-/

namespace InputRelay.Script

/-! ## A clock that only goes on -/

/-- The reading of the clock that an answer is. -/
def Exchange.reading? : Exchange → Option Instant
  | ⟨.clock, now⟩ => some now
  | _ => none

/-- The readings of the clock among some answers. -/
def readings (xs : List Exchange) : List Instant := xs.filterMap Exchange.reading?

/-- No reading of the clock is before an earlier one. -/
def ClockGoesOn (xs : List Exchange) : Prop :=
  (readings xs).Pairwise fun s t => s.nanos ≤ t.nanos

theorem forall_readings_cons {P : Instant → Prop} {x : Exchange} {xs : List Exchange} :
    (∀ now ∈ readings (x :: xs), P now) ↔
      (∀ now, x.reading? = some now → P now) ∧ ∀ now ∈ readings xs, P now := by
  simp only [readings, List.mem_filterMap, List.mem_cons, exists_eq_or_imp, or_imp, forall_and]

theorem ClockGoesOn.of_cons {x : Exchange} {xs : List Exchange} (h : ClockGoesOn (x :: xs)) :
    ClockGoesOn xs :=
  List.Pairwise.sublist ((List.sublist_cons_self x xs).filterMap _) h

theorem ClockGoesOn.le_of_reading {x : Exchange} {now : Instant} {xs : List Exchange}
    (h : ClockGoesOn (x :: xs)) (hx : x.reading? = some now) :
    ∀ t ∈ readings xs, now.nanos ≤ t.nanos := by
  rw [ClockGoesOn, readings, List.filterMap_cons_some hx] at h
  exact (List.pairwise_cons.mp h).1

/-! ## Readings in a stretch of time -/

/-- At most `n` elements of a list have a property that none has from index `n` on. -/
theorem length_filter_le_of_index {α : Type} {p : α → Bool} {l : List α} (n : Nat)
    (h : ∀ k (hk : k < l.length), p l[k] = true → k < n) : (l.filter p).length ≤ n := by
  have hlate : (l.drop n).filter p = [] := by
    rw [List.filter_eq_nil_iff]
    intro x hx hp
    obtain ⟨k, hk, rfl⟩ := List.mem_iff_getElem.mp hx
    rw [List.getElem_drop] at hp
    have hlt := h (n + k) _ hp
    omega
  rw [← List.take_append_drop n l, List.filter_append, hlate, List.append_nil]
  exact Nat.le_trans (List.length_filter_le _ _) (List.length_take_le _ _)

/-- Of readings so many intervals apart, a stretch of time holds at most two more than it holds
intervals. -/
theorem length_window_le {ts : List Instant} {interval : Nat} (hinterval : 0 < interval)
    (hspaced : ∀ i j (_ : i < j) (_ : j < ts.length),
      ts[i].nanos + (j - i - 1) * interval ≤ ts[j].nanos) (start width : Nat) :
    (ts.filter fun t => start ≤ t.nanos ∧ t.nanos ≤ start + width).length ≤
      width / interval + 2 := by
  induction ts with
  | nil => exact Nat.zero_le _
  | cons t ts ih =>
    have htail : ∀ i j (_ : i < j) (_ : j < ts.length),
        ts[i].nanos + (j - i - 1) * interval ≤ ts[j].nanos := by
      intro i j hij hj
      have hshifted := hspaced (i + 1) (j + 1) (Nat.succ_lt_succ hij) (Nat.succ_lt_succ hj)
      rwa [Nat.add_sub_add_right] at hshifted
    rw [List.filter_cons]
    split_ifs with hfirst
    · obtain ⟨hstart, -⟩ := of_decide_eq_true hfirst
      -- Only the readings up to this index can come in time after the first one.
      refine Nat.succ_le_succ (length_filter_le_of_index (width / interval + 1) fun k hk hin => ?_)
      obtain ⟨-, hend⟩ := of_decide_eq_true hin
      have hafter := hspaced 0 (k + 1) (Nat.succ_pos k) (Nat.succ_lt_succ hk)
      rw [Nat.lt_succ_iff, Nat.le_div_iff_mul_le hinterval]
      simp only [List.getElem_cons_zero, List.getElem_cons_succ, Nat.sub_zero,
        Nat.add_sub_cancel] at hafter
      omega
    · exact ih htail

/-! ## Ticks since a tick -/

/-- The task stands for a repeat that has started `n` ticks since one at `a`; the next one comes no
earlier than `n` intervals after that. -/
def Task.TickedSince (pace : Pace) (a : Instant) (n : Nat) : Task → Prop
  | .polling t | .waiting t _ =>
    t.pace = pace ∧ a.nanos + n * pace.interval.nanos ≤ t.nextTick.nanos
  | .ticked t =>
    t.pace = pace ∧
      (n = 0 ∨ a.nanos + n * pace.interval.nanos ≤ t.nextTick.nanos + pace.interval.nanos)
  | .resuming t next => t.pace = pace ∧ (n = 0 ∨ a.nanos + n * pace.interval.nanos ≤ next.nanos)
  | _ => False

namespace Runner

variable {r r' : Runner} {task : Task} {rest : List Task} {q : Ask} {resume : Answer q → Runner}
  {pace : Pace} {body : List Step} {a : Instant} {n : Nat} {xs : List Exchange}
  {ts : List Instant}

theorem ticked_of_quiet (h : r.Stands (Task.TickedSince pace a n) rest)
    (hdeep : rest.length < r.tasks.length) (hm : r.move = .quiet r') :
    r'.Stands (Task.TickedSince pace a n) rest := by
  rcases h with hlow | ⟨above, task, ht, htask⟩
  · omega
  cases above with
  | cons top above => exact stands_of_next (.quiet hm) ht htask
  | nil =>
    have hturn := (Next.quiet hm).turn ht
    cases hturn with
    | ticked hnext =>
      obtain ⟨rfl, hle⟩ := htask
      have hnanos := Instant.nanos_of_add? hnext
      refine stands_top rfl ⟨rfl, hle.imp_right fun hle => ?_⟩
      omega
    | overflows => exact stands_over (.inr rfl)
    | polls | waited | resumes =>
      rw [move, ht] at hm
      cases hm
    | _ => exact htask.elim

theorem ticked_of_ask (h : r.Stands (Task.TickedSince pace a n) rest)
    (hdeep : rest.length < r.tasks.length) (hm : r.move = .ask q resume) (x : Answer q)
    (hclock : ∀ now, Exchange.reading? ⟨q, x⟩ = some now → a.nanos ≤ now.nanos) :
    r.starts? rest.length ⟨q, x⟩ = none ∧
        (resume x).Stands (Task.TickedSince pace a n) rest ∨
      ∃ now, Exchange.reading? ⟨q, x⟩ = some now ∧ r.starts? rest.length ⟨q, x⟩ = some now ∧
        a.nanos + n * pace.interval.nanos ≤ now.nanos ∧
        (resume x).Stands (Task.TickedSince pace a (n + 1)) rest ∧
        (resume x).Stands (Task.TickedSince pace now 0) rest := by
  rcases h with hlow | ⟨above, task, ht, htask⟩
  · omega
  cases above with
  | cons top above =>
    exact .inl ⟨starts?_of_above ht _, stands_of_next (.ask hm x) ht htask⟩
  | nil =>
    have hasks : r.Asks task rest q resume := asks_of_tasks hm ht
    cases hasks with
    | @polling t =>
      rcases poll_cases ht x with ⟨-, hnone, he⟩ | ⟨-, hdue, hsome, he⟩ | ⟨-, -, hnone, he⟩
      · exact .inl ⟨hnone, stands_over (.inl (congrArg tasks he))⟩
      · obtain ⟨rfl, hle⟩ := htask
        refine .inr ⟨x, rfl, hsome, Nat.le_trans hle ((t.isDue_iff x).mp hdue), ?_, ?_⟩
        · refine .inr ⟨[.steps t.body], .ticked t, congrArg tasks he, rfl, .inr ?_⟩
          rw [Nat.add_mul, Nat.one_mul]
          omega
        · exact .inr ⟨[.steps t.body], .ticked t, congrArg tasks he, rfl, .inl rfl⟩
      · exact .inl ⟨hnone, stands_top (congrArg tasks he) htask⟩
    | waiting => exact .inl ⟨rfl, stands_afterWait r htask x⟩
    | @resuming t next =>
      obtain ⟨rfl, hle⟩ := htask
      refine .inl ⟨by simp only [starts?, ht, List.nil_append], stands_top rfl ⟨rfl, ?_⟩⟩
      -- The first tick after the one at `a` has only the clock to come after it.
      rcases hle with rfl | hle
      · have hnow : a.nanos ≤ Instant.nanos x := hclock x rfl
        rw [Nat.zero_mul]
        exact Nat.le_trans hnow (Instant.right_le_later next x)
      · exact Nat.le_trans hle (Instant.le_later next x)
    | _ => exact htask.elim

/-- The tick that follows `n` others since the one at `a` starts so many intervals later. -/
theorem Within.ticked_since (h : r.Within rest.length xs ts r')
    (hr : r.Stands (Task.TickedSince pace a n) rest)
    (hclock : ∀ now ∈ readings xs, a.nanos ≤ now.nanos) (i : Nat) (hi : i < ts.length) :
    a.nanos + (n + i) * pace.interval.nanos ≤ ts[i].nanos := by
  induction h generalizing n i with
  | here => exact absurd hi (Nat.not_lt_zero i)
  | quiet hdeep hm h ih => exact ih (ticked_of_quiet hr hdeep hm) hclock i hi
  | ask hdeep hm x h ih =>
    obtain ⟨hfirst, hlater⟩ := forall_readings_cons.mp hclock
    rcases ticked_of_ask hr hdeep hm x hfirst with ⟨hnone, hstill⟩ | ⟨now, -, hsome, hle, hnext, -⟩
    · simp only [hnone, Option.toList_none, List.nil_append] at hi ⊢
      exact ih hstill hlater i hi
    · simp only [hsome] at hi ⊢
      cases i with
      | zero => exact hle
      | succ i =>
        have hspaced := ih hnext hlater i (Nat.lt_of_succ_lt_succ hi)
        rwa [Nat.add_right_comm n 1 i] at hspaced

/-- Two ticks are as many intervals apart as there are ticks between them. -/
theorem Within.spaced (h : r.Within rest.length xs ts r')
    (hr : r.Stands (Task.TickedSince pace a n) rest)
    (hfrom : ∀ now ∈ readings xs, a.nanos ≤ now.nanos) (hclock : ClockGoesOn xs) {i j : Nat}
    (hij : i < j) (hj : j < ts.length) :
    ts[i].nanos + (j - i - 1) * pace.interval.nanos ≤ ts[j].nanos := by
  induction h generalizing n i j with
  | here => exact absurd hj (Nat.not_lt_zero j)
  | quiet hdeep hm h ih => exact ih (ticked_of_quiet hr hdeep hm) hfrom hclock hij hj
  | ask hdeep hm x h ih =>
    obtain ⟨hfirst, hlater⟩ := forall_readings_cons.mp hfrom
    rcases ticked_of_ask hr hdeep hm x hfirst with
      ⟨hnone, hstill⟩ | ⟨now, hread, hsome, -, hnext, hanew⟩
    · simp only [hnone, Option.toList_none, List.nil_append] at hj ⊢
      exact ih hstill hlater hclock.of_cons hij hj
    · simp only [hsome] at hj ⊢
      cases j with
      | zero => exact absurd hij (Nat.not_lt_zero i)
      | succ j =>
        have hj' := Nat.lt_of_succ_lt_succ hj
        cases i with
        | zero =>
          -- The clock goes on from the tick at hand, and the next ones are reckoned from there.
          have hsince := h.ticked_since hanew (hclock.le_of_reading hread) j hj'
          rwa [Nat.zero_add] at hsince
        | succ i =>
          have hspaced := ih hnext hlater hclock.of_cons (Nat.lt_of_succ_lt_succ hij) hj'
          rwa [← Nat.add_sub_add_right j 1 i] at hspaced

/-- The first tick starts in time and takes more than an interval; the next one starts right after
it, and the third an interval later. -/
def stallingTicks : List Instant :=
  [⟨500000000, by decide⟩, ⟨1200000000, by decide⟩, ⟨1700000000, by decide⟩]

/-- What a repeat is told that starts these ticks, up to the third. -/
def stallingExchanges : List Exchange :=
  let half : Instant := ⟨500000000, by decide⟩
  let late : Instant := ⟨1200000000, by decide⟩
  let last : Instant := ⟨1700000000, by decide⟩
  let down : Exchange := ⟨.send (.keyDown 0x41), Except.ok ()⟩
  let up : Exchange := ⟨.send (.keyUp 0x41), Except.ok ()⟩
  [⟨.clock, Instant.origin⟩, ⟨.clock, half⟩, down, up, ⟨.clock, late⟩, ⟨.clock, late⟩, down, up,
    ⟨.clock, late⟩, ⟨.clock, last⟩]

end Runner

end InputRelay.Script
