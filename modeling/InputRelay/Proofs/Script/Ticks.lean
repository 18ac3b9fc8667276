import InputRelay.Proofs.Script.ClockRange
import InputRelay.Proofs.Script.Within

/-!
# When a repeat ticks

`tick_schedule`: a repeat that began at `s` starts its `n`-th tick `n` intervals after `s` or later,
and before its time limit is up, whatever its steps do and whatever the clock, the sender and the
inbox answer. If time passes only while it waits, and nothing comes in, then it starts the `n`-th
tick exactly `n` intervals after `s`, for just those `n` for which that is before the limit, and
ends at the limit.

What a repeat has come to is seen on the one task that stands for it, right above the tasks below it
(`Task.HasTicked`): no move touches that task while others are above it.
-/

namespace InputRelay

/-- There is a last multiple of a number below another one. -/
theorem exists_last_multiple {a b : Nat} (ha : 0 < a) (hb : b ≠ 0) :
    ∃ m, m * a < b ∧ b ≤ (m + 1) * a := by
  refine ⟨(b - 1) / a, ?_, ?_⟩
  · have hle := Nat.div_mul_le_self (b - 1) a
    omega
  · have hlt := Nat.lt_mul_div_succ (b - 1) ha
    rw [Nat.mul_comm] at hlt
    omega

namespace Instant

/-- Whoever waits from one reading to a later one wakes at the later one. -/
theorem add?_timeTo {now later : Instant} (h : now.nanos ≤ later.nanos) :
    now.add? (now.timeTo later) = some later := by
  have hsum : now.nanos + (now.timeTo later).nanos = later.nanos := by
    show now.nanos + (later.nanos - now.nanos) = later.nanos
    omega
  have hrange : now.nanos + (now.timeTo later).nanos < limit := by
    rw [hsum]
    exact later.inRange
  rw [add?, dif_pos hrange]
  simp only [hsum]

theorem exists_add? {now : Instant} {d : Duration} (h : now.nanos + d.nanos < limit) :
    ∃ later, now.add? d = some later ∧ later.nanos = now.nanos + d.nanos :=
  ⟨_, dif_pos h, rfl⟩

end Instant

namespace Script

/-! ## What a repeat has come to -/

/-- The repeat began at `s` with this pace. -/
structure Ticking.Began (t : Ticking) (p : Pace) (s : Instant) : Prop where
  pace : t.pace = p
  deadline : t.deadline.map Instant.nanos = p.limit.map fun d => s.nanos + d.nanos

theorem Ticking.Began.isOver_iff {t : Ticking} {p : Pace} {s : Instant} {d : Duration}
    (h : t.Began p s) (hd : p.limit = some d) (now : Instant) :
    t.isOver now = true ↔ s.nanos + d.nanos ≤ now.nanos := by
  have hdeadline := h.deadline
  rw [hd, Option.map_some] at hdeadline
  obtain ⟨deadline, hsome, hnanos⟩ := Option.map_eq_some_iff.mp hdeadline
  rw [isOver, hsome, Option.any_some, decide_eq_true_iff, hnanos]

theorem Ticking.Began.nanos_wakeTime {t : Ticking} {p : Pace} {s : Instant} {d : Duration}
    (h : t.Began p s) (hd : p.limit = some d) :
    t.wakeTime.nanos = min (s.nanos + d.nanos) t.nextTick.nanos := by
  have hdeadline := h.deadline
  rw [hd, Option.map_some] at hdeadline
  obtain ⟨deadline, hsome, hnanos⟩ := Option.map_eq_some_iff.mp hdeadline
  simp only [wakeTime, hsome, Instant.earlier]
  split <;> omega

theorem Ticking.isDue_iff (t : Ticking) (now : Instant) :
    t.isDue now = true ↔ t.nextTick.nanos ≤ now.nanos := by
  rw [isDue, decide_eq_true_iff]

/-- The task stands for a repeat that began at `s` and has started `n` ticks. -/
def Task.HasTicked (pace : Pace) (s : Instant) (n : Nat) : Task → Prop
  | .polling t | .waiting t _ =>
    t.Began pace s ∧ s.nanos + (n + 1) * pace.interval.nanos ≤ t.nextTick.nanos
  | .ticked t => t.Began pace s ∧ s.nanos + n * pace.interval.nanos ≤ t.nextTick.nanos
  | .resuming t next => t.Began pace s ∧ s.nanos + (n + 1) * pace.interval.nanos ≤ next.nanos
  | _ => False

namespace Runner

variable {r r' : Runner} {task : Task} {rest : List Task} {q : Ask} {resume : Answer q → Runner}
  {pace : Pace} {s : Instant} {n : Nat}

theorem hasTicked_of_quiet (h : r.Stands (Task.HasTicked pace s n) rest)
    (hdeep : rest.length < r.tasks.length) (hm : r.move = .quiet r') :
    r'.Stands (Task.HasTicked pace s n) rest := by
  rcases h with hlow | ⟨above, task, ht, htask⟩
  · omega
  cases above with
  | cons top above => exact stands_of_next (.quiet hm) ht htask
  | nil =>
    rw [List.nil_append] at ht
    rw [move, ht] at hm
    cases task with
    | polling | waiting | resuming => cases hm
    | ticked t =>
      obtain ⟨hbegan, hle⟩ := htask
      cases hnext : t.nextTick.add? t.pace.interval with
      | none =>
        simp only [hnext] at hm
        cases hm
        exact stands_over (.inr rfl)
      | some next =>
        simp only [hnext] at hm
        cases hm
        have hnanos := Instant.nanos_of_add? hnext
        rw [hbegan.pace] at hnanos
        refine stands_top rfl ⟨hbegan, ?_⟩
        rw [hnanos, Nat.add_mul, Nat.one_mul]
        omega
    | _ => exact htask.elim

theorem hasTicked_of_ask (h : r.Stands (Task.HasTicked pace s n) rest)
    (hdeep : rest.length < r.tasks.length) (hm : r.move = .ask q resume) (a : Answer q) :
    r.starts? rest.length ⟨q, a⟩ = none ∧ (resume a).Stands (Task.HasTicked pace s n) rest ∨
      ∃ now, r.starts? rest.length ⟨q, a⟩ = some now ∧
        s.nanos + (n + 1) * pace.interval.nanos ≤ now.nanos ∧
        (∀ d, pace.limit = some d → now.nanos < s.nanos + d.nanos) ∧
        (resume a).Stands (Task.HasTicked pace s (n + 1)) rest := by
  rcases h with hlow | ⟨above, task, ht, htask⟩
  · omega
  cases above with
  | cons top above =>
    exact .inl ⟨starts?_of_above ht _, stands_of_next (.ask hm a) ht htask⟩
  | nil =>
    have hasks : r.Asks task rest q resume := asks_of_tasks hm ht
    cases hasks with
    | @polling t =>
      rcases poll_cases ht a with ⟨-, hnone, he⟩ | ⟨hover, hdue, hsome, he⟩ | ⟨-, -, hnone, he⟩
      · exact .inl ⟨hnone, stands_over (.inl (congrArg tasks he))⟩
      · refine .inr ⟨a, hsome, ?_, ?_, .inr ⟨[.steps t.body], .ticked t, congrArg tasks he, htask⟩⟩
        · exact Nat.le_trans htask.2 ((t.isDue_iff a).mp hdue)
        · intro d hd
          have hearly := mt (htask.1.isOver_iff hd a).mpr (by rw [hover]; exact Bool.false_ne_true)
          omega
      · exact .inl ⟨hnone, stands_top (congrArg tasks he) htask⟩
    | waiting => exact .inl ⟨rfl, stands_afterWait r htask a⟩
    | @resuming t next =>
      refine .inl ⟨?_, stands_top rfl ⟨⟨htask.1.pace, htask.1.deadline⟩, ?_⟩⟩
      · simp only [starts?, ht, List.nil_append]
      · exact Nat.le_trans htask.2 (Instant.le_later next a)
    | _ => exact htask.elim

/-- The ticks after the first `n` start no earlier than so many intervals after the beginning, and
before the limit. -/
theorem Within.schedule {xs : List Exchange} {ts : List Instant}
    (h : r.Within rest.length xs ts r') (hr : r.Stands (Task.HasTicked pace s n) rest)
    (i : Nat) (hi : i < ts.length) :
    s.nanos + (n + i + 1) * pace.interval.nanos ≤ ts[i].nanos ∧
      ∀ d, pace.limit = some d → ts[i].nanos < s.nanos + d.nanos := by
  induction h generalizing n i with
  | here => exact absurd hi (Nat.not_lt_zero i)
  | quiet hdeep hm h ih => exact ih (hasTicked_of_quiet hr hdeep hm) i hi
  | ask hdeep hm a h ih =>
    rcases hasTicked_of_ask hr hdeep hm a with
      ⟨hnone, hstill⟩ | ⟨now, hsome, hle, hlt, hstarted⟩
    · simp only [hnone, Option.toList_none, List.nil_append] at hi ⊢
      exact ih hstill i hi
    · simp only [hsome, Option.toList_some, List.singleton_append] at hi ⊢
      cases i with
      | zero => exact ⟨hle, hlt⟩
      | succ i =>
        have hlater := ih hstarted i (Nat.lt_of_succ_lt_succ hi)
        rw [Nat.add_right_comm n 1 i] at hlater
        exact hlater

theorem hasTicked_begin (r : Runner) (pace : Pace) (body : List Step) (rest : List Task)
    (now : Instant) : (r.begin pace body rest now).Stands (Task.HasTicked pace now 0) rest := by
  rcases r.begin_cases pace body rest now with ⟨deadline, nextTick, hdeadline, htick, he⟩ | he
  · rw [he]
    refine stands_top rfl ⟨⟨rfl, ?_⟩, ?_⟩
    · cases hlimit : pace.limit with
      | none =>
        rw [hlimit] at hdeadline
        cases deadline with
        | none => rfl
        | some _ => exact nomatch hdeadline
      | some d =>
        rw [hlimit] at hdeadline
        cases deadline with
        | none => exact nomatch hdeadline
        | some deadline =>
          have hnanos := Instant.nanos_of_add? (Option.some.inj hdeadline)
          exact congrArg some hnanos
    · have hnanos := Instant.nanos_of_add? htick
      dsimp only
      omega
  · rw [he]
    exact stands_over (.inr rfl)

/-- A repeat that begins starts its ticks no earlier than so many intervals later, and before its
limit. -/
theorem Within.schedule_of_beginning {body : List Step} {xs : List Exchange} {ts : List Instant}
    (ht : r.tasks = .beginning pace body :: rest)
    (h : r.Within rest.length (⟨.clock, s⟩ :: xs) ts r') (i : Nat) (hi : i < ts.length) :
    s.nanos + (i + 1) * pace.interval.nanos ≤ ts[i].nanos ∧
      ∀ d, pace.limit = some d → ts[i].nanos < s.nanos + d.nanos := by
  rcases h.of_beginning ht with ⟨hnil, -⟩ | ⟨now, ys, hcons, h⟩
  · exact nomatch hnil
  · cases hcons
    have hlater := h.schedule (hasTicked_begin r pace body rest s) i hi
    rwa [Nat.zero_add] at hlater

end Runner

/-! ## An ideal clock -/

/-- A sender and a clock, with an inbox into which nothing ever comes. -/
structure Idle (σ : Type) where
  sender : σ
  now : Instant

namespace Idle

variable {σ : Type}

/-- The clock stands still while something is sent. -/
def sending (sender : Sender σ) : Sender (Idle σ) where
  send e k := ((sender.send e k.sender).1, { k with sender := (sender.send e k.sender).2 })

/-- A runner that waits at the inbox waits in vain, for just as long as it wanted to. -/
def answer (sender : Sender σ) : Surroundings Ask Answer (Idle σ)
  | .clock, k => some (k.now, k)
  | .send e, k => some ((sending sender).send e k)
  | .takeNext, _ => none
  | .takeWithin d, k => (k.now.add? d).map fun now => (none, { k with now })

theorem answer_send (sender : Sender σ) (e : InputEvent) (k : Idle σ) :
    answer sender (.send e) k = some ((sending sender).send e k) := rfl

/-- No time passes with steps that only send. -/
theorem now_foldl (sender : Sender σ) (ss : List Step) (k : Idle σ) :
    (ss.foldl (fun k s => ((sending sender).sendAll s.events k).2) k).now = k.now := by
  induction ss generalizing k with
  | nil => rfl
  | cons s ss ih =>
    rw [List.foldl_cons, ih]
    exact Sender.sendAll_keeps (P := fun k' : Idle σ => k'.now = k.now) (fun _ _ hs => hs)
      s.events rfl

end Idle

namespace Runner

variable {σ : Type} (sender : Sender σ) {k : Idle σ} {r : Runner} {t : Ticking} {rest : List Task}
  {pace : Pace} {s : Instant} {d : Duration}

/-- The repeat began at `s`, will end `d` later, and has started `n` ticks, the last of them just
now. -/
structure Punctual (pace : Pace) (s : Instant) (d : Duration) (n : Nat) (t : Ticking)
    (now : Instant) : Prop where
  began : t.Began pace s
  limit : pace.limit = some d
  now : now.nanos = s.nanos + n * pace.interval.nanos
  next : t.nextTick.nanos = s.nanos + (n + 1) * pace.interval.nanos

theorem lt_of_polling (ht : r.tasks = .polling t :: rest) : rest.length < r.tasks.length := by
  rw [ht]
  exact Nat.lt_succ_self _

/-- Between two ticks the repeat waits until it has to look at the clock again. -/
theorem lasts_waiting (ht : r.tasks = .polling t :: rest) {n : Nat}
    (hp : Punctual pace s d n t k.now) (hinterval : 0 < pace.interval.nanos)
    (hearly : n * pace.interval.nanos < d.nanos) :
    ∃ r', Lasts (Idle.answer sender) rest.length r k [] r' { k with now := t.wakeTime } ∧
      r'.tasks = .polling t :: rest ∧ r'.breakdown = r.breakdown := by
  have hnow := hp.now
  have hnext := hp.next
  rw [Nat.add_mul, Nat.one_mul] at hnext
  have hover : t.isOver k.now = false := by
    rw [← Bool.not_eq_true, hp.began.isOver_iff hp.limit]
    omega
  have hdue : t.isDue k.now = false := by
    rw [← Bool.not_eq_true, t.isDue_iff]
    omega
  have hle : k.now.nanos ≤ t.wakeTime.nanos := by
    rw [hp.began.nanos_wakeTime hp.limit]
    omega
  let waiting : Runner := r.goOn (.waiting t (k.now.timeTo t.wakeTime) :: rest)
  have hm : r.move = .ask .clock fun now => r.poll t rest now := by rw [move, ht]
  have hpoll : r.poll t rest k.now = waiting := by
    rw [poll, hover, hdue]
    rfl
  have hnone : r.starts? rest.length ⟨.clock, k.now⟩ = none := by
    rw [starts?_of_polling ht, hdue, if_neg]
    exact fun h => Bool.false_ne_true h.2
  have hwait : Idle.answer sender (.takeWithin (k.now.timeTo t.wakeTime)) k =
      some (none, { k with now := t.wakeTime }) := by
    rw [Idle.answer, Instant.add?_timeTo hle]
    rfl
  have hdeep : rest.length < waiting.tasks.length := Nat.lt_succ_self _
  have hlast : Lasts (Idle.answer sender) rest.length waiting k [] (r.goOn (.polling t :: rest))
      { k with now := t.wakeTime } := .ask hdeep rfl hwait rfl .here
  rw [← hpoll] at hlast
  exact ⟨_, .ask (lt_of_polling ht) hm rfl hnone hlast, rfl, rfl⟩

theorem lasts_over (ht : r.tasks = .polling t :: rest) (hover : t.isOver k.now = true) :
    Lasts (Idle.answer sender) rest.length r k [] (r.goOn rest) k := by
  have hm : r.move = .ask .clock fun now => r.poll t rest now := by rw [move, ht]
  have hpoll : r.poll t rest k.now = r.goOn rest := by rw [poll, if_pos hover]
  have hnone : r.starts? rest.length ⟨.clock, k.now⟩ = none := by
    rw [starts?_of_polling ht, hover, if_neg]
    exact fun h => Bool.noConfusion h.1
  have hlast : Lasts (Idle.answer sender) rest.length (r.goOn rest) k [] (r.goOn rest) k := .here
  rw [← hpoll] at hlast ⊢
  exact .ask (lt_of_polling ht) hm rfl hnone hlast

/-- A tick that is due takes no time and sets the next one an interval later. -/
theorem lasts_tick (ht : r.tasks = .polling t :: rest) (hbody : ∀ s ∈ t.body, s.IsSend) {n : Nat}
    (hbegan : t.Began pace s) (hlimit : pace.limit = some d)
    (hnext : t.nextTick.nanos = s.nanos + (n + 1) * pace.interval.nanos)
    (hnow : k.now.nanos = t.nextTick.nanos)
    (hearly : (n + 1) * pace.interval.nanos < d.nanos)
    (hrange : s.nanos + (n + 2) * pace.interval.nanos < Instant.limit)
    (hinterval : 0 < pace.interval.nanos) :
    ∃ r' k' t', Lasts (Idle.answer sender) rest.length r k [k.now] r' k' ∧
      r'.tasks = .polling t' :: rest ∧ r'.breakdown = r.breakdown ∧ t'.body = t.body ∧
      Punctual pace s d (n + 1) t' k'.now := by
  have hover : t.isOver k.now = false := by
    rw [← Bool.not_eq_true, hbegan.isOver_iff hlimit]
    omega
  have hdue : t.isDue k.now = true := by
    rw [t.isDue_iff]
    omega
  have hm : r.move = .ask .clock fun now => r.poll t rest now := by rw [move, ht]
  let ticking : Runner := r.goOn (.steps t.body :: .ticked t :: rest)
  have hpoll : r.poll t rest k.now = ticking := by
    rw [poll, hover, hdue]
    rfl
  have hsome : r.starts? rest.length ⟨.clock, k.now⟩ = some k.now := by
    rw [starts?_of_polling ht, if_pos ⟨hover, hdue⟩]
  have hdepth : rest.length ≤ (Task.ticked t :: rest).length := Nat.le_succ _
  obtain ⟨r₁, hsteps, ht₁, hb₁⟩ :=
    lasts_steps (r := ticking) (k := k) (Idle.answer_send sender) t.body hbody rfl hdepth
  have hstill := Idle.now_foldl sender t.body k
  generalize t.body.foldl (fun k s => ((Idle.sending sender).sendAll s.events k).2) k = k₁
    at hsteps hstill
  rw [← hpoll] at hsteps
  -- The next tick is an interval after this one, and so not before the clock.
  have hfits : t.nextTick.nanos + t.pace.interval.nanos < Instant.limit := by
    rw [hbegan.pace, hnext]
    rw [Nat.add_mul] at hrange ⊢
    omega
  obtain ⟨next, hadd, hnanos⟩ := Instant.exists_add? hfits
  rw [hbegan.pace, hnext] at hnanos
  have hlater : next.later k₁.now = next := by
    rw [Instant.later, if_neg]
    rw [hstill]
    omega
  let resuming : Runner := r₁.goOn (.resuming t next :: rest)
  let polling : Runner := r₁.goOn (.polling { t with nextTick := next } :: rest)
  have hm₁ : r₁.move = .quiet resuming := by simp only [move, ht₁, hadd, resuming]
  have hresumed : Lasts (Idle.answer sender) rest.length resuming k₁ [] polling k₁ := by
    have hlast : Lasts (Idle.answer sender) rest.length polling k₁ [] polling k₁ := .here
    refine .ask (Nat.lt_succ_self _) (q := .clock) rfl rfl rfl ?_
    rw [hlater]
    exact hlast
  have hdeep₁ : rest.length < r₁.tasks.length := by
    rw [ht₁]
    exact Nat.lt_succ_self _
  have hrest := hsteps.trans (.quiet hdeep₁ hm₁ hresumed)
  have hall := Lasts.tick (lt_of_polling ht) hm rfl hsome hrest
  refine ⟨polling, k₁, { t with nextTick := next }, hall, rfl, hb₁, rfl,
    ⟨hbegan.pace, hbegan.deadline⟩, hlimit, ?_, ?_⟩
  · rw [hstill, hnow, hnext]
  · rw [hnanos, Nat.add_mul (n + 1) 1, Nat.one_mul, Nat.add_assoc]

/-- From its `n`-th tick on, an ideal repeat makes the `m` ticks that are left and ends in time. -/
theorem lasts_polling (hinterval : 0 < pace.interval.nanos) (m : Nat) {n : Nat}
    (ht : r.tasks = .polling t :: rest) (hbody : ∀ s ∈ t.body, s.IsSend)
    (hp : Punctual pace s d n t k.now) (hearly : (n + m) * pace.interval.nanos < d.nanos)
    (hend : d.nanos ≤ (n + m + 1) * pace.interval.nanos)
    (hrange : ∀ i, i * pace.interval.nanos < d.nanos →
      s.nanos + (i + 1) * pace.interval.nanos < Instant.limit) :
    ∃ ts r' k', Lasts (Idle.answer sender) rest.length r k ts r' k' ∧ r'.tasks = rest ∧
      r'.breakdown = r.breakdown ∧ k'.now.nanos = s.nanos + d.nanos ∧ ts.length = m ∧
      ∀ i (hi : i < ts.length), ts[i].nanos = s.nanos + (n + i + 1) * pace.interval.nanos := by
  induction m generalizing r k t n with
  | zero =>
    obtain ⟨r₁, hwait, ht₁, hb⟩ := lasts_waiting sender ht hp hinterval hearly
    have hwake : t.wakeTime.nanos = s.nanos + d.nanos := by
      rw [hp.began.nanos_wakeTime hp.limit, hp.next]
      rw [Nat.add_zero] at hend
      omega
    have hover : t.isOver t.wakeTime = true :=
      (hp.began.isOver_iff hp.limit t.wakeTime).mpr (Nat.le_of_eq hwake.symm)
    refine ⟨[], r₁.goOn rest, _, hwait.trans (lasts_over sender ht₁ hover), rfl, hb, hwake, rfl, ?_⟩
    exact fun i hi => absurd hi (Nat.not_lt_zero i)
  | succ m ih =>
    have hsplit : (n + (m + 1)) * pace.interval.nanos =
        (n + 1) * pace.interval.nanos + m * pace.interval.nanos := by
      rw [← Nat.add_mul, Nat.add_right_comm, Nat.add_assoc]
    have hnow : n * pace.interval.nanos ≤ (n + 1) * pace.interval.nanos :=
      Nat.mul_le_mul_right _ (Nat.le_succ n)
    have hfirst : (n + 1) * pace.interval.nanos < d.nanos := by omega
    obtain ⟨r₁, hwait, ht₁, hb₁⟩ := lasts_waiting sender ht hp hinterval (by omega)
    have hwake : t.wakeTime.nanos = t.nextTick.nanos := by
      rw [hp.began.nanos_wakeTime hp.limit, hp.next]
      omega
    obtain ⟨r₂, k₂, t₂, htick, ht₂, hb₂, hbody₂, hp₂⟩ := lasts_tick sender
      (k := { k with now := t.wakeTime }) ht₁ hbody hp.began hp.limit hp.next hwake hfirst
      (hrange (n + 1) hfirst) hinterval
    have hcount : n + 1 + m = n + (m + 1) := by omega
    obtain ⟨ts, r', k', hlasts, ht', hb', hnow', hlength, hticks⟩ := ih ht₂
      (by rw [hbody₂]; exact hbody) hp₂ (by rw [hcount]; exact hearly) (by rw [hcount]; exact hend)
    refine ⟨t.wakeTime :: ts, r', k', hwait.trans (htick.trans hlasts), ht',
      hb'.trans (hb₂.trans hb₁), hnow', by rw [List.length_cons, hlength], ?_⟩
    intro i hi
    cases i with
    | zero => exact hwake.trans hp.next
    | succ i =>
      have hlater := hticks i (Nat.lt_of_succ_lt_succ hi)
      rw [Nat.add_right_comm n 1 i] at hlater
      exact hlater

end Runner

/-- The additions to a reading that an ideal repeat comes to make are within the range of the
clock. -/
structure Pace.Fits (pace : Pace) (s : Instant) (d : Duration) : Prop where
  limit : s.nanos + d.nanos < Instant.limit
  first : s.nanos + pace.interval.nanos < Instant.limit
  next : ∀ n, n * pace.interval.nanos < d.nanos →
    s.nanos + (n + 1) * pace.interval.nanos < Instant.limit

namespace Runner

variable {σ : Type} (sender : Sender σ) {k : Idle σ} {r : Runner} {rest : List Task}
  {pace : Pace} {body : List Step} {d : Duration}

/-- An ideal repeat makes the ticks that come before its limit, each at its time, and ends at the
limit. -/
theorem lasts_beginning (ht : r.tasks = .beginning pace body :: rest)
    (hinterval : 0 < pace.interval.nanos) (hlimit : pace.limit = some d)
    (hbody : ∀ s ∈ body, s.IsSend) (hfits : pace.Fits k.now d) :
    ∃ ts r' k', Lasts (Idle.answer sender) rest.length r k ts r' k' ∧ r'.tasks = rest ∧
      r'.breakdown = r.breakdown ∧ k'.now.nanos = k.now.nanos + d.nanos ∧
      (∀ n, n < ts.length ↔ (n + 1) * pace.interval.nanos < d.nanos) ∧
      ∀ n (hn : n < ts.length), ts[n].nanos = k.now.nanos + (n + 1) * pace.interval.nanos := by
  obtain ⟨deadline, hdeadline, hend⟩ := Instant.exists_add? hfits.limit
  obtain ⟨nextTick, htick, hnext⟩ := Instant.exists_add? hfits.first
  let t : Ticking := ⟨pace, body, some deadline, nextTick⟩
  let polling : Runner := r.goOn (.polling t :: rest)
  have hm : r.move = .ask .clock fun now => r.begin pace body rest now := by rw [move, ht]
  have hbegin : r.begin pace body rest k.now = polling := by
    simp only [begin, hlimit, hdeadline, htick, polling, t]
  have hp : Punctual pace k.now d 0 t k.now := by
    refine ⟨⟨rfl, ?_⟩, hlimit, ?_, ?_⟩
    · rw [hlimit]
      exact congrArg some hend
    · rw [Nat.zero_mul, Nat.add_zero]
    · rw [Nat.zero_add, Nat.one_mul]
      exact hnext
  have hnone : r.starts? rest.length ⟨.clock, k.now⟩ = none := by simp only [starts?, ht]
  have hdeep : rest.length < r.tasks.length := by
    rw [ht]
    exact Nat.lt_succ_self _
  by_cases hzero : d.nanos = 0
  · have hover : t.isOver k.now = true := by
      rw [hp.began.isOver_iff hlimit]
      omega
    have hlast := lasts_over sender (k := k) (r := polling) rfl hover
    rw [← hbegin] at hlast
    refine ⟨[], _, k, .ask hdeep hm rfl hnone hlast, rfl, ?_, by omega, ?_, ?_⟩
    · rw [hbegin]
      rfl
    · intro n
      simp only [List.length_nil, Nat.not_lt_zero, false_iff]
      omega
    · exact fun n hn => absurd hn (Nat.not_lt_zero n)
  · obtain ⟨m, hearly, hlate⟩ := exists_last_multiple hinterval hzero
    obtain ⟨ts, r', k', hlast, ht', hb, hnow, hlength, hticks⟩ := lasts_polling sender
      (r := polling) hinterval m rfl hbody hp (by rwa [Nat.zero_add]) (by rwa [Nat.zero_add])
      hfits.next
    rw [← hbegin] at hlast
    refine ⟨ts, r', k', .ask hdeep hm rfl hnone hlast, ht', hb, hnow, ?_, ?_⟩
    · intro n
      rw [hlength]
      constructor
      · intro hn
        have hle : (n + 1) * pace.interval.nanos ≤ m * pace.interval.nanos :=
          Nat.mul_le_mul_right _ hn
        omega
      · intro hn
        by_contra hle
        have hge : (m + 1) * pace.interval.nanos ≤ (n + 1) * pace.interval.nanos := by
          apply Nat.mul_le_mul_right
          omega
        omega
    · intro n hn
      have htime := hticks n hn
      rwa [Nat.zero_add] at htime

def twoSeconds : Duration := ⟨2000000000, by decide⟩

/-- A runner that is to press and release a key twice a second for two seconds. -/
def lastingRunner : Runner :=
  { tasks := [.beginning (lastingPace twoSeconds) [.send [.keyDown 0x41, .keyUp 0x41]], .steps [],
      .listening []] }

theorem interval_lasting : (lastingPace twoSeconds).interval.nanos = 500000000 := rfl

theorem fits_lasting : (lastingPace twoSeconds).Fits Instant.origin twoSeconds where
  limit := by decide
  first := by decide
  next n hn := by
    have horigin : Instant.origin.nanos = 0 := rfl
    have hseconds : twoSeconds.nanos = 2000000000 := rfl
    have hlimit : Instant.limit = 9223372036854775808000000000 := rfl
    rw [interval_lasting] at hn ⊢
    omega

end Runner

end Script

end InputRelay
