import InputRelay.Proofs.Script.Spacing
import Mathlib.Data.List.Basic

/-!
# Events that end a repeat

`until_counts_at_own_wait`: an event in the list of a repeat ends it if the repeat itself takes the
event from the inbox. What a repeat within takes, while the steps of a tick are made, is lost on the
outer one: with any other list that tells apart nothing of what it takes itself, it starts the same
ticks. So it goes on after an event that is to end it (`ticks_after_nested_escape`).

A move depends on the task on top alone (`move_alike`). Two runners that differ only in the events
that end one repeat go on alike until that repeat takes an event that tells them apart
(`Within.differs`).
-/

namespace InputRelay

/-! ## Moves that are alike -/

/-- Both moves are quiet, or both ask the same question, and what they lead to is related. -/
inductive Move.Alike {Ask : Type} {Answer : Ask → Type} {σ ρ : Type} (R : σ → σ → Prop) :
    Move Ask Answer σ ρ → Move Ask Answer σ ρ → Prop where
  | quiet {s s' : σ} (h : R s s') : Alike R (.quiet s) (.quiet s')
  | ask {q : Ask} {resume resume' : Answer q → σ} (h : ∀ a, R (resume a) (resume' a)) :
    Alike R (.ask q resume) (.ask q resume')

theorem Move.Alike.mono {Ask : Type} {Answer : Ask → Type} {σ ρ : Type} {R R' : σ → σ → Prop}
    {m m' : Move Ask Answer σ ρ} (h : m.Alike R m') (hle : ∀ s s', R s s' → R' s s') :
    m.Alike R' m' := by
  cases h with
  | quiet h => exact .quiet (hle _ _ h)
  | ask h => exact .ask fun a => hle _ _ (h a)

namespace Script

/-! ## Tasks below others -/

namespace Runner

/-- The second runner has other tasks in the place of those below, or both have none left. -/
def SameAbove (below below' : List Task) (r r' : Runner) : Prop :=
  (∃ above, r.tasks = above ++ below ∧ r' = r.goOn (above ++ below')) ∨ r.tasks = [] ∧ r' = r

variable {r : Runner} {top : Task} {below below' : List Task}

theorem sameAbove_goOn (above tasks : List Task) :
    SameAbove below below' (r.goOn (above ++ below)) ((r.goOn tasks).goOn (above ++ below')) :=
  .inl ⟨above, rfl, rfl⟩

/-- A move depends on the task on top alone, and leaves those below it. -/
theorem move_alike (ht : r.tasks = top :: below) (below' : List Task) :
    r.move.Alike (SameAbove below below') (r.goOn (top :: below')).move := by
  cases top with
  | steps ss =>
    rcases ss with - | ⟨s, ss⟩
    · simp only [move, ht, goOn]
      exact .quiet (.inl ⟨[], rfl, rfl⟩)
    · cases s with
      | send es =>
        simp only [move, ht]
        exact .quiet (.inl ⟨[.sending es, .steps ss], rfl, rfl⟩)
      | repeating pace body =>
        simp only [move, ht]
        exact .quiet (.inl ⟨[.beginning pace body, .steps ss], rfl, rfl⟩)
  | sending es =>
    rcases es with - | ⟨e, es⟩
    · simp only [move, ht]
      exact .quiet (.inl ⟨[], rfl, rfl⟩)
    · simp only [move, ht]
      refine .ask fun result => ?_
      cases result with
      | ok => exact .inl ⟨[.sending es], rfl, rfl⟩
      | error => exact .inl ⟨[], rfl, rfl⟩
  | beginning pace body =>
    simp only [move, ht]
    refine .ask fun now => ?_
    by_cases hexceeds : pace.Exceeds now
    · rw [begin_of_exceeds hexceeds, begin_of_exceeds hexceeds]
      exact .inr ⟨rfl, rfl⟩
    · obtain ⟨deadline, nextTick, -, he⟩ := begin_of_not_exceeds hexceeds
      rw [he r pace.stop, he _ pace.stop]
      exact sameAbove_goOn [_] _
  | polling t =>
    simp only [move, ht]
    refine .ask fun now => ?_
    unfold poll
    split_ifs
    · exact sameAbove_goOn [] _
    · exact sameAbove_goOn [.steps t.body, .ticked t] _
    · exact sameAbove_goOn [.waiting t _] _
  | waiting t d =>
    simp only [move, ht]
    refine .ask fun e => ?_
    cases e with
    | none => exact sameAbove_goOn [.polling t] _
    | some e =>
      unfold afterWait
      dsimp only
      split_ifs
      · exact .inr ⟨rfl, rfl⟩
      · exact sameAbove_goOn [] _
      · exact sameAbove_goOn [.polling t] _
  | ticked t =>
    cases hnext : t.nextTick.add? t.pace.interval with
    | none =>
      simp only [move, ht, goOn, hnext]
      exact .quiet (.inr ⟨rfl, rfl⟩)
    | some next =>
      simp only [move, ht, goOn, hnext]
      exact .quiet (.inl ⟨[.resuming t next], rfl, rfl⟩)
  | resuming t next =>
    simp only [move, ht]
    exact .ask fun now => sameAbove_goOn [.polling { t with nextTick := next.later now }] _
  | firing e ts =>
    rcases ts with - | ⟨t, ts⟩
    · simp only [move, ht]
      exact .quiet (.inl ⟨[], rfl, rfl⟩)
    · cases hc : t.on.contains e with
      | true =>
        simp only [move, ht, goOn, hc, if_true]
        exact .quiet (.inl ⟨[.steps t.steps, .firing e ts], rfl, rfl⟩)
      | false =>
        simp only [move, ht, goOn, hc, Bool.false_eq_true, if_false]
        exact .quiet (.inl ⟨[.firing e ts], rfl, rfl⟩)
  | listening ts =>
    rcases ts with - | ⟨t, ts⟩
    · simp only [move, ht]
      exact .quiet (.inl ⟨[], rfl, rfl⟩)
    · simp only [move, ht]
      refine .ask fun e => ?_
      unfold afterTake
      split_ifs
      · exact .inr ⟨rfl, rfl⟩
      · exact sameAbove_goOn [.firing e (t :: ts), .listening (t :: ts)] _

end Runner

/-! ## Other events that end a repeat -/

/-- The repeat with other events that end it. -/
def Ticking.stoppedBy (stop : List InputEvent) (t : Ticking) : Ticking :=
  { t with pace := { t.pace with stop } }

namespace Task

/-- The events that end the repeat that a task stands for, unless it makes the steps of a tick. -/
def stop? : Task → Option (List InputEvent)
  | .beginning pace _ => some pace.stop
  | .polling t | .waiting t _ | .resuming t _ => some t.pace.stop
  | _ => none

/-- The task with other events that end its repeat. -/
def stoppedBy (stop : List InputEvent) : Task → Task
  | .beginning pace body => .beginning { pace with stop } body
  | .polling t => .polling (t.stoppedBy stop)
  | .waiting t d => .waiting (t.stoppedBy stop) d
  | .resuming t next => .resuming (t.stoppedBy stop) next
  | task => task

end Task

namespace Runner

/-- The runners differ only in the events that end the repeat right above `rest`: they are `stop`
for the one and `stop'` for the other. -/
inductive Differs (stop stop' : List InputEvent) (rest : List Task) (r r₂ : Runner) : Prop where
  /-- The repeat is over. -/
  | ended (h : r.tasks.length ≤ rest.length) (he : r₂ = r)
  /-- The repeat is at the clock or at the inbox. -/
  | between {task : Task} (ht : r.tasks = task :: rest) (hstop : task.stop? = some stop)
    (he : r₂ = r.goOn (task.stoppedBy stop' :: rest))
  /-- The steps of a tick are being made. -/
  | inTick {above : List Task} {t : Ticking} (ht : r.tasks = above ++ .ticked t :: rest)
    (hstop : t.pace.stop = stop) (he : r₂ = r.goOn (above ++ .ticked (t.stoppedBy stop') :: rest))

/-- Told these answers, the repeat with `depth` tasks below it takes the event from the inbox. -/
def TakesItself (depth : Nat) (r : Runner) (xs : List Exchange) (e : InputEvent) : Prop :=
  ∃ before after d ts s t rest, xs = before ++ ⟨.takeWithin d, some e⟩ :: after ∧
    r.Within depth before ts s ∧ s.tasks = .waiting t d :: rest ∧ rest.length = depth

variable {stop stop' : List InputEvent} {rest : List Task} {r r' r₂ : Runner} {q : Ask}
  {resume : Answer q → Runner}

theorem Differs.exists_goOn (h : Differs stop stop' rest r r₂) :
    ∃ tasks, r₂ = r.goOn tasks ∧ tasks.length = r.tasks.length := by
  cases h with
  | ended h he => exact ⟨r.tasks, he, rfl⟩
  | between ht hstop he => exact ⟨_, he, by rw [ht]; rfl⟩
  | inTick ht hstop he => exact ⟨_, he, by rw [ht, List.length_append, List.length_append]; rfl⟩

theorem Differs.length_eq (h : Differs stop stop' rest r r₂) :
    r₂.tasks.length = r.tasks.length := by
  obtain ⟨tasks, rfl, hlength⟩ := h.exists_goOn
  exact hlength

section

variable (rest) (r : Runner) {t : Ticking}

theorem differs_goOn (task : Task) (hstop : task.stop? = some stop)
    (tasks : List Task) :
    Differs stop stop' rest (r.goOn (task :: rest))
      ((r.goOn tasks).goOn (task.stoppedBy stop' :: rest)) := .between rfl hstop rfl

theorem differs_poll (now : Instant) (hstop : t.pace.stop = stop)
    (tasks : List Task) :
    Differs stop stop' rest (r.poll t rest now)
      ((r.goOn tasks).poll (t.stoppedBy stop') rest now) := by
  have hover : (t.stoppedBy stop').isOver now = t.isOver now := rfl
  have hdue : (t.stoppedBy stop').isDue now = t.isDue now := rfl
  unfold poll
  rw [hover, hdue]
  split_ifs
  · exact .ended (Nat.le_refl _) rfl
  · have ht : (r.goOn (.steps t.body :: .ticked t :: rest)).tasks =
        [.steps t.body] ++ .ticked t :: rest := rfl
    exact .inTick ht hstop rfl
  · exact differs_goOn rest r (.waiting t _) (congrArg some hstop) _

theorem differs_afterWait (hstop : t.pace.stop = stop)
    (tasks : List Task) {answer : Option InputEvent}
    (hagree : ∀ e, answer = some e → (e ∈ stop' ↔ e ∈ stop)) :
    Differs stop stop' rest (r.afterWait t rest answer)
      ((r.goOn tasks).afterWait (t.stoppedBy stop') rest answer) := by
  cases answer with
  | none => exact differs_goOn rest r (.polling t) (congrArg some hstop) _
  | some e =>
    have hends : (t.stoppedBy stop').pace.stop.contains e = t.pace.stop.contains e := by
      rw [Bool.eq_iff_iff, List.contains_iff_mem, List.contains_iff_mem, hstop]
      exact hagree e rfl
    unfold afterWait
    simp only [hends]
    split_ifs
    · exact .ended (Nat.zero_le _) rfl
    · exact .ended (Nat.le_refl _) rfl
    · exact differs_goOn rest r (.polling t) (congrArg some hstop) _

end

/-- What is above a tick goes on alike. -/
theorem differs_of_sameAbove {above : List Task} {t : Ticking} (hstop : t.pace.stop = stop)
    (h : SameAbove (above ++ .ticked t :: rest)
      (above ++ .ticked (t.stoppedBy stop') :: rest) r r₂) :
    Differs stop stop' rest r r₂ := by
  rcases h with ⟨new, ht, rfl⟩ | ⟨ht, rfl⟩
  · rw [← List.append_assoc] at ht ⊢
    exact .inTick ht hstop rfl
  · exact .ended (by rw [ht]; exact Nat.zero_le _) rfl

/-- Only the wait of a repeat tells it from one with other events that end it. -/
theorem Differs.alike (h : Differs stop stop' rest r r₂) (hdeep : rest.length < r.tasks.length)
    (hwait : ∀ t d, r.tasks ≠ .waiting t d :: rest) :
    r.move.Alike (Differs stop stop' rest) r₂.move := by
  cases h with
  | ended h => omega
  | @between task ht hstop he =>
    subst he
    cases task with
    | beginning pace body =>
      simp only [move, ht]
      refine .ask fun (now : Instant) => ?_
      by_cases hexceeds : pace.Exceeds now
      · have he : ∀ (r : Runner) stop', r.begin { pace with stop := stop' } body rest now =
            r.breakOff .clockOverflow := fun _ _ => begin_of_exceeds hexceeds
        show Differs stop stop' rest (r.begin { pace with stop := pace.stop } body rest now) _
        rw [he, he]
        exact .ended (Nat.zero_le _) rfl
      · obtain ⟨deadline, nextTick, -, he⟩ := begin_of_not_exceeds hexceeds
        rw [he r pace.stop, he _ stop']
        exact differs_goOn rest r (.polling ⟨pace, body, deadline, nextTick⟩) hstop _
    | polling t =>
      simp only [move, ht]
      refine .ask fun (now : Instant) => ?_
      exact differs_poll rest r now (Option.some.inj hstop) _
    | waiting t d => exact absurd ht (hwait t d)
    | resuming t next =>
      simp only [move, ht]
      refine .ask fun now => ?_
      exact differs_goOn rest r (.polling { t with nextTick := next.later now }) hstop _
    | _ => cases hstop
  | @inTick above t ht hstop he =>
    subst he
    cases above with
    | cons top above => exact (move_alike ht _).mono fun _ _ => differs_of_sameAbove hstop
    | nil =>
      cases hnext : t.nextTick.add? t.pace.interval with
      | none =>
        simp only [move, ht, goOn, List.nil_append, Ticking.stoppedBy, hnext]
        exact .quiet (.ended (Nat.zero_le _) rfl)
      | some next =>
        simp only [move, ht, goOn, List.nil_append, Ticking.stoppedBy, hnext]
        exact .quiet (differs_goOn rest r (.resuming t next) (congrArg some hstop) _)

theorem Differs.of_waiting {t : Ticking} {d : Duration} (h : Differs stop stop' rest r r₂)
    (ht : r.tasks = .waiting t d :: rest) :
    t.pace.stop = stop ∧ r₂ = r.goOn (.waiting (t.stoppedBy stop') d :: rest) := by
  cases h with
  | ended h =>
    rw [ht, List.length_cons] at h
    omega
  | between ht' hstop he =>
    obtain ⟨rfl, -⟩ := List.cons_eq_cons.mp (ht'.symm.trans ht)
    exact ⟨Option.some.inj hstop, he⟩
  | @inTick above t' ht' =>
    have hlength := congrArg List.length (ht'.symm.trans ht)
    cases above with
    | nil => cases (List.cons_eq_cons.mp (ht'.symm.trans ht)).1
    | cons top above =>
      simp only [List.cons_append, List.length_cons, List.length_append] at hlength
      omega

theorem Differs.starts?_eq (h : Differs stop stop' rest r r₂)
    (hdeep : rest.length < r.tasks.length) (x : Exchange) :
    r₂.starts? rest.length x = r.starts? rest.length x := by
  cases h with
  | ended h => omega
  | @between task ht hstop he =>
    subst he
    rcases x with ⟨q, a⟩
    cases q with
    | clock =>
      cases task with
      | polling t =>
        have ht₂ : (r.goOn (.polling (t.stoppedBy stop') :: rest)).tasks =
            .polling (t.stoppedBy stop') :: rest := rfl
        exact (starts?_of_polling ht₂ a).trans (starts?_of_polling ht a).symm
      | _ => simp only [starts?, ht, goOn, Task.stoppedBy]
    | _ => rfl
  | @inTick above t ht hstop he =>
    subst he
    cases above with
    | nil => simp only [starts?, ht, goOn, List.nil_append]
    | cons top above => rw [starts?_of_above ht, starts?_of_above rfl]

theorem TakesItself.of_quiet {depth : Nat} {xs : List Exchange} {e : InputEvent}
    (hdeep : depth < r.tasks.length) (hm : r.move = .quiet r') (h : TakesItself depth r' xs e) :
    TakesItself depth r xs e := by
  obtain ⟨before, after, d, ts, s, t, rest, hxs, hwithin, hs⟩ := h
  exact ⟨before, after, d, ts, s, t, rest, hxs, .quiet hdeep hm hwithin, hs⟩

theorem TakesItself.of_ask {depth : Nat} {xs : List Exchange} {e : InputEvent}
    (hdeep : depth < r.tasks.length) (hm : r.move = .ask q resume) (a : Answer q)
    (h : TakesItself depth (resume a) xs e) : TakesItself depth r (⟨q, a⟩ :: xs) e := by
  obtain ⟨before, after, d, ts, s, t, rest, rfl, hwithin, hs⟩ := h
  exact ⟨⟨q, a⟩ :: before, after, d, _, s, t, rest, rfl, .ask hdeep hm a hwithin, hs⟩

/-- If each event that the repeat itself takes is to end it in both runners or in none, then they go
on alike when they are told the same. -/
theorem Within.differs {xs : List Exchange} {ts : List Instant}
    (h : r.Within rest.length xs ts r') (hd : Differs stop stop' rest r r₂)
    (hagree : ∀ e, TakesItself rest.length r xs e → (e ∈ stop' ↔ e ∈ stop)) :
    ∃ r₂', r₂.Within rest.length xs ts r₂' ∧ Differs stop stop' rest r' r₂' := by
  induction h generalizing r₂ with
  | here => exact ⟨r₂, .here, hd⟩
  | @quiet r r₁ _ _ _ hdeep hm h ih =>
    have hdeep₂ : rest.length < r₂.tasks.length := by rwa [hd.length_eq]
    have hwait : ∀ t d, r.tasks ≠ .waiting t d :: rest := by
      intro t d ht
      rw [move, ht] at hm
      cases hm
    have halike := hd.alike hdeep hwait
    rw [hm] at halike
    generalize hm₂ : r₂.move = m at halike
    cases halike with
    | quiet hnext =>
      obtain ⟨r₂', hwithin, hd'⟩ := ih hnext fun e he => hagree e (.of_quiet hdeep hm he)
      exact ⟨r₂', .quiet hdeep₂ hm₂ hwithin, hd'⟩
  | @ask r _ q resume xs ts hdeep hm a h ih =>
    have hdeep₂ : rest.length < r₂.tasks.length := by rwa [hd.length_eq]
    have hstarts := hd.starts?_eq hdeep ⟨q, a⟩
    obtain ⟨resume₂, hm₂, hnext⟩ : ∃ resume₂, r₂.move = .ask q resume₂ ∧
        Differs stop stop' rest (resume a) (resume₂ a) := by
      by_cases hwait : ∃ t d, r.tasks = .waiting t d :: rest
      · obtain ⟨t, d, ht⟩ := hwait
        have hm' : r.move = .ask (.takeWithin d) fun e => r.afterWait t rest e := by rw [move, ht]
        cases hm.symm.trans hm'
        obtain ⟨hstop, rfl⟩ := hd.of_waiting ht
        refine ⟨_, rfl, differs_afterWait rest r hstop _ fun e he => hagree e ?_⟩
        subst he
        exact ⟨[], xs, d, [], r, t, rest, rfl, .here, ht, rfl⟩
      · have halike := hd.alike hdeep fun t d ht => hwait ⟨t, d, ht⟩
        rw [hm] at halike
        generalize r₂.move = m at halike
        cases halike with
        | ask hnext => exact ⟨_, rfl, hnext a⟩
    obtain ⟨r₂', hwithin, hd'⟩ := ih hnext fun e he => hagree e (.of_ask hdeep hm a he)
    have hstep := Within.ask hdeep₂ hm₂ a hwithin
    rw [hstarts] at hstep
    exact ⟨r₂', hstep, hd'⟩

/-- A repeat that takes an event of its own is over. -/
theorem length_afterWait_le (r : Runner) {t : Ticking} (rest : List Task) {e : InputEvent}
    (he : e ∈ t.pace.stop) : (r.afterWait t rest (some e)).tasks.length ≤ rest.length := by
  have hends : t.pace.stop.contains e = true := List.contains_iff_mem.mpr he
  unfold afterWait
  simp only [hends, if_true]
  split_ifs
  · exact Nat.zero_le _
  · exact Nat.le_refl _

variable {pace : Pace} {body : List Step} {xs : List Exchange} {ts : List Instant}

/-- **An event ends a repeat that takes it itself.** If a wait takes an event that is to end the
repeat, then either the wait is the repeat's own, which is then over and starts no more ticks, or it
is that of a repeat within, while the steps of a tick are made. For the ticks of the repeat only the
events count that it takes itself: told the same, the repeat with any other list starts the same
ticks and has come as far, if for each event that it takes itself the lists agree. -/
theorem until_counts_at_own_wait (ht : r.tasks = .beginning pace body :: rest)
    (h : r.Within rest.length xs ts r') :
    (∀ before after d e, xs = before ++ ⟨.takeWithin d, some e⟩ :: after → e ∈ pace.stop →
      ∃ us vs s, r.Within rest.length before us s ∧ ts = us ++ vs ∧
        ((∃ t, s.tasks = .waiting t d :: rest) ∧ after = [] ∧ vs = [] ∧
            r'.tasks.length ≤ rest.length ∨
          ∃ u above t, s.tasks = .waiting u d :: (above ++ .ticked t :: rest))) ∧
    ∀ stop, (∀ e, TakesItself rest.length r xs e → (e ∈ stop ↔ e ∈ pace.stop)) →
      ∃ tasks, (r.goOn (.beginning { pace with stop } body :: rest)).Within rest.length xs ts
        (r'.goOn tasks) ∧ tasks.length = r'.tasks.length := by
  have hdiffers : ∀ stop, Differs pace.stop stop rest r
      (r.goOn (.beginning { pace with stop } body :: rest)) := fun stop => .between ht rfl rfl
  refine ⟨?_, fun stop hagree => ?_⟩
  · intro before after d e hxs he
    subst hxs
    obtain ⟨us, vs, s, resume, hbefore, hdeep, hm, hafter, hts⟩ := h.split
    have hnone : s.starts? rest.length ⟨.takeWithin d, some e⟩ = none := rfl
    rw [hnone] at hts
    refine ⟨us, vs, s, hbefore, hts, ?_⟩
    obtain ⟨top, below, hs, hasks⟩ := asks_of_move hm
    cases hasks with
    | @waiting t =>
      obtain ⟨_, -, hd⟩ := hbefore.differs (hdiffers pace.stop) fun _ _ => Iff.rfl
      cases hd with
      | ended hlow => omega
      | between ht' hstop =>
        obtain ⟨rfl, rfl⟩ := List.cons_eq_cons.mp (hs.symm.trans ht')
        left
        rw [← Option.some.inj hstop] at he
        have hlow := length_afterWait_le s below he
        obtain ⟨hnil, hvs, rfl⟩ := hafter.of_length_le hlow
        exact ⟨⟨t, hs⟩, hnil, hvs, hlow⟩
      | @inTick above t' ht' =>
        right
        cases above with
        | nil => exact nomatch (List.cons_eq_cons.mp (hs.symm.trans ht')).1
        | cons top above =>
          obtain ⟨rfl, rfl⟩ := List.cons_eq_cons.mp (hs.symm.trans ht')
          exact ⟨t, above, t', hs⟩
  · obtain ⟨r₂', hwithin, hd⟩ := h.differs (hdiffers stop) hagree
    obtain ⟨tasks, rfl, hlength⟩ := hd.exists_goOn
    exact ⟨tasks, hwithin, hlength⟩

/-! ## A repeat in a repeat -/

/-- A script that presses a key ten times a second and, each time, repeats the press of another key,
both until the escape key is pressed. -/
def nestedUntil : List WrittenStep :=
  [.repeating "10hz" none (some [.name "esc"])
    [.hold [.name "a"], .repeating "10hz" none (some [.name "esc"]) [.hold [.name "b"]]]]

/-- Ten times a second, until the escape key is pressed. -/
def tenHertz : Pace := ⟨⟨100000000, by decide⟩, none, [.keyDown 0x1B]⟩

/-- The steps of the outer repeat. -/
def outerSteps : List Step := [.send [.keyDown 0x41], .repeating tenHertz [.send [.keyDown 0x42]]]

theorem compile_nestedUntil :
    compile (fun _ => none) nestedUntil = .ok { steps := [.repeating tenHertz outerSteps] } := by
  have hrate : frequency "10hz" = .ok tenHertz.interval := by
    have hread : Time.readFrequency? "10hz" = some tenHertz.interval := by
      show Time.readFrequency? "10hz" = some ⟨100000000, by decide⟩
      decide +kernel
    rw [frequency, hread]
  have hstop : stopEvents (some [.name "esc"]) = .ok [.keyDown 0x1B] := rfl
  have hfirst : resolveKeys .hold [.name "a"] = .ok [⟨.keyDown 0x41, false⟩] := rfl
  have hsecond : resolveKeys .hold [.name "b"] = .ok [⟨.keyDown 0x42, false⟩] := rfl
  have hpace : pace "10hz" none (some [.name "esc"]) = .ok tenHertz := by
    rw [pace, hrate, hstop]
    rfl
  simp only [compile, nestedUntil, compileAll, WrittenStep.compile, hpace, hfirst, hsecond]
  rfl

/-- A tenth and a fifth of a second after the origin. -/
def tenth : Instant := ⟨100000000, by decide⟩

@[inherit_doc tenth]
def fifth : Instant := ⟨200000000, by decide⟩

/-- The outer repeat is to begin. -/
def nestedRunner : Runner :=
  { tasks := [.beginning tenHertz outerSteps, .steps [], .listening []] }

/-- The first tick of the outer repeat starts, and the inner one waits. -/
def beforeEscape : List Exchange :=
  [⟨.clock, Instant.origin⟩, ⟨.clock, tenth⟩, ⟨.send (.keyDown 0x41), Except.ok ()⟩,
    ⟨.clock, tenth⟩, ⟨.clock, tenth⟩]

/-- The inner repeat is over, and the outer one looks at the clock at its next tick. -/
def afterEscape : List Exchange := [⟨.clock, fifth⟩, ⟨.clock, fifth⟩]

/-- While the inner repeat waits, the escape key is pressed. -/
def escapeExchanges : List Exchange :=
  beforeEscape ++ ⟨.takeWithin tenHertz.interval, some (.keyDown 0x1B)⟩ :: afterEscape

/-- The runner when the inner repeat waits. -/
def nestedWaiting : Runner :=
  { tasks := [.waiting ⟨tenHertz, [.send [.keyDown 0x42]], none, fifth⟩ tenHertz.interval,
      .steps [], .ticked ⟨tenHertz, outerSteps, none, tenth⟩, .steps [], .listening []]
    totals := { sent := 1 } }

/-- The runner when the outer repeat has started its second tick. -/
def nestedTicking : Runner :=
  { tasks := [.steps outerSteps, .ticked ⟨tenHertz, outerSteps, none, fifth⟩, .steps [],
      .listening []]
    totals := { sent := 1 } }

theorem within_beforeEscape : nestedRunner.Within 2 beforeEscape [tenth] nestedWaiting := by
  refine .ask (by decide) rfl _ (.ask (by decide) rfl _ (.quiet (by decide) rfl ?_))
  refine .ask (by decide) rfl _ (.quiet (by decide) rfl (.quiet (by decide) rfl ?_))
  refine .ask (by decide) rfl _ (.ask (by decide) rfl _ ?_)
  exact .here

theorem within_escapeExchanges :
    nestedRunner.Within 2 escapeExchanges [tenth, fifth] nestedTicking := by
  have hafter : nestedWaiting.Within 2
      (⟨.takeWithin tenHertz.interval, some (.keyDown 0x1B)⟩ :: afterEscape) [fifth]
      nestedTicking := by
    refine .ask (by decide) rfl _ (.quiet (by decide) rfl (.quiet (by decide) rfl ?_))
    refine .ask (by decide) rfl _ (.ask (by decide) rfl _ ?_)
    exact .here
  exact within_beforeEscape.trans hafter

/-- The outer repeat goes on after the escape key, which the inner one took. -/
theorem ticks_after_nested_escape :
    compile (fun _ => none) nestedUntil = .ok { steps := [.repeating tenHertz outerSteps] } ∧
      (ofPlan { steps := [.repeating tenHertz outerSteps] }).Goes [] nestedRunner ∧
      InputEvent.keyDown 0x1B ∈ tenHertz.stop ∧ ClockGoesOn escapeExchanges ∧
      nestedRunner.Within 2 beforeEscape [tenth] nestedWaiting ∧
      nestedRunner.Within 2 (beforeEscape ++
        ⟨.takeWithin tenHertz.interval, some (.keyDown 0x1B)⟩ :: afterEscape) [tenth, fifth]
        nestedTicking := by
  refine ⟨compile_nestedUntil, .quiet rfl .here, by decide, ?_, within_beforeEscape,
    within_escapeExchanges⟩
  show List.Pairwise _ (readings escapeExchanges)
  decide

/-- The outer repeat itself takes nothing. -/
theorem not_takesItself_nested (e : InputEvent) :
    ¬ TakesItself 2 nestedRunner escapeExchanges e := by
  rintro ⟨before, after, d, ts, s, t, rest, hxs, hwithin, hs, hlength⟩
  have hearly : Ask.takeWithin d ∉ beforeEscape.map Move.Exchange.ask := by simp [beforeEscape]
  have hlate : Ask.takeWithin d ∉ afterEscape.map Move.Exchange.ask := by simp [afterEscape]
  -- The escape key is the only event that is taken.
  obtain ⟨rfl, -⟩ := (List.append_cons_inj_of_notMem
    (mt List.mem_map_of_mem hearly) (mt List.mem_map_of_mem hlate)).mp hxs
  have hm : s.move = .ask (.takeWithin d) fun e => s.afterWait t rest e := by rw [move, hs]
  cases within_beforeEscape.unique rfl hwithin hm
  obtain ⟨-, rfl⟩ := List.cons_eq_cons.mp hs
  exact absurd hlength (by decide)

/-- Without the escape key in its list, the outer repeat starts the same ticks: when the escape key
comes, it is making the steps of the first one. -/
theorem until_counts_at_own_wait_of_nested :
    (∃ us vs s, nestedRunner.Within 2 beforeEscape us s ∧ [tenth, fifth] = us ++ vs ∧
      ∃ u above t, s.tasks = .waiting u tenHertz.interval ::
        (above ++ .ticked t :: [.steps [], .listening []])) ∧
      ∃ tasks, (nestedRunner.goOn (.beginning { tenHertz with stop := [] } outerSteps ::
        [.steps [], .listening []])).Within 2 escapeExchanges [tenth, fifth]
          (nestedTicking.goOn tasks) ∧ tasks.length = 4 := by
  have ht : nestedRunner.tasks = .beginning tenHertz outerSteps :: [.steps [], .listening []] := rfl
  obtain ⟨htaken, hlists⟩ := until_counts_at_own_wait ht within_escapeExchanges
  constructor
  · obtain ⟨us, vs, s, hbefore, hts, ⟨-, hnone, -⟩ | hnested⟩ :=
      htaken beforeEscape afterEscape _ _ rfl (by decide)
    · exact nomatch hnone
    · exact ⟨us, vs, s, hbefore, hts, hnested⟩
  · exact hlists [] fun e he => absurd he (not_takesItself_nested e)

end Runner

end Script

end InputRelay
