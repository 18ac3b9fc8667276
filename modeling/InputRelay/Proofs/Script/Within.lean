import InputRelay.Proofs.Script.Contents
import InputRelay.Proofs.Script.Trace
import InputRelay.Proofs.Sender.Attempts

/-!
# A runner above a level of its stack

While a runner works off a task, the tasks below it stay where they are. `Runner.Within` follows a
run as long as something is left to do above them, with the readings of the clock at which the
repeat that stands right above them starts its ticks. In surroundings that answer, such a run is all
that can happen (`Within.isPrefix`).

`Runner.Lasts` is such a run in given surroundings, `Runner.Plays` any run there. Steps that only
send need nothing but a sender (`lasts_steps`).
-/

namespace InputRelay

namespace Script

variable {ε : Type} {answer : Surroundings Ask Answer ε}

/-- The step is not a repeat. -/
def Step.IsSend : Step → Prop
  | .send _ => True
  | .repeating _ _ => False

namespace Runner

/-! ## Runs above a level -/

/-- The reading at which the repeat with just `depth` tasks below it starts a tick. -/
def starts? (depth : Nat) (r : Runner) : Exchange → Option Instant
  | ⟨.clock, now⟩ =>
    match r.tasks with
    | .polling t :: rest =>
      if rest.length = depth ∧ t.isOver now = false ∧ t.isDue now = true then some now else none
    | _ => none
  | _ => none

/-- A repeat that has others above it starts no tick. -/
theorem starts?_of_above {r : Runner} {top task : Task} {above rest : List Task}
    (ht : r.tasks = top :: (above ++ task :: rest)) (x : Exchange) :
    r.starts? rest.length x = none := by
  have hne : (above ++ task :: rest).length ≠ rest.length := by
    rw [List.length_append, List.length_cons]
    omega
  unfold starts?
  split
  · rw [ht]
    split
    · next heq =>
      obtain ⟨-, rfl⟩ := List.cons_eq_cons.mp heq
      rw [if_neg fun h => hne h.1]
    · rfl
  · rfl

theorem starts?_of_polling {r : Runner} {t : Ticking} {rest : List Task}
    (ht : r.tasks = .polling t :: rest) (now : Instant) :
    r.starts? rest.length ⟨.clock, now⟩ =
      if t.isOver now = false ∧ t.isDue now = true then some now else none := by
  simp only [starts?, ht, true_and]

/-- With a look at the clock a repeat ends, starts a tick or waits. -/
theorem poll_cases {r : Runner} {t : Ticking} {rest : List Task}
    (ht : r.tasks = .polling t :: rest) (now : Instant) :
    (t.isOver now = true ∧ r.starts? rest.length ⟨.clock, now⟩ = none ∧
        r.poll t rest now = r.goOn rest) ∨
      (t.isOver now = false ∧ t.isDue now = true ∧
        r.starts? rest.length ⟨.clock, now⟩ = some now ∧
        r.poll t rest now = r.goOn (.steps t.body :: .ticked t :: rest)) ∨
      (t.isOver now = false ∧ t.isDue now = false ∧
        r.starts? rest.length ⟨.clock, now⟩ = none ∧
        r.poll t rest now = r.goOn (.waiting t (now.timeTo t.wakeTime) :: rest)) := by
  rw [starts?_of_polling ht]
  unfold poll
  cases t.isOver now with
  | true => exact .inl ⟨rfl, rfl, rfl⟩
  | false =>
    cases t.isDue now with
    | true => exact .inr (.inl ⟨rfl, rfl, rfl, rfl⟩)
    | false => exact .inr (.inr ⟨rfl, rfl, rfl, rfl⟩)

/-- A task with the property stands right above `rest`, unless the run has come down to `rest`. -/
def Stands (P : Task → Prop) (rest : List Task) (r : Runner) : Prop :=
  r.tasks.length ≤ rest.length ∨ ∃ above task, r.tasks = above ++ task :: rest ∧ P task

section

variable {P : Task → Prop} {r r' : Runner} {task : Task} {rest : List Task}

theorem stands_top (ht : r.tasks = task :: rest) (h : P task) : r.Stands P rest :=
  .inr ⟨[], task, ht, h⟩

theorem stands_over (h : r.tasks = rest ∨ r.tasks = []) : r.Stands P rest := by
  left
  rcases h with h | h
  · exact Nat.le_of_eq (congrArg List.length h)
  · rw [h]
    exact Nat.zero_le _

theorem stands_afterWait (r : Runner) {t : Ticking} (h : P (.polling t)) (e : Option InputEvent) :
    (r.afterWait t rest e).Stands P rest := by
  cases e with
  | none => exact stands_top rfl h
  | some e =>
    unfold afterWait
    dsimp only
    split_ifs
    · exact stands_over (.inr rfl)
    · exact stands_over (.inl rfl)
    · exact stands_top rfl h

/-- No move touches a task that has others above it, or the run is over. -/
theorem stands_of_next {top : Task} {above : List Task} (hn : r.Next r')
    (ht : r.tasks = top :: (above ++ task :: rest)) (h : P task) : r'.Stands P rest := by
  rcases (hn.turn ht).replaces with ⟨new, hnew, -⟩ | ⟨hnil, -⟩
  · exact .inr ⟨new ++ above, task, hnew.trans (List.append_assoc _ _ _).symm, h⟩
  · exact stands_over (.inr hnil)

end

/-- The runner may go on to another one, with these questions asked on the way, and never has only
`depth` tasks left before. The readings are those at which the repeat right above that level starts
its ticks. -/
inductive Within (depth : Nat) : Runner → List Exchange → List Instant → Runner → Prop where
  | here {r : Runner} : Within depth r [] [] r
  | quiet {r r₁ r' : Runner} {xs : List Exchange} {ts : List Instant}
      (hdeep : depth < r.tasks.length) (hm : r.move = .quiet r₁) (h : Within depth r₁ xs ts r') :
    Within depth r xs ts r'
  | ask {r r' : Runner} {q : Ask} {resume : Answer q → Runner} {xs : List Exchange}
      {ts : List Instant} (hdeep : depth < r.tasks.length) (hm : r.move = .ask q resume)
      (a : Answer q) (h : Within depth (resume a) xs ts r') :
    Within depth r (⟨q, a⟩ :: xs) ((r.starts? depth ⟨q, a⟩).toList ++ ts) r'

namespace Within

variable {depth : Nat} {r r₁ r' : Runner} {xs ys : List Exchange} {ts us : List Instant}

theorem goes (h : r.Within depth xs ts r') : r.Goes xs r' := by
  induction h with
  | here => exact .here
  | quiet hdeep hm h ih => exact .quiet hm ih
  | ask hdeep hm a h ih => exact .ask hm a ih

theorem trans (h : r.Within depth xs ts r₁) (h' : r₁.Within depth ys us r') :
    r.Within depth (xs ++ ys) (ts ++ us) r' := by
  induction h with
  | here => exact h'
  | quiet hdeep hm h ih => exact .quiet hdeep hm (ih h')
  | ask hdeep hm a h ih =>
    rw [List.append_assoc]
    exact .ask hdeep hm a (ih h')

/-- The run is over where the level is reached. -/
theorem of_length_le (h : r.Within depth xs ts r') (hlow : r.tasks.length ≤ depth) :
    xs = [] ∧ ts = [] ∧ r' = r := by
  cases h with
  | here => exact ⟨rfl, rfl, rfl⟩
  | quiet hdeep => omega
  | ask hdeep => omega

/-- A run in which a question was asked, up to the question and from its answer on. -/
theorem split {before after : List Exchange} {x : Exchange}
    (h : r.Within depth (before ++ x :: after) ts r') :
    ∃ us vs s resume, r.Within depth before us s ∧ depth < s.tasks.length ∧
      s.move = .ask x.ask resume ∧ (resume x.answer).Within depth after vs r' ∧
      ts = us ++ ((s.starts? depth x).toList ++ vs) := by
  generalize hxs : before ++ x :: after = xs at h
  induction h generalizing before with
  | here => simp at hxs
  | quiet hdeep hm h ih =>
    obtain ⟨us, vs, s, resume, hbefore, hrest⟩ := ih hxs
    exact ⟨us, vs, s, resume, .quiet hdeep hm hbefore, hrest⟩
  | @ask r _ q resume _ ts hdeep hm a h ih =>
    cases before with
    | nil =>
      cases hxs
      exact ⟨[], ts, r, resume, .here, hdeep, hm, h, rfl⟩
    | cons y before =>
      obtain ⟨rfl, htail⟩ := List.cons_eq_cons.mp hxs
      obtain ⟨us, vs, s, resume, hbefore, hdeep', hm', hafter, rfl⟩ := ih htail
      exact ⟨_, vs, s, resume, .ask hdeep hm a hbefore, hdeep', hm', hafter,
        (List.append_assoc _ _ _).symm⟩

/-- The answers decide what the runner asks next. -/
theorem unique {s s' : Runner} {q q' : Ask} {resume : Answer q → Runner}
    {resume' : Answer q' → Runner} (h : r.Within depth xs ts s) (hs : s.move = .ask q resume)
    (h' : r.Within depth xs us s') (hs' : s'.move = .ask q' resume') : s' = s := by
  induction h generalizing us with
  | here =>
    cases h' with
    | here => rfl
    | quiet _ hm => exact nomatch hm.symm.trans hs
  | quiet _ hm h ih =>
    cases h' with
    | here => exact nomatch hm.symm.trans hs'
    | quiet _ hm' h' =>
      cases hm.symm.trans hm'
      exact ih hs h'
    | ask _ hm' => exact nomatch hm.symm.trans hm'
  | ask _ hm a h ih =>
    cases h' with
    | quiet _ hm' => exact nomatch hm.symm.trans hm'
    | ask _ hm' _ h' =>
      cases hm.symm.trans hm'
      exact ih hs h'

/-- A repeat begins with a look at the clock, which starts no tick. -/
theorem of_beginning {pace : Pace} {body : List Step} {rest : List Task}
    (ht : r.tasks = .beginning pace body :: rest) (h : r.Within rest.length xs ts r') :
    xs = [] ∧ ts = [] ∧ r' = r ∨
      ∃ now ys, xs = ⟨.clock, now⟩ :: ys ∧
        (r.begin pace body rest now).Within rest.length ys ts r' := by
  have hm : r.move = .ask .clock fun now => r.begin pace body rest now := by rw [move, ht]
  cases h with
  | here => exact .inl ⟨rfl, rfl, rfl⟩
  | quiet _ hm' => cases hm.symm.trans hm'
  | ask _ hm' now h =>
    cases hm.symm.trans hm'
    have hnone : r.starts? rest.length ⟨.clock, now⟩ = none := by simp only [starts?, ht]
    rw [hnone]
    exact .inr ⟨now, _, rfl, h⟩

/-- A run that has reached the level is the longest that there is in surroundings that have
answered so. -/
theorem isPrefix {k k' l : ε} {r₂ : Runner} (h : r.Within depth xs ts r')
    (htold : Told answer k xs k') (hlow : r'.tasks.length ≤ depth) (h' : r.Within depth ys us r₂)
    (htold' : Told answer k ys l) : ys <+: xs ∧ us <+: ts := by
  induction h generalizing k ys us with
  | here =>
    obtain ⟨rfl, rfl, -⟩ := h'.of_length_le hlow
    exact ⟨List.prefix_rfl, List.prefix_rfl⟩
  | quiet hdeep hm h ih =>
    cases h' with
    | here => exact ⟨List.nil_prefix, List.nil_prefix⟩
    | quiet _ hm' h' =>
      cases hm.symm.trans hm'
      exact ih htold hlow h' htold'
    | ask _ hm' => exact nomatch hm.symm.trans hm'
  | ask hdeep hm a h ih =>
    cases h' with
    | here => exact ⟨List.nil_prefix, List.nil_prefix⟩
    | quiet _ hm' => exact nomatch hm.symm.trans hm'
    | ask _ hm' a' h' =>
      cases hm.symm.trans hm'
      cases htold with
      | answered ha htold =>
        cases htold' with
        | answered ha' htold' =>
          cases ha.symm.trans ha'
          obtain ⟨hxs, hts⟩ := ih htold hlow h' htold'
          exact ⟨(List.prefix_cons_inj _).mpr hxs, (List.prefix_append_right_inj _).mpr hts⟩

end Within

/-- A run stays above a level until it reaches it. -/
theorem Goes.exists_within {r r' : Runner} {xs : List Exchange} (h : r.Goes xs r') (depth : Nat) :
    ∃ ys zs ts r₁, xs = ys ++ zs ∧ r.Within depth ys ts r₁ ∧ r₁.Goes zs r' ∧
      (zs = [] ∧ r₁ = r' ∨ r₁.tasks.length ≤ depth) := by
  induction h with
  | @here r => exact ⟨[], [], [], r, rfl, .here, .here, .inl ⟨rfl, rfl⟩⟩
  | @quiet r _ _ xs hm h ih =>
    by_cases hdeep : depth < r.tasks.length
    · obtain ⟨ys, zs, ts, r₁, rfl, hwithin, hgoes, hend⟩ := ih
      exact ⟨ys, zs, ts, r₁, rfl, .quiet hdeep hm hwithin, hgoes, hend⟩
    · exact ⟨[], xs, [], r, rfl, .here, .quiet hm h, .inr (Nat.le_of_not_lt hdeep)⟩
  | @ask r _ q resume xs hm a h ih =>
    by_cases hdeep : depth < r.tasks.length
    · obtain ⟨ys, zs, ts, r₁, rfl, hwithin, hgoes, hend⟩ := ih
      exact ⟨⟨q, a⟩ :: ys, zs, _, r₁, rfl, .ask hdeep hm a hwithin, hgoes, hend⟩
    · exact ⟨[], ⟨q, a⟩ :: xs, [], r, rfl, .here, .ask hm a h, .inr (Nat.le_of_not_lt hdeep)⟩

/-! ## Runs in given surroundings -/

/-- In surroundings that answer so, the runner goes on to another one and leaves them changed. -/
def Plays (answer : Surroundings Ask Answer ε) (r : Runner) (k : ε) (r' : Runner) (k' : ε) : Prop :=
  ∃ xs, r.Goes xs r' ∧ Told answer k xs k'

/-- In surroundings that answer so, the runner goes on above a level, with ticks at these readings,
and leaves them changed. -/
def Lasts (answer : Surroundings Ask Answer ε) (depth : Nat) (r : Runner) (k : ε)
    (ts : List Instant) (r' : Runner) (k' : ε) : Prop :=
  ∃ xs, r.Within depth xs ts r' ∧ Told answer k xs k'

namespace Plays

variable {r r₁ r' : Runner} {k k₁ k' : ε}

theorem here : Plays answer r k r k := ⟨[], .here, .nothing⟩

theorem quiet (hm : r.move = .quiet r₁) (h : Plays answer r₁ k r' k') : Plays answer r k r' k' := by
  obtain ⟨xs, hgoes, htold⟩ := h
  exact ⟨xs, .quiet hm hgoes, htold⟩

theorem ask {q : Ask} {resume : Answer q → Runner} {a : Answer q} (hm : r.move = .ask q resume)
    (ha : answer q k = some (a, k₁)) (h : Plays answer (resume a) k₁ r' k') :
    Plays answer r k r' k' := by
  obtain ⟨xs, hgoes, htold⟩ := h
  exact ⟨⟨q, a⟩ :: xs, .ask hm a hgoes, .answered ha htold⟩

theorem trans (h : Plays answer r k r₁ k₁) (h' : Plays answer r₁ k₁ r' k') :
    Plays answer r k r' k' := by
  obtain ⟨xs, hgoes, htold⟩ := h
  obtain ⟨ys, hgoes', htold'⟩ := h'
  exact ⟨xs ++ ys, hgoes.trans hgoes', htold.append htold'⟩

end Plays

namespace Lasts

variable {depth : Nat} {r r₁ r' : Runner} {k k₁ k' : ε} {ts us : List Instant}

theorem here : Lasts answer depth r k [] r k := ⟨[], .here, .nothing⟩

theorem quiet (hdeep : depth < r.tasks.length) (hm : r.move = .quiet r₁)
    (h : Lasts answer depth r₁ k ts r' k') : Lasts answer depth r k ts r' k' := by
  obtain ⟨xs, hwithin, htold⟩ := h
  exact ⟨xs, .quiet hdeep hm hwithin, htold⟩

/-- A question with which no tick starts. -/
theorem ask {q : Ask} {resume : Answer q → Runner} {a : Answer q} (hdeep : depth < r.tasks.length)
    (hm : r.move = .ask q resume) (ha : answer q k = some (a, k₁))
    (hnone : r.starts? depth ⟨q, a⟩ = none) (h : Lasts answer depth (resume a) k₁ ts r' k') :
    Lasts answer depth r k ts r' k' := by
  obtain ⟨xs, hwithin, htold⟩ := h
  have hstep := Within.ask hdeep hm a hwithin
  rw [hnone] at hstep
  exact ⟨⟨q, a⟩ :: xs, hstep, .answered ha htold⟩

/-- A reading with which a tick starts. -/
theorem tick {resume : Instant → Runner} {now : Instant} (hdeep : depth < r.tasks.length)
    (hm : r.move = .ask .clock resume) (ha : answer .clock k = some (now, k₁))
    (hsome : r.starts? depth ⟨.clock, now⟩ = some now)
    (h : Lasts answer depth (resume now) k₁ ts r' k') :
    Lasts answer depth r k (now :: ts) r' k' := by
  obtain ⟨xs, hwithin, htold⟩ := h
  have hstep := Within.ask (q := .clock) hdeep hm now hwithin
  rw [hsome] at hstep
  exact ⟨⟨.clock, now⟩ :: xs, hstep, .answered ha htold⟩

theorem trans (h : Lasts answer depth r k ts r₁ k₁) (h' : Lasts answer depth r₁ k₁ us r' k') :
    Lasts answer depth r k (ts ++ us) r' k' := by
  obtain ⟨xs, hwithin, htold⟩ := h
  obtain ⟨ys, hwithin', htold'⟩ := h'
  exact ⟨xs ++ ys, hwithin.trans hwithin', htold.append htold'⟩

theorem plays (h : Lasts answer depth r k ts r' k') : Plays answer r k r' k' := by
  obtain ⟨xs, hwithin, htold⟩ := h
  exact ⟨xs, hwithin.goes, htold⟩

end Lasts

/-- A run that comes to an end is what is seen of the runner from some number of moves on. -/
theorem Plays.exists_rehearse {r r' : Runner} {k k' : ε} {result : Except Breakdown Totals}
    (h : Plays answer r k r' k') (hdone : r'.move = .done result) :
    ∃ fuel, ∀ more, rehearse Runner.move answer (fuel + more) r k = (some result, k') := by
  obtain ⟨xs, hgoes, htold⟩ := h
  induction hgoes generalizing k with
  | here =>
    cases htold
    refine ⟨0, fun more => ?_⟩
    cases more with
    | zero => rw [rehearse, hdone, Move.result?]
    | succ more =>
      rw [← Nat.add_assoc, rehearse, hdone]
      rfl
  | quiet hm h ih =>
    obtain ⟨fuel, hfuel⟩ := ih hdone htold
    refine ⟨fuel + 1, fun more => ?_⟩
    rw [Nat.add_right_comm, rehearse, hm]
    exact hfuel more
  | ask hm a h ih =>
    cases htold with
    | answered ha htold =>
      obtain ⟨fuel, hfuel⟩ := ih hdone htold
      refine ⟨fuel + 1, fun more => ?_⟩
      rw [Nat.add_right_comm, rehearse, hm, Move.make?, ha]
      exact hfuel more

/-! ## Steps that only send -/

section

variable {sender : Sender ε} {depth : Nat} {r : Runner} {k : ε} {rest : List Task}

/-- The events of a step go to the sender up to the first one that is refused. -/
theorem lasts_sending (hsend : ∀ e k, answer (.send e) k = some (sender.send e k))
    (es : List InputEvent) (ht : r.tasks = .sending es :: rest) (hdepth : depth ≤ rest.length) :
    ∃ r', Lasts answer depth r k [] r' (sender.sendAll es k).2 ∧ r'.tasks = rest ∧
      r'.breakdown = r.breakdown := by
  have hdeep : depth < r.tasks.length := by
    rw [ht, List.length_cons]
    omega
  induction es generalizing r k with
  | nil =>
    have hm : r.move = .quiet (r.goOn rest) := by rw [move, ht]
    exact ⟨_, .quiet hdeep hm .here, rfl, rfl⟩
  | cons e es ih =>
    have hm : r.move = .ask (.send e) fun sent => r.afterSend es rest sent := by rw [move, ht]
    have ha := hsend e k
    rcases hsent : sender.send e k with ⟨err | _, k₁⟩
    · rw [hsent] at ha
      rw [Sender.sendAll_of_error es hsent]
      exact ⟨r.afterSend es rest (.error err), .ask hdeep hm ha rfl .here, rfl, rfl⟩
    · rw [hsent] at ha
      rw [Sender.sendAll_of_ok es hsent]
      obtain ⟨r', hlasts, ht', hb⟩ := ih (k := k₁) (r := r.afterSend es rest (.ok ())) rfl
        (Nat.lt_succ_of_le hdepth)
      exact ⟨r', .ask hdeep hm ha rfl hlasts, ht', hb⟩

/-- Steps that only send are made one after the other. -/
theorem lasts_steps (hsend : ∀ e k, answer (.send e) k = some (sender.send e k)) (ss : List Step)
    (hss : ∀ s ∈ ss, s.IsSend) (ht : r.tasks = .steps ss :: rest) (hdepth : depth ≤ rest.length) :
    ∃ r', Lasts answer depth r k [] r' (ss.foldl (fun k s => (sender.sendAll s.events k).2) k) ∧
      r'.tasks = rest ∧ r'.breakdown = r.breakdown := by
  have hdeep : depth < r.tasks.length := by
    rw [ht, List.length_cons]
    omega
  induction ss generalizing r k with
  | nil =>
    have hm : r.move = .quiet (r.goOn rest) := by rw [move, ht]
    exact ⟨_, .quiet hdeep hm .here, rfl, rfl⟩
  | cons s ss ih =>
    obtain ⟨hs, hothers⟩ := List.forall_mem_cons.mp hss
    cases s with
    | repeating pace body => exact hs.elim
    | send es =>
      have hm : r.move = .quiet (r.goOn (.sending es :: .steps ss :: rest)) := by rw [move, ht]
      obtain ⟨r₁, hfirst, ht₁, hb₁⟩ := lasts_sending (k := k) hsend es
        (show (r.goOn (.sending es :: .steps ss :: rest)).tasks = _ from rfl)
        (Nat.le_succ_of_le hdepth)
      obtain ⟨r', hlasts, ht', hb⟩ := ih hothers ht₁ (by rw [ht₁, List.length_cons]; omega)
      exact ⟨r', .quiet hdeep hm (hfirst.trans hlasts), ht', hb.trans hb₁⟩

end

end Runner

end Script

end InputRelay
