import InputRelay.Activity

/-!
# What an activity is told

A run of an activity, told by the questions that it asked and the answers that it was given, in
order. Nothing is said of who answers, so that these are the runs in every surroundings: a run in
given ones is one of them, with the answers that they give (`exists_ends_of_rehearse`).
-/

namespace InputRelay.Move

/-- A question with its answer. -/
structure Exchange (Ask : Type) (Answer : Ask → Type) where
  ask : Ask
  answer : Answer ask

variable {Ask : Type} {Answer : Ask → Type} {σ ρ ε : Type} {move : σ → Move Ask Answer σ ρ}
  {s s₁ s' : σ} {q : Ask} {resume : Answer q → σ} {xs ys : List (Exchange Ask Answer)} {r : ρ}

/-- The activity may go on from one state to another, with these questions asked on the way. -/
inductive Goes (move : σ → Move Ask Answer σ ρ) : σ → List (Exchange Ask Answer) → σ → Prop where
  | here {s : σ} : Goes move s [] s
  | quiet {s s₁ s' : σ} {xs : List (Exchange Ask Answer)} (hm : move s = .quiet s₁)
      (h : Goes move s₁ xs s') : Goes move s xs s'
  | ask {s s' : σ} {q : Ask} {resume : Answer q → σ} {xs : List (Exchange Ask Answer)}
      (hm : move s = .ask q resume) (a : Answer q) (h : Goes move (resume a) xs s') :
    Goes move s (⟨q, a⟩ :: xs) s'

/-- The activity may go on to its end, with these questions asked on the way. -/
def Ends (move : σ → Move Ask Answer σ ρ) (s : σ) (xs : List (Exchange Ask Answer)) (r : ρ) :
    Prop :=
  ∃ s', Goes move s xs s' ∧ move s' = .done r

namespace Goes

theorem trans (h : Goes move s xs s₁) (h' : Goes move s₁ ys s') : Goes move s (xs ++ ys) s' := by
  induction h with
  | here => exact h'
  | quiet hm h ih => exact .quiet hm (ih h')
  | ask hm a h ih => exact .ask hm a (ih h')

/-- An activity that has ended goes nowhere. -/
theorem of_done (h : Goes move s xs s') (hm : move s = .done r) : xs = [] ∧ s' = s := by
  cases h with
  | here => exact ⟨rfl, rfl⟩
  | quiet hq => exact nomatch hm.symm.trans hq
  | ask hq => exact nomatch hm.symm.trans hq

theorem of_quiet (h : Goes move s xs s') (hm : move s = .quiet s₁) :
    xs = [] ∧ s' = s ∨ Goes move s₁ xs s' := by
  cases h with
  | here => exact .inl ⟨rfl, rfl⟩
  | quiet hq h =>
    cases hm.symm.trans hq
    exact .inr h
  | ask hq => exact nomatch hm.symm.trans hq

theorem of_ask (h : Goes move s xs s') (hm : move s = .ask q resume) :
    xs = [] ∧ s' = s ∨ ∃ a ys, xs = ⟨q, a⟩ :: ys ∧ Goes move (resume a) ys s' := by
  cases h with
  | here => exact .inl ⟨rfl, rfl⟩
  | quiet hq => exact nomatch hm.symm.trans hq
  | ask hq a h =>
    cases hm.symm.trans hq
    exact .inr ⟨a, _, rfl, h⟩

theorem of_quiet_of_ne (h : Goes move s xs s') (hm : move s = .quiet s₁) (hne : s' ≠ s) :
    Goes move s₁ xs s' :=
  (h.of_quiet hm).resolve_left fun hstays => hne hstays.2

theorem of_ask_of_ne (h : Goes move s xs s') (hm : move s = .ask q resume) (hne : s' ≠ s) :
    ∃ a ys, xs = ⟨q, a⟩ :: ys ∧ Goes move (resume a) ys s' :=
  (h.of_ask hm).resolve_left fun hstays => hne hstays.2

/-- A run in which a question was asked, up to the question and from its answer on. -/
theorem split {x : Exchange Ask Answer} (h : Goes move s (xs ++ x :: ys) s') :
    ∃ s₁ resume, Goes move s xs s₁ ∧ move s₁ = .ask x.ask resume ∧
      Goes move (resume x.answer) ys s' := by
  generalize hall : xs ++ x :: ys = all at h
  induction h generalizing xs with
  | here => simp at hall
  | quiet hm h ih =>
    obtain ⟨s₁, resume, hbefore, hrest⟩ := ih hall
    exact ⟨s₁, resume, .quiet hm hbefore, hrest⟩
  | @ask s _ q resume _ hm a h ih =>
    cases xs with
    | nil =>
      cases hall
      exact ⟨s, resume, .here, hm, h⟩
    | cons y xs =>
      obtain ⟨rfl, htail⟩ := List.cons_eq_cons.mp hall
      obtain ⟨s₁, resume, hbefore, hrest⟩ := ih htail
      exact ⟨s₁, resume, .ask hm a hbefore, hrest⟩

end Goes

/-! ## Given surroundings -/

variable {answer : Surroundings Ask Answer ε} {k k₁ k' : ε}

/-- The surroundings have given these answers one after the other, and are then the others. -/
inductive Told (answer : Surroundings Ask Answer ε) : ε → List (Exchange Ask Answer) → ε → Prop where
  | nothing {k : ε} : Told answer k [] k
  | answered {q : Ask} {a : Answer q} {k k₁ k' : ε} {xs : List (Exchange Ask Answer)}
      (ha : answer q k = some (a, k₁)) (h : Told answer k₁ xs k') : Told answer k (⟨q, a⟩ :: xs) k'

theorem Told.append (h : Told answer k xs k₁) (h' : Told answer k₁ ys k') :
    Told answer k (xs ++ ys) k' := by
  induction h with
  | nothing => exact h'
  | answered ha h ih => exact .answered ha (ih h')

theorem result?_eq_some {m : Move Ask Answer σ ρ} (h : m.result? = some r) : m = .done r := by
  cases m with
  | done result =>
    cases h
    rfl
  | quiet => exact nomatch h
  | ask => exact nomatch h

/-- A run to the end is one of these, with the answers that the surroundings give. -/
theorem exists_ends_of_rehearse {fuel : Nat} (h : rehearse move answer fuel s k = (some r, k')) :
    ∃ xs, Ends move s xs r ∧ Told answer k xs k' := by
  induction fuel generalizing s k with
  | zero =>
    cases congrArg Prod.snd h
    exact ⟨[], ⟨s, .here, result?_eq_some (congrArg Prod.fst h)⟩, .nothing⟩
  | succ fuel ih =>
    rw [rehearse] at h
    cases hmake : (move s).make? answer k with
    | none =>
      rw [hmake] at h
      cases congrArg Prod.snd h
      exact ⟨[], ⟨s, .here, result?_eq_some (congrArg Prod.fst h)⟩, .nothing⟩
    | some next =>
      rw [hmake] at h
      obtain ⟨xs, ⟨s', hgoes, hdone⟩, htold⟩ := ih h
      cases hm : move s with
      | done _ =>
        rw [hm] at hmake
        exact nomatch hmake
      | quiet _ =>
        rw [hm] at hmake
        cases hmake
        exact ⟨xs, ⟨s', .quiet hm hgoes, hdone⟩, htold⟩
      | ask q resume =>
        rw [hm] at hmake
        obtain ⟨⟨a, _⟩, ha, rfl⟩ := Option.map_eq_some_iff.mp hmake
        exact ⟨⟨q, a⟩ :: xs, ⟨s', .ask hm a hgoes, hdone⟩, .answered ha htold⟩

end InputRelay.Move
