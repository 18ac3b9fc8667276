import InputRelay.Mailbox
import InputRelay.Proofs.Script.Compiled

/-!
# A repeat heeds its inbox when it finds the time

A repeat looks at its inbox only while it waits for its next tick. If the steps of a tick take so
long that the next one is due when they are done, the repeat ticks again at once, and neither a
shutdown nor an event of its own is seen. From the start of a tick, with a shutdown or such an event
in the inbox and nobody else at it, the repeat is over within `n` more ticks just if one of the
first `n + 1` ticks is done in time, or the time of the repeat is up (`heeds_iff_inTime`).
-/

namespace InputRelay.Script

/-! ## Alone with a sender, an inbox and a clock -/

/-- A sender, an inbox that nobody else touches, and how often the clock was read. -/
structure Alone (σ : Type) where
  sender : σ
  inbox : Mailbox := {}
  reads : Nat := 0

/-- A runner is answered by any sender and any clock; who waits at an empty inbox gets nothing. -/
def Alone.answer {σ : Type} (sender : Sender σ) (clock : Nat → Instant) :
    Surroundings Ask Answer (Alone σ)
  | .clock, k => some (clock k.reads, { k with reads := k.reads + 1 })
  | .send e, k =>
    let (sent, s) := sender.send e k.sender
    some (sent, { k with sender := s })
  | .takeNext, k => k.inbox.take?.map fun (e, inbox) => (e, { k with inbox })
  | .takeWithin _, k =>
    let (e, inbox) := k.inbox.takeNow
    some (e, { k with inbox })

/-- The inbox has what ends a repeat: the news of a shutdown, or an event of its own. -/
def Ticking.IsCalled (t : Ticking) (inbox : Mailbox) : Prop :=
  (inbox.shuttingDown = true ∧ inbox.pending = none) ∨
    ∃ e ∈ t.pace.stop, inbox.pending = some e

/-! ## Ticks until a repeat is over -/

/-- The runner is at the start of a tick of the repeat on top of `rest`. -/
def Runner.Ticks (r : Runner) (rest : List Task) : Prop :=
  ∃ t : Ticking, r.tasks = .steps t.body :: .ticked t :: rest

/-- From `r`, the repeat on top of `rest` starts `n` ticks until it is over and leaves `r'`. -/
inductive Finishes {ε : Type} (answer : Surroundings Ask Answer ε) (rest : List Task) :
    Runner → ε → Nat → Runner → ε → Prop where
  | done {r : Runner} {k : ε} (h : r.tasks = rest ∨ r.tasks = []) : Finishes answer rest r k 0 r k
  | tick {r r₁ r' : Runner} {k k₁ k' : ε} {n : Nat} (hr : ¬ (r.tasks = rest ∨ r.tasks = []))
      (hm : r.move.make? answer k = some (r₁, k₁)) (ht : r₁.Ticks rest)
      (h : Finishes answer rest r₁ k₁ n r' k') : Finishes answer rest r k (n + 1) r' k'
  | move {r r₁ r' : Runner} {k k₁ k' : ε} {n : Nat} (hr : ¬ (r.tasks = rest ∨ r.tasks = []))
      (hm : r.move.make? answer k = some (r₁, k₁)) (ht : ¬ r₁.Ticks rest)
      (h : Finishes answer rest r₁ k₁ n r' k') : Finishes answer rest r k n r' k'

section

variable {ε : Type} {answer : Surroundings Ask Answer ε} {rest : List Task} {r r₁ r' : Runner}
  {k k₁ k' : ε} {n : Nat}

theorem finishes_iff_of_over (hr : r.tasks = rest ∨ r.tasks = []) :
    Finishes answer rest r k n r' k' ↔ n = 0 ∧ r' = r ∧ k' = k := by
  constructor
  · intro h
    cases h with
    | done => exact ⟨rfl, rfl, rfl⟩
    | tick hn => exact absurd hr hn
    | move hn => exact absurd hr hn
  · rintro ⟨rfl, rfl, rfl⟩
    exact .done hr

theorem finishes_iff_of_move (hr : ¬ (r.tasks = rest ∨ r.tasks = []))
    (hm : r.move.make? answer k = some (r₁, k₁)) (ht : ¬ r₁.Ticks rest) :
    Finishes answer rest r k n r' k' ↔ Finishes answer rest r₁ k₁ n r' k' := by
  constructor
  · intro h
    cases h with
    | done ho => exact absurd ho hr
    | tick _ hm' ht' =>
      cases hm.symm.trans hm'
      exact absurd ht' ht
    | move _ hm' _ h =>
      cases hm.symm.trans hm'
      exact h
  · exact .move hr hm ht

theorem finishes_iff_of_tick (hr : ¬ (r.tasks = rest ∨ r.tasks = []))
    (hm : r.move.make? answer k = some (r₁, k₁)) (ht : r₁.Ticks rest) :
    Finishes answer rest r k n r' k' ↔
      ∃ m, n = m + 1 ∧ Finishes answer rest r₁ k₁ m r' k' := by
  constructor
  · intro h
    cases h with
    | done ho => exact absurd ho hr
    | @tick _ _ _ _ _ _ m _ hm' _ h =>
      cases hm.symm.trans hm'
      exact ⟨m, rfl, h⟩
    | move _ hm' ht' =>
      cases hm.symm.trans hm'
      exact absurd ht ht'
  · rintro ⟨m, rfl, h⟩
    exact .tick hr hm ht h

/-- No tick starts where something other than steps is on top. -/
theorem not_ticks {task : Task} {tasks : List Task} (h : r.tasks = task :: tasks)
    (hne : ∀ ss, task ≠ .steps ss) : ¬ r.Ticks rest := by
  rintro ⟨t, ht⟩
  rw [h] at ht
  exact hne t.body (List.cons.inj ht).1

theorem not_over {task : Task} (pre : List Task) (h : r.tasks = task :: pre ++ rest) :
    ¬ (r.tasks = rest ∨ r.tasks = []) := by
  rw [h]
  rintro (he | he)
  · have hlength := congrArg List.length he
    simp only [List.cons_append, List.length_cons, List.length_append] at hlength
    omega
  · exact nomatch he

theorem not_ticks_self (h : r.tasks = rest ∨ r.tasks = []) : ¬ r.Ticks rest := by
  rintro ⟨t', ht'⟩
  exact not_over [.ticked t'] ht' h

end

section

variable {σ : Type} {sender : Sender σ} {clock : Nat → Instant} {rest : List Task} {t : Ticking}
  {r r' : Runner} {k k' : Alone σ} {n : Nat}

/-! ## The steps of a tick -/

/-- From `r` to `r₁` there is nothing but sending, and no tick starts. -/
structure Sends (sender : Sender σ) (clock : Nat → Instant) (rest : List Task) (r : Runner)
    (k : Alone σ) (r₁ : Runner) (k₁ : Alone σ) : Prop where
  breakdown : r₁.breakdown = r.breakdown
  inbox : k₁.inbox = k.inbox
  reads : k₁.reads = k.reads
  finishes : ∀ n r' k', Finishes (Alone.answer sender clock) rest r k n r' k' ↔
    Finishes (Alone.answer sender clock) rest r₁ k₁ n r' k'

theorem Sends.trans {r₁ r₂ : Runner} {k₁ k₂ : Alone σ} (h : Sends sender clock rest r k r₁ k₁)
    (h' : Sends sender clock rest r₁ k₁ r₂ k₂) : Sends sender clock rest r k r₂ k₂ where
  breakdown := h'.breakdown.trans h.breakdown
  inbox := h'.inbox.trans h.inbox
  reads := h'.reads.trans h.reads
  finishes n r' k' := (h.finishes n r' k').trans (h'.finishes n r' k')

theorem Sends.of_move {r₁ : Runner} {k₁ : Alone σ} (hr : ¬ (r.tasks = rest ∨ r.tasks = []))
    (hm : r.move.make? (Alone.answer sender clock) k = some (r₁, k₁)) (ht : ¬ r₁.Ticks rest)
    (hb : r₁.breakdown = r.breakdown) (hi : k₁.inbox = k.inbox) (hk : k₁.reads = k.reads) :
    Sends sender clock rest r k r₁ k₁ :=
  ⟨hb, hi, hk, fun _ _ _ => finishes_iff_of_move hr hm ht⟩

theorem not_ticks_of_lt {ss : List Step} (h : r.tasks = .steps ss :: .ticked t :: rest)
    (hlt : ss.length < t.body.length) : ¬ r.Ticks rest := by
  rintro ⟨t', ht'⟩
  rw [h] at ht'
  cases ht'
  exact Nat.lt_irrefl _ hlt

theorem sends_sending {ss : List Step} (hlt : ss.length < t.body.length) (es : List InputEvent)
    (h : r.tasks = .sending es :: .steps ss :: .ticked t :: rest) :
    ∃ r₁ k₁, r₁.tasks = .steps ss :: .ticked t :: rest ∧ Sends sender clock rest r k r₁ k₁ := by
  have hbusy := not_over [.steps ss, .ticked t] h
  induction es generalizing r k with
  | nil =>
    have hm : r.move.make? (Alone.answer sender clock) k =
        some (r.goOn (.steps ss :: .ticked t :: rest), k) := by
      rw [Runner.move, h]
      rfl
    exact ⟨_, k, rfl, .of_move hbusy hm (not_ticks_of_lt rfl hlt) rfl rfl rfl⟩
  | cons e es ih =>
    obtain ⟨s, hs⟩ : ∃ s, s = (sender.send e k.sender).2 := ⟨_, rfl⟩
    have hm : r.move.make? (Alone.answer sender clock) k =
        some (r.afterSend es (.steps ss :: .ticked t :: rest) (sender.send e k.sender).1,
          { k with sender := s }) := by
      rw [Runner.move, h, hs]
      rfl
    cases hsent : (sender.send e k.sender).1 with
    | ok u =>
      rw [hsent] at hm
      have htop : (r.afterSend es (.steps ss :: .ticked t :: rest) (.ok u)).tasks =
          .sending es :: .steps ss :: .ticked t :: rest := rfl
      have hsend : Sends sender clock rest r k _ _ :=
        .of_move hbusy hm (not_ticks htop (by simp)) rfl rfl rfl
      obtain ⟨r₁, k₁, hr₁, hrest⟩ := ih htop (not_over [.steps ss, .ticked t] htop)
      exact ⟨r₁, k₁, hr₁, hsend.trans hrest⟩
    | error err =>
      rw [hsent] at hm
      exact ⟨_, _, rfl, .of_move hbusy hm (not_ticks_of_lt rfl hlt) rfl rfl rfl⟩

/-- The steps of a tick only send, and then they are made. -/
theorem sends_steps (ss : List Step) (hlt : ss.length ≤ t.body.length)
    (hsend : ∀ s ∈ ss, ∃ es, s = .send es) (h : r.tasks = .steps ss :: .ticked t :: rest) :
    ∃ r₁ k₁, r₁.tasks = .ticked t :: rest ∧ Sends sender clock rest r k r₁ k₁ := by
  have hbusy := not_over [.ticked t] h
  induction ss generalizing r k with
  | nil =>
    have hm : r.move.make? (Alone.answer sender clock) k =
        some (r.goOn (.ticked t :: rest), k) := by
      rw [Runner.move, h]
      rfl
    exact ⟨_, k, rfl, .of_move hbusy hm (not_ticks rfl (by simp)) rfl rfl rfl⟩
  | cons s ss ih =>
    obtain ⟨⟨es, rfl⟩, hothers⟩ := List.forall_mem_cons.mp hsend
    have hm : r.move.make? (Alone.answer sender clock) k =
        some (r.goOn (.sending es :: .steps ss :: .ticked t :: rest), k) := by
      rw [Runner.move, h]
      rfl
    have hfirst : Sends sender clock rest r k _ k :=
      .of_move hbusy hm (not_ticks rfl (by simp)) rfl rfl rfl
    obtain ⟨r₁, k₁, hr₁, hsent⟩ := sends_sending (k := k) hlt es
      (show (r.goOn (.sending es :: .steps ss :: .ticked t :: rest)).tasks = _ from rfl)
    obtain ⟨r₂, k₂, hr₂, hrest⟩ :=
      ih (k := k₁) (Nat.le_of_lt hlt) hothers hr₁ (not_over [.ticked t] hr₁)
    exact ⟨r₂, k₂, hr₂, hfirst.trans (hsent.trans hrest)⟩

/-! ## Between two ticks -/

theorem finishes_of_overflow (h : r.tasks = .ticked t :: rest)
    (hn : t.nextTick.add? t.pace.interval = none)
    (hf : Finishes (Alone.answer sender clock) rest r k n r' k') : r'.breakdown ≠ none := by
  have hm : r.move.make? (Alone.answer sender clock) k = some (r.breakOff .clockOverflow, k) := by
    simp only [Runner.move, h, hn]
    rfl
  have hoff : (r.breakOff .clockOverflow).tasks = rest ∨
      (r.breakOff .clockOverflow).tasks = [] := .inr rfl
  rw [finishes_iff_of_move (not_over [] h) hm (not_ticks_self hoff),
    finishes_iff_of_over hoff] at hf
  obtain ⟨-, rfl, -⟩ := hf
  simp [Runner.breakOff]

/-- After its steps a tick reads the clock and sets the next tick. -/
theorem finishes_ticked {next : Instant} (h : r.tasks = .ticked t :: rest)
    (hn : t.nextTick.add? t.pace.interval = some next) :
    Finishes (Alone.answer sender clock) rest r k n r' k' ↔
      Finishes (Alone.answer sender clock) rest
        (r.goOn (.polling { t with nextTick := next.later (clock k.reads) } :: rest))
        { k with reads := k.reads + 1 } n r' k' := by
  have hm : r.move.make? (Alone.answer sender clock) k =
      some (r.goOn (.resuming t next :: rest), k) := by
    simp only [Runner.move, h, hn]
    rfl
  have hresuming : (r.goOn (.resuming t next :: rest)).tasks = .resuming t next :: rest := rfl
  rw [finishes_iff_of_move (not_over [] h) hm (not_ticks hresuming (by simp))]
  exact finishes_iff_of_move (not_over [] hresuming) rfl (not_ticks rfl (by simp))

theorem make?_polling (sender : Sender σ) (clock : Nat → Instant) (k : Alone σ)
    (h : r.tasks = .polling t :: rest) :
    r.move.make? (Alone.answer sender clock) k =
      some (r.poll t rest (clock k.reads), { k with reads := k.reads + 1 }) := by
  rw [Runner.move, h]
  rfl

theorem make?_waiting (sender : Sender σ) (clock : Nat → Instant) (k : Alone σ) {d : Duration}
    (h : r.tasks = .waiting t d :: rest) :
    r.move.make? (Alone.answer sender clock) k =
      some (r.afterWait t rest k.inbox.takeNow.1, { k with inbox := k.inbox.takeNow.2 }) := by
  rw [Runner.move, h]
  rfl

theorem finishes_poll_of_over (h : r.tasks = .polling t :: rest)
    (hover : t.isOver (clock k.reads) = true) :
    Finishes (Alone.answer sender clock) rest r k n r' k' ↔
      n = 0 ∧ r' = r.goOn rest ∧ k' = { k with reads := k.reads + 1 } := by
  have hm := make?_polling sender clock k h
  rw [Runner.poll, if_pos hover] at hm
  have hleft : (r.goOn rest).tasks = rest ∨ (r.goOn rest).tasks = [] := .inl rfl
  rw [finishes_iff_of_move (not_over [] h) hm (not_ticks_self hleft), finishes_iff_of_over hleft]

theorem finishes_poll_of_due (h : r.tasks = .polling t :: rest)
    (hover : t.isOver (clock k.reads) = false) (hdue : t.isDue (clock k.reads) = true) :
    Finishes (Alone.answer sender clock) rest r k n r' k' ↔
      ∃ m, n = m + 1 ∧ Finishes (Alone.answer sender clock) rest
        (r.goOn (.steps t.body :: .ticked t :: rest)) { k with reads := k.reads + 1 } m r' k' := by
  have hm := make?_polling sender clock k h
  rw [Runner.poll, hover, hdue, if_neg Bool.false_ne_true, if_pos rfl] at hm
  exact finishes_iff_of_tick (not_over [] h) hm ⟨t, rfl⟩

/-- A repeat that is called while it waits is over. -/
theorem afterWait_of_called {inbox : Mailbox} (hcalled : t.IsCalled inbox)
    (hstop : ∀ e ∈ t.pace.stop, e ≠ .sentinel) :
    r.afterWait t rest inbox.takeNow.1 = r.goOn (if inbox.pending.isSome then rest else []) := by
  rcases hcalled with ⟨hdown, hnone⟩ | ⟨e, he, hsome⟩
  · have htake : inbox.takeNow.1 = some .sentinel := by
      simp [Mailbox.takeNow, Mailbox.take?, Mailbox.isReady, hdown, hnone]
    rw [htake, hnone, Runner.afterWait]
    exact if_pos rfl
  · have htake : inbox.takeNow.1 = some e := by
      simp [Mailbox.takeNow, Mailbox.take?, Mailbox.isReady, hsome]
    have hnot : ¬ e.isSentinel = true := by
      rw [InputEvent.isSentinel_iff]
      exact hstop e he
    rw [htake, hsome, Runner.afterWait, if_neg hnot, if_pos (List.contains_iff_mem.mpr he)]
    rfl

theorem finishes_poll_of_called (h : r.tasks = .polling t :: rest)
    (hover : t.isOver (clock k.reads) = false) (hdue : t.isDue (clock k.reads) = false)
    (hcalled : t.IsCalled k.inbox) (hstop : ∀ e ∈ t.pace.stop, e ≠ .sentinel) :
    Finishes (Alone.answer sender clock) rest r k n r' k' ↔
      n = 0 ∧ r' = r.goOn (if k.inbox.pending.isSome then rest else []) ∧
        k' = { k with inbox := k.inbox.takeNow.2, reads := k.reads + 1 } := by
  have hm := make?_polling sender clock k h
  rw [Runner.poll, hover, hdue, if_neg Bool.false_ne_true, if_neg Bool.false_ne_true] at hm
  obtain ⟨d, hd⟩ : ∃ d, d = (clock k.reads).timeTo t.wakeTime := ⟨_, rfl⟩
  rw [← hd] at hm
  have hwaiting : (r.goOn (.waiting t d :: rest)).tasks = .waiting t d :: rest := rfl
  rw [finishes_iff_of_move (not_over [] h) hm (not_ticks hwaiting (by simp))]
  have hm' := make?_waiting sender clock { k with reads := k.reads + 1 } hwaiting
  rw [afterWait_of_called hcalled hstop] at hm'
  obtain ⟨left, hleft⟩ : ∃ left, left = if k.inbox.pending.isSome then rest else [] := ⟨_, rfl⟩
  rw [← hleft] at hm' ⊢
  have hover' : (r.goOn left).tasks = rest ∨ (r.goOn left).tasks = [] := by
    show left = rest ∨ left = []
    rw [hleft]
    split_ifs
    · exact .inl rfl
    · exact .inr rfl
  exact (finishes_iff_of_move (not_over [] hwaiting) hm' (not_ticks_self hover')).trans
    (finishes_iff_of_over hover')

end

/-! ## In time -/

/-- Nothing broke off, and either the time of the repeat was up at the last look at the clock, or it
was ended as its inbox called for: by an event, so that `rest` goes on, or by a shutdown, so that
nothing does. -/
def Obeys {σ : Type} (clock : Nat → Instant) (t : Ticking) (rest : List Task) (inbox : Mailbox)
    (r : Runner) (k : Alone σ) : Prop :=
  r.breakdown = none ∧
    ((t.isOver (clock (k.reads - 1)) = true ∧ r.tasks = rest) ∨
      r.tasks = if inbox.pending.isSome then rest else [])

/-- The repeat on top of `rest` starts at most `n` ticks and ends as its inbox calls for. -/
def Heeds {σ : Type} (sender : Sender σ) (clock : Nat → Instant) (n : Nat) (t : Ticking)
    (rest : List Task) (r : Runner) (k : Alone σ) : Prop :=
  ∃ m r' k', m ≤ n ∧ Finishes (Alone.answer sender clock) rest r k m r' k' ∧
    Obeys clock t rest k.inbox r' k'

/-- After the steps of a tick, or of one of the `n` ticks that follow it, the time of the repeat is
up or the next tick is not yet due. The steps of the tick are followed by the readings `i` and
`i + 1` of the clock. -/
def InTime (clock : Nat → Instant) : Nat → Nat → Ticking → Prop
  | n, i, t => ∃ next, t.nextTick.add? t.pace.interval = some next ∧
    (t.isOver (clock (i + 1)) = true ∨ (clock (i + 1)).nanos < next.nanos ∨
      match n with
      | 0 => False
      | n + 1 => InTime clock n (i + 2) { t with nextTick := next.later (clock i) })

section

variable {σ : Type} {sender : Sender σ} {clock : Nat → Instant} {rest : List Task}

theorem isDue_later {t : Ticking} {next a b : Instant} (hab : a.nanos ≤ b.nanos) :
    ({ t with nextTick := next.later a } : Ticking).isDue b = true ↔ next.nanos ≤ b.nanos := by
  unfold Ticking.isDue Instant.later
  rw [decide_eq_true_eq]
  split_ifs with h
  · exact ⟨fun hle => Nat.le_trans h hle, fun _ => hab⟩
  · exact Iff.rfl

theorem Sends.heeds {t : Ticking} {r r₁ : Runner} {k k₁ : Alone σ} {n : Nat}
    (h : Sends sender clock rest r k r₁ k₁) :
    Heeds sender clock n t rest r k ↔ Heeds sender clock n t rest r₁ k₁ := by
  simp only [Heeds, h.finishes, h.inbox]

/-- A repeat that is called and comes to look at its inbox, or whose time is up, is over. -/
theorem heeds_polling {t : Ticking} {r : Runner} {k : Alone σ} (n : Nat)
    (h : r.tasks = .polling t :: rest) (hb : r.breakdown = none)
    (hcalled : t.IsCalled k.inbox) (hstop : ∀ e ∈ t.pace.stop, e ≠ .sentinel)
    (hwait : t.isOver (clock k.reads) = true ∨ t.isDue (clock k.reads) = false) :
    Heeds sender clock n t rest r k := by
  by_cases hover : t.isOver (clock k.reads) = true
  · exact ⟨0, _, _, Nat.zero_le n, (finishes_poll_of_over h hover).mpr ⟨rfl, rfl, rfl⟩, hb,
      .inl ⟨hover, rfl⟩⟩
  · have hdue := hwait.resolve_left hover
    rw [Bool.not_eq_true] at hover
    exact ⟨0, _, _, Nat.zero_le n,
      (finishes_poll_of_called h hover hdue hcalled hstop).mpr ⟨rfl, rfl, rfl⟩, hb, .inr rfl⟩

/-- A repeat whose next tick is due ticks again at once. -/
theorem heeds_polling_of_due {t : Ticking} {r : Runner} {k : Alone σ} {n : Nat}
    (h : r.tasks = .polling t :: rest) (hover : t.isOver (clock k.reads) = false)
    (hdue : t.isDue (clock k.reads) = true) :
    Heeds sender clock n t rest r k ↔ ∃ m, n = m + 1 ∧ Heeds sender clock m t rest
      (r.goOn (.steps t.body :: .ticked t :: rest)) { k with reads := k.reads + 1 } := by
  constructor
  · rintro ⟨i, r', k', hi, hf, ho⟩
    obtain ⟨j, rfl, hrest⟩ := (finishes_poll_of_due h hover hdue).mp hf
    obtain ⟨m, rfl⟩ : ∃ m, n = m + 1 := ⟨n - 1, by omega⟩
    exact ⟨m, rfl, j, r', k', by omega, hrest, ho⟩
  · rintro ⟨m, rfl, j, r', k', hj, hf, ho⟩
    exact ⟨j + 1, r', k', by omega, (finishes_poll_of_due h hover hdue).mpr ⟨j, rfl, hf⟩, ho⟩

/-- After the steps of a tick, the repeat goes on with its next tick set. -/
theorem heeds_ticked {t : Ticking} {r : Runner} {k : Alone σ} {n : Nat} {next : Instant}
    (h : r.tasks = .ticked t :: rest) (hn : t.nextTick.add? t.pace.interval = some next) :
    Heeds sender clock n t rest r k ↔
      Heeds sender clock n { t with nextTick := next.later (clock k.reads) } rest
        (r.goOn (.polling { t with nextTick := next.later (clock k.reads) } :: rest))
        { k with reads := k.reads + 1 } := by
  unfold Heeds
  simp only [finishes_ticked h hn]
  rfl

theorem inTime_iff {t : Ticking} {n i : Nat} {next : Instant}
    (hn : t.nextTick.add? t.pace.interval = some next) :
    InTime clock n i t ↔ t.isOver (clock (i + 1)) = true ∨ (clock (i + 1)).nanos < next.nanos ∨
      ∃ m, n = m + 1 ∧ InTime clock m (i + 2) { t with nextTick := next.later (clock i) } := by
  rw [InTime, hn]
  cases n with
  | zero => simp
  | succ n => simp

/-- From the start of a tick, a repeat that is called is over within `n` more ticks just if it comes
to wait in time. -/
theorem heeds_iff_inTime (hclock : ∀ i, (clock i).nanos ≤ (clock (i + 1)).nanos) (n : Nat)
    {t : Ticking} {r : Runner} {k : Alone σ}
    (h : r.tasks = .steps t.body :: .ticked t :: rest) (hb : r.breakdown = none)
    (hsend : ∀ s ∈ t.body, ∃ es, s = .send es) (hstop : ∀ e ∈ t.pace.stop, e ≠ .sentinel)
    (hcalled : t.IsCalled k.inbox) :
    Heeds sender clock n t rest r k ↔ InTime clock n k.reads t := by
  induction n using Nat.strongRecOn generalizing t r k with
  | ind n ih =>
    obtain ⟨r₁, k₁, hr₁, hs⟩ := sends_steps (k := k) t.body (Nat.le_refl _) hsend h
    rw [hs.heeds, ← hs.reads]
    rw [← hs.inbox] at hcalled
    rw [← hs.breakdown] at hb
    cases hn : t.nextTick.add? t.pace.interval with
    | none =>
      constructor
      · rintro ⟨_, _, _, -, hf, ho, -⟩
        exact absurd ho (finishes_of_overflow hr₁ hn hf)
      · intro hin
        rw [InTime] at hin
        obtain ⟨next, hnext, -⟩ := hin
        exact nomatch hn.symm.trans hnext
    | some next =>
      rw [heeds_ticked hr₁ hn, inTime_iff hn]
      obtain ⟨u, hu⟩ : ∃ u : Ticking, u = { t with nextTick := next.later (clock k₁.reads) } :=
        ⟨_, rfl⟩
      have hdue : u.isDue (clock (k₁.reads + 1)) = true ↔
          next.nanos ≤ (clock (k₁.reads + 1)).nanos := hu ▸ isDue_later (hclock k₁.reads)
      have hover : t.isOver (clock (k₁.reads + 1)) = u.isOver (clock (k₁.reads + 1)) := hu ▸ rfl
      have hcalled' : u.IsCalled k₁.inbox := hu ▸ hcalled
      have hstop' : ∀ e ∈ u.pace.stop, e ≠ .sentinel := hu ▸ hstop
      rw [← hu, hover, ← Nat.not_le, ← hdue, Bool.not_eq_true]
      by_cases hwait : u.isOver (clock (k₁.reads + 1)) = true ∨
          u.isDue (clock (k₁.reads + 1)) = false
      · rw [← or_assoc]
        exact iff_of_true (heeds_polling n rfl hb hcalled' hstop' hwait) (.inl hwait)
      · obtain ⟨hnot, hnow⟩ := not_or.mp hwait
        rw [or_iff_right hnot, or_iff_right hnow]
        rw [Bool.not_eq_true] at hnot
        rw [Bool.not_eq_false] at hnow
        rw [heeds_polling_of_due rfl hnot hnow]
        refine exists_congr fun m => and_congr_right fun hm => ?_
        exact ih m (hm ▸ Nat.lt_succ_self m) rfl hb (hu ▸ hsend) hstop' hcalled'

/-- **When a repeat heeds its inbox.** At the start of a tick of a repeat without repeats inside, in
any run of a compiled script, let the inbox hold the news of a shutdown or an event that ends the
repeat, and let nobody else touch it. Then the repeat starts at most one more tick and ends as it
should just if no reading of the clock overflows, and after the steps of this tick or of the one
that follows it the time of the repeat is up or the next tick is not yet due. -/
theorem heeds_iff_of_compile {library : Library} {written : List WrittenStep} {plan : Plan}
    (hplan : compile library written = .ok plan) {r : Runner} (hr : r.Reached plan) {t : Ticking}
    (h : r.tasks = .steps t.body :: .ticked t :: rest)
    (hsend : ∀ s ∈ t.body, ∃ es, s = .send es)
    (hclock : ∀ i, (clock i).nanos ≤ (clock (i + 1)).nanos) {k : Alone σ}
    (hcalled : t.IsCalled k.inbox) :
    Heeds sender clock 1 t rest r k ↔
      ∃ next, t.nextTick.add? t.pace.interval = some next ∧
        (t.isOver (clock (k.reads + 1)) = true ∨ (clock (k.reads + 1)).nanos < next.nanos ∨
          ∃ next', (next.later (clock k.reads)).add? t.pace.interval = some next' ∧
            (t.isOver (clock (k.reads + 3)) = true ∨
              (clock (k.reads + 3)).nanos < next'.nanos)) := by
  have hb : r.breakdown = none := by
    by_contra hne
    rw [hr.tasks_eq_nil hne] at h
    exact nomatch h
  have hpace : t.pace.Bounded := by
    refine (hr.sound (sound_of_compile hplan) (.ticked t) ?_).1
    rw [h]
    exact List.mem_cons_of_mem _ List.mem_cons_self
  rw [heeds_iff_inTime hclock 1 h hb hsend (fun e he => (hpace.known e he).ne_sentinel) hcalled]
  simp only [InTime, or_false]
  rfl

end

/-! ## A repeat in time, and one that is late -/

/-- A script that lets go of a key a thousand times a second until escape is pressed. -/
def ticker : List WrittenStep :=
  [.repeating "1000hz" none (some [.name "esc"]) [.release [.digit 1]]]

/-- The repeat of that script, a millisecond after the origin of the clock. -/
def tickerTicking : Ticking where
  pace := ⟨⟨1000000, by decide⟩, none, [.keyDown 0x1B]⟩
  body := [.send [.keyUp 0x31]]
  deadline := none
  nextTick := ⟨1000000, by decide⟩

/-- The script, compiled. -/
def tickerPlan : Plan := { steps := [.repeating tickerTicking.pace tickerTicking.body] }

theorem compile_ticker : compile (fun _ => none) ticker = .ok tickerPlan := by
  have hrate : frequency "1000hz" = .ok tickerTicking.pace.interval := by
    have hread : Time.readFrequency? "1000hz" = some tickerTicking.pace.interval := by
      decide +kernel
    rw [frequency, hread]
  have hstop : stopEvents (some [.name "esc"]) = .ok tickerTicking.pace.stop := rfl
  have hkey : resolveKeys .release [.digit 1] = .ok [⟨.keyDown 0x31, false⟩] := rfl
  have hpace : pace "1000hz" none (some [.name "esc"]) = .ok tickerTicking.pace := by
    rw [pace, hrate, hstop]
    rfl
  simp only [compile, ticker, compileAll, WrittenStep.compile, hpace, hkey]
  rfl

/-- What follows the repeat of the script. -/
def tickerRest : List Task := [.steps [], .listening []]

/-- The runner of the script at the start of the first tick. -/
def tickerRunner : Runner where
  tasks := .steps tickerTicking.body :: .ticked tickerTicking :: tickerRest

theorem reached_ticker (now : Instant) (h : tickerTicking.isDue now = true) :
    tickerRunner.Reached tickerPlan := by
  have hbegin : Runner.Reached tickerPlan
      { tasks := .beginning tickerTicking.pace tickerTicking.body :: tickerRest } :=
    .next .start (.quiet rfl)
  have hpoll := hbegin.next (.ask (q := .clock) rfl Instant.origin)
  have htick := Runner.Reached.next
    (show Runner.Reached tickerPlan { tasks := .polling tickerTicking :: tickerRest } from hpoll)
    (.ask (q := .clock) rfl now)
  have hover : tickerTicking.isOver now = false := rfl
  rwa [Runner.poll, hover, if_neg Bool.false_ne_true, if_pos h] at htick

/-- The clock stands still after the tick has begun, and escape is seen at once. -/
theorem heeds_of_still_clock :
    let clock : Nat → Instant := fun _ => tickerTicking.nextTick
    let k : Alone Recorder := { sender := {}, inbox := { pending := some (.keyDown 0x1B) } }
    tickerTicking.IsCalled k.inbox ∧
      Heeds Recorder.sender clock 1 tickerTicking tickerRest tickerRunner k := by
  intro clock k
  have hcalled : tickerTicking.IsCalled k.inbox := .inr ⟨.keyDown 0x1B, by decide, rfl⟩
  refine ⟨hcalled, ?_⟩
  refine (heeds_iff_of_compile compile_ticker (reached_ticker tickerTicking.nextTick (by decide))
    rfl (by simp [tickerTicking]) (fun _ => Nat.le_refl _) hcalled).mpr ?_
  exact ⟨⟨2000000, by decide⟩, rfl, .inr (.inl (by decide))⟩

/-- Two milliseconds pass between any two looks at the clock, and the shutdown is not seen: the
repeat starts more than one further tick. -/
theorem not_heeds_of_slow_clock :
    let clock : Nat → Instant := fun i => ⟨min (2000000 * i) 1000000000,
      Nat.lt_of_le_of_lt (Nat.min_le_right _ _) (by decide)⟩
    let k : Alone Recorder := { sender := {}, inbox := { shuttingDown := true }, reads := 2 }
    compile (fun _ => none) ticker = .ok tickerPlan ∧ tickerRunner.Reached tickerPlan ∧
      (∀ i, (clock i).nanos ≤ (clock (i + 1)).nanos) ∧ tickerTicking.IsCalled k.inbox ∧
      ¬ Heeds Recorder.sender clock 1 tickerTicking tickerRest tickerRunner k := by
  intro clock k
  have hclock : ∀ i, (clock i).nanos ≤ (clock (i + 1)).nanos := by
    intro i
    show min (2000000 * i) 1000000000 ≤ min (2000000 * (i + 1)) 1000000000
    omega
  have hcalled : tickerTicking.IsCalled k.inbox := .inl ⟨rfl, rfl⟩
  refine ⟨compile_ticker, reached_ticker (clock 1) (by decide), hclock, hcalled, ?_⟩
  rw [heeds_iff_inTime hclock 1 rfl rfl (by simp [tickerTicking]) (by decide) hcalled]
  have hfirst : tickerTicking.nextTick.add? tickerTicking.pace.interval =
      some ⟨2000000, by decide⟩ := rfl
  have hsecond : (clock 2).add? tickerTicking.pace.interval = some ⟨5000000, by decide⟩ := by
    decide +kernel
  rintro ⟨next, hnext, hlate⟩
  cases hfirst.symm.trans hnext
  rcases hlate with hover | hlt | ⟨next', hnext', hlate⟩
  · exact nomatch hover
  · exact absurd hlt (by decide)
  · cases hsecond.symm.trans hnext'
    rcases hlate with hover | hlt | hnever
    · exact nomatch hover
    · exact absurd hlt (by decide)
    · exact hnever

end InputRelay.Script
