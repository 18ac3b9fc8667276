import InputRelay.Consumer
import InputRelay.Proofs.Exchanges

/-!
# The rounds of a consumer

A consumer takes an event, looks at the count of overwritten events, reports the event, reads the
clipboard and reports its text if the event is bound to that, and then decides whether to go on.
`Round` is what it is told in one such round; `goes_iff` says that a run is a row of rounds and one
of the ways to finish, and `canEnd` that none of its questions leads nowhere.
-/

namespace InputRelay.Consumer

open Move (Goes Ends)

/-- A question of a consumer with its answer. -/
abbrev Exchange := Move.Exchange Ask Answer

/-! ## Rounds -/

/-- What a consumer is told in a round: an event, how many were overwritten, and the text in the
clipboard if it asks for that. -/
structure Round where
  event : InputEvent
  count : UInt64
  text : Option String

namespace Round

/-- The clipboard is read, and its text reported. -/
def quote : Option String → List Exchange
  | none => []
  | some text => [⟨.clipboard, text⟩, ⟨.report (.clipboard text), ()⟩]

/-- The questions of a round with their answers. -/
def exchanges (r : Round) : List Exchange :=
  ⟨.take, r.event⟩ :: ⟨.overwritten, r.count⟩ :: ⟨.report (.input r.event), ()⟩ :: quote r.text

/-- The round is one of a consumer with these bindings: the clipboard is read just if the event is
bound to that. -/
structure Fits (b : Bindings) (r : Round) : Prop where
  not_sentinel : r.event ≠ .sentinel
  quoted_iff : r.text.isSome ↔ some r.event = b.clipboard

end Round

/-- The greater one of two counts. -/
def greater (m n : UInt64) : UInt64 := if m < n then n else m

theorem greater_eq_or (m n : UInt64) : greater m n = m ∨ greater m n = n := by
  unfold greater
  split
  · exact .inr rfl
  · exact .inl rfl

/-- The totals after a round. -/
def Totals.heard (t : Totals) (r : Round) : Totals :=
  { t with events := t.events + 1, dropped := greater t.dropped r.count }

theorem foldl_heard (t : Totals) (rounds : List Round) :
    rounds.foldl Totals.heard t =
      { t with
        events := t.events + rounds.length
        dropped := (rounds.map Round.count).foldl greater t.dropped } := by
  induction rounds generalizing t with
  | nil => rfl
  | cons r rounds ih =>
    rw [List.foldl_cons, ih, Totals.heard, List.length_cons, Nat.add_assoc, Nat.add_comm 1]
    rfl

variable {b : Bindings} {t : Totals} {e : InputEvent} {c c' : Consumer} {xs : List Exchange}
  {r : Round}

/-! ## Moves -/

theorem took_of_ne (h : e ≠ .sentinel) :
    (⟨b, t, .taking⟩ : Consumer).took e =
      ⟨b, { t with events := t.events + 1 }, .counting e⟩ := by
  rw [took, if_neg (by rwa [InputEvent.isSentinel_iff])]

theorem move_taking :
    (⟨b, t, .taking⟩ : Consumer).move =
      .ask .take fun e => (⟨b, t, .taking⟩ : Consumer).took e := rfl

theorem move_counting :
    (⟨b, t, .counting e⟩ : Consumer).move = .ask .overwritten fun n =>
      ⟨b, { t with dropped := greater t.dropped n }, .reporting e⟩ := by
  refine congrArg (Move.ask Ask.overwritten) (funext fun n => ?_)
  unfold greater
  dsimp only
  split <;> rfl

theorem move_reporting :
    (⟨b, t, .reporting e⟩ : Consumer).move = .ask (.report (.input e)) fun _ =>
      ⟨b, t, if some e = b.clipboard then .reading e else .deciding e⟩ := rfl

theorem move_reading :
    (⟨b, t, .reading e⟩ : Consumer).move = .ask .clipboard fun text =>
      ⟨b, t, .quoting e text⟩ := rfl

theorem move_quoting {text : String} :
    (⟨b, t, .quoting e text⟩ : Consumer).move = .ask (.report (.clipboard text)) fun _ =>
      ⟨b, t, .deciding e⟩ := rfl

theorem move_stopping (h : some e = b.stop) :
    (⟨b, t, .deciding e⟩ : Consumer).move = .ask .stop fun _ =>
      ⟨b, { t with stoppedByBinding := true }, .closing⟩ := by
  rw [move]
  exact if_pos h

theorem move_goingOn (h : some e ≠ b.stop) :
    (⟨b, t, .deciding e⟩ : Consumer).move = .quiet ⟨b, t, .taking⟩ := by
  rw [move]
  exact if_neg h

theorem move_closing :
    (⟨b, t, .closing⟩ : Consumer).move = .ask .overwritten fun n =>
      ⟨b, { t with dropped := n }, .ended⟩ := rfl

theorem move_ended : (⟨b, t, .ended⟩ : Consumer).move = .done t := rfl

/-! ## A round -/

/-- A round with all its answers brings the consumer to its decision. -/
theorem goes_round (hfits : r.Fits b) :
    Goes move ⟨b, t, .taking⟩ r.exchanges ⟨b, t.heard r, .deciding r.event⟩ := by
  obtain ⟨e, n, text⟩ := r
  refine .ask move_taking e ?_
  rw [took_of_ne hfits.not_sentinel]
  refine .ask move_counting n (.ask move_reporting () ?_)
  cases text with
  | none =>
    rw [if_neg fun h => nomatch hfits.quoted_iff.mpr h]
    exact .here
  | some text =>
    rw [if_pos (hfits.quoted_iff.mp rfl)]
    exact .ask move_reading text (.ask move_quoting () .here)

/-- The consumer is about to take an event, or has ended. -/
def AtRest (c : Consumer) : Prop := c.phase = .taking ∨ c.phase = .ended

theorem AtRest.ne {phase : Phase} (h : c.AtRest) (htaking : phase ≠ .taking)
    (hended : phase ≠ .ended) : c ≠ ⟨b, t, phase⟩ := by
  rintro rfl
  exact h.elim htaking hended

/-- A consumer that has taken an event goes through a round before it comes to rest. -/
theorem exists_round (hrest : c.AtRest) (he : e ≠ .sentinel)
    (h : Goes move ⟨b, { t with events := t.events + 1 }, .counting e⟩ xs c) :
    ∃ r ys, Round.Fits b r ∧ ⟨.take, e⟩ :: xs = r.exchanges ++ ys ∧
      Goes move ⟨b, t.heard r, .deciding r.event⟩ ys c := by
  obtain ⟨n, xs, rfl, hcounted⟩ := h.of_ask_of_ne move_counting (hrest.ne nofun nofun)
  obtain ⟨⟨⟩, xs, rfl, hreported⟩ := hcounted.of_ask_of_ne move_reporting (hrest.ne nofun nofun)
  by_cases hclipboard : some e = b.clipboard
  · rw [if_pos hclipboard] at hreported
    obtain ⟨text, xs, rfl, hread⟩ := hreported.of_ask_of_ne move_reading (hrest.ne nofun nofun)
    obtain ⟨⟨⟩, xs, rfl, hquoted⟩ := hread.of_ask_of_ne move_quoting (hrest.ne nofun nofun)
    exact ⟨⟨e, n, some text⟩, xs, ⟨he, iff_of_true rfl hclipboard⟩, rfl, hquoted⟩
  · rw [if_neg hclipboard] at hreported
    exact ⟨⟨e, n, none⟩, xs, ⟨he, iff_of_false nofun hclipboard⟩, rfl, hreported⟩

theorem goes_closing (n : UInt64) :
    Goes move ⟨b, t, .closing⟩ [⟨.overwritten, n⟩] ⟨b, { t with dropped := n }, .ended⟩ :=
  .ask move_closing n .here

theorem of_closing (hrest : c.AtRest) (h : Goes move ⟨b, t, .closing⟩ xs c) :
    ∃ n, xs = [⟨.overwritten, n⟩] ∧ c = ⟨b, { t with dropped := n }, .ended⟩ := by
  obtain ⟨n, xs, rfl, hended⟩ := h.of_ask_of_ne move_closing (hrest.ne nofun nofun)
  obtain ⟨rfl, rfl⟩ := hended.of_done move_ended
  exact ⟨n, rfl, rfl⟩

/-- How a run that is about to take an event comes to rest without a round that leads back there. -/
inductive Finish (b : Bindings) (t : Totals) : List Exchange → Consumer → Prop where
  | waits : Finish b t [] ⟨b, t, .taking⟩
  | sentinel (n : UInt64) :
    Finish b t [⟨.take, InputEvent.sentinel⟩, ⟨.overwritten, n⟩]
      ⟨b, { t with dropped := n }, .ended⟩
  | stop {r : Round} (hfits : r.Fits b) (hstop : some r.event = b.stop) (n : UInt64) :
    Finish b t (r.exchanges ++ [⟨.stop, ()⟩, ⟨.overwritten, n⟩])
      ⟨b, { t.heard r with dropped := n, stoppedByBinding := true }, .ended⟩

theorem Finish.goes (h : Finish b t xs c) : Goes move ⟨b, t, .taking⟩ xs c := by
  cases h with
  | waits => exact .here
  | sentinel n => exact .ask move_taking InputEvent.sentinel (goes_closing n)
  | stop hfits hstop n =>
    exact (goes_round hfits).trans (.ask (move_stopping hstop) () (goes_closing n))

/-- A round that leads back to where the next event is taken. -/
structure Round.Passes (b : Bindings) (r : Round) : Prop extends r.Fits b where
  not_stop : some r.event ≠ b.stop

theorem Round.Passes.goes (h : r.Passes b) :
    Goes move ⟨b, t, .taking⟩ r.exchanges ⟨b, t.heard r, .taking⟩ := by
  have hround := (goes_round (t := t) h.toFits).trans (.quiet (move_goingOn h.not_stop) .here)
  rwa [List.append_nil] at hround

/-- What becomes of an event that was taken: the end, or a round that leads back. -/
theorem finish_or_round_of_took (hrest : c.AtRest)
    (h : Goes move ((⟨b, t, .taking⟩ : Consumer).took e) xs c) :
    Finish b t (⟨.take, e⟩ :: xs) c ∨ ∃ r ys, Round.Passes b r ∧
      ⟨.take, e⟩ :: xs = r.exchanges ++ ys ∧ Goes move ⟨b, t.heard r, .taking⟩ ys c := by
  by_cases he : e = .sentinel
  · subst he
    obtain ⟨n, rfl, rfl⟩ := of_closing hrest h
    exact .inl (.sentinel n)
  · rw [took_of_ne he] at h
    obtain ⟨r, ys, hfits, hxs, hdeciding⟩ := exists_round hrest he h
    rw [hxs]
    by_cases hstop : some r.event = b.stop
    · obtain ⟨⟨⟩, ys, rfl, hstopped⟩ :=
        hdeciding.of_ask_of_ne (move_stopping hstop) (hrest.ne nofun nofun)
      obtain ⟨n, rfl, rfl⟩ := of_closing hrest hstopped
      exact .inl (.stop hfits hstop n)
    · have hpassed := hdeciding.of_quiet_of_ne (move_goingOn hstop) (hrest.ne nofun nofun)
      exact .inr ⟨r, ys, ⟨hfits, hstop⟩, rfl, hpassed⟩

/-! ## A run -/

/-- A run that comes to rest makes some rounds and then no more. -/
theorem goes_iff (hrest : c.AtRest) :
    Goes move ⟨b, t, .taking⟩ xs c ↔ ∃ (rounds : List Round) (ys : List Exchange),
      (∀ r ∈ rounds, r.Passes b) ∧ xs = rounds.flatMap Round.exchanges ++ ys ∧
        Finish b (rounds.foldl Totals.heard t) ys c := by
  constructor
  · intro h
    induction hlength : xs.length using Nat.strongRecOn generalizing xs t with
    | ind n ih =>
      cases h with
      | here => exact ⟨[], [], nofun, rfl, .waits⟩
      | quiet hm => exact nomatch move_taking.symm.trans hm
      | ask hm e h =>
        cases move_taking.symm.trans hm
        rcases finish_or_round_of_took hrest h with hfinish | ⟨r, ys, hpasses, hxs, hgoes⟩
        · exact ⟨[], _, nofun, rfl, hfinish⟩
        · rw [hxs] at hlength ⊢
          have hshorter : ys.length < n := by
            rw [← hlength, List.length_append, Round.exchanges, List.length_cons]
            omega
          obtain ⟨rounds, zs, hall, rfl, hfinish⟩ := ih ys.length hshorter hgoes rfl
          refine ⟨r :: rounds, zs, List.forall_mem_cons.mpr ⟨hpasses, hall⟩, ?_, hfinish⟩
          rw [List.flatMap_cons, List.append_assoc]
  · rintro ⟨rounds, ys, hall, rfl, hfinish⟩
    induction rounds generalizing t with
    | nil => exact hfinish.goes
    | cons r rounds ih =>
      obtain ⟨hpasses, hall⟩ := List.forall_mem_cons.mp hall
      rw [List.flatMap_cons, List.append_assoc]
      exact hpasses.goes.trans (ih hall hfinish)

theorem move_eq_done_iff {totals : Totals} :
    c.move = .done totals ↔ c.phase = .ended ∧ c.totals = totals := by
  obtain ⟨b, t, phase⟩ := c
  cases phase with
  | ended => simp [move]
  | deciding e =>
    by_cases hstop : some e = b.stop
    · simp [move_stopping hstop]
    · simp [move_goingOn hstop]
  | _ => simp [move]

theorem Finish.of_taking (hfinish : Finish b t xs c) (hphase : c.phase = .taking) :
    xs = [] ∧ c = ⟨b, t, .taking⟩ := by
  cases hfinish with
  | waits => exact ⟨rfl, rfl⟩
  | sentinel | stop => exact nomatch hphase

/-! ## Runs from the start -/

/-- The totals of a consumer that has made some rounds. -/
def Totals.after (rounds : List Round) : Totals where
  events := rounds.length
  dropped := (rounds.map Round.count).foldl greater 0

theorem foldl_heard_zero (rounds : List Round) :
    rounds.foldl Totals.heard {} = Totals.after rounds := by
  rw [foldl_heard]
  exact congrArg (fun n => (⟨n, _, false⟩ : Totals)) (Nat.zero_add _)

/-- The runs that wait for an event are those of some rounds. -/
theorem goes_taking_iff :
    Goes move { bindings := b } xs c ∧ c.phase = .taking ↔
      ∃ rounds : List Round, (∀ r ∈ rounds, r.Passes b) ∧
        xs = rounds.flatMap Round.exchanges ∧ c = ⟨b, Totals.after rounds, .taking⟩ := by
  constructor
  · rintro ⟨h, hphase⟩
    obtain ⟨rounds, ys, hall, rfl, hfinish⟩ := (goes_iff (.inl hphase)).mp h
    obtain ⟨rfl, rfl⟩ := hfinish.of_taking hphase
    rw [foldl_heard_zero]
    exact ⟨rounds, hall, List.append_nil _, rfl⟩
  · rintro ⟨rounds, hall, rfl, rfl⟩
    have hgoes := (goes_iff (b := b) (t := {}) (.inl rfl)).mpr
      ⟨rounds, [], hall, rfl, Finish.waits⟩
    rw [foldl_heard_zero, List.append_nil] at hgoes
    exact ⟨hgoes, rfl⟩

/-- The runs that end are those of some rounds and the sentinel, or the stop binding. -/
theorem ends_iff {totals : Totals} :
    Ends move { bindings := b } xs totals ↔
      ∃ (rounds : List Round) (n : UInt64), (∀ r ∈ rounds, r.Passes b) ∧
        (xs = rounds.flatMap Round.exchanges ++
            [⟨.take, InputEvent.sentinel⟩, ⟨.overwritten, n⟩] ∧
          totals = ⟨rounds.length, n, false⟩ ∨
        ∃ r : Round, r.Fits b ∧ some r.event = b.stop ∧
          xs = (rounds ++ [r]).flatMap Round.exchanges ++ [⟨.stop, ()⟩, ⟨.overwritten, n⟩] ∧
          totals = ⟨rounds.length + 1, n, true⟩) := by
  constructor
  · rintro ⟨c, h, hdone⟩
    obtain ⟨hphase, rfl⟩ := move_eq_done_iff.mp hdone
    obtain ⟨rounds, ys, hall, rfl, hfinish⟩ := (goes_iff (.inr hphase)).mp h
    rw [foldl_heard_zero] at hfinish
    cases hfinish with
    | waits => exact nomatch hphase
    | sentinel n => exact ⟨rounds, n, hall, .inl ⟨rfl, rfl⟩⟩
    | @stop r hfits hstop n =>
      refine ⟨rounds, n, hall, .inr ⟨r, hfits, hstop, ?_, rfl⟩⟩
      rw [List.flatMap_append, List.flatMap_singleton, List.append_assoc]
  · rintro ⟨rounds, n, hall, ⟨rfl, rfl⟩ | ⟨r, hfits, hstop, rfl, rfl⟩⟩
    · have hgoes := (goes_iff (b := b) (t := {}) (.inr rfl)).mpr
        ⟨rounds, _, hall, rfl, Finish.sentinel n⟩
      rw [foldl_heard_zero] at hgoes
      exact ⟨_, hgoes, move_ended⟩
    · have hgoes := (goes_iff (b := b) (t := {}) (.inr rfl)).mpr
        ⟨rounds, _, hall, rfl, Finish.stop hfits hstop n⟩
      rw [foldl_heard_zero, ← List.append_assoc] at hgoes
      rw [List.flatMap_append, List.flatMap_singleton]
      exact ⟨_, hgoes, move_ended⟩

/-! ## The end -/

/-- The consumer may come to its end. -/
def CanEnd (c : Consumer) : Prop := ∃ xs totals, Ends move c xs totals

theorem CanEnd.of_ask {q : Ask} {resume : Answer q → Consumer} (hm : c.move = .ask q resume)
    (a : Answer q) (h : (resume a).CanEnd) : c.CanEnd := by
  obtain ⟨xs, totals, c', hgoes, hdone⟩ := h
  exact ⟨⟨q, a⟩ :: xs, totals, c', .ask hm a hgoes, hdone⟩

theorem CanEnd.of_quiet {c' : Consumer} (hm : c.move = .quiet c') (h : c'.CanEnd) : c.CanEnd := by
  obtain ⟨xs, totals, c'', hgoes, hdone⟩ := h
  exact ⟨xs, totals, c'', .quiet hm hgoes, hdone⟩

theorem canEnd_closing : (⟨b, t, .closing⟩ : Consumer).CanEnd :=
  ⟨_, _, _, goes_closing 0, move_ended⟩

theorem canEnd_taking : (⟨b, t, .taking⟩ : Consumer).CanEnd :=
  .of_ask move_taking InputEvent.sentinel canEnd_closing

theorem canEnd_deciding : (⟨b, t, .deciding e⟩ : Consumer).CanEnd := by
  by_cases hstop : some e = b.stop
  · exact .of_ask (move_stopping hstop) () canEnd_closing
  · exact .of_quiet (move_goingOn hstop) canEnd_taking

theorem canEnd_quoting {text : String} : (⟨b, t, .quoting e text⟩ : Consumer).CanEnd :=
  .of_ask move_quoting () canEnd_deciding

theorem canEnd_reading : (⟨b, t, .reading e⟩ : Consumer).CanEnd :=
  .of_ask move_reading "" canEnd_quoting

theorem canEnd_reporting : (⟨b, t, .reporting e⟩ : Consumer).CanEnd := by
  refine .of_ask move_reporting () ?_
  split
  · exact canEnd_reading
  · exact canEnd_deciding

/-- Wherever it is, the consumer comes to its end if it is answered. -/
theorem canEnd (c : Consumer) : c.CanEnd := by
  obtain ⟨b, t, phase⟩ := c
  cases phase with
  | taking => exact canEnd_taking
  | counting e => exact .of_ask move_counting (0 : UInt64) canEnd_reporting
  | reporting e => exact canEnd_reporting
  | reading e => exact canEnd_reading
  | quoting e text => exact canEnd_quoting
  | deciding e => exact canEnd_deciding
  | closing => exact canEnd_closing
  | ended => exact ⟨[], t, _, .here, move_ended⟩

/-- Every run is the beginning of one that ends. -/
theorem exists_ends_append (h : Goes move c xs c') :
    ∃ ys totals, Ends move c (xs ++ ys) totals := by
  obtain ⟨ys, totals, c'', hgoes, hdone⟩ := c'.canEnd
  exact ⟨ys, totals, c'', h.trans hgoes, hdone⟩

end InputRelay.Consumer
