import InputRelay.Bridge.Pump
import InputRelay.Proofs.Consumer.Rounds
import Mathlib.Algebra.Group.Nat.Defs

/-!
# The transcript of a consumer

What a consumer at a bridge asks, reports and counts, while others put events into the mailbox of
the bridge, take them and shut it down as they like (`Serves`). Its transcript is a row of rounds
that ends with the sentinel or with the stop binding, whoever answers it; and at a bridge the number
of dropped events that it has counted never goes down (`reports_and_totals`).
-/

namespace InputRelay.Mailbox

/-- What anybody can make of a mailbox in one step, and how many events are lost by it. -/
inductive Becomes : Mailbox → Nat → Mailbox → Prop where
  | stays {m : Mailbox} : Becomes m 0 m
  | deposit {m : Mailbox} (e : InputEvent) : Becomes m m.pending.toList.length (m.deposit e)
  | take {m : Mailbox} : Becomes m 0 { m with pending := none }
  | shutDown {m : Mailbox} : Becomes m 0 m.shutDown

theorem Becomes.overwritten_eq {m m' : Mailbox} {n : Nat} (h : m.Becomes n m')
    (hsmall : m.overwritten.toNat + n < 2 ^ 64) :
    m'.overwritten.toNat = m.overwritten.toNat + n := by
  cases h with
  | stays | take | shutDown => rfl
  | deposit e =>
    cases hpending : m.pending with
    | none => simp [Mailbox.deposit, hpending]
    | some e =>
      rw [hpending] at hsmall
      have hsmall : m.overwritten.toNat + 1 < 2 ^ 64 := hsmall
      simp only [Mailbox.deposit, hpending, Option.isSome_some, if_true, UInt64.toNat_add]
      exact Nat.mod_eq_of_lt hsmall

end InputRelay.Mailbox

namespace InputRelay.Consumer

open Move (Goes Ends)

variable {b : Bindings} {xs : List Exchange}

/-! ## What is counted -/

/-- The exchange is a call that reports an event. -/
def isInput (x : Exchange) : Bool :=
  match x.ask with
  | .report (.input _) => true
  | _ => false

/-- The exchange is a call that stops the bridge. -/
def isStop (x : Exchange) : Bool :=
  match x.ask with
  | .stop => true
  | _ => false

/-- What is counted in every round is counted in a row of them. -/
theorem countP_rounds {p : Exchange → Bool} {n : Nat}
    (h : ∀ r : Round, r.exchanges.countP p = n) (rounds : List Round) :
    (rounds.flatMap Round.exchanges).countP p = rounds.length * n := by
  induction rounds with
  | nil => rw [List.length_nil, Nat.zero_mul]; rfl
  | cons r rounds ih =>
    rw [List.flatMap_cons, List.countP_append, h, ih, List.length_cons, Nat.succ_mul, Nat.add_comm]

theorem countP_isInput (rounds : List Round) :
    (rounds.flatMap Round.exchanges).countP isInput = rounds.length := by
  have hround (r : Round) : r.exchanges.countP isInput = 1 := by
    obtain ⟨e, n, text⟩ := r
    cases text <;> rfl
  rw [countP_rounds hround, Nat.mul_one]

theorem countP_isStop (rounds : List Round) :
    (rounds.flatMap Round.exchanges).countP isStop = 0 := by
  have hround (r : Round) : r.exchanges.countP isStop = 0 := by
    obtain ⟨e, n, text⟩ := r
    cases text <;> rfl
  rw [countP_rounds hround, Nat.mul_zero]

/-- A run that has ended reported as many events as it counts, and stopped the bridge once or not at
all. -/
theorem counts_of_ends {totals : Totals} (h : Ends move { bindings := b } xs totals) :
    totals.events = xs.countP isInput ∧
      xs.countP isStop = if totals.stoppedByBinding then 1 else 0 := by
  obtain ⟨rounds, n, -, ⟨rfl, rfl⟩ | ⟨r, -, -, rfl, rfl⟩⟩ := ends_iff.mp h
  · rw [List.countP_append, List.countP_append, countP_isInput, countP_isStop]
    exact ⟨rfl, rfl⟩
  · rw [List.countP_append, List.countP_append, countP_isInput, countP_isStop, List.length_append]
    exact ⟨rfl, rfl⟩

/-! ## At a bridge -/

variable {σ κ : Type} {control : HostControl σ κ} {bridge bridge' : Bridge σ}
  {c c' : Consumer} {x : Exchange} {lost : Nat}

/-- What the consumer is answered at a bridge, with any text in the clipboard, and what becomes of
the bridge. -/
inductive Answers (control : HostControl σ κ) : Bridge σ → Exchange → Bridge σ → Prop where
  | take {bridge : Bridge σ} {e : InputEvent} {mailbox : Mailbox}
      (h : bridge.mailbox.take? = some (e, mailbox)) :
    Answers control bridge ⟨.take, e⟩ { bridge with mailbox }
  | overwritten {bridge : Bridge σ} :
    Answers control bridge ⟨.overwritten, bridge.mailbox.overwritten⟩ bridge
  | report {bridge : Bridge σ} (report : Report) :
    Answers control bridge ⟨.report report, ()⟩ bridge
  | clipboard {bridge : Bridge σ} (text : String) :
    Answers control bridge ⟨.clipboard, text⟩ bridge
  | stop {bridge : Bridge σ} : Answers control bridge ⟨.stop, ()⟩ (bridge.stop control)

/-- A bridge gives these answers, and between them others do what they like to it and its mailbox.
The number is that of the events that are lost meanwhile. -/
inductive Serves (control : HostControl σ κ) :
    Bridge σ → List Exchange → Nat → Bridge σ → Prop where
  | nothing {bridge : Bridge σ} : Serves control bridge [] 0 bridge
  | others {bridge bridge₁ bridge' : Bridge σ} {xs : List Exchange} {n lost : Nat}
      (h : bridge.mailbox.Becomes n bridge₁.mailbox) (hs : Serves control bridge₁ xs lost bridge') :
    Serves control bridge xs (n + lost) bridge'
  | answers {bridge bridge₁ bridge' : Bridge σ} {x : Exchange} {xs : List Exchange} {lost : Nat}
      (h : Answers control bridge x bridge₁) (hs : Serves control bridge₁ xs lost bridge') :
    Serves control bridge (x :: xs) lost bridge'

theorem Answers.overwritten_eq (h : Answers control bridge x bridge') :
    bridge'.mailbox.overwritten = bridge.mailbox.overwritten := by
  cases h with
  | take h =>
    rw [Mailbox.take?] at h
    split at h
    · cases h
      rfl
    · exact nomatch h
  | stop =>
    rw [Bridge.stop_mailbox]
    rfl
  | overwritten | report | clipboard => rfl

namespace Serves

/-- The count of a mailbox that does not wrap around goes up by what is lost. -/
theorem overwritten_eq (h : Serves control bridge xs lost bridge')
    (hsmall : bridge.mailbox.overwritten.toNat + lost < 2 ^ 64) :
    bridge'.mailbox.overwritten.toNat = bridge.mailbox.overwritten.toNat + lost := by
  induction h with
  | nothing => rfl
  | others h hs ih =>
    have hstep := h.overwritten_eq (by omega)
    rw [ih (by omega), hstep, Nat.add_assoc]
  | answers h hs ih =>
    have hsame := h.overwritten_eq
    rw [ih (by rwa [hsame]), hsame]

theorem of_cons (h : Serves control bridge (x :: xs) lost bridge') :
    ∃ n m bridge₁ bridge₂, Serves control bridge [] n bridge₁ ∧ Answers control bridge₁ x bridge₂ ∧
      Serves control bridge₂ xs m bridge' ∧ lost = n + m := by
  generalize hxs : x :: xs = ys at h
  induction h with
  | nothing => exact nomatch hxs
  | others h hs ih =>
    obtain ⟨n, m, bridge₁, bridge₂, hbefore, hanswers, hafter, rfl⟩ := ih hxs
    exact ⟨_, m, bridge₁, bridge₂, .others h hbefore, hanswers, hafter, (Nat.add_assoc _ _ _).symm⟩
  | answers h hs =>
    cases hxs
    exact ⟨0, _, _, _, .nothing, h, hs, (Nat.zero_add _).symm⟩

/-- A count that was given last is the count of the mailbox at that time. -/
theorem of_concat {n : UInt64}
    (h : Serves control bridge (xs ++ [⟨.overwritten, n⟩]) lost bridge') :
    ∃ k bridge₁, k ≤ lost ∧ Serves control bridge xs k bridge₁ ∧
      n = bridge₁.mailbox.overwritten := by
  generalize hys : xs ++ [⟨.overwritten, n⟩] = ys at h
  induction h generalizing xs with
  | nothing => simp at hys
  | others h hs ih =>
    obtain ⟨k, bridge₁, hk, hbefore, hn⟩ := ih hys
    exact ⟨_, bridge₁, Nat.add_le_add_left hk _, .others h hbefore, hn⟩
  | @answers bridge _ _ x zs _ h hs ih =>
    cases xs with
    | nil =>
      cases hys
      cases h
      exact ⟨0, bridge, Nat.zero_le _, .nothing, rfl⟩
    | cons y xs =>
      obtain ⟨rfl, htail⟩ := List.cons_eq_cons.mp hys
      obtain ⟨k, bridge₁, hk, hbefore, hn⟩ := ih htail
      exact ⟨k, bridge₁, hk, .answers h hbefore, hn⟩

end Serves

theorem dropped_of_quiet (hm : c.move = .quiet c') : c'.totals = c.totals := by
  obtain ⟨b, t, phase⟩ := c
  cases phase with
  | deciding e =>
    by_cases hstop : some e = b.stop
    · exact nomatch (move_stopping hstop).symm.trans hm
    · cases (move_goingOn hstop).symm.trans hm
      rfl
  | _ => exact nomatch hm

/-- The count of dropped events is kept, or is the answer to the question for it. -/
theorem dropped_of_ask {q : Ask} {resume : Answer q → Consumer} (hm : c.move = .ask q resume)
    (a : Answer q) :
    (resume a).totals.dropped = c.totals.dropped ∨
      ∃ n, (⟨q, a⟩ : Exchange) = ⟨.overwritten, n⟩ ∧ (resume a).totals.dropped = n := by
  obtain ⟨b, t, phase⟩ := c
  cases phase with
  | taking =>
    cases hm
    left
    change (took _ _).totals.dropped = _
    unfold took
    split <;> rfl
  | counting e =>
    cases move_counting.symm.trans hm
    exact (greater_eq_or t.dropped a).imp_right fun h => ⟨a, rfl, h⟩
  | deciding e =>
    by_cases hstop : some e = b.stop
    · cases (move_stopping hstop).symm.trans hm
      exact .inl rfl
    · exact nomatch (move_goingOn hstop).symm.trans hm
  | closing =>
    cases hm
    exact .inr ⟨a, rfl, rfl⟩
  | ended => exact nomatch hm
  | reporting e | reading e | quoting e text =>
    cases hm
    exact .inl rfl

/-- The count of dropped events never goes down at a bridge whose count does not wrap around. -/
theorem dropped_le (h : Goes move c xs c') (hs : Serves control bridge xs lost bridge')
    (hsmall : bridge.mailbox.overwritten.toNat + lost < 2 ^ 64)
    (hle : c.totals.dropped ≤ bridge.mailbox.overwritten) :
    c.totals.dropped ≤ c'.totals.dropped ∧ c'.totals.dropped ≤ bridge'.mailbox.overwritten := by
  induction h generalizing bridge lost with
  | here =>
    have hcount := hs.overwritten_eq hsmall
    refine ⟨UInt64.le_refl _, UInt64.le_trans hle ?_⟩
    rw [UInt64.le_iff_toNat_le, hcount]
    exact Nat.le_add_right _ _
  | quiet hm h ih =>
    rw [← dropped_of_quiet hm] at hle ⊢
    exact ih hs hsmall hle
  | @ask c _ q resume _ hm a h ih =>
    obtain ⟨n, m, bridge₁, bridge₂, hbefore, hanswers, hafter, rfl⟩ := hs.of_cons
    have hcount := hbefore.overwritten_eq (by omega)
    have hsame := hanswers.overwritten_eq
    have hmono : bridge.mailbox.overwritten ≤ bridge₂.mailbox.overwritten := by
      rw [UInt64.le_iff_toNat_le, hsame, hcount]
      exact Nat.le_add_right _ _
    have hsmall₂ : bridge₂.mailbox.overwritten.toNat + m < 2 ^ 64 := by
      rw [hsame, hcount]
      omega
    rcases dropped_of_ask hm a with hdropped | ⟨k, hx, hdropped⟩
    · rw [← hdropped] at hle ⊢
      exact ih hafter hsmall₂ (UInt64.le_trans hle hmono)
    · rw [hx] at hanswers
      cases hanswers
      have hread : (resume a).totals.dropped ≤ bridge₁.mailbox.overwritten := by
        rw [hdropped]
        exact UInt64.le_refl _
      obtain ⟨hup, hbound⟩ := ih hafter hsmall₂ hread
      rw [hdropped] at hup
      exact ⟨UInt64.le_trans hle (UInt64.le_trans hmono hup), hbound⟩

/-- The count of dropped events in the end is the count of the mailbox as it was read last. -/
theorem dropped_of_ends {totals : Totals} (h : Ends move { bindings := b } xs totals)
    (hs : Serves control bridge xs lost bridge') :
    ∃ ys n bridge₁, n ≤ lost ∧ xs = ys ++ [⟨.overwritten, totals.dropped⟩] ∧
      Serves control bridge ys n bridge₁ ∧ totals.dropped = bridge₁.mailbox.overwritten := by
  have hlast : ∃ ys, xs = ys ++ [⟨.overwritten, totals.dropped⟩] := by
    obtain ⟨rounds, n, -, ⟨rfl, rfl⟩ | ⟨r, -, -, rfl, rfl⟩⟩ := ends_iff.mp h
    · refine ⟨rounds.flatMap Round.exchanges ++ [⟨.take, InputEvent.sentinel⟩], ?_⟩
      rw [List.append_assoc]
      rfl
    · refine ⟨(rounds ++ [r]).flatMap Round.exchanges ++ [⟨.stop, ()⟩], ?_⟩
      rw [List.append_assoc]
      rfl
  obtain ⟨ys, rfl⟩ := hlast
  obtain ⟨n, bridge₁, hn, hbefore, hcount⟩ := hs.of_concat
  exact ⟨ys, n, bridge₁, hn, rfl, hbefore, hcount⟩

/-- **What a consumer reports and counts.** Whoever answers it, it is about to take an event just
after a row of rounds that lead back there, with the totals of these. It ends just after such a row
and the sentinel, which it does not report, or after such a row, a round with the stop binding and
one call that stops the bridge; and every run is the beginning of one that ends. In the end it has
counted the events that it reported. At a bridge, whatever others do there, the count of dropped
events never goes down as long as the count of the mailbox does not wrap around, and in the end it
is that count as it was read last. -/
theorem reports_and_totals (b : Bindings) :
    (∀ xs c, Goes move { bindings := b } xs c ∧ c.phase = .taking ↔
      ∃ rounds : List Round, (∀ r ∈ rounds, r.Passes b) ∧
        xs = rounds.flatMap Round.exchanges ∧
        c = ⟨b, Totals.after rounds, .taking⟩) ∧
    (∀ xs totals, Ends move { bindings := b } xs totals ↔
      ∃ (rounds : List Round) (n : UInt64), (∀ r ∈ rounds, r.Passes b) ∧
        (xs = rounds.flatMap Round.exchanges ++
            [⟨.take, InputEvent.sentinel⟩, ⟨.overwritten, n⟩] ∧
          totals = ⟨rounds.length, n, false⟩ ∨
        ∃ r : Round, r.Fits b ∧ some r.event = b.stop ∧
          xs = (rounds ++ [r]).flatMap Round.exchanges ++ [⟨.stop, ()⟩, ⟨.overwritten, n⟩] ∧
          totals = ⟨rounds.length + 1, n, true⟩)) ∧
    (∀ xs c, Goes move { bindings := b } xs c →
      ∃ ys totals, Ends move { bindings := b } (xs ++ ys) totals) ∧
    (∀ xs totals, Ends move { bindings := b } xs totals →
      totals.events = xs.countP isInput ∧
      xs.countP isStop = if totals.stoppedByBinding then 1 else 0) ∧
    ∀ {σ κ : Type} (control : HostControl σ κ) (bridge : Bridge σ),
      (∀ xs c n bridge₁ ys c' m bridge₂,
        Goes move { bindings := b } xs c → Serves control bridge xs n bridge₁ →
        Goes move c ys c' → Serves control bridge₁ ys m bridge₂ →
        bridge.mailbox.overwritten.toNat + (n + m) < 2 ^ 64 →
          c.totals.dropped ≤ c'.totals.dropped ∧
          c'.totals.dropped ≤ bridge₂.mailbox.overwritten) ∧
      ∀ xs totals lost bridge', Ends move { bindings := b } xs totals →
        Serves control bridge xs lost bridge' →
          ∃ ys n bridge₁, n ≤ lost ∧ xs = ys ++ [⟨.overwritten, totals.dropped⟩] ∧
            Serves control bridge ys n bridge₁ ∧
            totals.dropped = bridge₁.mailbox.overwritten := by
  refine ⟨fun xs c => goes_taking_iff, fun xs totals => ends_iff,
    fun xs c h => exists_ends_append h, fun xs totals h => counts_of_ends h,
    fun control bridge => ⟨?_, ?_⟩⟩
  · intro xs c n bridge₁ ys c' m bridge₂ hc hbefore hc' hafter hsmall
    have hcount := hbefore.overwritten_eq (by omega)
    have hzero : (0 : UInt64) ≤ bridge.mailbox.overwritten := by
      rw [UInt64.le_iff_toNat_le]
      exact Nat.zero_le _
    have hbound := (dropped_le hc hbefore (by omega) hzero).2
    exact dropped_le hc' hafter (by omega) hbound
  · intro xs totals lost bridge' h hs
    exact dropped_of_ends h hs

/-- Escape is bound to the stop and to the clipboard. -/
def escaping : Bindings where
  stop := some (.keyDown 0x1B)
  clipboard := some (.keyDown 0x1B)

/-- A key, and then escape, before which an event was overwritten. -/
def escapeExchanges : List Exchange :=
  ([⟨.keyDown 0x41, 0, none⟩, ⟨.keyDown 0x1B, 1, some "copied"⟩] : List Round).flatMap
    Round.exchanges ++ [⟨.stop, ()⟩, ⟨.overwritten, (1 : UInt64)⟩]

theorem Serves.of_deposit (e : InputEvent)
    (h : Serves control { bridge with mailbox := bridge.mailbox.deposit e } xs lost bridge') :
    Serves control bridge xs (bridge.mailbox.pending.toList.length + lost) bridge' :=
  .others (.deposit e) h

/-- The bridge after that. -/
def escapedBridge : HostBridge where
  host := {}
  state := .stopped
  mailbox := { shuttingDown := true, overwritten := 1 }

theorem reports_and_totals_of_escape :
    Serves (HostBridge.control none) { host := {} } escapeExchanges 1 escapedBridge ∧
      Ends move { bindings := escaping } escapeExchanges ⟨2, 1, true⟩ ∧
      escapeExchanges.countP isStop = 1 ∧
      ∃ c, Goes move { bindings := escaping } escapeExchanges c ∧
        c.totals.dropped ≤ escapedBridge.mailbox.overwritten := by
  have hserves : Serves (HostBridge.control none) { host := {} } escapeExchanges
      (0 + (0 + (1 + 0))) escapedBridge := by
    refine .of_deposit (.keyDown 0x41) (.answers (.take rfl) (.answers .overwritten
      (.answers (.report _) ?_)))
    refine .of_deposit (.keyDown 0x42) (.of_deposit (.keyDown 0x1B) ?_)
    exact .answers (.take rfl) (.answers .overwritten (.answers (.report _)
      (.answers (.clipboard _) (.answers (.report _) (.answers .stop (.answers .overwritten
        .nothing))))))
  obtain ⟨-, hiff, -, hcounts, hdropped⟩ := reports_and_totals escaping
  have hends : Ends move { bindings := escaping } escapeExchanges ⟨2, 1, true⟩ := by
    refine (hiff _ _).mpr ⟨[⟨.keyDown 0x41, 0, none⟩], 1, ?_,
      .inr ⟨⟨.keyDown 0x1B, 1, some "copied"⟩, ?_, rfl, rfl, rfl⟩⟩
    · intro r hr
      cases List.mem_singleton.mp hr
      exact ⟨⟨by decide, by decide⟩, by decide⟩
    · exact ⟨by decide, by decide⟩
  have ⟨c, hgoes, _⟩ := hends
  have hbound := (hdropped _ _).1 [] _ 0 _ _ c _ _ .here .nothing hgoes hserves (by decide)
  exact ⟨hserves, hends, (hcounts _ _ hends).2, c, hgoes, hbound.2⟩

end InputRelay.Consumer
