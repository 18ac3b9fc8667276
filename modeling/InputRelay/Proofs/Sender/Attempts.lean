import InputRelay.Sender
import Mathlib.Data.List.Basic
import Mathlib.Tactic.Cases

/-!
# How far a list of events is sent

A list of events goes to a sender in order, up to and including the first event that is refused
(`Sender.sendAll_eq_ok_iff`, `Sender.sendAll_eq_error_iff`). What was attempted is read off a sender
that writes down its attempts and is otherwise the same (`Sender.logged`).

A recorder accepts a list if each of its events describes something and there is room for all of
them (`Recorder.accepts_of_roomFor`), so the events before the first that fails one or the other are
recorded, and these only (`Recorder.sendAll_eq`).
-/

namespace InputRelay

namespace Sender

variable {σ : Type} {sender : Sender σ} {e : InputEvent} {es : List InputEvent} {s s₁ s' : σ}
  {err : SendError} {n : Nat}

/-! ## The first refusal -/

/-- The first refusal ends a list of events. -/
theorem sendAll_of_error (es : List InputEvent) (h : sender.send e s = (.error err, s₁)) :
    sender.sendAll (e :: es) s = (.error (0, err), s₁) := by
  rw [sendAll, h]

theorem sendAll_of_ok (es : List InputEvent) (h : sender.send e s = (.ok (), s₁)) :
    (sender.sendAll (e :: es) s).2 = (sender.sendAll es s₁).2 := by
  rw [sendAll, h]
  dsimp only
  split <;> simp only [*]

/-- What every attempt to send keeps, a list of them keeps. -/
theorem sendAll_keeps {P : σ → Prop} (h : ∀ e s, P s → P (sender.send e s).2)
    (es : List InputEvent) (hs : P s) : P (sender.sendAll es s).2 := by
  induction es generalizing s with
  | nil => exact hs
  | cons e es ih =>
    have hsent := h e s hs
    rcases hsend : sender.send e s with ⟨err | _, s₁⟩
    · rw [hsend] at hsent
      rw [sendAll_of_error es hsend]
      exact hsent
    · rw [hsend] at hsent
      rw [sendAll_of_ok es hsend]
      exact ih hsent

/-- The sender sends all these events, one after the other. -/
inductive Accepts (sender : Sender σ) : List InputEvent → σ → σ → Prop where
  | nil {s : σ} : Accepts sender [] s s
  | cons {e : InputEvent} {es : List InputEvent} {s s₁ s' : σ}
      (h : sender.send e s = (.ok (), s₁)) (hs : Accepts sender es s₁ s') :
    Accepts sender (e :: es) s s'

theorem Accepts.sendAll_eq (h : sender.Accepts es s s') :
    sender.sendAll es s = (.ok es.length, s') := by
  induction h with
  | nil => rfl
  | cons h _ ih =>
    rw [sendAll, h]
    dsimp only
    rw [ih]
    rfl

theorem Accepts.sendAll_append (h : sender.Accepts es s s₁)
    (hrefused : sender.send e s₁ = (.error err, s')) (after : List InputEvent) :
    sender.sendAll (es ++ e :: after) s = (.error (es.length, err), s') := by
  induction h with
  | nil => exact sendAll_of_error after hrefused
  | cons h _ ih =>
    rw [List.cons_append, sendAll, h]
    dsimp only
    rw [ih hrefused]
    rfl

/-- Of a list of events all are sent, or those before one that is refused. -/
theorem sendAll_cases (sender : Sender σ) (es : List InputEvent) (s : σ) :
    (∃ s', sender.Accepts es s s') ∨
      ∃ before e after s₁ err s', es = before ++ e :: after ∧ sender.Accepts before s s₁ ∧
        sender.send e s₁ = (.error err, s') := by
  induction es generalizing s with
  | nil => exact .inl ⟨s, .nil⟩
  | cons e es ih =>
    rcases hsend : sender.send e s with ⟨err | _, s₁⟩
    · exact .inr ⟨[], e, es, s, err, s₁, rfl, .nil, hsend⟩
    · rcases ih s₁ with ⟨s', hs⟩ | ⟨before, e', after, s₂, err, s', rfl, hs, hrefused⟩
      · exact .inl ⟨s', .cons hsend hs⟩
      · exact .inr ⟨e :: before, e', after, s₂, err, s', rfl, .cons hsend hs, hrefused⟩

theorem sendAll_eq_ok_iff :
    sender.sendAll es s = (.ok n, s') ↔ n = es.length ∧ sender.Accepts es s s' := by
  constructor
  · intro h
    rcases sender.sendAll_cases es s with
      ⟨s₁, hs⟩ | ⟨before, e, after, s₁, err, s₂, rfl, hs, hrefused⟩
    · obtain ⟨hn, rfl⟩ := Prod.mk.inj (hs.sendAll_eq.symm.trans h)
      exact ⟨(Except.ok.inj hn).symm, hs⟩
    · exact nomatch (hs.sendAll_append hrefused after).symm.trans h
  · rintro ⟨rfl, hs⟩
    exact hs.sendAll_eq

theorem sendAll_eq_error_iff :
    sender.sendAll es s = (.error (n, err), s') ↔
      ∃ e s₁, es[n]? = some e ∧ sender.Accepts (es.take n) s s₁ ∧
        sender.send e s₁ = (.error err, s') := by
  constructor
  · intro h
    rcases sender.sendAll_cases es s with
      ⟨s₁, hs⟩ | ⟨before, e, after, s₁, err, s₂, rfl, hs, hrefused⟩
    · exact nomatch hs.sendAll_eq.symm.trans h
    · cases (hs.sendAll_append hrefused after).symm.trans h
      refine ⟨e, s₁, ?_, ?_, hrefused⟩
      · rw [List.getElem?_append_right (Nat.le_refl _), Nat.sub_self, List.getElem?_cons_zero]
      · rw [List.take_left]
        exact hs
  · rintro ⟨e, s₁, he, hs, hrefused⟩
    obtain ⟨hn, rfl⟩ := List.getElem?_eq_some_iff.mp he
    have hsplit : es.take n ++ es[n] :: es.drop (n + 1) = es := by
      rw [List.getElem_cons_drop, List.take_append_drop]
    have hall := hs.sendAll_append hrefused (es.drop (n + 1))
    rw [hsplit, List.length_take_of_le (Nat.le_of_lt hn)] at hall
    exact hall

end Sender

/-! ## Attempts -/

/-- An event that a sender was given, with what came of it. -/
structure Attempt where
  event : InputEvent
  outcome : Except SendError Unit

namespace Attempt

/-- An event that was sent. -/
def sent (e : InputEvent) : Attempt := ⟨e, .ok ()⟩

/-- An event that was refused. -/
def refused (err : SendError) (e : InputEvent) : Attempt := ⟨e, .error err⟩

/-- The attempts to send a list of events that came to this result: all of them, or those up to and
including the one that was refused. -/
def ofResult (es : List InputEvent) : Except (Nat × SendError) Nat → List Attempt
  | .ok _ => es.map sent
  | .error (n, err) => (es.take n).map sent ++ es[n]?.toList.map (refused err)

end Attempt

namespace Sender

variable {σ : Type} {sender : Sender σ} {e : InputEvent} {es : List InputEvent} {s s' : σ}

/-- The sender that also writes down every attempt. -/
def logged (sender : Sender σ) : Sender (σ × List Attempt) where
  send e k :=
    let (outcome, s) := sender.send e k.1
    (outcome, (s, k.2 ++ [⟨e, outcome⟩]))

theorem send_logged {outcome : Except SendError Unit} (h : sender.send e s = (outcome, s'))
    (log : List Attempt) :
    sender.logged.send e (s, log) = (outcome, (s', log ++ [⟨e, outcome⟩])) := by
  simp only [logged, h]

theorem Accepts.logged (h : sender.Accepts es s s') (log : List Attempt) :
    sender.logged.Accepts es (s, log) (s', log ++ es.map .sent) := by
  induction h generalizing log with
  | nil =>
    rw [List.map_nil, List.append_nil]
    exact .nil
  | cons h _ ih =>
    rw [List.map_cons, List.append_cons]
    exact .cons (send_logged h log) (ih _)

/-- Writing the attempts down changes nothing, and they are those of the result. -/
theorem sendAll_logged (sender : Sender σ) (es : List InputEvent) (s : σ) (log : List Attempt) :
    sender.logged.sendAll es (s, log) =
      ((sender.sendAll es s).1,
        ((sender.sendAll es s).2, log ++ Attempt.ofResult es (sender.sendAll es s).1)) := by
  rcases hall : sender.sendAll es s with ⟨⟨n, err⟩ | n, s'⟩
  · obtain ⟨e, s₁, he, hs, hrefused⟩ := sendAll_eq_error_iff.mp hall
    refine sendAll_eq_error_iff.mpr ⟨e, _, he, hs.logged log, ?_⟩
    rw [send_logged hrefused, Attempt.ofResult, he, List.append_assoc]
    rfl
  · obtain ⟨hn, hs⟩ := sendAll_eq_ok_iff.mp hall
    exact sendAll_eq_ok_iff.mpr ⟨hn, hs.logged log⟩

end Sender

/-! ## Recorders -/

namespace Recorder

variable {r : Recorder} {e : InputEvent} {es : List InputEvent}

/-- Of so many more events, those that there is room for. -/
def roomFor (r : Recorder) (n : Nat) : Nat :=
  match r.limit with
  | some limit => min n (limit - r.recorded.size)
  | none => n

/-- The recorder after it has recorded some events. -/
def record (r : Recorder) (es : List InputEvent) : Recorder :=
  { r with recorded := r.recorded ++ es.toArray }

theorem isFull_iff : r.isFull = true ↔ r.roomFor 1 = 0 := by
  unfold isFull roomFor
  cases r.limit with
  | none => simp
  | some limit =>
    simp only [decide_eq_true_eq]
    omega

theorem send_of_none (h : e.action = .none) :
    r.send e = (.error (.invalidAction .none), r) := by
  rw [send, InputEvent.validate, if_pos h, h]

theorem send_of_isFull (h : e.action ≠ .none) (hfull : r.isFull = true) :
    r.send e = (.error (.platform "mock failure"), r) := by
  rw [send, InputEvent.validate, if_neg h]
  exact if_pos hfull

theorem send_of_not_isFull (h : e.action ≠ .none) (hfull : r.isFull = false) :
    r.send e = (.ok (), { r with recorded := r.recorded.push e }) := by
  rw [send, InputEvent.validate, if_neg h]
  exact if_neg (by rw [hfull]; exact Bool.false_ne_true)

/-- A recorder refuses an event or records it. -/
theorem send_cases (r : Recorder) (e : InputEvent) :
    (∃ err, r.send e = (.error err, r)) ∨
      r.send e = (.ok (), { r with recorded := r.recorded.push e }) := by
  by_cases hnone : e.action = .none
  · exact .inl ⟨_, send_of_none hnone⟩
  · cases hfull : r.isFull with
    | true => exact .inl ⟨_, send_of_isFull hnone hfull⟩
    | false => exact .inr (send_of_not_isFull hnone hfull)

/-- What was recorded takes up its room. -/
theorem roomFor_record (r : Recorder) (es : List InputEvent) (n : Nat) :
    (r.record es).roomFor n = r.roomFor (es.length + n) - es.length := by
  unfold roomFor record
  dsimp only
  split
  · simp only [Array.size_append, List.size_toArray]
    omega
  · omega

theorem roomFor_mono {m n : Nat} (h : m ≤ n) : r.roomFor m ≤ r.roomFor n := by
  unfold roomFor
  split <;> omega

theorem roomFor_of_le {m n : Nat} (h : m ≤ r.roomFor n) : r.roomFor m = m := by
  unfold roomFor at h ⊢
  cases hlimit : r.limit with
  | none => rfl
  | some limit =>
    rw [hlimit] at h
    dsimp only at h ⊢
    omega

theorem record_nil (r : Recorder) : r.record [] = r := by
  simp [record]

theorem record_push (r : Recorder) (e : InputEvent) (es : List InputEvent) :
    { r with recorded := r.recorded.push e }.record es = r.record (e :: es) := by
  simp [record]

/-- Events that describe something are recorded if there is room for all of them. -/
theorem accepts_of_roomFor (hvalid : ∀ e ∈ es, e.action ≠ .none)
    (hroom : r.roomFor es.length = es.length) : sender.Accepts es r (r.record es) := by
  induction es generalizing r with
  | nil =>
    rw [record_nil]
    exact .nil
  | cons e es ih =>
    obtain ⟨he, hes⟩ := List.forall_mem_cons.mp hvalid
    have hone : r.roomFor 1 = 1 := roomFor_of_le (n := (e :: es).length) (by rw [hroom]; simp)
    have hnotFull : r.isFull = false := by
      rw [← Bool.not_eq_true, isFull_iff, hone]
      exact Nat.one_ne_zero
    have hrest : (r.record [e]).roomFor es.length = es.length := by
      rw [roomFor_record, List.length_singleton, Nat.add_comm, ← List.length_cons, hroom]
      rfl
    have hpush : { r with recorded := r.recorded.push e } = r.record [e] := by
      rw [← record_push, record_nil]
    rw [← record_push]
    exact .cons (send_of_not_isFull he hnotFull) (ih hes (hpush ▸ hrest))

/-- The number of events of a list that are recorded: those before the first that describes nothing,
as far as there is room. -/
def reach (r : Recorder) (es : List InputEvent) : Nat :=
  min (es.findIdx fun e => e.action = .none) (r.roomFor es.length)

theorem length_take_reach (r : Recorder) (es : List InputEvent) :
    (es.take (r.reach es)).length = r.reach es := by
  refine List.length_take_of_le (Nat.le_trans (Nat.min_le_left _ _) ?_)
  exact List.findIdx_le_length

theorem accepts_take_reach (r : Recorder) (es : List InputEvent) :
    sender.Accepts (es.take (r.reach es)) r (r.record (es.take (r.reach es))) := by
  have hlen := length_take_reach r es
  refine accepts_of_roomFor (fun e he => ?_) ?_
  · obtain ⟨i, hi, rfl⟩ := List.mem_iff_getElem.mp he
    rw [List.getElem_take]
    have hbefore : i < es.findIdx fun e => e.action = .none := by
      rw [hlen] at hi
      exact Nat.lt_of_lt_of_le hi (Nat.min_le_left _ _)
    simpa using List.not_of_lt_findIdx hbefore
  · rw [hlen]
    exact roomFor_of_le (Nat.min_le_right _ _)

/-- The event at which a recorder stops is refused. -/
theorem send_at_reach (h : es[r.reach es]? = some e) :
    (r.record (es.take (r.reach es))).send e =
      (.error (if e.action = .none then .invalidAction .none else .platform "mock failure"),
        r.record (es.take (r.reach es))) := by
  by_cases hnone : e.action = .none
  · rw [if_pos hnone]
    exact send_of_none hnone
  · rw [if_neg hnone]
    refine send_of_isFull hnone ?_
    obtain ⟨hlt, he⟩ := List.getElem?_eq_some_iff.mp h
    -- The event itself is not the first that describes nothing, so the room has run out.
    have hne : r.reach es ≠ es.findIdx fun e => e.action = .none := by
      intro hsame
      rw [hsame] at hlt
      have hfound := List.findIdx_getElem (w := hlt)
      simp only [decide_eq_true_eq, ← hsame, he] at hfound
      exact hnone hfound
    have hroom : r.reach es = r.roomFor es.length := by
      unfold reach at hne ⊢
      omega
    rw [isFull_iff, roomFor_record, length_take_reach]
    have hmore : r.roomFor (r.reach es + 1) ≤ r.reach es := by
      nth_rewrite 2 [hroom]
      exact roomFor_mono hlt
    omega

/-- A recorder records a list of events up to where it stops. -/
theorem sendAll_eq (r : Recorder) (es : List InputEvent) :
    (sender.sendAll es r).2 = r.record (es.take (r.reach es)) ∧
      (r.reach es = es.length → (sender.sendAll es r).1 = .ok (r.reach es)) ∧
      ∀ e, es[r.reach es]? = some e → (sender.sendAll es r).1 =
        .error (r.reach es,
          if e.action = .none then .invalidAction .none else .platform "mock failure") := by
  have hsent := accepts_take_reach r es
  cases he : es[r.reach es]? with
  | none =>
    have hall : es.take (r.reach es) = es :=
      List.take_of_length_le (List.getElem?_eq_none_iff.mp he)
    rw [hall] at hsent ⊢
    rw [hsent.sendAll_eq]
    exact ⟨rfl, fun hlen => by rw [hlen], nofun⟩
  | some e =>
    rw [Sender.sendAll_eq_error_iff.mpr ⟨e, _, he, hsent, send_at_reach he⟩]
    refine ⟨rfl, fun hlen => ?_, fun e' he' => ?_⟩
    · rw [hlen, List.getElem?_length] at he
      exact nomatch he
    · cases he'
      rfl

end Recorder

/-- **A list of events is sent up to the first refusal.** Of any sender: the result is the number of
all events just if each of them was sent, and a number and a refusal just if that many were sent and
the next one was refused so; the attempts are those of the result, in order, and there is none after
a refusal. A recorder, whatever it has recorded and whatever its limit is, records the events before
the first that describes nothing, as far as there is room; the event at which it stops is refused
for what it is, if it describes nothing, and otherwise for want of room. -/
theorem Sender.sendAll_prefix_exact :
    (∀ (σ : Type) (sender : Sender σ) (es : List InputEvent) (s s' : σ) (log : List Attempt),
      (∀ n, sender.sendAll es s = (.ok n, s') ↔ n = es.length ∧ sender.Accepts es s s') ∧
      (∀ n err, sender.sendAll es s = (.error (n, err), s') ↔
        ∃ e s₁, es[n]? = some e ∧ sender.Accepts (es.take n) s s₁ ∧
          sender.send e s₁ = (.error err, s')) ∧
      sender.logged.sendAll es (s, log) =
        ((sender.sendAll es s).1,
          ((sender.sendAll es s).2, log ++ Attempt.ofResult es (sender.sendAll es s).1))) ∧
    ∀ (r : Recorder) (es : List InputEvent),
      let m := min (es.findIdx fun e => e.action = .none) (r.roomFor es.length)
      (Recorder.sender.sendAll es r).2 = r.record (es.take m) ∧
      (m = es.length → (Recorder.sender.sendAll es r).1 = .ok m) ∧
      ∀ e, es[m]? = some e → (Recorder.sender.sendAll es r).1 =
        .error (m,
          if e.action = .none then .invalidAction .none else .platform "mock failure") := by
  constructor
  · intro σ sender es s s' log
    exact ⟨fun n => sendAll_eq_ok_iff, fun n err => sendAll_eq_error_iff,
      sendAll_logged sender es s log⟩
  · intro r es
    exact r.sendAll_eq es

/-- Room for one more event, and one that describes nothing after it: the recorder stops there for
what the event is. -/
example :
    let r : Recorder := { recorded := #[.keyUp 1], limit := some 2 }
    Recorder.sender.sendAll [.keyDown 2, .sentinel] r =
      (.error (1, .invalidAction .none), r.record [.keyDown 2]) := by
  rfl

end InputRelay
