import InputRelay.Proofs.Mailbox.Run

/-!
# No caller sleeps through an event

Whoever sleeps at a mailbox has found it empty. So as long as a caller sleeps, an event in the slot
came later, and its notification is still due or has woken somebody who has not looked since; and
news of a shutdown came later, and the notification of all is still due. This is the invariant
`Attended`: each happening keeps it (`Attended.step`), and so does a run.

A notification may wake one sleeper or several, sleepers may wake by themselves, and timed callers
give up when they like. Events may be overwritten, and taken by others, before a woken caller looks.
-/

namespace InputRelay.Mailbox.Waiting

/-- Some caller sleeps. -/
def Sleeps (w : Waiting) : Prop := ∃ j, w.stage? j = some .asleep

/-- Some caller was woken and has not looked since. -/
def Rechecks (w : Waiting) : Prop := ∃ j expired, w.stage? j = some (.woken expired)

/-- Some notification is still to be sent. -/
def Notifies (w : Waiting) : Prop := 0 < w.single ∨ 0 < w.broadcast

/-- Sleepers will hear of what there is to be had. -/
structure Attended (w : Waiting) : Prop where
  event : w.slot.pending.isSome = true → w.Sleeps → 0 < w.single ∨ w.Rechecks
  news : w.slot.shuttingDown = true → w.Sleeps → 0 < w.broadcast

/-! ## Sleepers and woken callers after a move -/

theorem sleeps_of_setStage {w : Waiting} {caller : Nat} {s : Stage} (hs : s ≠ .asleep)
    (h : (w.setStage caller s).Sleeps) : w.Sleeps := by
  obtain ⟨j, hj⟩ := h
  rw [stage?_setStage, Option.map_eq_some_iff] at hj
  obtain ⟨t, ht, he⟩ := hj
  by_cases hc : caller = j
  · rw [if_pos hc] at he
    exact absurd he hs
  · rw [if_neg hc] at he
    exact ⟨j, he ▸ ht⟩

theorem rechecks_setStage_woken {w : Waiting} {caller : Nat} {t : Stage} (expired : Bool)
    (h : w.stage? caller = some t) : (w.setStage caller (.woken expired)).Rechecks := by
  refine ⟨caller, expired, ?_⟩
  rw [stage?_setStage, h]
  simp

theorem rechecks_setStage_of_arriving {w : Waiting} {caller : Nat} {x : Bool} (s : Stage)
    (hc : w.stage? caller = some (.arriving x)) (h : w.Rechecks) :
    (w.setStage caller s).Rechecks := by
  obtain ⟨j, expired, hj⟩ := h
  have hne : caller ≠ j := by
    rintro rfl
    rw [hc] at hj
    exact nomatch hj
  refine ⟨j, expired, ?_⟩
  rw [stage?_setStage, hj, Option.map_some, if_neg hne]

theorem sleeps_of_awakenAll {cs : List Nat} {w : Waiting} (h : (cs.foldl awaken w).Sleeps) :
    ∃ j, w.stage? j = some .asleep ∧ j ∉ cs := by
  obtain ⟨j, hj⟩ := h
  rw [stage?_awakenAll, Option.map_eq_some_iff] at hj
  obtain ⟨t, ht, he⟩ := hj
  by_cases hc : j ∈ cs
  · rw [if_pos hc] at he
    exact nomatch he
  · rw [if_neg hc] at he
    exact ⟨j, he ▸ ht, hc⟩

theorem rechecks_awakenAll {cs : List Nat} {w : Waiting} (hne : cs ≠ [])
    (h : ∀ c ∈ cs, w.stage? c = some .asleep) : (cs.foldl awaken w).Rechecks := by
  obtain ⟨c, hc⟩ := List.exists_mem_of_ne_nil cs hne
  refine ⟨c, false, ?_⟩
  rw [stage?_awakenAll, h c hc, Option.map_some, if_pos hc]

/-- A notification of all leaves nobody asleep. -/
theorem not_sleeps_notifyAll {w w' : Waiting} (h : w.step? .notifyAll = some w') : ¬ w'.Sleeps := by
  rw [step?_notifyAll h]
  intro hs
  obtain ⟨j, hj, hn⟩ := sleeps_of_awakenAll (w := w) hs
  exact hn (mem_sleepers.mpr hj)

/-! ## The invariant -/

theorem Attended.of_no_sleeper {w : Waiting} (h : ¬ w.Sleeps) : w.Attended :=
  ⟨fun _ hs => absurd hs h, fun _ hs => absurd hs h⟩

/-- Whoever looks and falls asleep has found nothing; whoever goes away empties the slot. -/
theorem Attended.look {w : Waiting} (h : w.Attended) (caller : Nat) (expired : Bool) :
    (w.look caller expired).Attended := by
  refine ⟨fun hp => ?_, fun hd hs => ?_⟩
  · rw [look_slot] at hp
    exact nomatch hp
  · rw [look_slot] at hd
    unfold Waiting.look at hs ⊢
    have hready : w.slot.take? = some (w.slot.pending.getD .sentinel,
        { w.slot with pending := none }) := by
      rw [take?, if_pos]
      rw [isReady, show w.slot.shuttingDown = true from hd, Bool.or_true]
    rw [hready] at hs ⊢
    exact h.news hd (sleeps_of_setStage (by simp) hs)

theorem Attended.step {w w' : Waiting} {x : Happening} (h : w.Attended)
    (hx : w.step? x = some w') : w'.Attended := by
  cases x with
  | call timed =>
    cases hx
    refine ⟨fun hp hs => ?_, fun hd hs => ?_⟩
    · obtain ⟨j, hj⟩ := hs
      refine (h.event hp ⟨j, (stage?_call (by simp)).mp hj⟩).imp id ?_
      rintro ⟨i, expired, hi⟩
      exact ⟨i, expired, (stage?_call (by simp)).mpr hi⟩
    · obtain ⟨j, hj⟩ := hs
      exact h.news hd ⟨j, (stage?_call (by simp)).mp hj⟩
  | look caller =>
    obtain ⟨expired, -, rfl⟩ := step?_look hx
    exact h.look caller expired
  | deposit e =>
    cases hx
    exact ⟨fun _ _ => .inl (Nat.succ_pos _), h.news⟩
  | tryTake =>
    cases hx
    exact ⟨fun hp => (nomatch hp), h.news⟩
  | shutDown =>
    cases hx
    exact ⟨h.event, fun _ _ => Nat.succ_pos _⟩
  | notify woken =>
    obtain ⟨-, hall, hsome, rfl⟩ := step?_notify hx
    refine ⟨fun _ hs => .inr ?_, fun hd hs => ?_⟩
    · obtain ⟨j, hj, -⟩ := sleeps_of_awakenAll (w := w) hs
      exact rechecks_awakenAll (hsome ⟨j, hj⟩) hall
    · obtain ⟨j, hj, -⟩ := sleeps_of_awakenAll (w := w) hs
      have hb := h.news (awakenAll_slot woken w ▸ hd) ⟨j, hj⟩
      rwa [← awakenAll_broadcast woken w] at hb
  | notifyAll => exact .of_no_sleeper (not_sleeps_notifyAll hx)
  | wake caller =>
    obtain ⟨hc, rfl⟩ := step?_wake hx
    exact ⟨fun _ _ => .inr (rechecks_setStage_woken false hc),
      fun hd hs => h.news hd (sleeps_of_setStage (by simp) hs)⟩
  | expire caller =>
    rcases step?_expire hx with ⟨expired, hc, rfl⟩ | ⟨s, hc, rfl⟩
    · refine ⟨fun hp hs => ?_, fun hd hs => h.news hd (sleeps_of_setStage (by simp) hs)⟩
      exact (h.event hp (sleeps_of_setStage (by simp) hs)).imp id
        (rechecks_setStage_of_arriving _ hc)
    · exact ⟨fun _ _ => .inr (rechecks_setStage_woken true hc),
        fun hd hs => h.news hd (sleeps_of_setStage (by simp) hs)⟩

theorem Attended.run {m : Mailbox} {hs : List Happening} {w : Waiting}
    (h : ({ slot := m } : Waiting).run? hs = some w) : w.Attended :=
  run?_induction (fun _ _ _ hv hx => hv.step hx) h
    (.of_no_sleeper fun ⟨j, hj⟩ => by simp [stage?] at hj)

/-! ## No lost wake-up -/

/-- **No wake-up is lost.** While a caller sleeps at a mailbox with an event or news of a shutdown,
a notification is still to be sent or a woken caller has yet to look again; after a shutdown a
notification of all is still to be sent, and sending it leaves nobody asleep. So once all is quiet,
a caller sleeps only at an empty mailbox that is not shut down. -/
theorem no_lost_wakeUp {m : Mailbox} {hs : List Happening} {w : Waiting}
    (h : ({ slot := m } : Waiting).run? hs = some w) :
    (w.Sleeps → w.slot.isReady = true → w.Notifies ∨ w.Rechecks) ∧
    (w.Sleeps → w.slot.shuttingDown = true →
      0 < w.broadcast ∧ ∃ w', w.step? .notifyAll = some w' ∧ ¬ w'.Sleeps) ∧
    (¬ w.Notifies → ¬ w.Rechecks → w.Sleeps →
      w.slot.pending = none ∧ w.slot.shuttingDown = false) := by
  have hw := Attended.run h
  have ready : w.Sleeps → w.slot.isReady = true → w.Notifies ∨ w.Rechecks := by
    intro hsleep hready
    rcases (Bool.or_eq_true _ _).mp hready with hp | hd
    · exact (hw.event hp hsleep).imp .inl id
    · exact .inl (.inr (hw.news hd hsleep))
  refine ⟨ready, fun hsleep hd => ?_, fun hn hr hsleep => ?_⟩
  · have hb := hw.news hd hsleep
    obtain ⟨w', hw'⟩ : ∃ w', w.step? .notifyAll = some w' := by
      simp [step?, hb]
    exact ⟨hb, w', hw', not_sleeps_notifyAll hw'⟩
  · rw [← take?_eq_none_iff, take?, if_neg]
    intro hready
    exact (ready hsleep hready).elim hn hr

/-- One caller is woken by the first of two deposits and another still sleeps when the mailbox is
shut down. -/
theorem no_lost_wakeUp_two_callers :
    let w : Waiting := ⟨⟨some (.keyUp 65), true, 1⟩, [⟨false, .woken false⟩, ⟨true, .asleep⟩], 1, 1⟩
    ({ slot := {} } : Waiting).run? [.call false, .call true, .look 0, .look 1,
      .deposit (.keyDown 65), .notify [0], .deposit (.keyUp 65), .shutDown] = some w ∧
    (w.Sleeps ∧ w.slot.isReady = true) ∧ (w.Notifies ∨ w.Rechecks) ∧ 0 < w.broadcast := by
  intro w
  have h : ({ slot := {} } : Waiting).run? [.call false, .call true, .look 0, .look 1,
      .deposit (.keyDown 65), .notify [0], .deposit (.keyUp 65), .shutDown] = some w := by decide
  have hs : w.Sleeps := ⟨1, rfl⟩
  obtain ⟨hready, hdown, -⟩ := no_lost_wakeUp h
  exact ⟨h, ⟨hs, rfl⟩, hready hs rfl, (hdown hs rfl).1⟩

end InputRelay.Mailbox.Waiting
