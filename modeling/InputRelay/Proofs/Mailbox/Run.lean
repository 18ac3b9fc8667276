import InputRelay.Mailbox.Waiting
import InputRelay.Proofs.Runs
import Mathlib.Tactic.ByContra

/-!
# Runs of a mailbox with its callers

What a happening does to the slot and to the stages of the callers (`look_slot`, `stage?_setStage`,
`stage?_awakenAll`), and the induction along a run (`run?_induction`): what each happening keeps, a
row of happenings keeps.
-/

namespace InputRelay.Mailbox.Waiting

/-! ## Runs -/

theorem run?_eq_foldlM (w : Waiting) (hs : List Happening) : w.run? hs = hs.foldlM step? w := by
  induction hs generalizing w with
  | nil => rfl
  | cons h hs ih =>
    rw [run?, List.foldlM_cons]
    congr 1
    funext v
    exact ih v

theorem run?_cons {w w' : Waiting} {h : Happening} {hs : List Happening} :
    w.run? (h :: hs) = some w' ↔ ∃ v, w.step? h = some v ∧ v.run? hs = some w' := by
  rw [run?, Option.bind_eq_some_iff]

theorem run?_induction {P : Waiting → Prop} {w w' : Waiting} {hs : List Happening}
    (step : ∀ v h v', P v → v.step? h = some v' → P v') (h : w.run? hs = some w') (hw : P w) :
    P w' := by
  rw [run?_eq_foldlM] at h
  exact foldlM_keeps step h hw

/-! ## Stages -/

/-- Where a caller is, if there is such a caller. -/
def stage? (w : Waiting) (caller : Nat) : Option Stage := w.callers[caller]?.map Caller.stage

theorem isAsleep_iff (w : Waiting) (caller : Nat) :
    w.isAsleep caller = true ↔ w.stage? caller = some .asleep := by
  rw [isAsleep, stage?, beq_iff_eq]

theorem stage?_setStage (w : Waiting) (caller j : Nat) (s : Stage) :
    (w.setStage caller s).stage? j = (w.stage? j).map fun t => if caller = j then s else t := by
  unfold stage? setStage
  rw [List.getElem?_modify]
  cases w.callers[j]? with
  | none => rfl
  | some c =>
    by_cases hj : caller = j
    · simp [hj]
    · simp [hj]

/-- Only the caller that arrives is at another place than before. -/
theorem stage?_call {w : Waiting} {timed : Bool} {j : Nat} {s : Stage}
    (hs : ∀ expired, s ≠ .arriving expired) :
    ({ w with callers := w.callers ++ [⟨timed, .arriving false⟩] } : Waiting).stage? j = some s ↔
      w.stage? j = some s := by
  unfold stage?
  rcases Nat.lt_trichotomy j w.callers.length with hj | hj | hj
  · rw [List.getElem?_append_left hj]
  · subst hj
    simpa using fun he => hs false he.symm
  · rw [List.getElem?_eq_none (by rw [List.length_append]; exact hj),
      List.getElem?_eq_none (Nat.le_of_lt hj)]

@[simp] theorem setStage_slot (w : Waiting) (caller : Nat) (s : Stage) :
    (w.setStage caller s).slot = w.slot := rfl

@[simp] theorem setStage_broadcast (w : Waiting) (caller : Nat) (s : Stage) :
    (w.setStage caller s).broadcast = w.broadcast := rfl

theorem awakenAll_slot (cs : List Nat) (w : Waiting) : (cs.foldl awaken w).slot = w.slot := by
  induction cs generalizing w with
  | nil => rfl
  | cons c cs ih => rw [List.foldl_cons, ih, awaken, setStage_slot]

theorem awakenAll_broadcast (cs : List Nat) (w : Waiting) :
    (cs.foldl awaken w).broadcast = w.broadcast := by
  induction cs generalizing w with
  | nil => rfl
  | cons c cs ih => rw [List.foldl_cons, ih, awaken, setStage_broadcast]

theorem stage?_awakenAll (cs : List Nat) (w : Waiting) (j : Nat) :
    (cs.foldl awaken w).stage? j =
      (w.stage? j).map fun t => if j ∈ cs then .woken false else t := by
  induction cs generalizing w with
  | nil => simp
  | cons c cs ih =>
    rw [List.foldl_cons, ih, awaken, stage?_setStage, Option.map_map]
    congr 1
    funext t
    by_cases hc : c = j
    · simp [hc]
    · simp [hc, Ne.symm hc]

theorem mem_sleepers {w : Waiting} {j : Nat} :
    j ∈ (List.range w.callers.length).filter w.isAsleep ↔ w.stage? j = some .asleep := by
  rw [List.mem_filter, isAsleep_iff, List.mem_range, and_iff_right_iff_imp]
  intro h
  by_contra hj
  rw [stage?, List.getElem?_eq_none (Nat.le_of_not_lt hj)] at h
  exact nomatch h

/-! ## The slot -/

theorem look_slot (w : Waiting) (caller : Nat) (expired : Bool) :
    (w.look caller expired).slot = { w.slot with pending := none } := by
  unfold look take?
  by_cases hr : w.slot.isReady = true
  · simp [hr]
  · rw [if_neg hr]
    have hp : w.slot.pending = none := by
      rw [isReady, Bool.or_eq_true, not_or, Bool.not_eq_true, Option.isSome_eq_false_iff,
        Option.isNone_iff_eq_none] at hr
      exact hr.1
    show w.slot = _
    rw [← hp]

/-! ## What a happening does -/

theorem step?_look {w w' : Waiting} {caller : Nat} (h : w.step? (.look caller) = some w') :
    ∃ expired, (w.stage? caller = some (.arriving expired) ∨
      w.stage? caller = some (.woken expired)) ∧ w' = w.look caller expired := by
  simp only [step?] at h
  split at h
  · next expired hs => exact ⟨expired, .inl hs, (Option.some.inj h).symm⟩
  · next expired hs => exact ⟨expired, .inr hs, (Option.some.inj h).symm⟩
  · exact nomatch h

theorem step?_notify {w w' : Waiting} {woken : List Nat}
    (h : w.step? (.notify woken) = some w') :
    0 < w.single ∧ (∀ c ∈ woken, w.stage? c = some .asleep) ∧
      ((∃ j, w.stage? j = some .asleep) → woken ≠ []) ∧
      w' = { woken.foldl awaken w with single := w.single - 1 } := by
  simp only [step?] at h
  split at h
  · next hc =>
    simp only [Bool.and_eq_true, decide_eq_true_eq, List.all_eq_true, List.contains_iff_mem,
      Bool.or_eq_true, List.isEmpty_iff, Bool.not_eq_true', List.isEmpty_eq_false_iff] at hc
    obtain ⟨⟨hsingle, hall⟩, hsome⟩ := hc
    refine ⟨hsingle, fun c hcm => mem_sleepers.mp (hall c hcm), ?_, (Option.some.inj h).symm⟩
    rintro ⟨j, hj⟩
    rcases hsome with hnone | hne
    · exact absurd (mem_sleepers.mpr hj) (hnone ▸ List.not_mem_nil)
    · exact hne
  · exact nomatch h

theorem step?_notifyAll {w w' : Waiting} (h : w.step? .notifyAll = some w') :
    w' = { ((List.range w.callers.length).filter w.isAsleep).foldl awaken w with
      broadcast := w.broadcast - 1 } := by
  simp only [step?] at h
  split at h
  · exact (Option.some.inj h).symm
  · exact nomatch h

theorem step?_wake {w w' : Waiting} {caller : Nat} (h : w.step? (.wake caller) = some w') :
    w.stage? caller = some .asleep ∧ w' = w.awaken caller := by
  simp only [step?] at h
  split at h
  · next hs => exact ⟨(isAsleep_iff w caller).mp hs, (Option.some.inj h).symm⟩
  · exact nomatch h

theorem step?_expire {w w' : Waiting} {caller : Nat} (h : w.step? (.expire caller) = some w') :
    (∃ expired, w.stage? caller = some (.arriving expired) ∧
        w' = w.setStage caller (.arriving true)) ∨
      (∃ s, w.stage? caller = some s ∧ w' = w.setStage caller (.woken true)) := by
  simp only [step?] at h
  split at h
  · next expired hc =>
    exact .inl ⟨expired, by rw [stage?, hc]; rfl, (Option.some.inj h).symm⟩
  · next hc => exact .inr ⟨.asleep, by rw [stage?, hc]; rfl, (Option.some.inj h).symm⟩
  · next expired hc =>
    exact .inr ⟨.woken expired, by rw [stage?, hc]; rfl, (Option.some.inj h).symm⟩
  · exact nomatch h

end InputRelay.Mailbox.Waiting
