import Mathlib.Data.List.Basic

/-!
# Runs

A system makes a run by doing one step after the other, each of which may be impossible. What every
step keeps, a run keeps (`foldlM_keeps`), and what only certain steps bring about has been brought
about by one of them (`foldlM_iff_exists`). What the steps of a run show can be collected.
-/

namespace InputRelay

variable {α ε : Type} {step? : α → ε → Option α} {a b : α} {x : ε} {xs : List ε}

theorem foldlM_cons_eq_some :
    (x :: xs).foldlM step? a = some b ↔ ∃ c, step? a x = some c ∧ xs.foldlM step? c = some b := by
  rw [List.foldlM_cons]
  exact Option.bind_eq_some_iff

theorem foldlM_concat_eq_some :
    (xs ++ [x]).foldlM step? a = some b ↔ ∃ c, xs.foldlM step? a = some c ∧ step? c x = some b := by
  rw [List.foldlM_append]
  refine Option.bind_eq_some_iff.trans (exists_congr fun c => and_congr_right fun _ => ?_)
  simp

theorem foldlM_keeps {P : α → Prop} (keep : ∀ a x b, P a → step? a x = some b → P b)
    (h : xs.foldlM step? a = some b) (ha : P a) : P b := by
  induction xs generalizing a with
  | nil => exact Option.some.inj h ▸ ha
  | cons x xs ih =>
    obtain ⟨c, hc, hrest⟩ := foldlM_cons_eq_some.mp h
    exact ih hrest (keep a x c ha hc)

/-- `I` holds all along, and `P` is brought about by just those steps of which `cause` is true. -/
theorem foldlM_iff_exists {I P : α → Prop} {cause : α → ε → Prop}
    (keep : ∀ a x b, I a → step? a x = some b → I b)
    (step : ∀ a x b, I a → step? a x = some b → (P b ↔ P a ∨ cause a x))
    (h : xs.foldlM step? a = some b) (ha : I a) :
    P b ↔ P a ∨ ∃ before x after c,
      xs = before ++ x :: after ∧ before.foldlM step? a = some c ∧ cause c x := by
  induction xs generalizing a with
  | nil =>
    cases Option.some.inj h
    simp
  | cons x xs ih =>
    obtain ⟨d, hd, hrest⟩ := foldlM_cons_eq_some.mp h
    rw [ih hrest (keep a x d ha hd), step a x d ha hd, or_assoc]
    -- Either the first step brings it about or a later one does.
    refine or_congr_right ⟨?_, ?_⟩
    · rintro (hcause | ⟨before, y, after, c, rfl, hc, hcause⟩)
      · exact ⟨[], x, xs, a, rfl, rfl, hcause⟩
      · exact ⟨x :: before, y, after, c, rfl, foldlM_cons_eq_some.mpr ⟨d, hd, hc⟩, hcause⟩
    · rintro ⟨before, y, after, c, hxs, hc, hcause⟩
      cases before with
      | nil =>
        cases hxs
        cases Option.some.inj hc
        exact .inl hcause
      | cons z before =>
        cases hxs
        obtain ⟨d', hd', hc⟩ := foldlM_cons_eq_some.mp hc
        cases hd.symm.trans hd'
        exact .inr ⟨before, y, after, c, rfl, hc, hcause⟩

/-! ## What a run shows -/

variable {γ : Type} {f : α → ε → Option γ}

/-- What the steps of a run show, in order, up to the first step that is impossible. -/
def collected (step? : α → ε → Option α) (f : α → ε → Option γ) : List ε → α → List γ
  | [], _ => []
  | x :: xs, a =>
    (f a x).toList ++
      match step? a x with
      | some b => collected step? f xs b
      | none => []

theorem collected_cons (h : step? a x = some b) :
    collected step? f (x :: xs) a = (f a x).toList ++ collected step? f xs b := by
  rw [collected, h]

theorem collected_append {ys : List ε} (h : xs.foldlM step? a = some b) :
    collected step? f (xs ++ ys) a = collected step? f xs a ++ collected step? f ys b := by
  induction xs generalizing a with
  | nil =>
    cases Option.some.inj h
    rfl
  | cons x xs ih =>
    obtain ⟨c, hc, hrest⟩ := foldlM_cons_eq_some.mp h
    rw [List.cons_append, collected_cons hc, collected_cons hc, ih hrest, List.append_assoc]

end InputRelay
