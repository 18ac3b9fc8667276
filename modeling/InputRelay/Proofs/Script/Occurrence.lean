import InputRelay.Script.Written

/-!
# Steps within steps

Repeats and groups have steps inside them. `Occurs above s ss` says where a step stands: somewhere
in `ss`, inside the steps `above` and nothing else. What is said of all steps at every depth is a
statement about all occurrences (`forall_occurs_cons` takes it apart).
-/

namespace InputRelay.Script

/-- The steps inside a step. -/
def WrittenStep.body : WrittenStep → List WrittenStep
  | .repeating _ _ _ body | .group _ body => body
  | _ => []

/-- The step stands in the steps, at some depth, inside the steps `above`, the outermost first. -/
def Occurs : List WrittenStep → WrittenStep → List WrittenStep → Prop
  | [], s, ss => s ∈ ss
  | t :: above, s, ss => t ∈ ss ∧ Occurs above s t.body

variable {above : List WrittenStep} {s t : WrittenStep} {ss ts : List WrittenStep}

@[simp] theorem not_occurs_nil : ¬ Occurs above s [] := by
  cases above <;> simp [Occurs]

theorem occurs_append : Occurs above s (ss ++ ts) ↔ Occurs above s ss ∨ Occurs above s ts := by
  cases above with
  | nil => exact List.mem_append
  | cons t above => simp only [Occurs, List.mem_append, or_and_right]

theorem occurs_cons : Occurs above s (t :: ss) ↔ Occurs above s [t] ∨ Occurs above s ss := by
  rw [← List.singleton_append]
  exact occurs_append

theorem occurs_singleton :
    Occurs above s [t] ↔
      above = [] ∧ s = t ∨ ∃ above', above = t :: above' ∧ Occurs above' s t.body := by
  cases above with
  | nil => simp [Occurs]
  | cons u above' =>
    simp only [Occurs, List.mem_singleton, reduceCtorEq, false_and, List.cons.injEq, false_or]
    constructor
    · rintro ⟨rfl, hs⟩
      exact ⟨above', ⟨rfl, rfl⟩, hs⟩
    · rintro ⟨_, ⟨rfl, rfl⟩, hs⟩
      exact ⟨rfl, hs⟩

theorem forall_occurs_append {P : List WrittenStep → WrittenStep → Prop} :
    (∀ above s, Occurs above s (ss ++ ts) → P above s) ↔
      (∀ above s, Occurs above s ss → P above s) ∧ ∀ above s, Occurs above s ts → P above s := by
  simp only [occurs_append, or_imp, forall_and]

/-- Of all occurrences, the first step is one, others are inside it, and the rest after it. -/
theorem forall_occurs_cons {P : List WrittenStep → WrittenStep → Prop} :
    (∀ above s, Occurs above s (t :: ss) → P above s) ↔
      (P [] t ∧ ∀ above s, Occurs above s t.body → P (t :: above) s) ∧
        ∀ above s, Occurs above s ss → P above s := by
  constructor
  · intro h
    have hfirst : ∀ above s, Occurs above s [t] → P above s :=
      fun above s hs => h above s (occurs_cons.mpr (.inl hs))
    refine ⟨⟨hfirst [] t ?_, fun above s hs => hfirst (t :: above) s ?_⟩, fun above s hs => ?_⟩
    · exact occurs_singleton.mpr (.inl ⟨rfl, rfl⟩)
    · exact occurs_singleton.mpr (.inr ⟨above, rfl, hs⟩)
    · exact h above s (occurs_cons.mpr (.inr hs))
  · rintro ⟨⟨hhere, hinside⟩, hrest⟩ above s hs
    rcases occurs_cons.mp hs with hs | hs
    · rcases occurs_singleton.mp hs with ⟨rfl, rfl⟩ | ⟨above', rfl, hinner⟩
      · exact hhere
      · exact hinside above' s hinner
    · exact hrest above s hs

theorem exists_occurs_cons {Q : WrittenStep → Prop} :
    (∃ above s, Occurs above s (t :: ss) ∧ Q s) ↔
      (Q t ∨ ∃ above s, Occurs above s t.body ∧ Q s) ∨ ∃ above s, Occurs above s ss ∧ Q s := by
  constructor
  · rintro ⟨above, s, hs, hq⟩
    rcases occurs_cons.mp hs with hs | hs
    · rcases occurs_singleton.mp hs with ⟨rfl, rfl⟩ | ⟨above', rfl, hinner⟩
      · exact .inl (.inl hq)
      · exact .inl (.inr ⟨above', s, hinner, hq⟩)
    · exact .inr ⟨above, s, hs, hq⟩
  · rintro ((hq | ⟨above, s, hs, hq⟩) | ⟨above, s, hs, hq⟩)
    · exact ⟨[], t, occurs_cons.mpr (.inl (occurs_singleton.mpr (.inl ⟨rfl, rfl⟩))), hq⟩
    · exact ⟨t :: above, s,
        occurs_cons.mpr (.inl (occurs_singleton.mpr (.inr ⟨above, rfl, hs⟩))), hq⟩
    · exact ⟨above, s, occurs_cons.mpr (.inr hs), hq⟩

end InputRelay.Script
