import InputRelay.Proofs.Key.Grammar

/-!
# Names with a direction

A direction after a bare name means the press, or the release of the same key or button; after a
name that has a direction already, or that is not read, it makes a name that is not known
(`parse_append_direction`). That is a fact about normal forms (`names_append_iff`), and a direction
after a text that is not blank comes after its normal form (`normalForm_append`).
-/

namespace InputRelay

/-! ## Releases -/

/-- The first action is the release of what the second one presses. -/
inductive Action.Releases : Action → Action → Prop where
  | key : Releases .keyUp .keyDown
  | leftButton : Releases .leftMouseUp .leftMouseDown
  | rightButton : Releases .rightMouseUp .rightMouseDown

theorem Action.Releases.ne {a b : Action} (h : a.Releases b) : a ≠ b := by
  cases h <;> exact nofun

namespace Key

variable {name : List Char} {m : Meaning} {e : InputEvent} {d : Direction}

theorem Names.releases (h : Names name ⟨e, false⟩) : e.released.action.Releases e.action := by
  generalize hm : (⟨e, false⟩ : Meaning) = m at h
  cases h with
  | button h =>
    cases h with
    | leftClick =>
      cases hm
      exact .leftButton
    | rightClick =>
      cases hm
      exact .rightButton
    | _ => exact nomatch congrArg Meaning.directed hm
  | key =>
    cases hm
    exact .key
  | directed => exact nomatch congrArg Meaning.directed hm

/-! ## A direction after a name -/

/-- A direction is given to bare names only. -/
theorem names_append_iff :
    Names (name ++ d.suffix) m ↔ ∃ e, Names name ⟨e, false⟩ ∧ m = ⟨d.turn e, true⟩ := by
  constructor
  · intro h
    generalize htext : name ++ d.suffix = text at h
    cases h with
    | button h =>
      rw [← htext] at h
      obtain ⟨e, he, hm⟩ := isButton_append_iff.mp h
      exact ⟨e, .button he, hm⟩
    | key h =>
      rw [← htext] at h
      exact absurd h not_isKey_append
    | directed h =>
      obtain ⟨rfl, rfl⟩ := append_suffix_inj htext
      exact ⟨_, .key h, by rw [d.turn_press]⟩
  · rintro ⟨e, h, rfl⟩
    generalize hm : (⟨e, false⟩ : Meaning) = bare at h
    cases h with
    | button h =>
      subst hm
      exact .button (isButton_append_iff.mpr ⟨e, h, rfl⟩)
    | key h =>
      cases hm
      rw [d.turn_press]
      exact .directed h d
    | directed => exact nomatch congrArg Meaning.directed hm

/-- A direction after a text is one word more. -/
theorem normalForm_append {text tail : String} (h : normalForm text ≠ [])
    (htail : tail.toList = d.suffix) : normalForm (text ++ tail) = normalForm text ++ d.suffix := by
  obtain ⟨word, hsuffix, hne, hall, hlower⟩ : ∃ word, d.suffix = ' ' :: word ∧ word ≠ [] ∧
      (word.all fun c => !Text.isBlank c) = true ∧ Text.lower word = word := by
    cases d with
    | down => exact ⟨"down".toList, by decide⟩
    | up => exact ⟨"up".toList, by decide⟩
  have hword : ∀ c ∈ word, Text.isBlank c = false := by simpa using hall
  have hwords : Text.words text.toList ≠ [] := by
    intro hnil
    rw [normalForm, hnil] at h
    exact h rfl
  have htext : Text.words (text ++ tail).toList = Text.words text.toList ++ [word] := by
    rw [String.toList_append, htail, hsuffix, Text.words_append_cons (by decide),
      Text.words_of_not_blank hne hword]
  rw [normalForm, htext, Text.joined_append hwords (List.cons_ne_nil _ _), Text.lower,
    List.map_append, hsuffix]
  exact congrArg (_ ++ ' ' :: ·) hlower

theorem parse_append {text tail : String} (h : normalForm text ≠ [])
    (htail : tail.toList = d.suffix) :
    (∀ e, parse text = .ok ⟨e, false⟩ → parse (text ++ tail) = .ok ⟨d.turn e, true⟩) ∧
      ((∀ e, parse text ≠ .ok ⟨e, false⟩) → parse (text ++ tail) =
        .error (.unknown (String.ofList (Text.trim (text ++ tail).toList)))) := by
  have happend := normalForm_append h htail
  constructor
  · intro e he
    rw [parse_eq_ok_iff, happend, names_append_iff]
    exact ⟨e, parse_eq_ok_iff.mp he, rfl⟩
  · intro hnone
    refine parse_of_not_names ?_ ?_
    · rw [happend]
      exact List.append_ne_nil_of_left_ne_nil h _
    · intro m hm
      rw [happend] at hm
      obtain ⟨e, he, -⟩ := names_append_iff.mp hm
      exact hnone e (parse_of_names he)

/-- **A direction goes with a bare name, and with no other.** Let a text be not blank. If it is read
as a bare name, then with ` down` after it it means the same press, and with ` up` the release of
the same key or button. If it is read as a name with a direction, or not at all, then neither is
known. -/
theorem parse_append_direction (text : String) (h : ∃ c ∈ text.toList, Text.isBlank c = false) :
    (∀ e, parse text = .ok ⟨e, false⟩ →
      parse (text ++ " down") = .ok ⟨e, true⟩ ∧ parse (text ++ " up") = .ok ⟨e.released, true⟩ ∧
        e.released.code = e.code ∧ e.released.action.Releases e.action ∧ e.released ≠ e) ∧
      ((∃ e, parse text = .ok ⟨e, true⟩) ∨ (∃ refusal, parse text = .error refusal) →
        parse (text ++ " down") =
          .error (.unknown (String.ofList (Text.trim (text ++ " down").toList))) ∧
        parse (text ++ " up") =
          .error (.unknown (String.ofList (Text.trim (text ++ " up").toList)))) := by
  have hne : normalForm text ≠ [] := by
    rw [ne_eq, normalForm_eq_nil_iff]
    obtain ⟨c, hc, hblank⟩ := h
    exact fun hall => Bool.false_ne_true (hblank.symm.trans (hall c hc))
  have hdownTail : " down".toList = Direction.down.suffix := rfl
  have hupTail : " up".toList = Direction.up.suffix := rfl
  have hdown := parse_append hne hdownTail
  have hup := parse_append hne hupTail
  constructor
  · intro e he
    have hreleases := (parse_eq_ok_iff.mp he).releases
    refine ⟨hdown.1 e he, hup.1 e he, rfl, hreleases, fun hsame => ?_⟩
    exact hreleases.ne (congrArg InputEvent.action hsame)
  · intro hother
    have hnone (e : InputEvent) : parse text ≠ .ok ⟨e, false⟩ := by
      intro he
      rcases hother with ⟨e', he'⟩ | ⟨refusal, hrefusal⟩
      · exact nomatch he.symm.trans he'
      · exact nomatch he.symm.trans hrefusal
    exact ⟨hdown.2 hnone, hup.2 hnone⟩

/-- The key `up` is released by `up up`; `up up up` is nothing. -/
theorem parse_append_direction_of_up :
    parse " UP" = .ok ⟨.keyDown 0x26, false⟩ ∧ parse " UP up" = .ok ⟨.keyUp 0x26, true⟩ ∧
      parse " UP up up" = .error (.unknown "UP up up") := by
  have hbare : parse " UP" = .ok ⟨.keyDown 0x26, false⟩ := by decide +kernel
  have hup := ((parse_append_direction " UP" ⟨'U', by decide, rfl⟩).1 _ hbare).2.1
  have hmore := ((parse_append_direction " UP up" ⟨'U', by decide, rfl⟩).2 (.inl ⟨_, hup⟩)).2
  exact ⟨hbare, hup, hmore⟩

end Key

end InputRelay
