import InputRelay.Proofs.Script.Chain
import InputRelay.Proofs.Script.Occurrence
import InputRelay.Script.Compile

/-!
# Groups and files stand for their steps

A group without keys and a step that names a file are ways of writing. `inline?` puts their steps in
their places, at every depth. What it gives holds no such step, and the script compiles to the same
plan, or fails with the same error, as before (`compile_inline`).
-/

namespace InputRelay.Script

/-! ## Steps in the places of groups and files -/

mutual

/-- What a step stands for; `ofFile` says what a file stands for. -/
def WrittenStep.inline? (ofFile : String → Option (List WrittenStep)) :
    WrittenStep → Option (List WrittenStep)
  | .repeating rate limit stop body => do
    let body ← inlineAll? ofFile body
    return [.repeating rate limit stop body]
  | .group none body => inlineAll? ofFile body
  | .group (some on) body => do
    let body ← inlineAll? ofFile body
    return [.group (some on) body]
  | .file path => ofFile path
  | s => some [s]

/-- What steps stand for, one after the other. -/
def inlineAll? (ofFile : String → Option (List WrittenStep)) :
    List WrittenStep → Option (List WrittenStep)
  | [] => some []
  | s :: ss => do
    let first ← s.inline? ofFile
    let rest ← inlineAll? ofFile ss
    return first ++ rest

end

/-- What a file stands for; none if a file is missing or a chain from this one on is longer than
`room`. -/
def inlineFile? (library : Library) (room : Nat) (path : String) : Option (List WrittenStep) :=
  match room with
  | 0 => none
  | room + 1 => (library path).bind (inlineAll? (inlineFile? library room))

/-- The script with the steps of every group without keys, and of every file, in their places. -/
def inline? (library : Library) (steps : List WrittenStep) : Option (List WrittenStep) :=
  inlineAll? (inlineFile? library includeLimit) steps

/-- The step is neither a file nor a group without keys. -/
def WrittenStep.isSpelled : WrittenStep → Bool
  | .group none _ | .file _ => false
  | _ => true

/-- No step is a file or a group without keys, at whatever depth. -/
def IsSpelled (ss : List WrittenStep) : Prop :=
  ∀ above s, Occurs above s ss → s.isSpelled = true

theorem isSpelled_nil : IsSpelled [] := fun _ _ h => absurd h not_occurs_nil

theorem IsSpelled.append {ss ts : List WrittenStep} (hs : IsSpelled ss) (ht : IsSpelled ts) :
    IsSpelled (ss ++ ts) :=
  forall_occurs_append.mpr ⟨hs, ht⟩

theorem isSpelled_singleton {s : WrittenStep} (hs : s.isSpelled = true) (hbody : IsSpelled s.body) :
    IsSpelled [s] :=
  forall_occurs_cons.mpr ⟨⟨hs, hbody⟩, isSpelled_nil⟩

/-! ## Compiling steps one after the other -/

theorem Plan.append_assoc (p q r : Plan) : p ++ q ++ r = p ++ (q ++ r) := by
  show Plan.mk (p.steps ++ q.steps ++ r.steps) (p.triggers ++ q.triggers ++ r.triggers) =
    Plan.mk (p.steps ++ (q.steps ++ r.steps)) (p.triggers ++ (q.triggers ++ r.triggers))
  rw [List.append_assoc, List.append_assoc]

theorem Plan.append_empty (p : Plan) : p ++ {} = p := by
  show Plan.mk (p.steps ++ []) (p.triggers ++ []) = p
  rw [List.append_nil, List.append_nil]

section

variable {ofFile ofFile' : Bool → String → Except Error Plan} {top : Bool}

theorem compileAll_append (ss ts : List WrittenStep) :
    compileAll ofFile top (ss ++ ts) = do
      let first ← compileAll ofFile top ss
      let rest ← compileAll ofFile top ts
      return first ++ rest := by
  induction ss with
  | nil =>
    rw [List.nil_append, compileAll]
    cases compileAll ofFile top ts <;> rfl
  | cons s ss ih =>
    rw [List.cons_append, compileAll, compileAll, ih]
    cases s.compile ofFile top with
    | error e => rfl
    | ok p =>
      cases compileAll ofFile top ss with
      | error e => rfl
      | ok q =>
        cases compileAll ofFile top ts with
        | error e => rfl
        | ok r => exact congrArg Except.ok (Plan.append_assoc p q r).symm

theorem compileAll_singleton (s : WrittenStep) :
    compileAll ofFile top [s] = s.compile ofFile top := by
  rw [compileAll, compileAll]
  cases s.compile ofFile top with
  | error e => rfl
  | ok p => exact congrArg Except.ok p.append_empty

end

/-! ## The same plan, the same error -/

/-- Compiling gives what the steps `ts` give, and these are spelled out. -/
structure Spells (ofFile' : Bool → String → Except Error Plan)
    (compiled : Bool → Except Error Plan) (ts : List WrittenStep) : Prop where
  spelled : IsSpelled ts
  same : ∀ top, compiled top = compileAll ofFile' top ts

section

variable {ofFile ofFile' : Bool → String → Except Error Plan}
  {place : String → Option (List WrittenStep)}

theorem spells_self {s : WrittenStep} (hs : s.isSpelled = true) (hbody : s.body = [])
    (hsame : ∀ top, s.compile ofFile top = s.compile ofFile' top) :
    Spells ofFile' (s.compile ofFile) [s] := by
  refine ⟨isSpelled_singleton hs ?_, fun top => ?_⟩
  · rw [hbody]
    exact isSpelled_nil
  · rw [compileAll_singleton, hsame]

mutual

theorem WrittenStep.spells_inline? (s : WrittenStep)
    (hfiles : ∀ path ∈ s.files, ∃ ts, place path = some ts ∧
      Spells ofFile' (fun top => ofFile top path) ts) :
    ∃ ts, s.inline? place = some ts ∧ Spells ofFile' (fun top => s.compile ofFile top) ts := by
  -- The recursion is on the steps alone. What files stand for is known: they are opened by another.
  cases s with
  | press keys => exact ⟨_, rfl, spells_self rfl rfl fun _ => rfl⟩
  | hold keys => exact ⟨_, rfl, spells_self rfl rfl fun _ => rfl⟩
  | release keys => exact ⟨_, rfl, spells_self rfl rfl fun _ => rfl⟩
  | repeating rate limit stop body =>
    obtain ⟨ts, hts, hbody⟩ := spells_inlineAll? body hfiles
    refine ⟨[.repeating rate limit stop ts], ?_, isSpelled_singleton rfl hbody.spelled, fun top => ?_⟩
    · rw [WrittenStep.inline?, hts]
      rfl
    · rw [compileAll_singleton, WrittenStep.compile, WrittenStep.compile, hbody.same]
  | group on body =>
    obtain ⟨ts, hts, hbody⟩ := spells_inlineAll? body hfiles
    cases on with
    | none => exact ⟨ts, hts, hbody⟩
    | some on =>
      refine ⟨[.group (some on) ts], ?_, isSpelled_singleton rfl hbody.spelled, fun top => ?_⟩
      · rw [WrittenStep.inline?, hts]
        rfl
      · rw [compileAll_singleton, WrittenStep.compile, WrittenStep.compile, hbody.same]
  | file path => exact hfiles path List.mem_cons_self

theorem spells_inlineAll? (ss : List WrittenStep)
    (hfiles : ∀ path ∈ filesOf ss, ∃ ts, place path = some ts ∧
      Spells ofFile' (fun top => ofFile top path) ts) :
    ∃ ts, inlineAll? place ss = some ts ∧
      Spells ofFile' (fun top => compileAll ofFile top ss) ts := by
  cases ss with
  | nil => exact ⟨[], rfl, isSpelled_nil, fun _ => rfl⟩
  | cons s ss =>
    obtain ⟨first, hfirst, hs⟩ :=
      WrittenStep.spells_inline? s fun path h => hfiles path (List.mem_append_left _ h)
    obtain ⟨rest, hrest, hss⟩ :=
      spells_inlineAll? ss fun path h => hfiles path (List.mem_append_right _ h)
    refine ⟨first ++ rest, ?_, hs.spelled.append hss.spelled, fun top => ?_⟩
    · rw [inlineAll?, hfirst, hrest]
      rfl
    · rw [compileAll_append, compileAll, hs.same, hss.same]

end

end

/-! ## Files and whole scripts -/

variable {library : Library} {room : Nat} {opened names : List String} {path : String}

theorem spells_inlineFile? (ofFile' : Bool → String → Except Error Plan)
    (h : Opens library room opened names) (hpath : path ∈ names) :
    ∃ ts, inlineFile? library room path = some ts ∧
      Spells ofFile' (fun top => compileFile library room opened top path) ts := by
  -- The induction is on how many files may still be opened, each with those around it.
  induction room generalizing opened names path with
  | zero =>
    obtain ⟨-, room', -, he, -⟩ := h.inside hpath
    exact nomatch he
  | succ room ih =>
    obtain ⟨hnot, _, steps, he, hsteps, hinside⟩ := h.inside hpath
    cases he
    have hfiles : ∀ p ∈ filesOf steps, ∃ ts, inlineFile? library room p = some ts ∧
        Spells ofFile' (fun top => compileFile library room (path :: opened) top p) ts :=
      fun p hp => ih hinside hp
    obtain ⟨ts, hts, hspells⟩ := spells_inlineAll? steps hfiles
    refine ⟨ts, ?_, hspells.spelled, fun top => ?_⟩
    · rw [inlineFile?, hsteps]
      exact hts
    · rw [← hspells.same, compileFile, hsteps]
      simp [hnot]

/-- **Groups and files stand for their steps.** When every file that a script leads to can be
loaded, and no chain of files comes back to a file or is longer than it may be, putting the steps of
groups and files in their places gives a script that is spelled out. It needs no library, and it
compiles to the same plan, or fails with the same error. -/
theorem compile_inline {steps : List WrittenStep}
    (h : ∀ chain, library.IsChain (filesOf steps) chain →
      chain.Nodup ∧ chain.length ≤ includeLimit ∧ ∀ path ∈ chain, (library path).isSome) :
    ∃ inlined, inline? library steps = some inlined ∧ IsSpelled inlined ∧
      ∀ library', compile library' inlined = compile library steps := by
  have hopens : Opens library includeLimit [] (filesOf steps) := by
    intro chain hchain
    obtain ⟨hnodup, hlength, hloads⟩ := h chain hchain
    exact ⟨hnodup, hlength, fun path hp => ⟨List.not_mem_nil, hloads path hp⟩⟩
  have hspells : ∀ library' : Library, ∃ ts, inline? library steps = some ts ∧
      Spells (compileFile library' includeLimit [])
        (fun top => compileAll (compileFile library includeLimit []) top steps) ts :=
    fun library' => spells_inlineAll? steps fun path hp => spells_inlineFile? _ hopens hp
  obtain ⟨inlined, hinlined, hfirst⟩ := hspells library
  refine ⟨inlined, hinlined, hfirst.spelled, fun library' => ?_⟩
  -- What stands in the places does not depend on the other library.
  obtain ⟨ts, hts, hother⟩ := hspells library'
  cases hinlined.symm.trans hts
  exact (hother.same true).symm

/-- A file stands in a script, in a group, and in a trigger of another file. -/
theorem compile_inline_of_copy :
    let copy : WrittenStep := .press [.name "ctrl", .name "c"]
    let all : List WrittenStep := [.group none [.file "copy.toml"],
      .group (some [.name "f9"]) [.file "copy.toml", .group none [.file "copy.toml"]]]
    let library : Library := fun path =>
      if path = "all.toml" then some all else if path = "copy.toml" then some [copy] else none
    let steps : List WrittenStep := [.file "all.toml", .file "copy.toml"]
    let inlined : List WrittenStep := [copy, .group (some [.name "f9"]) [copy, copy], copy]
    (∀ chain, library.IsChain (filesOf steps) chain →
      chain.Nodup ∧ chain.length ≤ includeLimit ∧ ∀ path ∈ chain, (library path).isSome) ∧
    inline? library steps = some inlined ∧ IsSpelled inlined ∧
      compile (fun _ => none) inlined = compile library steps := by
  intro copy all library steps inlined
  have hchains : ∀ chain, library.IsChain (filesOf steps) chain →
      chain.Nodup ∧ chain.length ≤ includeLimit ∧ ∀ path ∈ chain, (library path).isSome := by
    have hcopy : ∀ chain, library.IsChain (library.namedBy "copy.toml") chain → chain = [] := by
      intro chain hchain
      cases chain with
      | nil => rfl
      | cons path chain => exact absurd hchain.1 List.not_mem_nil
    have hall : ∀ chain, library.IsChain (library.namedBy "all.toml") chain →
        chain = [] ∨ chain = ["copy.toml"] := by
      intro chain hchain
      cases chain with
      | nil => exact .inl rfl
      | cons path chain =>
        have hpath : path = "copy.toml" := by simpa [library, Library.namedBy, all, filesOf,
          WrittenStep.files] using hchain.1
        subst hpath
        rw [hcopy chain hchain.2]
        exact .inr rfl
    intro chain hchain
    cases chain with
    | nil => decide
    | cons path chain =>
      have hpath : path = "all.toml" ∨ path = "copy.toml" := by
        simpa [steps, filesOf, WrittenStep.files] using hchain.1
      rcases hpath with rfl | rfl
      · rcases hall chain hchain.2 with rfl | rfl <;> decide
      · rw [hcopy chain hchain.2]
        decide
  obtain ⟨ts, hts, hspelled, hsame⟩ := compile_inline hchains
  have hinlined : inline? library steps = some inlined := rfl
  cases hinlined.symm.trans hts
  exact ⟨hchains, hinlined, hspelled, hsame _⟩

end InputRelay.Script
