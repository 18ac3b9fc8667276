import InputRelay.Proofs.Outcome
import InputRelay.Proofs.Script.Chain
import InputRelay.Script.Compile
import Mathlib.Data.List.Basic

/-!
# One stack of open files

A compiler has one stack of the files that are open. It puts a file on it before it compiles the
steps of the file, and takes the topmost off it afterwards, whether they compile or not.
-/

namespace InputRelay.Script

/-! ## Compiling with a stack -/

/-- What there is to compile. -/
inductive Work where
  | step (s : WrittenStep)
  | steps (ss : List WrittenStep)
  | file (path : String)

/-- The files that the work names. -/
def Work.files : Work → List String
  | .step s => s.files
  | .steps ss => filesOf ss
  | .file path => [path]

/-- The files on the stack leave no room for another, or it is among them. -/
def Refuses (opened : List String) (path : String) : Prop :=
  path ∈ opened ∨ includeLimit ≤ opened.length

/-- Compiling ends with a result and leaves a stack behind. -/
inductive Compiles (library : Library) :
    Bool → Work → List String → Except Error Plan → List String → Prop where
  | press {top : Bool} {keys : List WrittenKey} {opened : List String} :
    Compiles library top (.step (.press keys)) opened
      ((resolveKeys .press keys).map fun ms => sending (pressEvents ms)) opened
  | hold {top : Bool} {keys : List WrittenKey} {opened : List String} :
    Compiles library top (.step (.hold keys)) opened
      ((resolveKeys .hold keys).map fun ms => sending (holdEvents ms)) opened
  | release {top : Bool} {keys : List WrittenKey} {opened : List String} :
    Compiles library top (.step (.release keys)) opened
      ((resolveKeys .release keys).map fun ms => sending (releaseEvents ms)) opened
  | paceless {top : Bool} {rate : String} {limit : Option String} {stop : Option (List WrittenKey)}
      {body : List WrittenStep} {opened : List String} {e : Error}
      (hp : pace rate limit stop = .error e) :
    Compiles library top (.step (.repeating rate limit stop body)) opened (.error e) opened
  | repeating {top : Bool} {rate : String} {limit : Option String}
      {stop : Option (List WrittenKey)} {body : List WrittenStep} {opened opened' : List String}
      {p : Pace} {r : Except Error Plan} (hp : pace rate limit stop = .ok p)
      (h : Compiles library false (.steps body) opened r opened') :
    Compiles library top (.step (.repeating rate limit stop body)) opened
      (r.map fun b => ⟨[.repeating p b.steps], b.triggers⟩) opened'
  | group {top : Bool} {body : List WrittenStep} {opened opened' : List String}
      {r : Except Error Plan} (h : Compiles library top (.steps body) opened r opened') :
    Compiles library top (.step (.group none body)) opened r opened'
  | nested {on : List WrittenKey} {body : List WrittenStep} {opened : List String} :
    Compiles library false (.step (.group (some on) body)) opened (.error .nestedTrigger) opened
  | keyless {on : List WrittenKey} {body : List WrittenStep} {opened : List String} {e : Error}
      (hon : resolveEvents .on on = .error e) :
    Compiles library true (.step (.group (some on) body)) opened (.error e) opened
  | trigger {on : List WrittenKey} {body : List WrittenStep} {opened opened' : List String}
      {es : List InputEvent} {r : Except Error Plan} (hon : resolveEvents .on on = .ok es)
      (h : Compiles library false (.steps body) opened r opened') :
    Compiles library true (.step (.group (some on) body)) opened (r >>= triggered es) opened'
  | file {top : Bool} {path : String} {opened opened' : List String} {r : Except Error Plan}
      (h : Compiles library top (.file path) opened r opened') :
    Compiles library top (.step (.file path)) opened r opened'
  | nil {top : Bool} {opened : List String} :
    Compiles library top (.steps []) opened (.ok {}) opened
  | stops {top : Bool} {s : WrittenStep} {ss : List WrittenStep} {opened opened' : List String}
      {e : Error} (h : Compiles library top (.step s) opened (.error e) opened') :
    Compiles library top (.steps (s :: ss)) opened (.error e) opened'
  | goesOn {top : Bool} {s : WrittenStep} {ss : List WrittenStep}
      {opened opened' opened'' : List String} {p : Plan} {r : Except Error Plan}
      (h : Compiles library top (.step s) opened (.ok p) opened')
      (hs : Compiles library top (.steps ss) opened' r opened'') :
    Compiles library top (.steps (s :: ss)) opened (r.map fun q => p ++ q) opened''
  | refused {top : Bool} {path : String} {opened : List String} (h : Refuses opened path) :
    Compiles library top (.file path) opened (.error (.includeCycle path)) opened
  | missing {top : Bool} {path : String} {opened : List String} (h : ¬ Refuses opened path)
      (hl : library path = none) :
    Compiles library top (.file path) opened (.error (.load path)) opened
  | included {top : Bool} {path : String} {opened opened' : List String} {r : Except Error Plan}
      {steps : List WrittenStep} (h : ¬ Refuses opened path) (hl : library path = some steps)
      (hs : Compiles library top (.steps steps) (path :: opened) r opened') :
    Compiles library top (.file path) opened r opened'.tail

/-! ## Every work ends, as the compiler says -/

section

variable {library : Library} {top : Bool} {w : Work} {opened opened' : List String}
  {r : Except Error Plan}

/-- What compiling the work comes to while the files `opened` are open. -/
def Work.outcome (library : Library) (opened : List String) (top : Bool) :
    Work → Except Error Plan
  | .step s => s.compile (compileFile library (includeLimit - opened.length) opened) top
  | .steps ss => compileAll (compileFile library (includeLimit - opened.length) opened) top ss
  | .file path => compileFile library (includeLimit - opened.length) opened top path

theorem outcome_file_of_refuses {path : String} (h : Refuses opened path) :
    Work.outcome library opened top (.file path) = .error (.includeCycle path) := by
  rw [Work.outcome]
  rcases h with hmem | hlength
  · unfold compileFile
    split
    · rfl
    · rw [if_pos (List.contains_iff_mem.mpr hmem)]
  · rw [Nat.sub_eq_zero_of_le hlength]
    rfl

theorem outcome_file_of_not_refuses {path : String} (h : ¬ Refuses opened path) :
    Work.outcome library opened top (.file path) =
      match library path with
      | none => .error (.load path)
      | some steps => Work.outcome library (path :: opened) top (.steps steps) := by
  obtain ⟨hmem, hlength⟩ := not_or.mp h
  obtain ⟨room, hroom⟩ : ∃ room, includeLimit - opened.length = room + 1 :=
    ⟨includeLimit - opened.length - 1, by omega⟩
  have hinner : includeLimit - (path :: opened).length = room := by
    rw [List.length_cons]
    omega
  have hnot : ¬ opened.contains path = true := fun hc => hmem (List.contains_iff_mem.mp hc)
  simp only [Work.outcome, hinner]
  rw [hroom, compileFile]
  cases library path with
  | none => exact if_neg hnot
  | some steps => exact if_neg hnot

theorem outcome_cons {s : WrittenStep} {ss : List WrittenStep} :
    Work.outcome library opened top (.steps (s :: ss)) = do
      let first ← Work.outcome library opened top (.step s)
      let rest ← Work.outcome library opened top (.steps ss)
      return first ++ rest := by
  simp only [Work.outcome, compileAll]

/-- Whatever the work comes to, it is what the compiler says, and the stack is as it was found. -/
theorem Compiles.eq_outcome (h : Compiles library top w opened r opened') :
    r = w.outcome library opened top ∧ opened' = opened := by
  induction h with
  | press | hold | release | nil => exact ⟨rfl, rfl⟩
  | paceless hp =>
    rw [Work.outcome, WrittenStep.compile, hp]
    exact ⟨rfl, rfl⟩
  | repeating hp h ih =>
    obtain ⟨rfl, rfl⟩ := ih
    rw [Work.outcome, WrittenStep.compile, hp]
    exact ⟨rfl, rfl⟩
  | group h ih => exact ih
  | nested => exact ⟨rfl, rfl⟩
  | keyless hon =>
    rw [Work.outcome, WrittenStep.compile, hon]
    exact ⟨rfl, rfl⟩
  | trigger hon h ih =>
    obtain ⟨rfl, rfl⟩ := ih
    rw [Work.outcome, WrittenStep.compile, hon]
    exact ⟨rfl, rfl⟩
  | file h ih => exact ih
  | stops h ih =>
    obtain ⟨hs, rfl⟩ := ih
    rw [outcome_cons, ← hs]
    exact ⟨rfl, rfl⟩
  | goesOn h hs ih ihs =>
    obtain ⟨hp, rfl⟩ := ih
    obtain ⟨hr, rfl⟩ := ihs
    rw [outcome_cons, ← hp, ← hr]
    exact ⟨rfl, rfl⟩
  | refused h => exact ⟨(outcome_file_of_refuses h).symm, rfl⟩
  | missing h hl =>
    rw [outcome_file_of_not_refuses h, hl]
    exact ⟨rfl, rfl⟩
  | included h hl hs ih =>
    obtain ⟨rfl, rfl⟩ := ih
    rw [outcome_file_of_not_refuses h, hl]
    exact ⟨rfl, rfl⟩

/-! Every work ends: the induction is on the files that may still be opened, and within one file on
its steps. -/

mutual

theorem compiles_step
    (hfile : ∀ top path, Compiles library top (.file path) opened
      (Work.outcome library opened top (.file path)) opened) (s : WrittenStep) (top : Bool) :
    Compiles library top (.step s) opened (Work.outcome library opened top (.step s)) opened := by
  rw [Work.outcome]
  cases s with
  | press keys => exact .press
  | hold keys => exact .hold
  | release keys => exact .release
  | repeating rate limit stop body =>
    rw [WrittenStep.compile]
    cases hp : pace rate limit stop with
    | error e => exact .paceless hp
    | ok p =>
      have hbody := compiles_steps hfile body false
      exact .repeating hp hbody
  | group on body =>
    cases on with
    | none => exact .group (compiles_steps hfile body top)
    | some on =>
      rw [WrittenStep.compile]
      cases top with
      | false => exact .nested
      | true =>
        cases hon : resolveEvents .on on with
        | error e => exact .keyless hon
        | ok es => exact .trigger hon (compiles_steps hfile body false)
  | file path => exact .file (hfile top path)

theorem compiles_steps
    (hfile : ∀ top path, Compiles library top (.file path) opened
      (Work.outcome library opened top (.file path)) opened) (ss : List WrittenStep) (top : Bool) :
    Compiles library top (.steps ss) opened (Work.outcome library opened top (.steps ss)) opened := by
  cases ss with
  | nil => exact .nil
  | cons s ss =>
    have hs := compiles_step hfile s top
    have hss := compiles_steps hfile ss top
    rw [outcome_cons]
    cases hr : Work.outcome library opened top (.step s) with
    | error e => exact .stops (hr ▸ hs)
    | ok p =>
      rw [hr] at hs
      exact .goesOn hs hss

end

theorem compiles_file (library : Library) (opened : List String) (top : Bool) (path : String) :
    Compiles library top (.file path) opened (Work.outcome library opened top (.file path))
      opened := by
  -- A library may have ever new files: only the room for open ones gets smaller.
  generalize hroom : includeLimit - opened.length = room
  induction room generalizing opened top path with
  | zero =>
    have h : Refuses opened path := .inr (Nat.sub_eq_zero_iff_le.mp hroom)
    rw [outcome_file_of_refuses h]
    exact .refused h
  | succ room ih =>
    by_cases h : Refuses opened path
    · rw [outcome_file_of_refuses h]
      exact .refused h
    · rw [outcome_file_of_not_refuses h]
      cases hl : library path with
      | none => exact .missing h hl
      | some steps =>
        have hinner : includeLimit - (path :: opened).length = room := by
          rw [List.length_cons]
          omega
        exact .included h hl (compiles_steps (fun top p => ih (path :: opened) top p hinner) steps top)

/-- A work has one outcome, and the stack is afterwards as it was before. -/
theorem compiles_iff :
    Compiles library top w opened r opened' ↔
      r = w.outcome library opened top ∧ opened' = opened := by
  refine ⟨Compiles.eq_outcome, ?_⟩
  rintro ⟨rfl, rfl⟩
  cases w with
  | step s => exact compiles_step (compiles_file library opened') s top
  | steps ss => exact compiles_steps (compiles_file library opened') ss top
  | file path => exact compiles_file library opened' top path

/-! ## What success says of the files -/

/-- Where compiling succeeds, every file that is led to can be opened. -/
theorem Compiles.opens {plan : Plan} (h : Compiles library top w opened (.ok plan) opened') :
    Opens library (includeLimit - opened.length) opened w.files := by
  generalize hr : Except.ok plan = r at h
  induction h generalizing plan with
  | press | hold | release | nil => exact opens_nil
  | repeating hp h ih =>
    obtain ⟨b, hb, -⟩ := map_eq_ok.mp hr.symm
    exact ih hb.symm
  | group h ih => exact ih hr
  | trigger hon h ih =>
    obtain ⟨b, hb, -⟩ := bind_eq_ok.mp hr.symm
    exact ih hb.symm
  | file h ih => exact ih hr
  | goesOn h hs ih ihs =>
    obtain ⟨-, rfl⟩ := h.eq_outcome
    obtain ⟨q, hq, -⟩ := map_eq_ok.mp hr.symm
    exact (ih rfl).append (ihs hq.symm)
  | @included top path opened _ _ steps h hl hs ih =>
    obtain ⟨hmem, hlength⟩ := not_or.mp h
    have hroom : includeLimit - opened.length = includeLimit - (path :: opened).length + 1 := by
      rw [List.length_cons]
      omega
    have hinner := ih hr
    show Opens library (includeLimit - opened.length) opened [path]
    rw [hroom]
    exact opens_singleton hmem hl hinner
  | paceless | nested | keyless | stops | refused | missing => exact nomatch hr

/-! ## What a refused file says -/

/-- The file that an error is about. -/
def Error.path? : Error → Option String
  | .includeCycle path | .load path => some path
  | _ => none

theorem path?_of_resolve {use : KeyUse} {k : WrittenKey} {e : Error}
    (h : k.resolve use = .error e) : e.path? = none := by
  have hname : ∀ text, (Key.parse text).mapError (Error.invalidKey use) = .error e →
      e.path? = none := by
    intro text ht
    cases hp : Key.parse text with
    | ok m => exact nomatch hp ▸ ht
    | error cause =>
      rw [hp] at ht
      cases ht
      rfl
  cases k with
  | name text => exact hname text h
  | digit d =>
    rw [WrittenKey.resolve] at h
    split at h
    · exact hname _ h
    · cases h
      rfl

theorem path?_of_resolveKeys {use : KeyUse} {keys : List WrittenKey} {e : Error}
    (h : resolveKeys use keys = .error e) : e.path? = none := by
  induction keys with
  | nil => exact nomatch h
  | cons k ks ih =>
    rw [resolveKeys] at h
    rcases bind_eq_error.mp h with hk | ⟨m, -, h⟩
    · exact path?_of_resolve hk
    · rcases bind_eq_error.mp h with hks | ⟨ms, -, h⟩
      · exact ih hks
      · exact nomatch h

theorem path?_of_resolveEvents {use : KeyUse} {keys : List WrittenKey} {e : Error}
    (h : resolveEvents use keys = .error e) : e.path? = none :=
  path?_of_resolveKeys (map_eq_error.mp h)

theorem path?_of_duration {text : String} {e : Error} (h : duration text = .error e) :
    e.path? = none := by
  unfold duration at h
  split at h
  · exact nomatch h
  · cases h
    rfl

theorem path?_of_pace {rate : String} {limit : Option String} {stop : Option (List WrittenKey)}
    {e : Error} (h : pace rate limit stop = .error e) : e.path? = none := by
  rcases bind_eq_error.mp h with hrate | ⟨interval, -, h⟩
  · unfold frequency at hrate
    split at hrate
    · exact nomatch hrate
    · cases hrate
      rfl
  rcases bind_eq_error.mp h with hlimit | ⟨l, -, h⟩
  · cases limit with
    | none => exact nomatch hlimit
    | some text => exact path?_of_duration (map_eq_error.mp hlimit)
  rcases bind_eq_error.mp h with hstop | ⟨es, -, h⟩
  · cases stop with
    | none => exact nomatch hstop
    | some keys => exact path?_of_resolveEvents hstop
  dsimp only at h
  split at h
  · cases h
    rfl
  · exact nomatch h

theorem path?_of_triggered {es : List InputEvent} {b : Plan} {e : Error}
    (h : triggered es b = .error e) : e.path? = none := by
  unfold triggered at h
  split at h
  · cases h
    rfl
  · exact nomatch h

/-- A chain of files from `names` on leads to a file that the chain or the stack holds already, or
to one more than there is room for. -/
def Overruns (library : Library) (opened names : List String) (path : String) : Prop :=
  ∃ chain, library.IsChain names (chain ++ [path]) ∧
    chain.length ≤ includeLimit - opened.length ∧
    (path ∈ chain ∨ path ∈ opened ∨ includeLimit ≤ chain.length + opened.length)

theorem Overruns.mono {names names' : List String} {path : String} (hsub : names ⊆ names')
    (h : Overruns library opened names path) : Overruns library opened names' path := by
  obtain ⟨chain, hchain, hrest⟩ := h
  exact ⟨chain, hchain.mono hsub, hrest⟩

theorem Compiles.overruns {path : String}
    (h : Compiles library top w opened (.error (.includeCycle path)) opened') :
    Overruns library opened w.files path := by
  generalize hr : Except.error (Error.includeCycle path) = r at h
  induction h with
  | press | hold | release =>
    exact nomatch path?_of_resolveKeys (map_eq_error.mp hr.symm)
  | paceless hp =>
    cases hr
    exact nomatch path?_of_pace hp
  | repeating hp h ih => exact ih (map_eq_error.mp hr.symm).symm
  | group h ih => exact ih hr
  | keyless hon =>
    cases hr
    exact nomatch path?_of_resolveEvents hon
  | trigger hon h ih =>
    rcases bind_eq_error.mp hr.symm with he | ⟨b, -, he⟩
    · exact ih he.symm
    · exact nomatch path?_of_triggered he
  | file h ih => exact ih hr
  | stops h ih => exact (ih hr).mono (List.subset_append_left _ _)
  | goesOn h hs ih ihs =>
    -- The first step has left the stack as it was, so the chain has the same files around it.
    obtain ⟨-, rfl⟩ := h.eq_outcome
    exact (ihs (map_eq_error.mp hr.symm).symm).mono (List.subset_append_right _ _)
  | refused h =>
    cases hr
    refine ⟨[], ⟨List.mem_singleton_self path, trivial⟩, Nat.zero_le _, .inr ?_⟩
    rw [List.length_nil, Nat.zero_add]
    exact h
  | @included top p opened _ _ steps h hl hs ih =>
    -- The chain goes on from this file, which it now begins with.
    obtain ⟨chain, hchain, hlength, hover⟩ := ih hr
    obtain ⟨-, hroom⟩ := not_or.mp h
    rw [List.length_cons] at hlength hover
    refine ⟨p :: chain, ⟨List.mem_singleton_self p, ?_⟩, ?_, ?_⟩
    · rwa [Library.namedBy_of_loads hl]
    · rw [List.length_cons]
      omega
    · rcases hover with hin | hin | hlong
      · exact .inl (List.mem_cons_of_mem _ hin)
      · rcases List.mem_cons.mp hin with rfl | hin
        · exact .inl List.mem_cons_self
        · exact .inr (.inl hin)
      · right
        right
        rw [List.length_cons]
        omega
  | nested | nil | missing => exact nomatch hr

/-- What can be opened is not refused. -/
theorem Opens.not_overruns {names : List String} {path : String}
    (h : Opens library (includeLimit - opened.length) opened names) :
    ¬ Overruns library opened names path := by
  rintro ⟨chain, hchain, -, hover⟩
  obtain ⟨hnodup, hlength, hgood⟩ := h _ hchain
  have hfresh := List.nodup_append.mp hnodup
  rw [List.length_append, List.length_singleton] at hlength
  rcases hover with hin | hin | hlong
  · exact hfresh.2.2 path hin path (List.mem_singleton_self path) rfl
  · exact (hgood path (List.mem_append_right _ (List.mem_singleton_self path))).1 hin
  · omega

end

/-! ## Files that include files -/

/-- **Including files comes to an end, and only nested files are refused.** From any library, with
nothing else than a stack of open files to tell when to stop, compiling a script has exactly one
outcome, the one that the compiler gives. Each inclusion ends likewise and leaves the stack as it
found it, with a plan and with an error. If compiling succeeds, no chain of files has a file twice or
is longer than 16; a file is refused only at the end of a chain that holds it already, or that holds
16 files. A file that was included is not refused when it is included again. -/
theorem inclusion_ends (library : Library) (steps : List WrittenStep) :
    (∃! out : Except Error Plan × List String,
      Compiles library true (.steps steps) [] out.1 out.2) ∧
    Compiles library true (.steps steps) [] (compile library steps) [] ∧
    (∀ top path opened, ∃ r, ∀ r' opened',
      Compiles library top (.file path) opened r' opened' ↔ r' = r ∧ opened' = opened) ∧
    (∀ plan, compile library steps = .ok plan → ∀ chain,
      library.IsChain (filesOf steps) chain → chain.Nodup ∧ chain.length ≤ 16) ∧
    (∀ path, compile library steps = .error (.includeCycle path) → ∃ chain,
      library.IsChain (filesOf steps) (chain ++ [path]) ∧ (path ∈ chain ∨ chain.length = 16)) ∧
    ∀ top top' ss opened plan opened' path, path ∈ filesOf ss →
      Compiles library top (.steps ss) opened (.ok plan) opened' →
      ∀ r opened'', Compiles library top' (.file path) opened' r opened'' →
        ∀ p, r ≠ .error (.includeCycle p) := by
  have hroot : Compiles library true (.steps steps) [] (compile library steps) [] :=
    compiles_iff.mpr ⟨rfl, rfl⟩
  refine ⟨⟨(compile library steps, []), hroot, ?_⟩, hroot, ?_, ?_, ?_, ?_⟩
  · rintro ⟨r, opened⟩ h
    obtain ⟨rfl, rfl⟩ := h.eq_outcome
    rfl
  · exact fun top path opened => ⟨_, fun r' opened' => compiles_iff⟩
  · intro plan hplan chain hchain
    rw [hplan] at hroot
    obtain ⟨hnodup, hlength, -⟩ := hroot.opens chain hchain
    exact ⟨hnodup, hlength⟩
  · intro path hpath
    rw [hpath] at hroot
    obtain ⟨chain, hchain, hlength, hover⟩ := hroot.overruns
    refine ⟨chain, hchain, hover.imp_right fun hover => ?_⟩
    rcases hover with hin | hlong
    · exact absurd hin List.not_mem_nil
    · exact Nat.le_antisymm hlength hlong
  · intro top top' ss opened plan opened' path hpath hss r opened'' hfile p hr
    obtain ⟨-, rfl⟩ := hss.eq_outcome
    subst hr
    have hopens := hss.opens.mono (List.cons_subset.mpr ⟨hpath, List.nil_subset _⟩)
    exact hopens.not_overruns hfile.overruns

/-- Two files include each other, and a third is included twice. -/
theorem inclusion_ends_of_mutual_files :
    let library : Library := fun path =>
      if path = "a.toml" then some [.file "c.toml", .group none [.file "b.toml"]]
      else if path = "b.toml" then some [.file "c.toml", .file "a.toml"]
      else if path = "c.toml" then some [.press [.name "c"]] else none
    (∃ plan, compile library [.file "c.toml", .file "c.toml"] = .ok plan) ∧
    compile library [.file "a.toml"] = .error (.includeCycle "a.toml") ∧
    ∃ chain, library.IsChain ["a.toml"] (chain ++ ["a.toml"]) ∧
      ("a.toml" ∈ chain ∨ chain.length = 16) := by
  intro library
  have hcycle : compile library [.file "a.toml"] = .error (.includeCycle "a.toml") := rfl
  obtain ⟨-, -, -, -, hrefused, -⟩ := inclusion_ends library [.file "a.toml"]
  exact ⟨⟨_, rfl⟩, hcycle, hrefused "a.toml" hcycle⟩

end InputRelay.Script
