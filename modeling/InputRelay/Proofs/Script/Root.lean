import InputRelay.Proofs.Script.Inlining
import InputRelay.Proofs.Script.OpenFiles

/-!
# The file that a script is loaded from

A script is compiled from its steps, or loaded from a file that names nothing but its steps. The
second way has the file itself open all the while (`load_eq`). More open files never change what
comes out, except that a file may be refused (`compileAll_sameOrRefused`); a root that is included
again is refused either way (`not_mem_of_opens`); so what remains of the root is one place less for
the files that it leads to.
-/

namespace InputRelay.Script

/-! ## More files that are open -/

/-- The second outcome is the first one, or says that a file is refused. -/
def SameOrRefused (r r' : Except Error Plan) : Prop :=
  r' = r ∨ ∃ path, r' = .error (.includeCycle path)

namespace SameOrRefused

variable {r r' q q' : Except Error Plan}

theorem same : SameOrRefused r r := .inl rfl

theorem refused (path : String) : SameOrRefused r (.error (.includeCycle path)) := .inr ⟨path, rfl⟩

theorem bind {f f' : Plan → Except Error Plan} (h : SameOrRefused r r')
    (hf : ∀ p, SameOrRefused (f p) (f' p)) : SameOrRefused (r >>= f) (r' >>= f') := by
  rcases h with rfl | ⟨path, rfl⟩
  · cases r' with
    | error e => exact same
    | ok p => exact hf p
  · exact refused path

end SameOrRefused

section

variable {ofFile ofFile' : Bool → String → Except Error Plan}

mutual

theorem WrittenStep.compile_sameOrRefused
    (hfile : ∀ top path, SameOrRefused (ofFile top path) (ofFile' top path)) (s : WrittenStep)
    (top : Bool) : SameOrRefused (s.compile ofFile top) (s.compile ofFile' top) := by
  cases s with
  | press keys => exact .same
  | hold keys => exact .same
  | release keys => exact .same
  | repeating rate limit stop body =>
    rw [WrittenStep.compile, WrittenStep.compile]
    cases pace rate limit stop with
    | error e => exact .same
    | ok p => exact (compileAll_sameOrRefused hfile body false).bind fun _ => .same
  | group on body =>
    cases on with
    | none => exact compileAll_sameOrRefused hfile body top
    | some on =>
      rw [WrittenStep.compile, WrittenStep.compile]
      cases top with
      | false => exact .same
      | true =>
        cases resolveEvents .on on with
        | error e => exact .same
        | ok es => exact (compileAll_sameOrRefused hfile body false).bind fun _ => .same
  | file path => exact hfile top path

theorem compileAll_sameOrRefused
    (hfile : ∀ top path, SameOrRefused (ofFile top path) (ofFile' top path))
    (ss : List WrittenStep) (top : Bool) :
    SameOrRefused (compileAll ofFile top ss) (compileAll ofFile' top ss) := by
  cases ss with
  | nil => exact .same
  | cons s ss =>
    rw [compileAll, compileAll]
    exact (WrittenStep.compile_sameOrRefused hfile s top).bind fun _ =>
      (compileAll_sameOrRefused hfile ss top).bind fun _ => .same

end

end

variable {library : Library} {room room' : Nat} {opened opened' names chain : List String}
  {path : String} {steps : List WrittenStep}

theorem compileFile_sameOrRefused (hroom : room' ≤ room) (hopened : opened ⊆ opened') (top : Bool)
    (path : String) :
    SameOrRefused (compileFile library room opened top path)
      (compileFile library room' opened' top path) := by
  -- The induction is on the smaller room; the stacks grow by the same file.
  induction room' generalizing room opened opened' top path with
  | zero => exact .refused path
  | succ room' ih =>
    obtain ⟨room, rfl⟩ : ∃ k, room = k + 1 := ⟨room - 1, by omega⟩
    rw [compileFile, compileFile]
    by_cases hin : path ∈ opened'
    · rw [if_pos (List.contains_iff_mem.mpr hin)]
      exact .refused path
    · have hout : path ∉ opened := fun h => hin (hopened h)
      rw [if_neg (mt List.contains_iff_mem.mp hin), if_neg (mt List.contains_iff_mem.mp hout)]
      cases library path with
      | none => exact .same
      | some steps =>
        refine compileAll_sameOrRefused (fun top p => ?_) steps top
        exact ih (Nat.le_of_succ_le_succ hroom) (List.cons_subset_cons path hopened) top p

/-! ## The root -/

theorem load_eq_file : load library path = Work.outcome library [] true (.file path) :=
  compileAll_singleton (.file path)

theorem not_refuses_nil : ¬ Refuses [] path := by
  simp [Refuses, includeLimit]

/-- Loading a file is compiling its steps while the file is open. -/
theorem load_eq (h : library path = some steps) :
    load library path = Work.outcome library [path] true (.steps steps) := by
  rw [load_eq_file, outcome_file_of_not_refuses not_refuses_nil, h]

theorem load_of_missing (h : library path = none) : load library path = .error (.load path) := by
  rw [load_eq_file, outcome_file_of_not_refuses not_refuses_nil, h]

/-- What loading comes to is what compiling the steps comes to, or a file is refused. -/
theorem sameOrRefused_load (h : library path = some steps) :
    SameOrRefused (compile library steps) (load library path) := by
  rw [load_eq h, Work.outcome]
  exact compileAll_sameOrRefused
    (compileFile_sameOrRefused (Nat.sub_le _ _) (List.nil_subset _)) steps true

/-- No chain comes back to the root: it could go round a second time and have a file twice. -/
theorem not_mem_of_opens (h : library path = some steps)
    (hopens : Opens library room opened (filesOf steps))
    (hchain : library.IsChain (filesOf steps) chain) : path ∉ chain := by
  intro hin
  obtain ⟨before, after, rfl⟩ := List.append_of_mem hin
  have hround : library.IsChain (filesOf steps) (before ++ [path]) :=
    (Library.isChain_append_cons.mp hchain).1
  have htwice : library.IsChain (filesOf steps) (before ++ path :: (before ++ [path])) := by
    refine Library.isChain_append_cons.mpr ⟨hround, ?_⟩
    rwa [Library.namedBy_of_loads h]
  obtain ⟨hnodup, -, -⟩ := hopens _ htwice
  obtain ⟨-, hrest, -⟩ := List.nodup_append.mp hnodup
  exact (List.nodup_cons.mp hrest).1 (List.mem_append_right _ (List.mem_singleton_self path))

/-- What compiles is refused only at the end of a chain that fills the stack with the root. -/
theorem load_of_compile {plan : Plan} (h : library path = some steps)
    (hplan : compile library steps = .ok plan) :
    load library path = .ok plan ∨
      ∃ chain last, library.IsChain (filesOf steps) (chain ++ [last]) ∧ chain.length = 15 ∧
        load library path = .error (.includeCycle last) := by
  have hfree : Compiles library true (.steps steps) [] (.ok plan) [] :=
    compiles_iff.mpr ⟨hplan.symm, rfl⟩
  have hopens : Opens library includeLimit [] (filesOf steps) := hfree.opens
  refine (sameOrRefused_load h).imp (fun hsame => hsame.trans hplan) ?_
  rintro ⟨last, hlast⟩
  have hcompiles :
      Compiles library true (.steps steps) [path] (.error (.includeCycle last)) [path] :=
    compiles_iff.mpr ⟨hlast.symm.trans (load_eq h), rfl⟩
  obtain ⟨chain, hchain, hlength, hover⟩ := hcompiles.overruns
  refine ⟨chain, last, hchain, ?_, hlast⟩
  obtain ⟨hnodup, -, -⟩ := hopens _ hchain
  have hroot := not_mem_of_opens h hopens hchain
  rcases hover with hin | hin | hlong
  · exact absurd rfl
      ((List.nodup_append.mp hnodup).2.2 last hin last (List.mem_singleton_self last))
  · cases List.mem_singleton.mp hin
    exact absurd (List.mem_append_right _ (List.mem_singleton_self path)) hroot
  · simp only [includeLimit, List.length_singleton] at hlength hlong
    omega

/-- What is loaded leaves one place for the root. -/
theorem length_le_of_load {plan : Plan} (h : library path = some steps)
    (hplan : load library path = .ok plan) (hchain : library.IsChain (filesOf steps) chain) :
    chain.length ≤ 15 := by
  have hcompiles : Compiles library true (.steps steps) [path] (.ok plan) [path] :=
    compiles_iff.mpr ⟨hplan.symm.trans (load_eq h), rfl⟩
  obtain ⟨-, hlength, -⟩ := hcompiles.opens chain hchain
  exact hlength

/-- **Loading a file is compiling what is in it, with one place less for files.** From any files, a
path is loaded to a script just when it leads to steps that compile to this script and from which no
chain of files is longer than 15. So what the steps compile to is never another script for the root
being open, and only a sixteenth file in a chain is refused for it. -/
theorem load_eq_ok_iff (library : Library) (path : String) :
    (∀ plan, load library path = .ok plan ↔
      ∃ steps, library path = some steps ∧ compile library steps = .ok plan ∧
        ∀ chain, library.IsChain (filesOf steps) chain → chain.length ≤ 15) ∧
    ∀ steps plan, library path = some steps → compile library steps = .ok plan →
      load library path = .ok plan ∨
        ∃ chain last, library.IsChain (filesOf steps) (chain ++ [last]) ∧ chain.length = 15 ∧
          load library path = .error (.includeCycle last) := by
  refine ⟨fun plan => ⟨fun hload => ?_, ?_⟩, fun steps plan h hplan => load_of_compile h hplan⟩
  · cases h : library path with
    | none => exact nomatch hload.symm.trans (load_of_missing h)
    | some steps =>
      refine ⟨steps, rfl, ?_, fun chain hchain => length_le_of_load h hload hchain⟩
      rcases sameOrRefused_load h with hsame | ⟨last, hlast⟩
      · exact hsame.symm.trans hload
      · exact nomatch hload.symm.trans hlast
  · rintro ⟨steps, h, hplan, hshort⟩
    rcases load_of_compile h hplan with hload | ⟨chain, last, hchain, hlength, -⟩
    · exact hload
    · have htoo := hshort _ hchain
      rw [List.length_append, List.length_singleton, hlength] at htoo
      exact absurd htoo (by decide)

/-- Seventeen files, each of which names the next. The sixteen below the root compile, and can be
loaded from the first of them, but not with the root open as well. -/
theorem load_eq_ok_iff_of_ladder :
    let names :=
      ["a", "b", "c", "d", "e", "f", "g", "h", "i", "j", "k", "l", "m", "n", "o", "p", "q"]
    let library : Library := fun path =>
      if names.contains path then some (((names.zip names.tail).lookup path).toList.map .file)
      else none
    library "a" = some [.file "b"] ∧ compile library [.file "b"] = .ok {} ∧
      load library "b" = .ok {} ∧
      ∃ chain last, library.IsChain ["b"] (chain ++ [last]) ∧ chain.length = 15 ∧
        load library "a" = .error (.includeCycle last) := by
  intro names library
  have hroot : library "a" = some [.file "b"] := rfl
  have hplan : compile library [.file "b"] = .ok {} := rfl
  have hrefused : load library "a" = .error (.includeCycle "q") := rfl
  refine ⟨hroot, hplan, hplan, ?_⟩
  rcases (load_eq_ok_iff library "a").2 _ _ hroot hplan with hload | hlong
  · exact nomatch hrefused.symm.trans hload
  · exact hlong

end InputRelay.Script
