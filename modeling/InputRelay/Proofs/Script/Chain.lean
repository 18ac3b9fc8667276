import InputRelay.Script.Written

/-!
# Chains of files

A file may name files, which may name files in turn. A chain starts with a file that a script names,
and each file after it is named by the one before.
-/

namespace InputRelay.Script

/-- The files that the steps of a file name; none if it cannot be loaded. -/
def Library.namedBy (library : Library) (path : String) : List String :=
  filesOf ((library path).getD [])

/-- The first file of the chain is one of `names`, and each of the others is named by the file
before it. -/
def Library.IsChain (library : Library) (names : List String) : List String → Prop
  | [] => True
  | path :: chain => path ∈ names ∧ library.IsChain (library.namedBy path) chain

variable {library : Library} {room : Nat} {opened names names' chain : List String} {path : String}

theorem Library.IsChain.mono (hsub : names ⊆ names') (h : library.IsChain names chain) :
    library.IsChain names' chain := by
  cases chain with
  | nil => trivial
  | cons path chain => exact ⟨hsub h.1, h.2⟩

/-- A chain is one up to a file in it, and one from there on. -/
theorem Library.isChain_append_cons {before after : List String} :
    library.IsChain names (before ++ path :: after) ↔
      library.IsChain names (before ++ [path]) ∧ library.IsChain (library.namedBy path) after := by
  induction before generalizing names with
  | nil => simp [Library.IsChain]
  | cons p before ih => simp only [List.cons_append, Library.IsChain, ih, and_assoc]

theorem Library.namedBy_of_loads {steps : List WrittenStep} (h : library path = some steps) :
    library.namedBy path = filesOf steps := by
  rw [namedBy, h]
  rfl

/-! ## Files that can be opened -/

/-- With the files `opened` around it, all that `names` lead to can be opened: no chain repeats a
file, none is longer than `room`, and every file in it can be loaded. -/
def Opens (library : Library) (room : Nat) (opened names : List String) : Prop :=
  ∀ chain, library.IsChain names chain →
    chain.Nodup ∧ chain.length ≤ room ∧ ∀ path ∈ chain, path ∉ opened ∧ (library path).isSome

/-- What can be opened can be loaded, and so can what it names, one file further in. -/
theorem Opens.inside (h : Opens library room opened names) (hpath : path ∈ names) :
    path ∉ opened ∧ ∃ room' steps, room = room' + 1 ∧ library path = some steps ∧
      Opens library room' (path :: opened) (filesOf steps) := by
  obtain ⟨-, hroom, hnew⟩ := h [path] ⟨hpath, trivial⟩
  obtain ⟨hnot, hsome⟩ := hnew path List.mem_cons_self
  obtain ⟨steps, hsteps⟩ := Option.isSome_iff_exists.mp hsome
  obtain ⟨room', rfl⟩ : ∃ room', room = room' + 1 := by
    refine ⟨room - 1, ?_⟩
    simp only [List.length_singleton] at hroom
    omega
  refine ⟨hnot, room', steps, rfl, hsteps, fun chain hchain => ?_⟩
  have hlonger : library.IsChain names (path :: chain) := by
    refine ⟨hpath, ?_⟩
    rwa [Library.namedBy_of_loads hsteps]
  obtain ⟨hnodup, hlength, hgood⟩ := h (path :: chain) hlonger
  obtain ⟨hfresh, hnodup⟩ := List.nodup_cons.mp hnodup
  refine ⟨hnodup, ?_, fun p hp => ?_⟩
  · simp only [List.length_cons] at hlength
    omega
  · obtain ⟨hout, hloads⟩ := hgood p (List.mem_cons_of_mem _ hp)
    refine ⟨?_, hloads⟩
    rw [List.mem_cons, not_or]
    exact ⟨fun he => hfresh (he ▸ hp), hout⟩

theorem opens_nil : Opens library room opened [] := by
  intro chain hchain
  cases chain with
  | nil => exact ⟨List.nodup_nil, Nat.zero_le _, List.forall_mem_nil _⟩
  | cons path chain => exact absurd hchain.1 List.not_mem_nil

theorem Opens.append (h : Opens library room opened names) (h' : Opens library room opened names') :
    Opens library room opened (names ++ names') := by
  intro chain hchain
  cases chain with
  | nil => exact h [] trivial
  | cons path chain =>
    rcases List.mem_append.mp hchain.1 with hpath | hpath
    · exact h (path :: chain) ⟨hpath, hchain.2⟩
    · exact h' (path :: chain) ⟨hpath, hchain.2⟩

theorem Opens.mono (h : Opens library room opened names) (hsub : names' ⊆ names) :
    Opens library room opened names' :=
  fun chain hchain => h chain (hchain.mono hsub)

/-- A file can be opened if it is not open and what it names can be opened after it. -/
theorem opens_singleton {steps : List WrittenStep} (hnot : path ∉ opened)
    (hl : library path = some steps) (h : Opens library room (path :: opened) (filesOf steps)) :
    Opens library (room + 1) opened [path] := by
  intro chain hchain
  cases chain with
  | nil => exact ⟨List.nodup_nil, Nat.zero_le _, List.forall_mem_nil _⟩
  | cons p chain =>
    obtain ⟨hp, hchain⟩ := hchain
    cases List.mem_singleton.mp hp
    rw [Library.namedBy_of_loads hl] at hchain
    obtain ⟨hnodup, hlength, hgood⟩ := h chain hchain
    refine ⟨List.nodup_cons.mpr ⟨fun hin => ?_, hnodup⟩, Nat.succ_le_succ hlength, ?_⟩
    · exact (hgood path hin).1 List.mem_cons_self
    · refine List.forall_mem_cons.mpr ⟨⟨hnot, by rw [hl]; rfl⟩, fun q hq => ?_⟩
      obtain ⟨hout, hloads⟩ := hgood q hq
      exact ⟨fun hin => hout (List.mem_cons_of_mem _ hin), hloads⟩

end InputRelay.Script
