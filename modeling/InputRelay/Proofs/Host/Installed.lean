import InputRelay.Proofs.Host.Station
import Mathlib.Data.List.Induction

/-!
# Who is installed

A listener is installed as soon as it is granted, with the next number for its handle, and remains
so until this handle is given back. `Station.IsHeld` says that of the calls alone; the listeners of
a host are just those of which it is true (`Station.mem_live_iff`).
-/

namespace InputRelay.Station

variable {β : Type} {refuses : Option ListenerKind} {x : Happening β} {hs : List (Happening β)}
  {l : Listener β}

/-! ## Told by the calls -/

/-- Somebody asks for a listener of a kind that is not refused. -/
def Happening.isGranted (refuses : Option ListenerKind) : Happening β → Bool
  | .install kind _ => refuses ≠ some kind
  | _ => false

/-- How many listeners were asked for and not refused. -/
def grants (refuses : Option ListenerKind) (hs : List (Happening β)) : Nat :=
  hs.countP (Happening.isGranted refuses)

/-- The listener was asked for and not refused, its handle has the number next to those that were
given out before, and this handle was not given back since. -/
def IsHeld (refuses : Option ListenerKind) (hs : List (Happening β)) (l : Listener β) : Prop :=
  ∃ before after, hs = before ++ .install l.kind l.box :: after ∧ refuses ≠ some l.kind ∧
    l.handle.number = grants refuses before + 1 ∧ .uninstall l.handle ∉ after

theorem not_isHeld_nil : ¬ IsHeld refuses [] l := by
  rintro ⟨before, after, hnil, -⟩
  exact absurd hnil.symm (List.append_ne_nil_of_right_ne_nil before (List.cons_ne_nil _ _))

theorem isHeld_concat :
    IsHeld refuses (hs ++ [x]) l ↔
      (IsHeld refuses hs l ∧ x ≠ .uninstall l.handle) ∨
        (x = .install l.kind l.box ∧ refuses ≠ some l.kind ∧
          l.handle.number = grants refuses hs + 1) := by
  constructor
  · rintro ⟨before, after, hsplit, hgranted, hnumber, hkept⟩
    rcases List.eq_nil_or_concat' after with rfl | ⟨after, y, rfl⟩
    · obtain ⟨rfl, hx⟩ := List.append_inj' hsplit rfl
      exact .inr ⟨List.singleton_inj.mp hx, hgranted, hnumber⟩
    · rw [← List.cons_append, ← List.append_assoc] at hsplit
      obtain ⟨rfl, hx⟩ := List.append_inj' hsplit rfl
      cases List.singleton_inj.mp hx
      rw [List.mem_append, not_or, List.mem_singleton] at hkept
      exact .inl ⟨⟨before, after, rfl, hgranted, hnumber, hkept.1⟩, Ne.symm hkept.2⟩
  · rintro (⟨⟨before, after, rfl, hgranted, hnumber, hkept⟩, hx⟩ | ⟨rfl, hgranted, hnumber⟩)
    · refine ⟨before, after ++ [x], List.append_assoc _ _ _, hgranted, hnumber, ?_⟩
      rw [List.mem_append, not_or, List.mem_singleton]
      exact ⟨hkept, Ne.symm hx⟩
    · exact ⟨hs, [], rfl, hgranted, hnumber, List.not_mem_nil⟩

/-! ## Found at the host -/

variable {s s' : Station β}

/-- A happening that neither installs a listener nor removes it. -/
theorem mem_live_of_same (hlive : s'.host.live = s.host.live) (hkept : x ≠ .uninstall l.handle)
    (hrefused : x = .install l.kind l.box → s.host.refuses = some l.kind) :
    l ∈ s'.host.live ↔ (l ∈ s.host.live ∧ x ≠ .uninstall l.handle) ∨
      (x = .install l.kind l.box ∧ s.host.refuses ≠ some l.kind ∧
        l.handle.number = s.host.nextHandle) := by
  rw [hlive, and_iff_left hkept]
  refine ⟨.inl, ?_⟩
  rintro (hl | ⟨hx, hgranted, -⟩)
  · exact hl
  · exact absurd (hrefused hx) hgranted

variable [DecidableEq β]

theorem grants_step (h : s.step? x = some s') :
    s'.host.refuses = s.host.refuses ∧
      s'.host.nextHandle = s.host.nextHandle + grants s.host.refuses [x] := by
  cases x with
  | install kind box =>
    cases h
    by_cases hrefused : s.host.refuses = some kind
    · simp [Host.install_of_refused, grants, Happening.isGranted, hrefused]
    · simp [Host.install_of_granted, grants, Happening.isGranted, hrefused]
  | uninstall handle =>
    cases h
    unfold Host.uninstall
    split <;> exact ⟨rfl, rfl⟩
  | _ =>
    have hsame := sameListeners_step h nofun nofun
    exact ⟨hsame.refuses, hsame.nextHandle⟩

theorem mem_live_step (h : s.step? x = some s') :
    l ∈ s'.host.live ↔ (l ∈ s.host.live ∧ x ≠ .uninstall l.handle) ∨
      (x = .install l.kind l.box ∧ s.host.refuses ≠ some l.kind ∧
        l.handle.number = s.host.nextHandle) := by
  cases x with
  | install kind box =>
    cases h
    by_cases hrefused : s.host.refuses = some kind
    · refine mem_live_of_same ?_ nofun fun hx => ?_
      · rw [Host.install_of_refused hrefused]
      · cases hx
        exact hrefused
    · rw [Host.install_of_granted hrefused, List.mem_append, List.mem_singleton]
      constructor
      · rintro (hl | rfl)
        · exact .inl ⟨hl, nofun⟩
        · exact .inr ⟨rfl, hrefused, rfl⟩
      · rintro (⟨hl, -⟩ | ⟨hx, -, hnumber⟩)
        · exact .inl hl
        · cases hx
          exact .inr (by rw [← hnumber])
  | uninstall handle =>
    cases h
    rw [Host.mem_uninstall_iff]
    constructor
    · rintro ⟨hl, hne⟩
      refine .inl ⟨hl, fun hx => hne ?_⟩
      cases hx
      rfl
    · rintro (⟨hl, hx⟩ | ⟨hx, -⟩)
      · exact ⟨hl, fun heq => hx (by rw [heq])⟩
      · exact nomatch hx
  | _ =>
    exact mem_live_of_same (sameListeners_step h nofun nofun).live nofun nofun

variable {boxes : β → Mailbox}

theorem grants_run (h : (fresh refuses boxes).run? hs = some s) :
    s.host.refuses = refuses ∧ s.host.nextHandle = 1 + grants refuses hs := by
  induction hs using List.reverseRecOn generalizing s with
  | nil =>
    cases h
    exact ⟨rfl, rfl⟩
  | append_singleton hs x ih =>
    obtain ⟨c, hc, hx⟩ := foldlM_concat_eq_some.mp h
    obtain ⟨hrefuses, hnext⟩ := ih hc
    have hstep := grants_step hx
    rw [hrefuses, hnext] at hstep
    refine ⟨hstep.1, hstep.2.trans ?_⟩
    rw [grants, grants, grants, List.countP_append, Nat.add_assoc]

/-- The listeners of a host that was fresh are those that were granted and not removed since. -/
theorem mem_live_iff (h : (fresh refuses boxes).run? hs = some s) :
    l ∈ s.host.live ↔ IsHeld refuses hs l := by
  induction hs using List.reverseRecOn generalizing s with
  | nil =>
    cases h
    exact iff_of_false List.not_mem_nil not_isHeld_nil
  | append_singleton hs x ih =>
    obtain ⟨c, hc, hx⟩ := foldlM_concat_eq_some.mp h
    obtain ⟨hrefuses, hnext⟩ := grants_run hc
    rw [mem_live_step hx, ih hc, hrefuses, hnext, isHeld_concat, Nat.add_comm 1]

end InputRelay.Station
