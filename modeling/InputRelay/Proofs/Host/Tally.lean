import InputRelay.Proofs.Host.Listeners
import Mathlib.Data.List.Nodup
import Mathlib.Data.Nat.Basic

/-!
# A host keeps count of its listeners

Handles are numbers in the order of installation, and the listeners stand in this order, so that no
two of them have the same handle (`Host.Tallies`). What was installed is there or was removed.
-/

namespace InputRelay

namespace Host

variable {β : Type} {h h' : Host β} {kind : ListenerKind} {box : β} {handle : ListenerHandle}

/-- The kinds that were asked for and not refused, in order. -/
def granted (h : Host β) : List ListenerKind := h.installs.filter fun kind => h.refuses ≠ some kind

/-- The two hosts have the same listeners and have counted the same about them. -/
structure SameListeners (h h' : Host β) : Prop where
  live : h'.live = h.live
  nextHandle : h'.nextHandle = h.nextHandle
  installs : h'.installs = h.installs
  uninstalls : h'.uninstalls = h.uninstalls
  refuses : h'.refuses = h.refuses

theorem SameListeners.granted_eq (hs : h.SameListeners h') : h'.granted = h.granted := by
  rw [granted, granted, hs.installs, hs.refuses]

/-- The listeners stand in the order of their handles, and whatever was installed is there or was
removed. -/
structure Tallies (h : Host β) : Prop where
  ordered : h.live.Pairwise fun l l' => l.handle.number < l'.handle.number
  below : ∀ l ∈ h.live, l.handle.number < h.nextHandle
  issued : h.nextHandle = h.granted.length + 1
  removed : h.uninstalls + h.live.length = h.granted.length

theorem Tallies.congr (h₀ : h.Tallies) (hlive : h'.live = h.live)
    (hnext : h'.nextHandle = h.nextHandle) (hgranted : h'.granted = h.granted)
    (huninstalls : h'.uninstalls = h.uninstalls) : h'.Tallies := by
  refine ⟨?_, ?_, ?_, ?_⟩
  · rw [hlive]
    exact h₀.ordered
  · rw [hlive, hnext]
    exact h₀.below
  · rw [hnext, hgranted]
    exact h₀.issued
  · rw [huninstalls, hlive, hgranted]
    exact h₀.removed

/-- No two listeners have the same handle. -/
theorem Tallies.distinct (h₀ : h.Tallies) : (h.live.map Listener.handle).Nodup := by
  refine List.pairwise_map.mpr (h₀.ordered.imp fun hlt heq => ?_)
  exact Nat.lt_irrefl _ (heq ▸ hlt)

theorem install_of_refused (hrefused : h.refuses = some kind) :
    h.install kind box = (.error (.installFailed kind "mock refused hook"),
      { h with installs := h.installs ++ [kind] }) := by
  unfold install
  exact if_pos hrefused

theorem install_of_granted (hgranted : h.refuses ≠ some kind) :
    h.install kind box = (.ok ⟨h.nextHandle⟩,
      { h with
        installs := h.installs ++ [kind]
        nextHandle := h.nextHandle + 1
        live := h.live ++ [⟨⟨h.nextHandle⟩, kind, box⟩] }) := by
  unfold install
  exact if_neg hgranted

theorem granted_install (h : Host β) (kind : ListenerKind) (box : β) :
    (h.install kind box).2.granted =
      if h.refuses = some kind then h.granted else h.granted ++ [kind] := by
  by_cases hrefused : h.refuses = some kind
  · rw [install_of_refused hrefused, if_pos hrefused]
    simp [granted, hrefused]
  · rw [install_of_granted hrefused, if_neg hrefused]
    simp [granted, hrefused]

theorem Tallies.install (h₀ : h.Tallies) : (h.install kind box).2.Tallies := by
  have hgranted := h.granted_install kind box
  by_cases hrefused : h.refuses = some kind
  · rw [if_pos hrefused, install_of_refused hrefused] at hgranted
    rw [install_of_refused hrefused]
    exact h₀.congr rfl rfl hgranted rfl
  · rw [if_neg hrefused, install_of_granted hrefused] at hgranted
    rw [install_of_granted hrefused]
    refine ⟨?_, ?_, ?_, ?_⟩
    · refine List.pairwise_append.mpr ⟨h₀.ordered, List.pairwise_singleton _ _, fun l hl l' hl' => ?_⟩
      cases List.mem_singleton.mp hl'
      exact h₀.below l hl
    · intro l hl
      rcases List.mem_append.mp hl with hold | hnew
      · exact Nat.lt_succ_of_lt (h₀.below l hold)
      · cases List.mem_singleton.mp hnew
        exact Nat.lt_succ_self _
    · rw [hgranted, List.length_append]
      exact congrArg (· + 1) h₀.issued
    · rw [hgranted, List.length_append, List.length_append, ← h₀.removed, Nat.add_assoc]
      rfl

/-- No more than one listener is removed at a time. -/
theorem length_uninstall (h₀ : h.Tallies) (hl : h.isLive handle = true) :
    (h.uninstall handle).live.length + 1 = h.live.length := by
  have hmem : handle ∈ h.live.map Listener.handle := by
    obtain ⟨l, hl, heq⟩ := List.any_eq_true.mp hl
    exact List.mem_map.mpr ⟨l, hl, of_decide_eq_true heq⟩
  have herase : (h.uninstall handle).live.map Listener.handle =
      (h.live.map Listener.handle).erase handle := by
    rw [h₀.distinct.erase_eq_filter, List.filter_map, uninstall, if_pos hl]
    congr 1
    refine List.filter_congr fun l _ => ?_
    by_cases heq : l.handle = handle <;> simp [heq]
  have hlength := congrArg List.length herase
  rw [List.length_erase_of_mem hmem, List.length_map, List.length_map] at hlength
  have hpos : 0 < h.live.length := by simpa using List.length_pos_of_mem hmem
  omega

theorem Tallies.uninstall (h₀ : h.Tallies) : (h.uninstall handle).Tallies := by
  cases hl : h.isLive handle with
  | false =>
    rw [uninstall_of_not_live hl]
    exact h₀
  | true =>
    have hlength := length_uninstall h₀ hl
    have hsub : (h.uninstall handle).live.Sublist h.live := by
      rw [Host.uninstall, if_pos hl]
      exact List.filter_sublist
    have huninstalls : (h.uninstall handle).uninstalls = h.uninstalls + 1 := by
      rw [Host.uninstall, if_pos hl]
    have hrest : (h.uninstall handle).nextHandle = h.nextHandle ∧
        (h.uninstall handle).granted = h.granted := by
      rw [Host.uninstall, if_pos hl]
      exact ⟨rfl, rfl⟩
    refine ⟨h₀.ordered.sublist hsub, ?_, ?_, ?_⟩
    · intro l hl'
      rw [hrest.1]
      exact h₀.below l (hsub.subset hl')
    · rw [hrest.1, hrest.2]
      exact h₀.issued
    · rw [hrest.2, ← h₀.removed, huninstalls, ← hlength]
      omega

/-- Nothing has been done to the host yet, but it may have messages. -/
def IsFresh (h : Host β) : Prop := h = { refuses := h.refuses, queue := h.queue }

theorem IsFresh.live_eq (hf : h.IsFresh) : h.live = [] := by rw [hf]

theorem IsFresh.granted_eq (hf : h.IsFresh) : h.granted = [] := by rw [hf]; rfl

theorem IsFresh.tallies (hf : h.IsFresh) : h.Tallies := by
  rw [hf]
  exact ⟨.nil, nofun, rfl, rfl⟩

end Host

end InputRelay
