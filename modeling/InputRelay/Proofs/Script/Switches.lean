import InputRelay.Proofs.Key.Direction
import InputRelay.Proofs.Script.Acceptance
import InputRelay.Proofs.Script.Compiled
import Mathlib.Data.List.Induction
import Mathlib.Logic.Function.Basic

/-!
# Which keys a step leaves down

Every key and every mouse button is a switch that is down or up. After some events a switch is as
the last event about it says (`Switches.afterAll_map`), and the events of a step are about the
switches that its keys name. So `hold` and `release` leave each switch as the last key that names it
says, and `press` leaves none down that was named without a direction
(`Script.switches_after_step`).
-/

namespace InputRelay

/-! ## Switches -/

/-- Something that can be held down. -/
inductive Switch where
  | key (code : Key.Code)
  | leftButton
  | rightButton
  deriving DecidableEq, Repr

namespace InputEvent

/-- The switch that an event is about. -/
def switch? (e : InputEvent) : Option Switch :=
  match e.action with
  | .none => none
  | .keyDown | .keyUp => some (.key e.code)
  | .leftMouseDown | .leftMouseUp => some .leftButton
  | .rightMouseDown | .rightMouseUp => some .rightButton

/-- The event presses its switch; any other event releases it. -/
def isPress (e : InputEvent) : Bool :=
  match e.action with
  | .keyDown | .leftMouseDown | .rightMouseDown => true
  | .none | .keyUp | .leftMouseUp | .rightMouseUp => false

@[simp] theorem switch?_released (e : InputEvent) : e.released.switch? = e.switch? := by
  obtain ⟨code, action⟩ := e
  cases action <;> rfl

@[simp] theorem isPress_released (e : InputEvent) : e.released.isPress = false := by
  obtain ⟨code, action⟩ := e
  cases action <;> rfl

theorem isPress_of_releases {e : InputEvent} (h : e.released.action.Releases e.action) :
    e.isPress = true := by
  obtain ⟨code, action⟩ := e
  cases action <;> first | rfl | exact nomatch h

theorem Known.exists_switch {e : InputEvent} (h : e.Known) : ∃ k, e.switch? = some k := by
  obtain ⟨code, action⟩ := e
  rcases h with ⟨h, -⟩ | ⟨h, -⟩ <;> cases action <;> first | exact ⟨_, rfl⟩ | exact nomatch h

end InputEvent

/-- The switches that are down. -/
abbrev Switches := Switch → Bool

namespace Switches

/-- The switches after an event: a press puts its switch down, a release up. -/
def after (s : Switches) (e : InputEvent) : Switches :=
  match e.switch? with
  | some k => Function.update s k e.isPress
  | none => s

/-- The switches after some events. -/
def afterAll (s : Switches) (es : List InputEvent) : Switches := es.foldl after s

theorem after_of_about {e : InputEvent} {k : Switch} (s : Switches) (h : e.switch? = some k) :
    s.after e k = e.isPress := by
  rw [after, h]
  exact Function.update_self ..

theorem after_of_not_about {e : InputEvent} {k : Switch} (s : Switches) (h : e.switch? ≠ some k) :
    s.after e k = s k := by
  rw [after]
  cases hj : e.switch? with
  | none => rfl
  | some j =>
    have hne : k ≠ j := fun hk => h (hk ▸ hj)
    exact Function.update_of_ne hne ..

theorem afterAll_append (s : Switches) (es fs : List InputEvent) :
    s.afterAll (es ++ fs) = (s.afterAll es).afterAll fs :=
  List.foldl_append

end Switches

/-! ## Keys about switches -/

namespace Key.Meaning

/-- The key is about the switch. -/
def IsAbout (k : Switch) (m : Meaning) : Prop := m.event.switch? = some k

instance (k : Switch) (m : Meaning) : Decidable (m.IsAbout k) :=
  inferInstanceAs (Decidable (_ = _))

/-- How the key leaves its switch: down or up. Without a direction it does what a bare key does. -/
def leaves (bare : Bool) (m : Meaning) : Bool := if m.directed then m.event.isPress else bare

/-- The last of some keys that is about the switch. -/
def lastAbout (k : Switch) (ms : List Meaning) : Option Meaning :=
  ms.findRev? fun m => m.IsAbout k

variable {k : Switch} {m : Meaning} {ms : List Meaning}

theorem lastAbout_concat (k : Switch) (ms : List Meaning) (m : Meaning) :
    lastAbout k (ms ++ [m]) = if m.IsAbout k then some m else lastAbout k ms := by
  unfold lastAbout
  rw [List.findRev?_eq_find?_reverse, List.reverse_concat, List.find?_cons,
    ← List.findRev?_eq_find?_reverse]
  by_cases h : m.IsAbout k <;> simp [h]

theorem mem_of_lastAbout (h : lastAbout k ms = some m) : m ∈ ms ∧ m.IsAbout k := by
  rw [lastAbout, List.findRev?_eq_find?_reverse] at h
  have hfound := List.find?_some h
  exact ⟨List.mem_reverse.mp (List.mem_of_find?_eq_some h), by simpa using hfound⟩

theorem lastAbout_eq_none_iff : lastAbout k ms = none ↔ ∀ m ∈ ms, ¬ m.IsAbout k := by
  rw [lastAbout, List.findRev?_eq_find?_reverse, List.find?_eq_none]
  simp

end Key.Meaning

open Key (Meaning)
open Key.Meaning (lastAbout)

/-- After an event for each of some keys, a switch is as the last of them about it says. -/
theorem Switches.afterAll_map {f : Meaning → InputEvent}
    (hf : ∀ m, (f m).switch? = m.event.switch?) (s : Switches) (ms : List Meaning) (k : Switch) :
    s.afterAll (ms.map f) k =
      match lastAbout k ms with
      | some m => (f m).isPress
      | none => s k := by
  induction ms using List.reverseRecOn with
  | nil => rfl
  | append_singleton ms m ih =>
    rw [List.map_append, afterAll_append, Key.Meaning.lastAbout_concat]
    by_cases h : m.IsAbout k
    · rw [if_pos h]
      exact after_of_about _ ((hf m).trans h)
    · rw [if_neg h, ← ih]
      exact after_of_not_about _ (fun h' => h ((hf m).symm.trans h'))

namespace Script

variable {keys : List WrittenKey} {ms : List Meaning} {s : Switches} {k : Switch}

/-! ## Steps -/

/-- A key without a direction means a press. -/
theorem WrittenKey.Means.leaves_eq {w : WrittenKey} {m : Meaning} (h : w.Means m) :
    m.leaves true = m.event.isPress := by
  cases hdirected : m.directed with
  | true => simp [Key.Meaning.leaves, hdirected]
  | false =>
    have hm : m = ⟨m.event, false⟩ := by rw [← hdirected]
    have hpress : m.event.isPress = true := by
      cases w with
      | digit d => rw [h.2.2]; rfl
      | name text =>
        rw [hm] at h
        exact InputEvent.isPress_of_releases (Key.parse_eq_ok_iff.mp h).releases
    simp [Key.Meaning.leaves, hdirected, hpress]

theorem exists_means_of_mem (h : List.Forall₂ WrittenKey.Means keys ms) {m : Meaning}
    (hm : m ∈ ms) : ∃ w, WrittenKey.Means w m := by
  obtain ⟨w, -, _, hw, rfl⟩ := (exists_mem_means h).mp ⟨m, hm, rfl⟩
  exact ⟨w, hw⟩

theorem WrittenKey.Means.exists_isAbout {w : WrittenKey} {m : Meaning} (h : w.Means m) :
    ∃ k, m.IsAbout k := by
  have hresolve : w.resolve .press = .ok m := resolve_eq_ok.mpr h
  exact (known_of_resolve hresolve).exists_switch

theorem afterAll_holdEvents (h : List.Forall₂ WrittenKey.Means keys ms) (s : Switches)
    (k : Switch) :
    s.afterAll (holdEvents ms) k =
      match lastAbout k ms with
      | some m => m.leaves true
      | none => s k := by
  rw [holdEvents, Switches.afterAll_map (fun _ => rfl)]
  cases hlast : lastAbout k ms with
  | none => rfl
  | some m =>
    obtain ⟨w, hw⟩ := exists_means_of_mem h (Key.Meaning.mem_of_lastAbout hlast).1
    exact hw.leaves_eq.symm

theorem afterAll_releaseEvents (s : Switches) (ms : List Meaning) (k : Switch) :
    s.afterAll (releaseEvents ms) k =
      match lastAbout k ms with
      | some m => m.leaves false
      | none => s k := by
  rw [releaseEvents, Switches.afterAll_map]
  · cases lastAbout k ms with
    | none => rfl
    | some m => cases hdirected : m.directed <;> simp [Key.Meaning.leaves, hdirected]
  · intro m
    cases m.directed <;> simp

/-- The releases that a `press` adds are about the keys without a direction, and come last. -/
theorem afterAll_pressEvents (s : Switches) (ms : List Meaning) (k : Switch) :
    s.afterAll (pressEvents ms) k =
      match lastAbout k (ms.filter fun m => !m.directed), lastAbout k ms with
      | some _, _ => false
      | none, some m => m.event.isPress
      | none, none => s k := by
  rw [pressEvents, Switches.afterAll_append,
    Switches.afterAll_map (fun m => InputEvent.switch?_released m.event),
    Switches.afterAll_map (fun _ => rfl)]
  cases lastAbout k (ms.filter fun m => !m.directed) with
  | some m => exact m.event.isPress_released
  | none => cases lastAbout k ms <;> rfl

/-- After the events every switch is as the last of the keys about it leaves it, and the switches
that no key is about are as they were. -/
def LeftByLast (bare : Bool) (ms : List Meaning) (events : List InputEvent) : Prop :=
  ∀ (s : Switches) (k : Switch),
    (∀ m, lastAbout k ms = some m → s.afterAll events k = m.leaves bare) ∧
    ((∀ m ∈ ms, ¬ m.IsAbout k) → s.afterAll events k = s k)

/-- After the events every switch is up that a key without a direction is about; one that only keys
with a direction are about is as the last of them says; the others are as they were. -/
def LeftByPress (ms : List Meaning) (events : List InputEvent) : Prop :=
  ∀ (s : Switches) (k : Switch),
    ((∃ m ∈ ms, m.IsAbout k ∧ m.directed = false) → s.afterAll events k = false) ∧
    ((∀ m ∈ ms, m.IsAbout k → m.directed = true) →
      ∀ m, lastAbout k ms = some m → s.afterAll events k = m.event.isPress) ∧
    ((∀ m ∈ ms, ¬ m.IsAbout k) → s.afterAll events k = s k)

theorem leftByLast_of_afterAll {bare : Bool} {events : List InputEvent}
    (h : ∀ (s : Switches) k, s.afterAll events k =
      match lastAbout k ms with
      | some m => m.leaves bare
      | none => s k) : LeftByLast bare ms events := by
  intro s k
  refine ⟨fun m hm => ?_, fun hnone => ?_⟩
  · rw [h, hm]
  · rw [h, Key.Meaning.lastAbout_eq_none_iff.mpr hnone]

theorem leftByPress_pressEvents (ms : List Meaning) : LeftByPress ms (pressEvents ms) := by
  intro s k
  have hbare (h : ∀ m ∈ ms, m.IsAbout k → m.directed = true) :
      lastAbout k (ms.filter fun m => !m.directed) = none := by
    rw [Key.Meaning.lastAbout_eq_none_iff]
    intro m hm hk
    obtain ⟨hmem, hdirected⟩ := List.mem_filter.mp hm
    simp [h m hmem hk] at hdirected
  refine ⟨?_, fun hdirected m hm => ?_, fun hnone => ?_⟩
  · rintro ⟨m, hm, hk, hdirected⟩
    rw [afterAll_pressEvents]
    cases hlast : lastAbout k (ms.filter fun m => !m.directed) with
    | some _ => rfl
    | none =>
      have hmem : m ∈ ms.filter fun m => !m.directed :=
        List.mem_filter.mpr ⟨hm, by simp [hdirected]⟩
      exact absurd hk (Key.Meaning.lastAbout_eq_none_iff.mp hlast m hmem)
  · rw [afterAll_pressEvents, hbare hdirected, hm]
  · rw [afterAll_pressEvents, hbare fun m hm hk => absurd hk (hnone m hm),
      Key.Meaning.lastAbout_eq_none_iff.mpr hnone]

end Script

end InputRelay
