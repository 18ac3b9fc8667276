import InputRelay.Host.Loop

/-!
# Listeners come and go

What an installation and a removal do to the listeners of a host. `Loop.Moves` lists what one step
of the loop of the host can be; it leaves the listeners alone (`Loop.step?_live`).
-/

namespace InputRelay

variable {β : Type}

namespace Host

variable {h h' : Host β} {kind : ListenerKind} {box : β} {handle : ListenerHandle}

/-! ## Installing -/

theorem install_ok (hi : h.install kind box = (.ok handle, h')) :
    handle = ⟨h.nextHandle⟩ ∧ h'.nextHandle = h.nextHandle + 1 ∧
      h'.live = h.live ++ [⟨handle, kind, box⟩] := by
  simp only [install] at hi
  split at hi
  · cases hi
  · cases hi
    exact ⟨rfl, rfl, rfl⟩

theorem install_error {e : HostError} (hi : h.install kind box = (.error e, h')) :
    h'.live = h.live := by
  simp only [install] at hi
  split at hi
  · cases hi
    rfl
  · cases hi

/-! ## Removing -/

theorem mem_uninstall_iff {l : Listener β} :
    l ∈ (h.uninstall handle).live ↔ l ∈ h.live ∧ l.handle ≠ handle := by
  unfold uninstall
  split
  · simp
  · next hn =>
    refine ⟨fun hl => ⟨hl, fun he => hn ?_⟩, And.left⟩
    exact List.any_eq_true.mpr ⟨l, hl, decide_eq_true he⟩

theorem mem_uninstallAll {handles : List ListenerHandle} {l : Listener β}
    (hl : l ∈ (handles.foldl (fun h handle => h.uninstall handle) h).live) :
    l ∈ h.live ∧ l.handle ∉ handles := by
  induction handles generalizing h with
  | nil => exact ⟨hl, List.not_mem_nil⟩
  | cons handle handles ih =>
    obtain ⟨hrest, hnot⟩ := ih hl
    obtain ⟨hmem, hne⟩ := mem_uninstall_iff.mp hrest
    refine ⟨hmem, fun hin => ?_⟩
    exact (List.mem_cons.mp hin).elim hne hnot

end Host

/-! ## The loop -/

/-- The steps of a loop at a host, with the host afterwards and what is delivered. -/
inductive Loop.Moves (h : Host β) :
    Loop β → Loop β → Host β → Option (β × InputEvent) → Prop where
  | receives {m : Message} {rest : List Message} (hqueue : h.queue = m :: rest) :
    Moves h .receiving (.received m) { h with queue := rest } none
  | quits {rest : List Message} (hqueue : h.queue = .quit :: rest) :
    Moves h .receiving .ended { h with queue := rest } none
  | looksUp {m : Message} : Moves h (.received m) (.delivering m.event? (h.listeners m)) h none
  | returns {e : Option InputEvent} : Moves h (.delivering e []) .receiving h none
  | delivers {e : Option InputEvent} {box : β} {boxes : List β} :
    Moves h (.delivering e (box :: boxes)) (.passing e (box :: boxes)) h (e.map fun e => (box, e))
  | passes {e : Option InputEvent} {boxes : List β} :
    Moves h (.passing e boxes) (.delivering e (boxes.drop 1)) { h with chained := h.chained + 1 }
      none

theorem Loop.moves_of_step? {loop loop' : Loop β} {h h' : Host β}
    {d : Option (β × InputEvent)} (hs : loop.step? h = some (loop', h', d)) :
    Loop.Moves h loop loop' h' d := by
  unfold step? at hs
  split at hs
  · split at hs
    · exact nomatch hs
    · cases hs
      exact .quits ‹_›
    · cases hs
      exact .receives ‹_›
  · cases hs
    exact .looksUp
  · cases hs
    exact .returns
  · cases hs
    exact .delivers
  · cases hs
    exact .passes
  · exact nomatch hs

theorem Loop.step?_live {loop loop' : Loop β} {h h' : Host β} {d : Option (β × InputEvent)}
    (hl : loop.step? h = some (loop', h', d)) : h'.live = h.live := by
  cases moves_of_step? hl <;> rfl

end InputRelay
