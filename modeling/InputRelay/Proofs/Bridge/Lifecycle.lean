import InputRelay.Proofs.Bridge.Crowd
import InputRelay.Proofs.Host.Listeners

/-!
# The life of a bridge

State, handles, listeners and mailbox of a bridge stay in step, whoever starts and stops it and
whenever the loop ends or a listener is refused: between two sections, the bridge looks like exactly
one of its states (`Looks`), and it moves only as `Leads` says.
-/

namespace InputRelay

/-- How a bridge may come from one state to another. -/
inductive BridgeState.Leads : BridgeState → BridgeState → Prop where
  | stay (s : BridgeState) : Leads s s
  | starts : Leads .uninstalled .running
  | stops : Leads .running .stopped
  | neverRuns : Leads .uninstalled .stopped

theorem BridgeState.leads_stopped (s : BridgeState) : s.Leads .stopped := by
  cases s with
  | uninstalled => exact .neverRuns
  | running => exact .stops
  | stopped => exact .stay _

theorem BridgeState.Leads.trans {s t u : BridgeState} (h : s.Leads t) (h' : t.Leads u) :
    s.Leads u := by
  cases h with
  | stay => exact h'
  | starts =>
    cases h' with
    | stay => exact .starts
    | stops => exact .neverRuns
  | stops => cases h' with | stay => exact .stops
  | neverRuns => cases h' with | stay => exact .neverRuns

namespace HostBridge

/-- What belongs to a bridge in a state. -/
def Looks (b : HostBridge) : BridgeState → Prop
  | .uninstalled =>
    b.state = .uninstalled ∧ b.handles = [] ∧ b.host.live = [] ∧ b.mailbox.shuttingDown = false
  | .running =>
    b.state = .running ∧
      (∃ k m, k ≠ m ∧ b.handles = [k, m] ∧
        b.host.live = [⟨k, .keyboard, ()⟩, ⟨m, .mouse, ()⟩]) ∧
      b.mailbox.shuttingDown = false
  | .stopped =>
    b.state = .stopped ∧ b.handles = [] ∧ b.host.live = [] ∧ b.mailbox.shuttingDown = true

variable {b b' : HostBridge} {s : BridgeState} {failure : Option String}

theorem Looks.state_eq (h : b.Looks s) : b.state = s := by
  cases s <;> exact h.1

/-- A bridge looks like one state at most. -/
theorem Looks.unique {s' : BridgeState} (h : b.Looks s) (h' : b.Looks s') : s = s' :=
  h.state_eq.symm.trans h'.state_eq

/-- What a bridge looks like depends on its state, its handles, its listeners and the flag of its
mailbox. -/
theorem Looks.congr (h : b.Looks s) (hstate : b'.state = b.state)
    (hhandles : b'.handles = b.handles) (hlive : b'.host.live = b.host.live)
    (hflag : b'.mailbox.shuttingDown = b.mailbox.shuttingDown) : b'.Looks s := by
  cases s <;> simpa only [Looks, hstate, hhandles, hlive, hflag] using h

/-! ## Tearing down, stopping and starting -/

/-- Tearing down removes all listeners whose handles the bridge has. -/
theorem looks_tearDown (h : ∀ l ∈ b.host.live, l.handle ∈ b.handles) :
    Looks (b.tearDown (control failure)) .stopped := by
  refine ⟨rfl, rfl, List.eq_nil_iff_forall_not_mem.mpr fun l hl => ?_, rfl⟩
  obtain ⟨hmem, hnot⟩ := Host.mem_uninstallAll hl
  exact hnot (h l hmem)

theorem Looks.handle_mem (h : b.Looks s) : ∀ l ∈ b.host.live, l.handle ∈ b.handles := by
  cases s with
  | uninstalled => simp [h.2.2.1]
  | running =>
    obtain ⟨-, ⟨k, m, -, hhandles, hlive⟩, -⟩ := h
    simp [hhandles, hlive]
  | stopped => simp [h.2.2.1]

theorem Looks.tearDown (h : b.Looks s) : Looks (b.tearDown (control failure)) .stopped :=
  looks_tearDown h.handle_mem

theorem Looks.stop (h : b.Looks s) : Looks (b.stop (control failure)) .stopped := by
  have ht : Looks (b.tearDown (control failure)) .stopped := h.tearDown
  unfold Bridge.stop
  split
  · exact ht.congr rfl rfl rfl rfl
  · exact ht

/-- The bridge runs with both listeners, or, if the host refuses one of them, is torn down. -/
theorem Looks.start (h : b.Looks .uninstalled) :
    Looks (b.start (control failure)).2 .running ∨
      Looks (b.start (control failure)).2 .stopped := by
  obtain ⟨hstate, hhandles, hlive, hflag⟩ := h
  rw [Bridge.start, hstate]
  rcases hk : b.host.install .keyboard () with ⟨e | k, host⟩
  · right
    have hl := Host.install_error hk
    simp only [Bridge.installAll, control, hk]
    apply looks_tearDown
    simp [hl, hlive]
  obtain ⟨rfl, hnext, hl⟩ := Host.install_ok hk
  rcases hm : host.install .mouse () with ⟨e | m, host'⟩
  · right
    have hl' := Host.install_error hm
    simp only [Bridge.installAll, control, hk, hm]
    apply looks_tearDown
    simp [hl', hl, hlive, hhandles]
  · left
    obtain ⟨rfl, -, hl'⟩ := Host.install_ok hm
    simp only [Bridge.installAll, control, hk, hm]
    refine ⟨rfl, ⟨⟨b.host.nextHandle⟩, ⟨host.nextHandle⟩, ?_, ?_, ?_⟩, hflag⟩
    · simp [hnext]
    · simp [hhandles]
    · simp [hl', hl, hlive]

/-! ## Steps and runs -/

theorem depositAll_shuttingDown (es : List InputEvent) (m : Mailbox) :
    (m.depositAll es).shuttingDown = m.shuttingDown := by
  induction es generalizing m with
  | nil => rfl
  | cons e es ih => exact ih (m.deposit e)

theorem Looks.step {c c' : Crowd (Host Unit) (Loop Unit)} {x : Crowd.Happening Outside}
    (h : Looks c.bridge s) (hx : c.step? (control failure) act x = some c') :
    ∃ s', Looks c'.bridge s' ∧ s.Leads s' := by
  rcases Crowd.step?_bridge hx with he | he | he | he | ⟨o, he⟩ | ⟨loop, loop', host, e, hl, he⟩
  · exact ⟨s, he ▸ h, .stay s⟩
  · rw [he]
    cases s with
    | uninstalled =>
      have hstart : Looks (c.bridge.start (control failure)).2 .running ∨
          Looks (c.bridge.start (control failure)).2 .stopped := h.start
      rcases hstart with hr | hs
      · exact ⟨.running, hr, .starts⟩
      · exact ⟨.stopped, hs, .neverRuns⟩
    | running =>
      rw [Bridge.start_of_running _ h.state_eq]
      exact ⟨.running, h, .stay _⟩
    | stopped =>
      rw [Bridge.start_of_stopped _ h.state_eq]
      exact ⟨.stopped, h, .stay _⟩
  · exact ⟨.stopped, he ▸ h.stop, s.leads_stopped⟩
  · exact ⟨.stopped, he ▸ h.tearDown, s.leads_stopped⟩
  · refine ⟨s, ?_, .stay s⟩
    rw [he]
    cases o <;> exact h.congr rfl rfl rfl rfl
  · refine ⟨s, ?_, .stay s⟩
    obtain ⟨⟨loop'', host', d⟩, hstep, hd⟩ := Option.map_eq_some_iff.mp hl
    cases hd
    rw [he]
    exact h.congr rfl rfl (Loop.step?_live hstep) (depositAll_shuttingDown _ _)

theorem Looks.run {c c' : Crowd (Host Unit) (Loop Unit)} {hs : List (Crowd.Happening Outside)}
    (h : Looks c.bridge s) (hrun : c.run? (control failure) act hs = some c') :
    ∃ s', Looks c'.bridge s' ∧ s.Leads s' := by
  refine foldlM_keeps (P := fun c => ∃ s', Looks c.bridge s' ∧ s.Leads s') ?_ hrun ⟨s, h, .stay s⟩
  rintro c x d ⟨t, ht, hst⟩ hx
  obtain ⟨u, hu, htu⟩ := ht.step hx
  exact ⟨u, hu, hst.trans htu⟩

/-! ## The life of a bridge -/

/-- **The life of a bridge.** Whoever starts and stops a new bridge on a host without listeners, and
whatever the host refuses and is sent: between two sections the bridge looks like exactly one of its
states. From then on it moves from uninstalled to running to stopped, or from uninstalled to
stopped, and what is stopped stays stopped. -/
theorem lifecycle {host : Host Unit} (hhost : host.live = []) {hs : List (Crowd.Happening Outside)}
    {c : Crowd (Host Unit) (Loop Unit)}
    (h : (⟨{ host }, []⟩ : Crowd _ _).run? (control failure) act hs = some c) :
    (∃! s, Looks c.bridge s) ∧
    (∀ s, Looks c.bridge s → ∀ hs' c', c.run? (control failure) act hs' = some c' →
      ∃ s', Looks c'.bridge s' ∧ s.Leads s') ∧
    (Looks c.bridge .stopped → ∀ hs' c', c.run? (control failure) act hs' = some c' →
      Looks c'.bridge .stopped) := by
  have hnew : Looks (⟨host, .uninstalled, [], {}⟩ : HostBridge) .uninstalled :=
    ⟨rfl, rfl, hhost, rfl⟩
  obtain ⟨s, hs, -⟩ := hnew.run h
  refine ⟨⟨s, hs, fun t ht => ht.unique hs⟩, fun t ht hs' c' hrun => ht.run hrun,
    fun ht hs' c' hrun => ?_⟩
  obtain ⟨u, hu, hlead⟩ := ht.run hrun
  cases hlead with
  | stay => exact hu

/-- Two threads start the bridge, and it is stopped while the loop of the first has a message. A
third start comes too late. -/
theorem lifecycle_of_three_starts :
    let hs : List (Crowd.Happening Outside) := [.start, .start, .pump 0, .pump 1,
      .outside (.arrive (.mouse 0x200)), .pump 0]
    let host : Host Unit := ⟨3, [⟨⟨1⟩, .keyboard, ()⟩, ⟨⟨2⟩, .mouse, ()⟩], none,
      [.keyboard, .mouse], 0, 0, 0, []⟩
    let c : Crowd (Host Unit) (Loop Unit) := ⟨⟨host, .running, [⟨1⟩, ⟨2⟩], {}⟩,
      [.looping (.received (.mouse 0x200)), .returned (.error .alreadyRunning)]⟩
    (⟨{ host := {} }, []⟩ : Crowd _ _).run? (control none) act hs = some c ∧
      Looks c.bridge .running ∧ (∃! s, Looks c.bridge s) ∧
      ∃ c', c.run? (control none) act [.stop, .pump 0, .start, .pump 2] = some c' ∧
        ∃ s, Looks c'.bridge s ∧ BridgeState.running.Leads s := by
  intro hs host c
  have hrun : (⟨{ host := {} }, []⟩ : Crowd _ _).run? (control none) act hs = some c := rfl
  have hrunning : Looks c.bridge .running := ⟨rfl, ⟨⟨1⟩, ⟨2⟩, by decide, rfl, rfl⟩, rfl⟩
  obtain ⟨hone, hlater, -⟩ := lifecycle rfl hrun
  obtain ⟨c', hc'⟩ : ∃ c', c.run? (control none) act [.stop, .pump 0, .start, .pump 2] = some c' :=
    ⟨_, rfl⟩
  exact ⟨hrun, hrunning, hone, c', hc', hlater .running hrunning _ c' hc'⟩

end HostBridge

end InputRelay
