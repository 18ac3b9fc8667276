import InputRelay.Proofs.Bridge.Release

/-!
# No quit is lost

A stop that finds the bridge running leaves a quit in the queue of the host, and only the pump that
installed the listeners takes messages out of that queue. So the quit is there as long as that pump
is in the loop or about to enter it (`no_lost_quit`), and the loop ends with it.
-/

namespace InputRelay.HostBridge

open Message
open Crowd (Happening)

variable {c c' : Crowd (Host Unit) (Loop Unit)} {i j : Nat} {q : Pump (Loop Unit)}

/-! ## The stop that releases a pump -/

theorem queue_tearDown (b : HostBridge) (failure : Option String) :
    (b.tearDown (control failure)).host.queue = b.host.queue := by
  show (b.handles.foldl (fun host handle => host.uninstall handle) b.host).queue = b.host.queue
  generalize b.host = host
  induction b.handles generalizing host with
  | nil => rfl
  | cons handle handles ih =>
    have hone : (host.uninstall handle).queue = host.queue := by
      unfold Host.uninstall
      split <;> rfl
    rw [List.foldl_cons, ih, hone]

theorem queue_stop {b : HostBridge} {failure : Option String} (h : b.state = .running) :
    (b.stop (control failure)).host.queue = b.host.queue ++ [.quit] := by
  rw [← queue_tearDown b failure, Bridge.stop, if_pos h]
  rfl

/-- After a stop no pump gets into the loop. -/
theorem isInLoop_of_run {hs : List (Happening Outside)} (h : Looks c.bridge .stopped)
    (hrun : c.run? (control none) act hs = some c') (hq : c'.pumps[j]? = some q)
    (hin : q.IsInLoop) : ∃ p, c.pumps[j]? = some p ∧ p.IsInLoop := by
  induction hs generalizing c with
  | nil =>
    cases Option.some.inj hrun
    exact ⟨q, hq, hin⟩
  | cons x hs ih =>
    obtain ⟨d, hd, hrest⟩ := foldlM_cons_eq_some.mp hrun
    obtain ⟨p, hp, hpin⟩ := ih (h.stays_stopped hd) hrest
    rcases isInLoop_of_step hd hp hpin with hold | ⟨hstate, -, -⟩
    · exact hold
    · simp [h.state_eq] at hstate

/-- After a stop of the running bridge, a pump that is still in the loop is released. -/
theorem exists_released {host : Host Unit} (hhost : host.live = [])
    {hs hs' : List (Happening Outside)}
    (h : (⟨{ host }, []⟩ : Crowd _ _).run? (control none) act hs = some c)
    (hrunning : c.bridge.state = .running)
    (h' : c.run? (control none) act (.stop :: hs') = some c')
    (hq : c'.pumps[i]? = some q) (hin : q.IsInLoop) :
    ∃ p, p.IsInLoop ∧ Released i p ⟨c.bridge.stop (control none), c.pumps⟩ ∧
      Crowd.run? (control none) act ⟨c.bridge.stop (control none), c.pumps⟩ hs' = some c' := by
  obtain ⟨c₀, hc₀, hrest⟩ := foldlM_cons_eq_some.mp h'
  cases hc₀
  have hnew : Looks (⟨host, .uninstalled, [], {}⟩ : HostBridge) .uninstalled :=
    ⟨rfl, rfl, hhost, rfl⟩
  have hsole : Sole (⟨⟨host, .uninstalled, [], {}⟩, []⟩ : Crowd (Host Unit) (Loop Unit)) :=
    ⟨by simp, by simp⟩
  obtain ⟨s, hlooks, -⟩ := hnew.run h
  have hstop : c.step? (control none) act .stop =
      some ⟨c.bridge.stop (control none), c.pumps⟩ := rfl
  have hsole₀ := (hsole.run hnew h).step hlooks hstop
  have hstopped : Looks (c.bridge.stop (control none)) .stopped := hlooks.stop
  obtain ⟨p, hp, hpin⟩ := isInLoop_of_run hstopped hrest hq hin
  refine ⟨p, hpin, ⟨hstopped, hp, fun j r hr hrin => ?_, ?_⟩, hrest⟩
  · exact hsole₀.single j i r p hr hp hrin hpin
  · obtain ⟨loop, rfl, -⟩ := hpin
    right
    rw [queue_stop hrunning]
    simp

/-! ## No quit is lost -/

/-- **No quit is lost.** After a stop of the running bridge, as long as the pump that installed the
listeners is in the loop or about to enter it, a quit is in the queue. The loop comes back without
an error after so many steps of its own, whatever happens between them; it receives the messages
ahead of the quit and none that has come after the stop, and what it looks up now it delivers to
nobody. -/
theorem no_lost_quit {host : Host Unit} (hhost : host.live = [])
    {hs hs' : List (Happening Outside)}
    (h : (⟨{ host }, []⟩ : Crowd _ _).run? (control none) act hs = some c)
    (hrunning : c.bridge.state = .running)
    (h' : c.run? (control none) act (.stop :: hs') = some c') {loop : Loop Unit}
    (hi : c'.pumps[i]? = some (.looping loop)) (hloop : loop ≠ .ended) :
    .quit ∈ c'.bridge.host.queue ∧
    (∃ n, ∀ more d, c'.run? (control none) act more = some d →
      more.countP (Happening.isStepOf i) ≤ n ∧
      (more.countP (Happening.isStepOf i) < n →
        (d.step? (control none) act (.pump i)).isSome = true) ∧
      (more.countP (Happening.isStepOf i) = n →
        d.pumps[i]? = some (.returned (.ok ())) ∧
        received c' more = aheadOfQuit c'.bridge.host.queue ++ [.quit])) ∧
    (∀ more d, c'.run? (control none) act more = some d →
      received c (.stop :: hs' ++ more) <+: aheadOfQuit c.bridge.host.queue ++ [.quit]) ∧
    (∀ m, loop = .received m →
      ∃ c₁, c'.step? (control none) act (.pump i) = some c₁ ∧ c₁.bridge = c'.bridge ∧
        c₁.pumps[i]? = some (.looping (.delivering m.event? [])) ∧
        ∀ more d, c₁.run? (control none) act more = some d →
          more.countP (Happening.isStepOf i) = 0 →
          ∃ d', d.step? (control none) act (.pump i) = some d' ∧ d'.bridge = d.bridge ∧
            d'.pumps[i]? = some (.looping .receiving)) := by
  have hin : (Pump.looping loop).IsInLoop := ⟨loop, rfl, hloop⟩
  obtain ⟨p₀, hin₀, hreleased₀, hrun⟩ := exists_released hhost h hrunning h' hi hin
  obtain ⟨p', hreleased, -⟩ := hreleased₀.run hrun
  obtain rfl : p' = .looping loop := Option.some.inj (hreleased.pump.symm.trans hi)
  have hawaited : (Pump.looping loop).awaited c'.bridge.host.queue =
      aheadOfQuit c'.bridge.host.queue ++ [.quit] := Pump.awaited_of_isInLoop hin
  refine ⟨hreleased.released.resolve_left hloop,
    ⟨(Pump.looping loop).stepsLeft c'.bridge.host.queue, fun more d hd => ?_⟩,
    fun more d hd => ?_, ?_⟩
  · obtain ⟨q, hq, hreceived, hsteps, -⟩ := hreleased.run hd
    refine ⟨by omega, fun hlt => hq.isSome_step? (by omega), fun heq => ?_⟩
    obtain rfl : q = .returned (.ok ()) := hq.eq_returned (by omega)
    have hall : received c' more = (Pump.looping loop).awaited c'.bridge.host.queue := by
      rw [← hreceived]
      exact (List.append_nil _).symm
    exact ⟨hq.pump, hall.trans hawaited⟩
  · have hlong : Crowd.run? (control none) act ⟨c.bridge.stop (control none), c.pumps⟩
        (hs' ++ more) = some d := by
      rw [Crowd.run?, List.foldlM_append]
      exact Option.bind_eq_some_iff.mpr ⟨c', hrun, hd⟩
    obtain ⟨q, -, hreceived, -⟩ := hreleased₀.run hlong
    have hahead : p₀.awaited (c.bridge.stop (control none)).host.queue =
        aheadOfQuit c.bridge.host.queue ++ [.quit] := by
      rw [Pump.awaited_of_isInLoop hin₀, queue_stop hrunning, aheadOfQuit_append_quit]
    exact ⟨_, hreceived.trans hahead⟩
  · rintro m rfl
    exact hreleased.looks_up

/-- The bridge is stopped while a key is about to be looked up and a click is in the queue. Another
key comes too late, and a second start as well. -/
theorem no_lost_quit_of_late_key :
    let hs : List (Happening Outside) := [.start, .pump 0,
      .outside (.arrive (.keyboard 0x100 0x41)), .outside (.arrive (.mouse 0x201)), .pump 0]
    let hs' : List (Happening Outside) :=
      [.outside (.arrive (.keyboard 0x100 0x42)), .start, .pump 1]
    let more : List (Happening Outside) := List.replicate 8 (.pump 0)
    ∃ c c' d, (⟨{ host := {} }, []⟩ : Crowd _ _).run? (control none) act hs = some c ∧
      c.bridge.state = .running ∧ c.run? (control none) act (.stop :: hs') = some c' ∧
      c'.pumps[0]? = some (.looping (.received (.keyboard 0x100 0x41))) ∧
      .quit ∈ c'.bridge.host.queue ∧ c'.run? (control none) act more = some d ∧
      d.pumps[0]? = some (.returned (.ok ())) ∧ received c' more = [.mouse 0x201, .quit] ∧
      received c (.stop :: hs' ++ more) <+: [.mouse 0x201, .quit] ∧
      ∃ c₁, c'.step? (control none) act (.pump 0) = some c₁ ∧ c₁.bridge = c'.bridge := by
  intro hs hs' more
  obtain ⟨c, hc, hrunning, hqueue⟩ : ∃ c : Crowd (Host Unit) (Loop Unit),
      (⟨{ host := {} }, []⟩ : Crowd _ _).run? (control none) act hs = some c ∧
        c.bridge.state = .running ∧ aheadOfQuit c.bridge.host.queue = [.mouse 0x201] :=
    ⟨_, rfl, rfl, rfl⟩
  obtain ⟨c', hc', hpump, hqueue'⟩ : ∃ c', c.run? (control none) act (.stop :: hs') = some c' ∧
      c'.pumps[0]? = some (.looping (.received (.keyboard 0x100 0x41))) ∧
      aheadOfQuit c'.bridge.host.queue = [.mouse 0x201] := by
    cases hc
    exact ⟨_, rfl, rfl, rfl⟩
  obtain ⟨d, hd, hover⟩ : ∃ d, c'.run? (control none) act more = some d ∧
      d.step? (control none) act (.pump 0) = none := by
    cases hc
    cases hc'
    exact ⟨_, rfl, rfl⟩
  obtain ⟨hquit, ⟨n, hn⟩, hlate, hlook⟩ := no_lost_quit rfl hc hrunning hc' hpump nofun
  obtain ⟨hle, hlt, heq⟩ := hn more d hd
  have hnot : ¬ more.countP (Happening.isStepOf 0) < n := fun h => by simpa [hover] using hlt h
  obtain ⟨hreturned, hreceived⟩ := heq (by omega)
  obtain ⟨c₁, hc₁, hsame, -⟩ := hlook _ rfl
  refine ⟨c, c', d, hc, hrunning, hc', hpump, hquit, hd, hreturned, ?_, ?_, c₁, hc₁, hsame⟩
  · rw [hreceived, hqueue']
    rfl
  · have hprefix := hlate more d hd
    rw [hqueue] at hprefix
    exact hprefix

end InputRelay.HostBridge
