import InputRelay.Proofs.Bridge.Calls
import InputRelay.Proofs.Host.Tally
import InputRelay.Proofs.Relay.Accounting

/-!
# The listeners of a relay

What every call to a host keeps, whatever happens at a bridge keeps (`HostControl.Keeps`). A host
keeps count of its listeners (`Host.Tallies`), and in the log of an overheard host the handles stand
in the order of their numbers (`Overheard.Numbers`). Every run of a relay can be overheard, so that
each listener of a stopped bridge has been removed once (`Relay.hasCleared`).
-/

namespace InputRelay

open HostBridge (Looks Outside act control)

/-! ## What every call keeps -/

/-- Every call to the host keeps a property of it. -/
structure HostControl.Keeps {σ κ : Type} (control : HostControl σ κ) (P : σ → Prop) : Prop where
  install : ∀ {kind : ListenerKind} {h : σ}, P h → P (control.install kind h).2
  uninstall : ∀ {handle : ListenerHandle} {h : σ}, P h → P (control.uninstall handle h)
  requestQuit : ∀ {h : σ}, P h → P (control.requestQuit h)
  loopStep : ∀ {loop loop' : κ} {h h' : σ} {e : Option InputEvent},
    control.loopStep? loop h = some (loop', h', e) → P h → P h'

namespace HostControl.Keeps

variable {σ κ ι : Type} {control : HostControl σ κ} {P : σ → Prop} {b : Bridge σ}

theorem tearDown (hk : control.Keeps P) (h : P b.host) : P (b.tearDown control).host := by
  unfold Bridge.tearDown
  generalize b.host = host at h
  induction b.handles generalizing host with
  | nil => exact h
  | cons handle handles ih => exact ih _ (hk.uninstall h)

theorem stop (hk : control.Keeps P) (h : P b.host) : P (b.stop control).host := by
  unfold Bridge.stop
  split
  · exact hk.requestQuit (hk.tearDown h)
  · exact hk.tearDown h

theorem installAll (hk : control.Keeps P) (kinds : List ListenerKind) (h : P b.host) :
    P (b.installAll control kinds).2.host := by
  induction kinds generalizing b with
  | nil => exact h
  | cons kind kinds ih =>
    have hinstall : P (control.install kind b.host).2 := hk.install h
    rw [Bridge.installAll]
    rcases hi : control.install kind b.host with ⟨e | handle, host⟩
    · rw [hi] at hinstall
      exact hk.tearDown hinstall
    · rw [hi] at hinstall
      exact ih hinstall

theorem start (hk : control.Keeps P) (h : P b.host) : P (b.start control).2.host := by
  unfold Bridge.start
  split
  · exact h
  · exact h
  · exact hk.installAll _ h

variable {act : ι → Bridge σ → Bridge σ} {c c' : Crowd σ κ}

theorem step {x : Crowd.Happening ι} (hk : control.Keeps P)
    (hact : ∀ o, x = .outside o → ∀ b, P b.host → P (act o b).host) (h : P c.bridge.host)
    (hx : c.step? control act x = some c') : P c'.bridge.host := by
  cases x with
  | start =>
    cases hx
    exact h
  | stop =>
    cases hx
    exact hk.stop h
  | outside o =>
    cases hx
    exact hact o rfl _ h
  | pump number =>
    obtain ⟨p, p', -, hmoves, -⟩ := Crowd.step?_pump hx
    generalize c'.bridge = b' at hmoves ⊢
    have hstart : P (c.bridge.start control).2.host := hk.start h
    cases hmoves with
    | started hs | refused hs =>
      rw [hs] at hstart
      exact hstart
    | looped _ hl => exact hk.loopStep hl h
    | quit => exact h
    | left => exact hk.tearDown h

theorem run {hs : List (Crowd.Happening ι)} (hk : control.Keeps P)
    (hact : ∀ o, .outside o ∈ hs → ∀ b, P b.host → P (act o b).host) (h : P c.bridge.host)
    (hrun : c.run? control act hs = some c') : P c'.bridge.host := by
  induction hs generalizing c with
  | nil => exact Option.some.inj hrun ▸ h
  | cons x hs ih =>
    obtain ⟨d, hd, hrest⟩ := foldlM_cons_eq_some.mp hrun
    refine ih (fun o ho => hact o (List.mem_cons_of_mem _ ho)) (hk.step ?_ h hd) hrest
    rintro o rfl
    exact hact o List.mem_cons_self

end HostControl.Keeps

/-! ## The count of a host -/

theorem HostBridge.keeps_tallies (failure : Option String) :
    (control failure).Keeps Host.Tallies where
  install := Host.Tallies.install
  uninstall := Host.Tallies.uninstall
  requestQuit h := h.congr rfl rfl rfl rfl
  loopStep hl h := by
    obtain ⟨⟨loop', host, d⟩, hstep, he⟩ := Option.map_eq_some_iff.mp hl
    cases he
    cases Loop.moves_of_step? hstep <;> exact h.congr rfl rfl rfl rfl

/-! ## The numbers in the log -/

/-- The host keeps count of its listeners, and in the log they stand with the numbers 1, 2, and so
on. -/
structure Overheard.Numbers (o : Overheard (Host Unit)) : Prop where
  tallies : o.host.Tallies
  issued : o.calls.filterMap HostCall.issued? =
    (List.range' 1 o.host.granted.length).map ListenerHandle.mk

namespace Overheard.Numbers

variable {o : Overheard (Host Unit)}

/-- A call that issues no handle changes no number. -/
theorem append (h : o.Numbers) {host : Host Unit} {call : HostCall} (htallies : host.Tallies)
    (hgranted : host.granted = o.host.granted) (hcall : call.issued? = none) :
    Overheard.Numbers ⟨host, o.calls ++ [call]⟩ := by
  refine ⟨htallies, ?_⟩
  rw [hgranted, ← h.issued, List.filterMap_append]
  simp [hcall]

theorem install (failure : Option String) {kind : ListenerKind} (h : o.Numbers) :
    ((control failure).logged.install kind o).2.Numbers := by
  have htallies : (o.host.install kind ()).2.Tallies := h.tallies.install
  have hgranted := o.host.granted_install kind ()
  show Overheard.Numbers ⟨(o.host.install kind ()).2,
    o.calls ++ [.install kind (o.host.install kind ()).1]⟩
  by_cases hrefused : o.host.refuses = some kind
  · rw [if_pos hrefused] at hgranted
    refine h.append htallies hgranted ?_
    rw [Host.install_of_refused hrefused]
    rfl
  · rw [if_neg hrefused] at hgranted
    refine ⟨htallies, ?_⟩
    -- The next number is one more than the count of those granted so far.
    rw [hgranted, List.length_append, List.length_singleton, List.range'_1_concat, List.map_append,
      List.filterMap_append, h.issued, Host.install_of_granted hrefused, h.tallies.issued]
    simp [HostCall.issued?, Nat.add_comm]

theorem uninstall (failure : Option String) {handle : ListenerHandle} (h : o.Numbers) :
    ((control failure).logged.uninstall handle o).Numbers := by
  refine h.append h.tallies.uninstall ?_ rfl
  show (o.host.uninstall handle).granted = _
  unfold Host.uninstall
  split <;> rfl

theorem loopStep (failure : Option String) {loop loop' : Option (Loop Unit)}
    {o' : Overheard (Host Unit)} {e : Option InputEvent}
    (hl : (control failure).logged.loopStep? loop o = some (loop', o', e)) (h : o.Numbers) :
    o'.Numbers := by
  cases loop with
  | none =>
    cases hl
    exact h.append h.tallies rfl rfl
  | some loop =>
    obtain ⟨⟨next, host, d⟩, hstep, he⟩ := Option.map_eq_some_iff.mp hl
    cases he
    have htallies := (HostBridge.keeps_tallies failure).loopStep hstep h.tallies
    have hgranted : host.granted = o.host.granted := by
      obtain ⟨⟨_, _, _⟩, hmove, hd⟩ := Option.map_eq_some_iff.mp hstep
      cases hd
      cases Loop.moves_of_step? hmove <;> rfl
    exact ⟨htallies, by rw [hgranted]; exact h.issued⟩

theorem keeps (failure : Option String) : (control failure).logged.Keeps Overheard.Numbers where
  install := install failure
  uninstall := uninstall failure
  requestQuit h := h.append (h.tallies.congr rfl rfl rfl rfl) rfl rfl
  loopStep := loopStep failure

end Overheard.Numbers

/-! ## A relay overheard -/

/-- The same done at any host. -/
def HostBridge.Outside.others : Outside → Others (Host Unit)
  | arrive m => .host fun h => h.enqueue m
  | requestQuit => .host fun h => h.requestQuit
  | deposit e => .deposit e
  | take => .take

/-- The same happening, as it can be overheard. -/
def Crowd.Happening.others : Crowd.Happening Outside → Crowd.Happening (Others (Host Unit))
  | start => .start
  | pump number => .pump number
  | stop => .stop
  | outside o => .outside o.others

theorem Crowd.step?_others {failure : Option String} (c : Crowd (Host Unit) (Loop Unit))
    (x : Crowd.Happening Outside) :
    c.step? (control failure) Others.act x.others = c.step? (control failure) act x := by
  cases x with
  | start | pump number | stop => rfl
  | outside o => cases o <;> rfl

theorem HostBridge.Outside.keeps_numbers (o : Outside) {b : Bridge (Overheard (Host Unit))}
    (h : b.host.Numbers) : (o.others.actBesideLog b).host.Numbers := by
  cases o with
  | arrive m | requestQuit => exact ⟨h.tallies.congr rfl rfl rfl rfl, h.issued⟩
  | deposit e | take => exact h

/-- A new bridge on an overheard host, and nobody at it. -/
def Crowd.overheardNew (host : Host Unit) : Crowd (Overheard (Host Unit)) (Option (Loop Unit)) :=
  ⟨{ host := ⟨host, []⟩ }, []⟩

/-- Since the bridge was new on this host, each listener has been removed once. The host has none
left and has counted as many removals as installations; and it can have been overheard how the
handles that it gave out, with the numbers 1, 2, and so on, were given up, each once. -/
structure Crowd.HasCleared (failure : Option String) (host : Host Unit)
    (c : Crowd (Host Unit) (Loop Unit)) : Prop where
  live : c.bridge.host.live = []
  counted : c.bridge.host.uninstalls = c.bridge.host.granted.length
  overheard : ∃ ys o, overhear? (control failure) (overheardNew host) ys = some o ∧
    o.unheard (control failure) = c ∧
    o.bridge.calls.filterMap HostCall.issued? =
      (List.range' 1 c.bridge.host.granted.length).map ListenerHandle.mk ∧
    o.bridge.calls.filterMap HostCall.removed? = o.bridge.calls.filterMap HostCall.issued?

namespace Relay

variable {failure : Option String} {host : Host Unit} {bindings : Bindings} {b : Books}
  {r r' : Relay}

/-- The crowd of the relay can have been overheard since the relay was new. -/
structure IsOverheard (failure : Option String) (host : Host Unit) (r : Relay)
    (c : Crowd (Overheard (Host Unit)) (Option (Loop Unit))) : Prop where
  run : ∃ ys, Crowd.overhear? (control failure) (Crowd.overheardNew host) ys = some c
  crowd : c.unheard (control failure) = r.crowd
  numbers : c.bridge.host.Numbers

theorem IsOverheard.step {x : Happening} {c : Crowd (Overheard (Host Unit)) (Option (Loop Unit))}
    (h : IsOverheard failure host r c) (hx : r.step? failure x = some r') :
    ∃ c', IsOverheard failure host r' c' := by
  obtain ⟨ys, hys⟩ := h.run
  rcases step?_crowd hx with hsame | ⟨y, hy⟩
  · exact ⟨c, h.run, h.crowd.trans hsame.symm, h.numbers⟩
  · rw [← Crowd.step?_others, ← h.crowd] at hy
    obtain ⟨zs, c', hzs, hc', honly⟩ := Crowd.exists_overhear?_step hy
    refine ⟨c', ⟨ys ++ zs, ?_⟩, hc', ?_⟩
    · rw [Crowd.overhear?, Crowd.run?, List.foldlM_append]
      exact Option.bind_eq_some_iff.mpr ⟨c, hys, hzs⟩
    · refine (Overheard.Numbers.keeps failure).run ?_ h.numbers hzs
      intro o ho b hb
      -- What others do here is what they do at a host with a queue.
      cases y with
      | outside o' =>
        cases honly _ ho
        exact o'.keeps_numbers hb
      | start | pump number | stop => cases honly _ ho

theorem exists_isOverheard (hhost : host.IsFresh) {hs : List Happening}
    (h : hs.foldlM (watch? failure) ({}, new host bindings) = some (b, r)) :
    ∃ c, IsOverheard failure host r c := by
  have hnew : IsOverheard failure host (new host bindings) (Crowd.overheardNew host) :=
    ⟨⟨[], rfl⟩, rfl, hhost.tallies, by rw [Crowd.overheardNew, hhost.granted_eq]; rfl⟩
  refine foldlM_keeps (P := fun w : Books × Relay => ∃ c, IsOverheard failure host w.2 c) ?_ h
    ⟨_, hnew⟩
  rintro ⟨b, r⟩ x w ⟨c, hc⟩ hx
  obtain ⟨r', hr', rfl⟩ := Option.map_eq_some_iff.mp hx
  exact hc.step hr'

/-- **Each listener is removed once.** A bridge on a host that was fresh, once it is stopped, has
removed each of its listeners by one call, in the order in which they were installed. -/
theorem hasCleared (hhost : host.IsFresh) {hs : List Happening}
    (h : hs.foldlM (watch? failure) ({}, new host bindings) = some (b, r))
    (hstopped : Looks r.crowd.bridge .stopped) : r.crowd.HasCleared failure host := by
  obtain ⟨c, ⟨ys, hys⟩, hcrowd, hnumbers⟩ := exists_isOverheard hhost h
  have hplain : c.bridge.host.host = r.crowd.bridge.host :=
    congrArg (fun c => c.bridge.host) hcrowd
  have hstate : c.bridge.state = .stopped :=
    (congrArg (fun c => c.bridge.state) hcrowd).trans hstopped.state_eq
  have haccords : c.Accords :=
    Crowd.Accords.run (c := Crowd.overheardNew host) ⟨.fresh, nofun, nofun⟩ hys
  have hissued := haccords.course.issued_eq
  rw [haccords.handles_of_stopped hstate, List.append_nil] at hissued
  refine ⟨hstopped.2.2.1, ?_, ys, c, hys, hcrowd, ?_, hissued.symm⟩
  · have hremoved := hnumbers.tallies.removed
    rw [hplain, hstopped.2.2.1] at hremoved
    exact hremoved
  · rw [← hplain]
    exact hnumbers.issued

end Relay

end InputRelay
