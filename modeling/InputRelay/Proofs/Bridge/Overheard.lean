import InputRelay.Proofs.Bridge.Crowd

/-!
# A bridge overheard

A host seen through a log (`HostControl.logged`): every call that a bridge makes is put at the end of
it, whatever the host answers. A run of the loop is logged as it begins, by a step of its own, so
that others can come between the installation of the listeners and that call. Nothing else is
different: whatever can happen at the host can be overheard (`Crowd.exists_overhear?`).
-/

namespace InputRelay

/-- A call to a host, with the answer if there is one. -/
inductive HostCall where
  | install (kind : ListenerKind) (answer : Except HostError ListenerHandle)
  | uninstall (handle : ListenerHandle)
  | runLoop
  | requestQuit

namespace HostCall

def isRunLoop : HostCall → Bool
  | runLoop => true
  | _ => false

def isRequestQuit : HostCall → Bool
  | requestQuit => true
  | _ => false

/-- The handle that the call was answered with. -/
def issued? : HostCall → Option ListenerHandle
  | install _ (.ok handle) => some handle
  | _ => none

/-- The handle that the call gave up. -/
def removed? : HostCall → Option ListenerHandle
  | uninstall handle => some handle
  | _ => none

end HostCall

/-- A host with the calls made to it, the last one last. -/
structure Overheard (σ : Type) where
  host : σ
  calls : List HostCall := []

variable {σ κ : Type}

/-- The host with a log of the calls to it. In the loop, `none` stands before the call to run it. -/
def HostControl.logged (control : HostControl σ κ) : HostControl (Overheard σ) (Option κ) where
  install kind o :=
    let (answer, host) := control.install kind o.host
    (answer, ⟨host, o.calls ++ [.install kind answer]⟩)
  uninstall handle o := ⟨control.uninstall handle o.host, o.calls ++ [.uninstall handle]⟩
  requestQuit o := ⟨control.requestQuit o.host, o.calls ++ [.requestQuit]⟩
  enter := none
  loopStep?
    | none, o => some (some control.enter, ⟨o.host, o.calls ++ [.runLoop]⟩, none)
    | some loop, o => (control.loopStep? loop o.host).map fun (loop, host, e) =>
        (some loop, ⟨host, o.calls⟩, e)
  loopResult? loop := loop.bind control.loopResult?

namespace Bridge

variable (control : HostControl σ κ) (b : Bridge (Overheard σ))

/-- The calls made so far. -/
def calls (b : Bridge (Overheard σ)) : List HostCall := b.host.calls

@[simp] theorem calls_mk (o : Overheard σ) (state : BridgeState) (handles : List ListenerHandle)
    (mailbox : Mailbox) : (⟨o, state, handles, mailbox⟩ : Bridge (Overheard σ)).calls = o.calls :=
  rfl

theorem tearDown_calls :
    (b.tearDown control.logged).calls = b.calls ++ b.handles.map HostCall.uninstall := by
  unfold calls tearDown
  generalize b.host = host
  induction b.handles generalizing host with
  | nil => exact (List.append_nil _).symm
  | cons handle handles ih =>
    rw [List.foldl_cons, ih]
    exact List.append_assoc _ [HostCall.uninstall handle] _

theorem stop_calls :
    (b.stop control.logged).calls =
      b.calls ++ b.handles.map HostCall.uninstall ++
        if b.state = .running then [.requestQuit] else [] := by
  unfold stop
  split
  · rw [← tearDown_calls control]
    rfl
  · rw [← tearDown_calls control, List.append_nil]

open HostCall in
/-- What the first section of a start comes to, with its result and the bridge afterwards. -/
inductive Starts (b : Bridge (Overheard σ)) :
    Except HostError Unit → Bridge (Overheard σ) → Prop where
  | whileRunning (h : b.state = .running) : Starts b (.error .alreadyRunning) b
  | afterStop (h : b.state = .stopped) : Starts b (.error .alreadyStopped) b
  | noKeyboard {e : HostError} {host : σ} (h : b.state = .uninstalled)
    (hcalls : b.calls = []) :
    Starts b (.error e)
      ⟨⟨host, [install .keyboard (.error e)]⟩, .stopped, [], b.mailbox.shutDown⟩
  | noMouse {k : ListenerHandle} {e : HostError} {host : σ} (h : b.state = .uninstalled)
    (hcalls : b.calls = []) :
    Starts b (.error e)
      ⟨⟨host, [install .keyboard (.ok k), install .mouse (.error e), uninstall k]⟩, .stopped, [],
        b.mailbox.shutDown⟩
  | installed {k m : ListenerHandle} {host : σ} (h : b.state = .uninstalled)
    (hcalls : b.calls = []) :
    Starts b (.ok ())
      ⟨⟨host, [install .keyboard (.ok k), install .mouse (.ok m)]⟩, .running, [k, m], b.mailbox⟩

variable {b}

theorem starts (hnew : b.state = .uninstalled → b.handles = [] ∧ b.calls = []) :
    b.Starts (b.start control.logged).1 (b.start control.logged).2 := by
  cases hstate : b.state with
  | running =>
    rw [start_of_running _ hstate]
    exact .whileRunning hstate
  | stopped =>
    rw [start_of_stopped _ hstate]
    exact .afterStop hstate
  | uninstalled =>
    obtain ⟨hhandles, hnone⟩ := hnew hstate
    have hcalls : b.host.calls = [] := hnone
    rw [start, hstate]
    rcases hk : control.install .keyboard b.host.host with ⟨e | k, host⟩
    · simp only [installAll, HostControl.logged, hk, tearDown, hhandles, hcalls, List.foldl_nil]
      exact .noKeyboard hstate hnone
    rcases hm : control.install .mouse host with ⟨e | m, host'⟩
    · simp only [installAll, HostControl.logged, hk, hm, tearDown, hhandles, hcalls,
        List.nil_append, List.foldl_cons, List.foldl_nil, List.cons_append]
      exact .noMouse hstate hnone
    · simp only [installAll, HostControl.logged, hk, hm, hhandles, hcalls, List.nil_append,
        List.cons_append]
      exact .installed hstate hnone

variable {b' : Bridge (Overheard σ)} {result : Except HostError Unit}

theorem Starts.mem_calls (h : b.Starts result b') : ∀ call ∈ b.calls, call ∈ b'.calls := by
  cases h with
  | whileRunning | afterStop => exact fun _ => id
  | noKeyboard _ hcalls | noMouse _ hcalls | installed _ hcalls =>
    rw [hcalls]
    exact List.forall_mem_nil _

theorem Starts.shut (h : b.Starts result b')
    (hshut : b.state = .stopped → b.mailbox.shuttingDown = true) :
    b'.state = .stopped → b'.mailbox.shuttingDown = true := by
  cases h with
  | whileRunning | afterStop => exact hshut
  | noKeyboard | noMouse => exact fun _ => rfl
  | installed => exact nofun

end Bridge

/-! ## Others at an overheard host -/

/-- What others do: they change the host in whatever way, and they use the mailbox. -/
inductive Others (σ : Type) where
  | host (change : σ → σ)
  | deposit (e : InputEvent)
  | take
  | shutDown

namespace Others

/-- The bridge after others have done something. -/
def act : Others σ → Bridge σ → Bridge σ
  | host change, b => { b with host := change b.host }
  | deposit e, b => { b with mailbox := b.mailbox.deposit e }
  | take, b => { b with mailbox := b.mailbox.tryTake.2 }
  | shutDown, b => { b with mailbox := b.mailbox.shutDown }

/-- The same at an overheard host. The log does not show it. -/
def actBesideLog : Others σ → Bridge (Overheard σ) → Bridge (Overheard σ)
  | host change => act (.host fun o => { o with host := change o.host })
  | deposit e => act (.deposit e)
  | take => act .take
  | shutDown => act .shutDown

@[simp] theorem actBesideLog_calls (o : Others σ) (b : Bridge (Overheard σ)) :
    (o.actBesideLog b).calls = b.calls := by
  cases o <;> rfl

end Others

/-- The crowd at an overheard host after a row of happenings. -/
def Crowd.overhear? (control : HostControl σ κ) (c : Crowd (Overheard σ) (Option κ))
    (hs : List (Crowd.Happening (Others σ))) : Option (Crowd (Overheard σ) (Option κ)) :=
  c.run? control.logged Others.actBesideLog hs

/-! ## The log changes nothing -/

variable (control : HostControl σ κ)

namespace Bridge

/-- The bridge without the log. -/
def unheard (b : Bridge (Overheard σ)) : Bridge σ := { b with host := b.host.host }

variable (b : Bridge (Overheard σ))

theorem unheard_tearDown : (b.tearDown control.logged).unheard = b.unheard.tearDown control := by
  unfold tearDown unheard
  simp only
  generalize b.host = o
  induction b.handles generalizing o with
  | nil => rfl
  | cons handle handles ih =>
    rw [List.foldl_cons, List.foldl_cons]
    exact ih _

theorem unheard_stop : (b.stop control.logged).unheard = b.unheard.stop control := by
  have htorn := unheard_tearDown control b
  unfold stop
  by_cases hstate : b.state = .running
  · have hplain : b.unheard.state = .running := hstate
    simp only [hstate, hplain, if_true, ← htorn]
    rfl
  · have hplain : ¬ b.unheard.state = .running := hstate
    simp only [hstate, hplain, if_false, htorn]

theorem unheard_installAll (kinds : List ListenerKind) :
    (b.installAll control.logged kinds).map id unheard = b.unheard.installAll control kinds := by
  induction kinds generalizing b with
  | nil => rfl
  | cons kind kinds ih =>
    rcases hi : control.install kind b.host.host with ⟨e | handle, host⟩
    · have hplain : control.install kind b.unheard.host = (.error e, host) := hi
      simp only [installAll, HostControl.logged, hi, hplain]
      exact congrArg (Prod.mk _) (unheard_tearDown control _)
    · have hplain : control.install kind b.unheard.host = (.ok handle, host) := hi
      simp only [installAll, HostControl.logged, hi, hplain]
      exact ih _

theorem unheard_start :
    (b.start control.logged).map id unheard = b.unheard.start control := by
  have hplain : b.unheard.state = b.state := rfl
  unfold start
  rw [hplain]
  cases b.state with
  | uninstalled => exact unheard_installAll control b _
  | running => rfl
  | stopped => rfl

theorem unheard_act (o : Others σ) : (o.actBesideLog b).unheard = o.act b.unheard := by
  cases o <;> rfl

end Bridge

namespace Pump

/-- The pump without the log. -/
def unheard : Pump (Option κ) → Pump κ
  | starting => starting
  | looping loop => looping (loop.getD control.enter)
  | leaving result => leaving result
  | returned result => returned result

/-- With and without a log, a pump makes the same steps, but for the call to run the loop. -/
theorem unheard_step? {p : Pump (Option κ)} (hp : p ≠ looping none) (b : Bridge (Overheard σ)) :
    (p.step? control.logged b).map (Prod.map (unheard control) Bridge.unheard) =
      (p.unheard control).step? control b.unheard := by
  cases p with
  | starting =>
    have hstart := b.unheard_start control
    rw [step?, unheard, step?, ← hstart]
    rcases b.start control.logged with ⟨e | ⟨⟩, b'⟩ <;> rfl
  | looping loop =>
    cases loop with
    | none => exact absurd rfl hp
    | some loop =>
      have hresult : control.logged.loopResult? (some loop) = control.loopResult? loop := rfl
      rw [step?, unheard, Option.getD_some, step?, hresult]
      cases control.loopResult? loop with
      | some result => rfl
      | none =>
        have hstep : control.logged.loopStep? (some loop) b.host =
          (control.loopStep? loop b.host.host).map fun (loop, host, e) =>
            (some loop, ⟨host, b.host.calls⟩, e) := rfl
        have hhost : b.unheard.host = b.host.host := rfl
        simp only [hstep, hhost]
        rcases control.loopStep? loop b.host.host with _ | ⟨loop', host, _ | e⟩ <;> rfl
  | leaving result =>
    rw [step?, unheard, step?, ← Bridge.unheard_tearDown control b]
    rfl
  | returned result => rfl

end Pump

namespace Crowd

/-- The crowd without the log. -/
def unheard (c : Crowd (Overheard σ) (Option κ)) : Crowd σ κ :=
  ⟨c.bridge.unheard, c.pumps.map (Pump.unheard control)⟩

variable {control} {c : Crowd (Overheard σ) (Option κ)} {d : Crowd σ κ}

theorem exists_step?_of_ne {number : Nat} {p : Pump (Option κ)} {q : Pump κ} {bridge : Bridge σ}
    (hp : c.pumps[number]? = some p) (hne : p ≠ .looping none)
    (h : (p.unheard control).step? control c.bridge.unheard = some (q, bridge)) :
    ∃ c', c.step? control.logged Others.actBesideLog (.pump number) = some c' ∧
      c'.unheard control = ⟨bridge, (c.unheard control).pumps.set number q⟩ := by
  rw [← Pump.unheard_step? control hne] at h
  obtain ⟨⟨p', b'⟩, hstep, heq⟩ := Option.map_eq_some_iff.mp h
  cases heq
  refine ⟨⟨b', c.pumps.set number p'⟩, ?_, ?_⟩
  · rw [step?, hp, Option.bind_some, hstep]
    rfl
  · rw [unheard, unheard, List.map_set]

/-- The call to run the loop is a step that only the log shows. -/
theorem exists_step?_of_looping_none (control : HostControl σ κ) {number : Nat}
    (hp : c.pumps[number]? = some (.looping none)) :
    ∃ c', c.step? control.logged Others.actBesideLog (.pump number) = some c' ∧
      c'.unheard control = c.unheard control ∧
      c'.pumps[number]? = some (.looping (some control.enter)) := by
  obtain ⟨hlt, hget⟩ := List.getElem?_eq_some_iff.mp hp
  refine ⟨⟨⟨⟨c.bridge.host.host, c.bridge.host.calls ++ [.runLoop]⟩, c.bridge.state,
    c.bridge.handles, c.bridge.mailbox⟩, c.pumps.set number (.looping (some control.enter))⟩,
    ?_, ?_, ?_⟩
  · rw [step?, hp, Option.bind_some]
    rfl
  · -- Without the log the pump is in the loop before the call as after it.
    have hpumps : (c.pumps.map (Pump.unheard control)).set number (.looping control.enter) =
        c.pumps.map (Pump.unheard control) := by
      refine List.ext_getElem (List.length_set ..) fun i hi hi' => ?_
      rw [List.getElem_set]
      split
      · next heq =>
        subst heq
        rw [List.getElem_map, hget]
        rfl
      · rfl
    rw [unheard, unheard, List.map_set]
    exact congrArg (Crowd.mk _) hpumps
  · simp [hlt]

theorem exists_overhear?_step {x : Happening (Others σ)}
    (h : (c.unheard control).step? control Others.act x = some d) :
    ∃ hs c', c.overhear? control hs = some c' ∧ c'.unheard control = d ∧
      ∀ y ∈ hs, y = x := by
  cases x with
  | start =>
    cases h
    refine ⟨[.start], _, rfl, ?_, by simp⟩
    simp [unheard, Pump.unheard]
  | stop =>
    cases h
    exact ⟨[.stop], _, rfl, by rw [unheard, unheard, Bridge.unheard_stop], by simp⟩
  | outside o =>
    cases h
    exact ⟨[.outside o], _, rfl, by rw [unheard, unheard, Bridge.unheard_act], by simp⟩
  | pump number =>
    obtain ⟨p', hp', h⟩ := Option.bind_eq_some_iff.mp h
    obtain ⟨⟨q, bridge⟩, hstep, rfl⟩ := Option.map_eq_some_iff.mp h
    rw [unheard, List.getElem?_map] at hp'
    obtain ⟨p, hp, rfl⟩ := Option.map_eq_some_iff.mp hp'
    by_cases hne : p = .looping none
    · subst hne
      obtain ⟨entered, henter, hsame, hget⟩ := exists_step?_of_looping_none control hp
      have hbridge : entered.bridge.unheard = c.bridge.unheard := congrArg Crowd.bridge hsame
      obtain ⟨c', hc', heq⟩ := exists_step?_of_ne hget nofun (by rw [hbridge]; exact hstep)
      refine ⟨[.pump number, .pump number], c', ?_, ?_, by simp⟩
      · exact foldlM_cons_eq_some.mpr ⟨_, henter, foldlM_cons_eq_some.mpr ⟨_, hc', rfl⟩⟩
      · rw [heq, hsame]
    · obtain ⟨c', hc', heq⟩ := exists_step?_of_ne hp hne hstep
      exact ⟨[.pump number], c', foldlM_cons_eq_some.mpr ⟨_, hc', rfl⟩, heq, by simp⟩

/-- **The log changes nothing.** Whatever can happen at a host can be overheard. -/
theorem exists_overhear? {hs : List (Happening (Others σ))}
    (h : (c.unheard control).run? control Others.act hs = some d) :
    ∃ hs' c', c.overhear? control hs' = some c' ∧ c'.unheard control = d := by
  -- The overheard crowd goes along, with one step or two for each happening.
  induction hs generalizing c with
  | nil =>
    cases Option.some.inj h
    exact ⟨[], c, rfl, rfl⟩
  | cons x hs ih =>
    obtain ⟨d', hd', hrest⟩ := foldlM_cons_eq_some.mp h
    obtain ⟨first, c', hc', rfl, -⟩ := exists_overhear?_step hd'
    obtain ⟨later, c'', hc'', heq⟩ := ih hrest
    refine ⟨first ++ later, c'', ?_, heq⟩
    rw [overhear?, run?, List.foldlM_append]
    exact Option.bind_eq_some_iff.mpr ⟨c', hc', hc''⟩

end Crowd

end InputRelay
