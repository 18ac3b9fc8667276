import Mathlib.Data.List.Infix
import InputRelay.Proofs.Bridge.Overheard

/-!
# The calls a bridge makes to its host

A log has one of ten shapes, by the state of the bridge and by how far the pump is that installed the
listeners (`Course`). `Accords` ties it to the bridge and its crowd and is kept by every happening;
`host_calls_once` reads off what is done at most once.
-/

namespace InputRelay

variable {σ κ : Type}

/-! ## All that can be in the log -/

open HostCall in
/-- The calls of a bridge in a state and with these handles, while so many of its pumps are about to
run the loop. -/
inductive Course : BridgeState → List ListenerHandle → Nat → List HostCall → Prop where
  | fresh : Course .uninstalled [] 0 []
  | unused : Course .stopped [] 0 []
  | noKeyboard (e : HostError) : Course .stopped [] 0 [install .keyboard (.error e)]
  | noMouse (k : ListenerHandle) (e : HostError) :
    Course .stopped [] 0 [install .keyboard (.ok k), install .mouse (.error e), uninstall k]
  | started (k m : ListenerHandle) :
    Course .running [k, m] 1 [install .keyboard (.ok k), install .mouse (.ok m)]
  | looping (k m : ListenerHandle) :
    Course .running [k, m] 0 [install .keyboard (.ok k), install .mouse (.ok m), runLoop]
  | stoppedEarly (k m : ListenerHandle) :
    Course .stopped [] 1 [install .keyboard (.ok k), install .mouse (.ok m), uninstall k,
      uninstall m, requestQuit]
  | loopedLate (k m : ListenerHandle) :
    Course .stopped [] 0 [install .keyboard (.ok k), install .mouse (.ok m), uninstall k,
      uninstall m, requestQuit, runLoop]
  | stoppedLooping (k m : ListenerHandle) :
    Course .stopped [] 0 [install .keyboard (.ok k), install .mouse (.ok m), runLoop, uninstall k,
      uninstall m, requestQuit]
  | loopEnded (k m : ListenerHandle) :
    Course .stopped [] 0 [install .keyboard (.ok k), install .mouse (.ok m), runLoop, uninstall k,
      uninstall m]

namespace Course

variable {s : BridgeState} {handles : List ListenerHandle} {n : Nat} {calls : List HostCall}

theorem of_uninstalled (h : Course .uninstalled handles n calls) :
    handles = [] ∧ n = 0 ∧ calls = [] := by
  cases h
  exact ⟨rfl, rfl, rfl⟩

theorem start {b b' : Bridge (Overheard σ)} {result : Except HostError Unit}
    (h : Course b.state b.handles n b.calls) (hs : b.Starts result b') :
    Course b'.state b'.handles (n + result.isOk.toNat) b'.calls := by
  have hzero : b.state = .uninstalled → n = 0 := by
    intro hstate
    rw [hstate] at h
    exact h.of_uninstalled.2.1
  cases hs with
  | whileRunning | afterStop => exact h
  | noKeyboard hstate =>
    cases hzero hstate
    exact .noKeyboard _
  | noMouse hstate =>
    cases hzero hstate
    exact .noMouse _ _
  | installed hstate =>
    cases hzero hstate
    exact .started _ _

theorem runLoop (h : Course s handles (n + 1) calls) : Course s handles n (calls ++ [.runLoop]) := by
  generalize hn : n + 1 = n' at h
  cases h with
  | started k m =>
    cases hn
    exact .looping k m
  | stoppedEarly k m =>
    cases hn
    exact .loopedLate k m
  | _ => exact nomatch hn

theorem tearDown (h : Course s handles n calls) (hloop : .runLoop ∈ calls) :
    Course .stopped [] n (calls ++ handles.map HostCall.uninstall) := by
  cases h with
  | looping k m => exact .loopEnded k m
  | loopedLate k m => exact .loopedLate k m
  | stoppedLooping k m => exact .stoppedLooping k m
  | loopEnded k m => exact .loopEnded k m
  | _ => simp at hloop

theorem stop (h : Course s handles n calls) :
    Course .stopped [] n (calls ++ handles.map HostCall.uninstall ++
      if s = .running then [.requestQuit] else []) := by
  cases h with
  | fresh => exact .unused
  | unused => exact .unused
  | noKeyboard e => exact .noKeyboard e
  | noMouse k e => exact .noMouse k e
  | started k m => exact .stoppedEarly k m
  | looping k m => exact .stoppedLooping k m
  | stoppedEarly k m => exact .stoppedEarly k m
  | loopedLate k m => exact .loopedLate k m
  | stoppedLooping k m => exact .stoppedLooping k m
  | loopEnded k m => exact .loopEnded k m

/-- What was given up and what is still held make up what was got. -/
theorem issued_eq (h : Course s handles n calls) :
    calls.filterMap HostCall.issued? = calls.filterMap HostCall.removed? ++ handles := by
  cases h <;> rfl

/-- Whatever is given up has been got before. -/
theorem removed_isPrefix (h : Course s handles n calls) {earlier : List HostCall}
    (hpre : earlier <+: calls) :
    earlier.filterMap HostCall.removed? <+: earlier.filterMap HostCall.issued? := by
  have hall : ∀ earlier ∈ calls.inits,
      earlier.filterMap HostCall.removed? <+: earlier.filterMap HostCall.issued? := by
    cases h <;> simp [List.filterMap_cons, HostCall.removed?, HostCall.issued?]
  exact hall earlier ((List.mem_inits _ _).mpr hpre)

theorem handles_of_stopped (h : Course .stopped handles n calls) : handles = [] := by
  cases h <;> rfl

theorem runLoop_once (h : Course s handles n calls) : calls.countP HostCall.isRunLoop + n ≤ 1 := by
  cases h <;> simp [List.countP_cons, HostCall.isRunLoop]

theorem requestQuit_once (h : Course s handles n calls) :
    calls.countP HostCall.isRequestQuit ≤ 1 := by
  cases h <;> simp [List.countP_cons, HostCall.isRequestQuit]

theorem eq_append_of_runLoop (h : Course s handles n calls) (hloop : .runLoop ∈ calls) :
    ∃ k m later, calls = .install .keyboard (.ok k) :: .install .mouse (.ok m) :: later := by
  cases h with
  | looping k m => exact ⟨k, m, _, rfl⟩
  | loopedLate k m => exact ⟨k, m, _, rfl⟩
  | stoppedLooping k m => exact ⟨k, m, _, rfl⟩
  | loopEnded k m => exact ⟨k, m, _, rfl⟩
  | _ => simp at hloop

theorem not_runLoop_of_refused (h : Course s handles n calls) {kind : ListenerKind} {e : HostError}
    (he : .install kind (.error e) ∈ calls) : .runLoop ∉ calls := by
  cases h <;> simp at he ⊢

end Course

/-! ## Pumps and the log -/

namespace Pump

/-- The pump is about to run the loop. -/
def isBeforeLoop : Pump (Option κ) → Bool
  | .looping none => true
  | _ => false

/-- The pump is in the loop, or comes from it. -/
def isPastCall : Pump (Option κ) → Bool
  | .looping (some _) | .leaving _ => true
  | _ => false

end Pump

namespace Crowd

/-- The log of the host is as the bridge and the pumps are. A pump that has been in the loop may tear
the bridge down, and only such a pump: therefore the second clause. -/
structure Accords (c : Crowd (Overheard σ) (Option κ)) : Prop where
  course : Course c.bridge.state c.bridge.handles (c.pumps.countP Pump.isBeforeLoop) c.bridge.calls
  past : ∀ p ∈ c.pumps, p.isPastCall = true → .runLoop ∈ c.bridge.calls
  shut : c.bridge.state = .stopped → c.bridge.mailbox.shuttingDown = true

variable {control : HostControl σ κ} {c c' : Crowd (Overheard σ) (Option κ)}

theorem Accords.handles_of_stopped (h : c.Accords) (hstate : c.bridge.state = .stopped) :
    c.bridge.handles = [] := by
  have hcourse := h.course
  rw [hstate] at hcourse
  exact hcourse.handles_of_stopped

theorem Accords.start (h : c.Accords) : Accords { c with pumps := c.pumps ++ [.starting] } := by
  refine ⟨?_, fun p hp => ?_, h.shut⟩
  · simpa [List.countP_append, Pump.isBeforeLoop] using h.course
  · rcases List.mem_append.mp hp with hp | hp
    · exact h.past p hp
    · cases List.mem_singleton.mp hp
      exact nofun

theorem Accords.stop (h : c.Accords) :
    Accords { c with bridge := c.bridge.stop control.logged } := by
  refine ⟨?_, fun p hp hpast => ?_, fun _ => ?_⟩
  · rw [Bridge.stop_state, Bridge.stop_handles, Bridge.stop_calls]
    exact h.course.stop
  · rw [Bridge.stop_calls, List.append_assoc]
    exact List.mem_append_left _ (h.past p hp hpast)
  · rw [Bridge.stop_mailbox]
    rfl

theorem Accords.outside (h : c.Accords) (o : Others σ) :
    Accords { c with bridge := o.actBesideLog c.bridge } := by
  cases o with
  | host change => exact ⟨h.course, h.past, h.shut⟩
  | deposit e => exact ⟨h.course, h.past, h.shut⟩
  | take => exact ⟨h.course, h.past, h.shut⟩
  | shutDown => exact ⟨h.course, h.past, fun _ => rfl⟩

/-- With one pump replaced by another, they are counted as before but for these two. -/
theorem countP_set {pumps : List (Pump (Option κ))} {number : Nat} {p p' : Pump (Option κ)}
    (hp : pumps[number]? = some p) :
    (pumps.set number p').countP Pump.isBeforeLoop + p.isBeforeLoop.toNat =
      pumps.countP Pump.isBeforeLoop + p'.isBeforeLoop.toNat := by
  obtain ⟨hlt, hget⟩ := List.getElem?_eq_some_iff.mp hp
  rw [List.countP_set hlt, hget]
  cases hb : p.isBeforeLoop with
  | false => cases p'.isBeforeLoop <;> rfl
  | true =>
    have hpos : 0 < pumps.countP Pump.isBeforeLoop :=
      List.countP_pos_iff.mpr ⟨p, List.mem_of_getElem? hp, hb⟩
    cases p'.isBeforeLoop <;> simp <;> omega

theorem Accords.set {number : Nat} {p p' : Pump (Option κ)} {b' : Bridge (Overheard σ)}
    (h : c.Accords) (hp : c.pumps[number]? = some p)
    (hcourse : ∀ n, n + p.isBeforeLoop.toNat =
      c.pumps.countP Pump.isBeforeLoop + p'.isBeforeLoop.toNat →
        Course b'.state b'.handles n b'.calls)
    (hcalls : ∀ call ∈ c.bridge.calls, call ∈ b'.calls)
    (hpast : p'.isPastCall = true → .runLoop ∈ b'.calls)
    (hshut : b'.state = .stopped → b'.mailbox.shuttingDown = true) :
    Accords ⟨b', c.pumps.set number p'⟩ := by
  refine ⟨hcourse _ (countP_set hp), fun q hq hqpast => ?_, hshut⟩
  rcases List.mem_or_eq_of_mem_set hq with hq | rfl
  · exact hcalls _ (h.past q hq hqpast)
  · exact hpast hqpast

theorem Accords.starts (control : HostControl σ κ) (h : c.Accords) :
    c.bridge.Starts (c.bridge.start control.logged).1 (c.bridge.start control.logged).2 := by
  refine Bridge.starts control fun hstate => ?_
  have hcourse := h.course
  rw [hstate] at hcourse
  obtain ⟨hhandles, -, hcalls⟩ := hcourse.of_uninstalled
  exact ⟨hhandles, hcalls⟩

theorem Accords.starting {number : Nat} {p' : Pump (Option κ)} {b' : Bridge (Overheard σ)}
    {result : Except HostError Unit} (h : c.Accords) (hp : c.pumps[number]? = some .starting)
    (hs : c.bridge.Starts result b') (hbefore : p'.isBeforeLoop = result.isOk)
    (hpast : p'.isPastCall = false) : Accords ⟨b', c.pumps.set number p'⟩ := by
  refine h.set hp (fun n hn => ?_) hs.mem_calls (fun hp' => ?_) (hs.shut h.shut)
  · have hcount : n = c.pumps.countP Pump.isBeforeLoop + result.isOk.toNat := by
      rw [← hbefore]
      exact hn
    rw [hcount]
    exact h.course.start hs
  · exact absurd (hp'.symm.trans hpast) nofun

theorem Accords.pump {number : Nat} {p p' : Pump (Option κ)} {b' : Bridge (Overheard σ)}
    (h : c.Accords) (hp : c.pumps[number]? = some p)
    (hm : p.Moves control.logged c.bridge p' b') : Accords ⟨b', c.pumps.set number p'⟩ := by
  have hcourse := h.course
  cases hm with
  | started hs =>
    have hstarts := h.starts control
    rw [hs] at hstarts
    exact h.starting hp hstarts rfl rfl
  | refused hs =>
    have hstarts := h.starts control
    rw [hs] at hstarts
    exact h.starting hp hstarts rfl rfl
  | @looped loop loop' _ host e hr hl =>
    cases loop with
    | none =>
      cases hl
      -- This pump no longer counts among those about to run the loop.
      refine h.set hp (fun n hn => ?_) (fun _ => List.mem_append_left _)
        (fun _ => List.mem_append_right _ (.head _)) h.shut
      rw [← show n + 1 = c.pumps.countP Pump.isBeforeLoop from hn] at hcourse
      exact hcourse.runLoop
    | some loop =>
      obtain ⟨⟨loop'', host', e'⟩, -, hl⟩ := Option.map_eq_some_iff.mp hl
      cases hl
      have hcalled : .runLoop ∈ c.bridge.calls := h.past _ (List.mem_of_getElem? hp) rfl
      refine h.set hp (fun n hn => Nat.add_right_cancel hn ▸ hcourse) (fun _ => id)
        (fun _ => hcalled) fun hstate => ?_
      cases e with
      | none => exact h.shut hstate
      | some e => exact h.shut hstate
  | @quit loop _ _ hr =>
    cases loop with
    | none => exact nomatch hr
    | some loop =>
      have hcalled : .runLoop ∈ c.bridge.calls := h.past _ (List.mem_of_getElem? hp) rfl
      exact h.set hp (fun n hn => Nat.add_right_cancel hn ▸ hcourse) (fun _ => id)
        (fun _ => hcalled) h.shut
  | left =>
    have hcalled : .runLoop ∈ c.bridge.calls := h.past _ (List.mem_of_getElem? hp) rfl
    refine h.set hp (fun n hn => ?_) ?_ nofun fun _ => rfl
    · rw [Bridge.tearDown_calls, Nat.add_right_cancel hn]
      exact hcourse.tearDown hcalled
    · rw [Bridge.tearDown_calls]
      exact fun _ => List.mem_append_left _

/-- What a step of a pump adds to the log, if it adds anything. -/
theorem Accords.pump_calls {p p' : Pump (Option κ)} {b' : Bridge (Overheard σ)}
    (h : c.Accords) (hm : p.Moves control.logged c.bridge p' b') :
    b'.calls = c.bridge.calls ∨ b'.calls = c.bridge.calls ++ [.runLoop] ∨
      b'.calls = c.bridge.calls ++ c.bridge.handles.map HostCall.uninstall ∨
      ∃ result, c.bridge.Starts result b' ∧ ∀ e, result = .error e → p' = .returned (.error e) := by
  cases hm with
  | started hs =>
    have hstarts := h.starts control
    rw [hs] at hstarts
    exact .inr (.inr (.inr ⟨_, hstarts, nofun⟩))
  | refused hs =>
    have hstarts := h.starts control
    rw [hs] at hstarts
    refine .inr (.inr (.inr ⟨_, hstarts, fun e he => ?_⟩))
    cases he
    rfl
  | @looped loop _ _ _ _ _ hl =>
    cases loop with
    | none =>
      cases hl
      exact .inr (.inl rfl)
    | some loop =>
      obtain ⟨_, -, hl⟩ := Option.map_eq_some_iff.mp hl
      cases hl
      exact .inl rfl
  | quit _ => exact .inl rfl
  | left => exact .inr (.inr (.inl (Bridge.tearDown_calls _ _)))

/-! ## Runs -/

theorem Accords.step {x : Happening (Others σ)} (h : c.Accords)
    (hx : c.step? control.logged Others.actBesideLog x = some c') : c'.Accords := by
  cases x with
  | start =>
    cases hx
    exact h.start
  | stop =>
    cases hx
    exact h.stop
  | outside o =>
    cases hx
    exact h.outside o
  | pump number =>
    obtain ⟨p, p', hp, hm, hpumps⟩ := step?_pump hx
    obtain ⟨bridge, pumps⟩ := c'
    cases hpumps
    exact h.pump hp hm

theorem Accords.run {hs : List (Happening (Others σ))} (h : c.Accords)
    (hrun : c.overhear? control hs = some c') : c'.Accords :=
  foldlM_keeps (fun _ _ _ ha hx => ha.step hx) hrun h

/-- Only a stop that finds the bridge running asks the loop to return. -/
theorem Accords.requestQuit_step {x : Happening (Others σ)} (h : c.Accords)
    (hx : c.step? control.logged Others.actBesideLog x = some c') :
    .requestQuit ∈ c'.bridge.calls ↔
      .requestQuit ∈ c.bridge.calls ∨ x = .stop ∧ c.bridge.state = .running := by
  cases x with
  | start =>
    cases hx
    simp
  | stop =>
    cases hx
    rw [Bridge.stop_calls]
    by_cases hstate : c.bridge.state = .running <;> simp [hstate]
  | outside o =>
    cases hx
    rw [Others.actBesideLog_calls]
    simp
  | pump number =>
    obtain ⟨p, p', hp, hm, -⟩ := step?_pump hx
    rcases h.pump_calls hm with hc | hc | hc | ⟨_, hs, -⟩
    · simp [hc]
    · simp [hc]
    · simp [hc]
    · generalize c'.bridge = b' at hs ⊢
      cases hs with
      | whileRunning => simp
      | afterStop => simp
      | noKeyboard _ hcalls => simp [hcalls]
      | noMouse _ hcalls => simp [hcalls]
      | installed _ hcalls => simp [hcalls]

theorem Accords.requestQuit_run {hs : List (Happening (Others σ))} (h : c.Accords)
    (hrun : c.overhear? control hs = some c') :
    .requestQuit ∈ c'.bridge.calls ↔ .requestQuit ∈ c.bridge.calls ∨
      ∃ before after d, hs = before ++ .stop :: after ∧ c.overhear? control before = some d ∧
        d.bridge.state = .running := by
  have hiff := foldlM_iff_exists (I := Accords) (P := fun c => .requestQuit ∈ c.bridge.calls)
    (fun _ _ _ ha hx => ha.step hx) (fun _ _ _ ha hx => ha.requestQuit_step hx) hrun h
  rw [hiff]
  -- The happening that is the cause is known: it is a stop.
  refine or_congr_right ⟨?_, ?_⟩
  · rintro ⟨before, x, after, d, hhs, hd, rfl, hstate⟩
    exact ⟨before, after, d, hhs, hd, hstate⟩
  · rintro ⟨before, after, d, hhs, hd, hstate⟩
    exact ⟨before, .stop, after, d, hhs, hd, rfl, hstate⟩

/-- A listener is refused to a pump, which returns with the refusal at once. -/
theorem Accords.refused_step {x : Happening (Others σ)} (h : c.Accords)
    (hx : c.step? control.logged Others.actBesideLog x = some c') {kind : ListenerKind}
    {e : HostError} (he : .install kind (.error e) ∈ c'.bridge.calls) :
    .install kind (.error e) ∈ c.bridge.calls ∨
      ∃ number, x = .pump number ∧ c'.pumps[number]? = some (.returned (.error e)) := by
  cases x with
  | start =>
    cases hx
    exact .inl he
  | stop =>
    cases hx
    rw [Bridge.stop_calls] at he
    left
    by_cases hstate : c.bridge.state = .running <;> simpa [hstate] using he
  | outside o =>
    cases hx
    rw [Others.actBesideLog_calls] at he
    exact .inl he
  | pump number =>
    obtain ⟨p, p', hp, hm, hpumps⟩ := step?_pump hx
    rcases h.pump_calls hm with hc | hc | hc | ⟨_, hs, hreturned⟩
    · left
      simpa [hc] using he
    · left
      simpa [hc] using he
    · left
      simpa [hc] using he
    · have hlt : number < c.pumps.length := (List.getElem?_eq_some_iff.mp hp).1
      have hget : c'.pumps[number]? = some p' := by simp [hpumps, hlt]
      generalize c'.bridge = b' at hs he
      cases hs with
      | whileRunning => exact .inl he
      | afterStop => exact .inl he
      | noKeyboard =>
        cases List.mem_singleton.mp he
        exact .inr ⟨number, rfl, hreturned _ rfl ▸ hget⟩
      | noMouse =>
        rw [Bridge.calls_mk, List.mem_cons, List.mem_cons, List.mem_singleton] at he
        rcases he with he | he | he <;> cases he
        exact .inr ⟨number, rfl, hreturned _ rfl ▸ hget⟩
      | installed => simp at he

/-! ## The calls to the host -/

/-- **The calls to the host.** Whoever starts and stops a new bridge and whatever its host answers
and others do to it: each listener is removed once, the loop is run and asked to return once at
most, and what comes too late does nothing.

A host may refuse an install with `.alreadyRunning` or `.alreadyStopped`, as with any other error. A
start that returns this did not come too late; it falls under the clause on refused installs. -/
theorem host_calls_once {host : σ} {hs : List (Happening (Others σ))}
    {c : Crowd (Overheard σ) (Option κ)}
    (h : overhear? control ⟨{ host := ⟨host, []⟩ }, []⟩ hs = some c) :
    -- What is got is given up once, in this order, and nothing else is.
    c.bridge.calls.filterMap HostCall.removed? ++ c.bridge.handles =
      c.bridge.calls.filterMap HostCall.issued? ∧
    (∀ earlier, earlier <+: c.bridge.calls →
      earlier.filterMap HostCall.removed? <+: earlier.filterMap HostCall.issued?) ∧
    (c.bridge.state = .stopped → c.bridge.calls.filterMap HostCall.removed? =
      c.bridge.calls.filterMap HostCall.issued?) ∧
    -- The loop is run once at most, and with both listeners.
    c.bridge.calls.countP HostCall.isRunLoop ≤ 1 ∧
    (.runLoop ∈ c.bridge.calls → ∃ k m later,
      c.bridge.calls = .install .keyboard (.ok k) :: .install .mouse (.ok m) :: later) ∧
    -- It is asked to return once at most, by the stop that finds the bridge running.
    c.bridge.calls.countP HostCall.isRequestQuit ≤ 1 ∧
    (.requestQuit ∈ c.bridge.calls ↔ ∃ before after d, hs = before ++ .stop :: after ∧
      overhear? control ⟨{ host := ⟨host, []⟩ }, []⟩ before = some d ∧
      d.bridge.state = .running) ∧
    -- Starting twice, starting after a stop and stopping twice do nothing.
    (∀ result b', c.bridge.start control.logged = (result, b') →
      c.bridge.state = .running ∧ result = .error .alreadyRunning ∧ b' = c.bridge ∨
      c.bridge.state = .stopped ∧ result = .error .alreadyStopped ∧ b' = c.bridge ∨
      c.bridge.state = .uninstalled ∧
        ∀ e, result = .error e → ∃ kind, .install kind (.error e) ∈ b'.calls) ∧
    (c.bridge.state = .stopped → c.bridge.stop control.logged = c.bridge) ∧
    -- Without one of the listeners the loop is not run, and the start comes back with the refusal.
    (∀ kind e, .install kind (.error e) ∈ c.bridge.calls → .runLoop ∉ c.bridge.calls) ∧
    (∀ x c', c.step? control.logged Others.actBesideLog x = some c' →
      ∀ kind e, .install kind (.error e) ∈ c'.bridge.calls →
        .install kind (.error e) ∈ c.bridge.calls ∨
          ∃ number, x = .pump number ∧ c'.pumps[number]? = some (.returned (.error e))) := by
  have hnew : Accords (⟨{ host := ⟨host, []⟩ }, []⟩ : Crowd (Overheard σ) (Option κ)) :=
    ⟨.fresh, nofun, nofun⟩
  have hc : c.Accords := hnew.run h
  refine ⟨hc.course.issued_eq.symm, fun _ => hc.course.removed_isPrefix, fun hstate => ?_,
    Nat.le_of_add_right_le hc.course.runLoop_once, hc.course.eq_append_of_runLoop,
    hc.course.requestQuit_once, ?_, fun result b' hs => ?_, fun hstate => ?_,
    fun kind e => hc.course.not_runLoop_of_refused, fun x c' hx kind e => hc.refused_step hx⟩
  · have hissued := hc.course.issued_eq
    rw [hc.handles_of_stopped hstate, List.append_nil] at hissued
    exact hissued.symm
  · simpa [Bridge.calls] using hnew.requestQuit_run h
  · have hstarts := hc.starts control
    rw [hs] at hstarts
    cases hstarts with
    | whileRunning hstate => exact .inl ⟨hstate, rfl, rfl⟩
    | afterStop hstate => exact .inr (.inl ⟨hstate, rfl, rfl⟩)
    | noKeyboard hstate =>
      refine .inr (.inr ⟨hstate, fun e he => ?_⟩)
      cases he
      exact ⟨.keyboard, .head _⟩
    | noMouse hstate =>
      refine .inr (.inr ⟨hstate, fun e he => ?_⟩)
      cases he
      exact ⟨.mouse, .tail _ (.head _)⟩
    | installed hstate => exact .inr (.inr ⟨hstate, nofun⟩)
  · have hshut := hc.shut hstate
    have hhandles := hc.handles_of_stopped hstate
    obtain ⟨⟨o, state, handles, mailbox⟩, pumps⟩ := c
    cases hstate
    cases hhandles
    obtain ⟨_⟩ := mailbox
    cases hshut
    rfl

/-- The bridge is stopped before its pump has called the loop, which then finds the quit. Starts
while it runs and after the stop come to nothing. -/
theorem host_calls_once_of_early_stop :
    let hs : List (Happening (Others (Host Unit))) := [.start, .start, .pump 0, .pump 1, .stop,
      .pump 0, .pump 0, .pump 0, .pump 0, .start, .pump 2, .stop]
    let calls : List HostCall := [.install .keyboard (.ok ⟨1⟩), .install .mouse (.ok ⟨2⟩),
      .uninstall ⟨1⟩, .uninstall ⟨2⟩, .requestQuit, .runLoop]
    ∃ c, overhear? (HostBridge.control none) ⟨{ host := ⟨{}, []⟩ }, []⟩ hs = some c ∧
      c.bridge.calls = calls ∧ c.bridge.state = .stopped ∧
      calls.filterMap HostCall.removed? = calls.filterMap HostCall.issued? ∧
      calls.countP HostCall.isRunLoop ≤ 1 ∧
      (∃ before after d, hs = before ++ .stop :: after ∧
        overhear? (HostBridge.control none) ⟨{ host := ⟨{}, []⟩ }, []⟩ before = some d ∧
        d.bridge.state = .running) ∧
      c.bridge.stop (HostBridge.control none).logged = c.bridge := by
  intro hs calls
  obtain ⟨c, hrun, hcalls, hstate⟩ : ∃ c,
      overhear? (HostBridge.control none) ⟨{ host := ⟨{}, []⟩ }, []⟩ hs = some c ∧
        c.bridge.calls = calls ∧ c.bridge.state = .stopped := ⟨_, rfl, rfl, rfl⟩
  obtain ⟨-, -, hremoved, hloop, -, -, hquit, -, hstop, -, -⟩ := host_calls_once hrun
  rw [hcalls] at hremoved hloop hquit
  have hasked : .requestQuit ∈ calls := by simp [calls]
  exact ⟨c, hrun, hcalls, hstate, hremoved hstate, hloop, hquit.mp hasked, hstop hstate⟩

end Crowd

end InputRelay
