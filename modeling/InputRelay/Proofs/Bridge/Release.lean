import InputRelay.Proofs.Bridge.Lifecycle

/-!
# Pumps that a quit awaits

At most one pump is in the loop of the host, the one that installed the listeners (`Sole`). A pump
is released when the bridge is stopped and a quit is on its way to it, or it is on its way out of
the loop (`Released`).

What a released pump has still to receive (`Pump.awaited`) and the steps that it has still to make
(`Pump.stepsLeft`) are used up by its own steps, one at a time, and by nothing else
(`Released.step_self`, `Released.step_of_ne`). So its start comes back after so many steps of its
own (`Released.run`).
-/

namespace InputRelay

/-- The messages that a loop receives before it receives a quit. -/
def Message.aheadOfQuit (queue : List Message) : List Message := queue.takeWhile (· ≠ .quit)

namespace Message

variable {m : Message} {queue late : List Message}

theorem aheadOfQuit_cons (h : m ≠ .quit) : aheadOfQuit (m :: queue) = m :: aheadOfQuit queue := by
  simp [aheadOfQuit, h]

/-- What comes after a quit is not ahead of it. -/
theorem aheadOfQuit_append (h : .quit ∈ queue) :
    aheadOfQuit (queue ++ late) = aheadOfQuit queue := by
  induction queue with
  | nil => simp at h
  | cons m queue ih =>
    by_cases hm : m = .quit
    · rw [hm]
      rfl
    · have hrest : .quit ∈ queue := (List.mem_cons.mp h).resolve_left (Ne.symm hm)
      rw [List.cons_append, aheadOfQuit_cons hm, aheadOfQuit_cons hm, ih hrest]

theorem aheadOfQuit_append_quit : aheadOfQuit (queue ++ [.quit]) = aheadOfQuit queue := by
  induction queue with
  | nil => rfl
  | cons m queue ih =>
    by_cases hm : m = .quit
    · rw [hm]
      rfl
    · rw [List.cons_append, aheadOfQuit_cons hm, aheadOfQuit_cons hm, ih]

end Message

open Message

/-! ## What a pump has before it -/

/-- The steps until a loop has ended that has so many messages and then a quit before it, if there
are no listeners to them. -/
def Loop.stepsLeft (ahead : Nat) : Loop Unit → Nat
  | .receiving => 3 * ahead + 1
  | .received _ => 3 * ahead + 3
  | .delivering _ boxes => 3 * ahead + 2 * boxes.length + 2
  | .passing _ boxes => 3 * ahead + 2 * (boxes.length - 1) + 3
  | .ended => 0

namespace Pump

/-- The pump is in the loop of the host or about to enter it, and has not received a quit. -/
def IsInLoop (p : Pump (Loop Unit)) : Prop := ∃ loop, p = .looping loop ∧ loop ≠ .ended

/-- The steps of a pump until its start comes back, with these messages in the queue. -/
def stepsLeft (queue : List Message) : Pump (Loop Unit) → Nat
  | .looping loop => loop.stepsLeft (aheadOfQuit queue).length + 2
  | .leaving _ => 1
  | .starting | .returned _ => 0

/-- What a pump takes out of the queue until its loop has ended. -/
def awaited (queue : List Message) : Pump (Loop Unit) → List Message
  | .looping .ended => []
  | .looping _ => aheadOfQuit queue ++ [.quit]
  | _ => []

/-- The message that a pump takes out of the queue with its next step. -/
def receives? (queue : List Message) : Pump (Loop Unit) → Option Message
  | .looping .receiving => queue.head?
  | _ => none

/-- The pump is on its way out of the loop, or a quit is on its way to it. -/
def IsReleased (queue : List Message) : Pump (Loop Unit) → Prop
  | .starting => False
  | .looping loop => loop = .ended ∨ .quit ∈ queue
  | .leaving result | .returned result => result = .ok ()

variable {p : Pump (Loop Unit)} {queue : List Message}

theorem awaited_of_isInLoop (h : p.IsInLoop) : p.awaited queue = aheadOfQuit queue ++ [.quit] := by
  obtain ⟨loop, rfl, hloop⟩ := h
  cases loop with
  | ended => exact absurd rfl hloop
  | _ => rfl

theorem receives?_of_not_isInLoop (h : ¬ p.IsInLoop) : p.receives? queue = none := by
  unfold receives?
  split
  · exact absurd ⟨.receiving, rfl, nofun⟩ h
  · rfl

/-- Messages that arrive late make no difference to a pump that is released. -/
theorem IsReleased.append (h : p.IsReleased queue) (late : List Message) :
    p.IsReleased (queue ++ late) ∧ p.awaited (queue ++ late) = p.awaited queue ∧
      p.stepsLeft (queue ++ late) = p.stepsLeft queue := by
  cases p with
  | starting => exact h.elim
  | leaving result => exact ⟨h, rfl, rfl⟩
  | returned result => exact ⟨h, rfl, rfl⟩
  | looping loop =>
    rcases h with rfl | hquit
    · exact ⟨.inl rfl, rfl, rfl⟩
    · refine ⟨.inr (List.mem_append_left _ hquit), ?_, ?_⟩
      · cases loop <;> simp [awaited, aheadOfQuit_append hquit]
      · simp [stepsLeft, aheadOfQuit_append hquit]

end Pump

/-! ## One pump at most is in the loop -/

theorem Bridge.state_of_start_ok {σ κ : Type} {control : HostControl σ κ} {b b' : Bridge σ}
    (h : b.start control = (.ok (), b')) : b.state = .uninstalled ∧ b'.state = .running := by
  cases hs : b.state with
  | running =>
    rw [start_of_running control hs] at h
    simp at h
  | stopped =>
    rw [start_of_stopped control hs] at h
    simp at h
  | uninstalled =>
    refine ⟨rfl, ?_⟩
    rw [start, hs] at h
    simp only [installAll] at h
    split at h
    · split at h
      · cases h
        rfl
      · simp at h
    · simp at h

/-- The happening is a step of the pump. -/
def Crowd.Happening.isStepOf {ι : Type} (i : Nat) : Crowd.Happening ι → Bool
  | .pump n => n == i
  | _ => false

theorem Crowd.Happening.isStepOf_iff {ι : Type} {i : Nat} {x : Crowd.Happening ι} :
    x.isStepOf i = true ↔ x = .pump i := by
  cases x <;> simp [isStepOf]

namespace HostBridge

open Crowd (Happening)

variable {c c' d : Crowd (Host Unit) (Loop Unit)} {x : Happening Outside} {i j : Nat}
  {p q : Pump (Loop Unit)} {failure : Option String}

/-- A pump gets into the loop by installing the listeners. -/
theorem isInLoop_of_step (hx : c.step? (control failure) act x = some c')
    (hq : c'.pumps[j]? = some q) (hin : q.IsInLoop) :
    (∃ p, c.pumps[j]? = some p ∧ p.IsInLoop) ∨
      c.bridge.state = .uninstalled ∧ c'.bridge.state = .running ∧ x = .pump j := by
  obtain ⟨loop, rfl, hloop⟩ := hin
  cases x with
  | start =>
    cases hx
    left
    rw [List.getElem?_append] at hq
    split at hq
    · exact ⟨_, hq, loop, rfl, hloop⟩
    · have hmem := List.mem_of_getElem? hq
      simp at hmem
  | stop =>
    cases hx
    exact .inl ⟨_, hq, loop, rfl, hloop⟩
  | outside o =>
    cases hx
    exact .inl ⟨_, hq, loop, rfl, hloop⟩
  | pump n =>
    obtain ⟨p, p', hp, hmoves, hpumps⟩ := Crowd.step?_pump hx
    rw [hpumps, List.getElem?_set] at hq
    by_cases hn : n = j
    · subst hn
      simp only [if_true] at hq
      split at hq
      · obtain rfl : p' = .looping loop := Option.some.inj hq
        generalize hb : c'.bridge = b' at hmoves
        cases hmoves with
        | started hs =>
          right
          obtain ⟨hstate, hstate'⟩ := Bridge.state_of_start_ok hs
          exact ⟨hstate, hb ▸ hstate', rfl⟩
        | @looped loop₀ _ _ _ _ hr =>
          left
          refine ⟨_, hp, loop₀, rfl, ?_⟩
          rintro rfl
          simp [control] at hr
      · simp at hq
    · rw [if_neg hn] at hq
      exact .inl ⟨_, hq, loop, rfl, hloop⟩

/-- At most one pump is in the loop, and none before the listeners are installed. -/
structure Sole (c : Crowd (Host Unit) (Loop Unit)) : Prop where
  nobody : c.bridge.state = .uninstalled →
    ∀ (i : Nat) (p : Pump (Loop Unit)), c.pumps[i]? = some p → ¬ p.IsInLoop
  single : ∀ (i j : Nat) (p q : Pump (Loop Unit)), c.pumps[i]? = some p → c.pumps[j]? = some q →
    p.IsInLoop → q.IsInLoop → i = j

theorem Sole.step {s : BridgeState} (h : Sole c) (hlooks : Looks c.bridge s)
    (hx : c.step? (control failure) act x = some c') : Sole c' := by
  constructor
  · intro hstate' j q hq hin
    obtain ⟨s', hlooks', hleads⟩ := hlooks.step hx
    have hs' : s' = .uninstalled := hlooks'.state_eq.symm.trans hstate'
    subst hs'
    have hstate : c.bridge.state = .uninstalled := by
      rw [hlooks.state_eq]
      cases hleads
      rfl
    rcases isInLoop_of_step hx hq hin with ⟨p, hp, hpin⟩ | ⟨-, hrunning, -⟩
    · exact h.nobody hstate j p hp hpin
    · simp [hstate'] at hrunning
  · intro i j p q hp hq hpin hqin
    rcases isInLoop_of_step hx hp hpin with ⟨p₀, hp₀, hpin₀⟩ | ⟨hstate, -, hxi⟩ <;>
      rcases isInLoop_of_step hx hq hqin with ⟨q₀, hq₀, hqin₀⟩ | ⟨hstate', -, hxj⟩
    · exact h.single i j p₀ q₀ hp₀ hq₀ hpin₀ hqin₀
    · exact absurd hpin₀ (h.nobody hstate' i p₀ hp₀)
    · exact absurd hqin₀ (h.nobody hstate j q₀ hq₀)
    · exact Happening.pump.inj (hxi.symm.trans hxj)

theorem Sole.run {s : BridgeState} {hs : List (Happening Outside)} (h : Sole c)
    (hlooks : Looks c.bridge s) (hrun : c.run? (control failure) act hs = some c') : Sole c' := by
  have hboth : Sole c' ∧ ∃ s', Looks c'.bridge s' := by
    refine foldlM_keeps (P := fun c => Sole c ∧ ∃ s, Looks c.bridge s) ?_ hrun ⟨h, s, hlooks⟩
    rintro c x c' ⟨hsole, s, hs⟩ hx
    obtain ⟨s', hs', -⟩ := hs.step hx
    exact ⟨hsole.step hs hx, s', hs'⟩
  exact hboth.1

/-! ## What is taken out of the queue -/

/-- The message that a happening takes out of the queue. -/
def received? (c : Crowd (Host Unit) (Loop Unit)) : Happening Outside → Option Message
  | .pump i => c.pumps[i]?.bind (Pump.receives? c.bridge.host.queue)
  | _ => none

/-- The messages that a row of happenings takes out of the queue, in order. -/
def received (c : Crowd (Host Unit) (Loop Unit)) : List (Happening Outside) → List Message
  | [] => []
  | x :: hs =>
    (received? c x).toList ++
      match c.step? (control none) act x with
      | some c' => received c' hs
      | none => []

/-! ## A stopped bridge -/

theorem Looks.tearDown_eq {b : HostBridge} {failure : Option String} (h : b.Looks .stopped) :
    b.tearDown (control failure) = b := by
  obtain ⟨host, state, handles, pending, flag, overwritten⟩ := b
  obtain ⟨hstate, hhandles, -, hflag⟩ := h
  cases hstate
  cases hhandles
  cases hflag
  rfl

theorem Looks.stop_eq {b : HostBridge} {failure : Option String} (h : b.Looks .stopped) :
    b.stop (control failure) = b := by
  have hstate : b.state ≠ .running := by simp [h.state_eq]
  simp only [Bridge.stop, h.tearDown_eq, if_neg hstate]

theorem Looks.stays_stopped (h : Looks c.bridge .stopped)
    (hx : c.step? (control failure) act x = some c') : Looks c'.bridge .stopped := by
  obtain ⟨s', hs', hleads⟩ := h.step hx
  cases hleads
  exact hs'

/-- At a stopped bridge, a pump outside the loop does nothing and stays there. -/
theorem Looks.moves_outside {b b' : HostBridge} {p' : Pump (Loop Unit)} (h : b.Looks .stopped)
    (hmoves : p.Moves (control none) b p' b') (hout : ¬ p.IsInLoop) :
    b' = b ∧ ¬ p'.IsInLoop := by
  cases hmoves with
  | started hs =>
    have hstate := (Bridge.state_of_start_ok hs).1
    simp [h.state_eq] at hstate
  | refused hs =>
    rw [Bridge.start_of_stopped _ h.state_eq] at hs
    cases hs
    exact ⟨rfl, by simp [Pump.IsInLoop]⟩
  | @looped loop _ _ _ _ hr =>
    refine absurd ⟨loop, rfl, ?_⟩ hout
    rintro rfl
    simp [control] at hr
  | quit hr => exact ⟨rfl, by simp [Pump.IsInLoop]⟩
  | left => exact ⟨h.tearDown_eq, by simp [Pump.IsInLoop]⟩

/-! ## A pump that is released -/

/-- The bridge is stopped, the pump is released, and no other is in the loop. -/
structure Released (i : Nat) (p : Pump (Loop Unit)) (c : Crowd (Host Unit) (Loop Unit)) :
    Prop where
  stopped : Looks c.bridge .stopped
  pump : c.pumps[i]? = some p
  alone : ∀ (j : Nat) (q : Pump (Loop Unit)), c.pumps[j]? = some q → q.IsInLoop → j = i
  released : p.IsReleased c.bridge.host.queue

/-- A step of the loop uses up the message that it receives and one of the steps left. -/
theorem Loop.step?_released {loop loop' : Loop Unit} {h h' : Host Unit}
    {delivery : Option (Unit × InputEvent)} (hlive : h.live = []) (hquit : .quit ∈ h.queue)
    (hs : loop.step? h = some (loop', h', delivery)) :
    (Pump.looping loop').IsReleased h'.queue ∧
      ((Pump.looping loop).receives? h.queue).toList ++ (Pump.looping loop').awaited h'.queue =
        (Pump.looping loop).awaited h.queue ∧
      (Pump.looping loop').stepsLeft h'.queue + 1 = (Pump.looping loop).stepsLeft h.queue := by
  cases loop with
  | receiving =>
    rcases hqueue : h.queue with - | ⟨m, rest⟩
    · simp [hqueue] at hquit
    · by_cases hm : m = .quit
      · subst hm
        simp only [Loop.step?, hqueue] at hs
        cases hs
        exact ⟨.inl rfl, rfl, rfl⟩
      · have hrest : .quit ∈ rest := by
          rw [hqueue] at hquit
          exact (List.mem_cons.mp hquit).resolve_left (Ne.symm hm)
        have hstep : Loop.receiving.step? h =
            some (.received m, { h with queue := rest }, none) := by
          cases m with
          | quit => exact absurd rfl hm
          | _ => simp only [Loop.step?, hqueue]
        cases hstep.symm.trans hs
        refine ⟨.inr hrest, ?_, ?_⟩
        · simp [Pump.awaited, Pump.receives?, aheadOfQuit_cons hm]
        · simp [Pump.stepsLeft, Loop.stepsLeft, aheadOfQuit_cons hm]
          omega
  | received m =>
    cases hs
    refine ⟨.inr hquit, rfl, ?_⟩
    simp [Pump.stepsLeft, Loop.stepsLeft, Host.listeners, hlive]
  | delivering e boxes =>
    cases boxes with
    | nil =>
      cases hs
      exact ⟨.inr hquit, rfl, rfl⟩
    | cons box boxes =>
      cases hs
      refine ⟨.inr hquit, rfl, ?_⟩
      simp [Pump.stepsLeft, Loop.stepsLeft]
      omega
  | passing e boxes =>
    cases hs
    refine ⟨.inr hquit, rfl, ?_⟩
    simp [Pump.stepsLeft, Loop.stepsLeft]
  | ended => simp [Loop.step?] at hs

/-- What others do, or what is done by pumps outside the loop, makes no difference. -/
theorem Released.step_of_ne (h : Released i p c) (hne : x ≠ .pump i)
    (hx : c.step? (control none) act x = some c') :
    Released i p c' ∧ received? c x = none ∧
      p.awaited c'.bridge.host.queue = p.awaited c.bridge.host.queue ∧
      p.stepsLeft c'.bridge.host.queue = p.stepsLeft c.bridge.host.queue := by
  have hstopped := h.stopped.stays_stopped hx
  cases x with
  | start =>
    cases hx
    refine ⟨⟨hstopped, ?_, ?_, h.released⟩, rfl, rfl, rfl⟩
    · rw [List.getElem?_append_left (List.getElem?_eq_some_iff.mp h.pump).1]
      exact h.pump
    · intro j q hq hin
      have hstart : c.step? (control none) act .start =
          some ⟨c.bridge, c.pumps ++ [.starting]⟩ := rfl
      rcases isInLoop_of_step hstart hq hin with ⟨q', hq', hin'⟩ | ⟨-, -, hxj⟩
      · exact h.alone j q' hq' hin'
      · simp at hxj
  | stop =>
    cases hx
    have hsame : (⟨c.bridge.stop (control none), c.pumps⟩ : Crowd _ _) = c := by
      rw [h.stopped.stop_eq]
    rw [hsame]
    exact ⟨h, rfl, rfl, rfl⟩
  | outside o =>
    cases hx
    obtain ⟨late, hlate⟩ : ∃ late, (act o c.bridge).host.queue = c.bridge.host.queue ++ late := by
      cases o with
      | arrive m => exact ⟨[m], rfl⟩
      | requestQuit => exact ⟨[.quit], rfl⟩
      | deposit e => exact ⟨[], (List.append_nil _).symm⟩
      | take => exact ⟨[], (List.append_nil _).symm⟩
    obtain ⟨hreleased, hawaited, hsteps⟩ := h.released.append late
    simp only [← hlate] at hreleased hawaited hsteps
    exact ⟨⟨hstopped, h.pump, h.alone, hreleased⟩, rfl, hawaited, hsteps⟩
  | pump n =>
    have hn : n ≠ i := fun heq => hne (heq ▸ rfl)
    obtain ⟨q, q', hq, hmoves, hpumps⟩ := Crowd.step?_pump hx
    have hout : ¬ q.IsInLoop := fun hin => hn (h.alone n q hq hin)
    obtain ⟨hbridge, hout'⟩ := h.stopped.moves_outside hmoves hout
    have hnone : received? c (.pump n) = none := by
      rw [received?, hq]
      exact q.receives?_of_not_isInLoop hout
    rw [hbridge]
    refine ⟨⟨hstopped, ?_, ?_, hbridge ▸ h.released⟩, hnone, rfl, rfl⟩
    · rw [hpumps, List.getElem?_set_ne hn]
      exact h.pump
    · intro j r hr hin
      rcases isInLoop_of_step hx hr hin with ⟨r', hr', hin'⟩ | ⟨hstate, -, -⟩
      · exact h.alone j r' hr' hin'
      · simp [h.stopped.state_eq] at hstate

/-- A step of its own uses up what the pump receives and one of the steps left. -/
theorem Released.step_self (h : Released i p c)
    (hx : c.step? (control none) act (.pump i) = some c') :
    ∃ p', Released i p' c' ∧
      (received? c (.pump i)).toList ++ p'.awaited c'.bridge.host.queue =
        p.awaited c.bridge.host.queue ∧
      p'.stepsLeft c'.bridge.host.queue + 1 = p.stepsLeft c.bridge.host.queue := by
  have hstopped := h.stopped.stays_stopped hx
  obtain ⟨q, p', hq, hmoves, hpumps⟩ := Crowd.step?_pump hx
  obtain rfl : p = q := Option.some.inj (h.pump.symm.trans hq)
  have hlt : i < c.pumps.length := (List.getElem?_eq_some_iff.mp hq).1
  have hreceived : received? c (.pump i) = p.receives? c.bridge.host.queue := by
    rw [received?, hq, Option.bind_some]
  have halone : ∀ (j : Nat) (r : Pump (Loop Unit)), c'.pumps[j]? = some r → r.IsInLoop → j = i := by
    intro j r hr hin
    rcases isInLoop_of_step hx hr hin with ⟨r', hr', hin'⟩ | ⟨hstate, -, -⟩
    · exact h.alone j r' hr' hin'
    · simp [h.stopped.state_eq] at hstate
  have hget : c'.pumps[i]? = some p' := by rw [hpumps, List.getElem?_set_self hlt]
  have hreleased := h.released
  rw [hreceived]
  suffices hall : p'.IsReleased c'.bridge.host.queue ∧
      (p.receives? c.bridge.host.queue).toList ++ p'.awaited c'.bridge.host.queue =
        p.awaited c.bridge.host.queue ∧
      p'.stepsLeft c'.bridge.host.queue + 1 = p.stepsLeft c.bridge.host.queue from
    ⟨p', ⟨hstopped, hget, halone, hall.1⟩, hall.2⟩
  generalize hb : c'.bridge = b' at hmoves
  cases hmoves with
  | started hs => exact hreleased.elim
  | refused hs => exact hreleased.elim
  | @looped loop loop' _ host e hr hl =>
    have hquit : .quit ∈ c.bridge.host.queue := by
      refine hreleased.resolve_left ?_
      rintro rfl
      simp [control] at hr
    obtain ⟨⟨loop'', host', delivery⟩, hstep, hd⟩ := Option.map_eq_some_iff.mp hl
    cases hd
    exact Loop.step?_released h.stopped.2.2.1 hquit hstep
  | @quit loop result _ hr =>
    have hended : loop = .ended := by
      by_contra hne
      simp [control, hne] at hr
    subst hended
    have hresult : result = .ok () := by
      simpa [control, outcome] using hr.symm
    exact ⟨hresult, rfl, rfl⟩
  | left => exact ⟨hreleased, rfl, rfl⟩

theorem Released.run {hs : List (Happening Outside)} (h : Released i p c)
    (hrun : c.run? (control none) act hs = some c') :
    ∃ p', Released i p' c' ∧
      received c hs ++ p'.awaited c'.bridge.host.queue = p.awaited c.bridge.host.queue ∧
      p'.stepsLeft c'.bridge.host.queue + hs.countP (Happening.isStepOf i) =
        p.stepsLeft c.bridge.host.queue ∧
      (hs.countP (Happening.isStepOf i) = 0 → p' = p) := by
  induction hs generalizing c p with
  | nil =>
    cases Option.some.inj hrun
    exact ⟨p, h, rfl, rfl, fun _ => rfl⟩
  | cons x hs ih =>
    obtain ⟨d, hd, hrest⟩ := foldlM_cons_eq_some.mp hrun
    have hcons : received c (x :: hs) = (received? c x).toList ++ received d hs := by
      rw [received, hd]
    by_cases hx : x = .pump i
    · subst hx
      obtain ⟨p₁, h₁, hreceived₁, hsteps₁⟩ := h.step_self hd
      obtain ⟨p', h', hreceived', hsteps', -⟩ := ih h₁ hrest
      have hcount : (Happening.pump i :: hs).countP (Happening.isStepOf i) =
          hs.countP (Happening.isStepOf i) + 1 :=
        List.countP_cons_of_pos (beq_self_eq_true i)
      refine ⟨p', h', ?_, by omega, fun hzero => by omega⟩
      rw [hcons, List.append_assoc, hreceived', hreceived₁]
    · obtain ⟨h₁, hnone, hawaited₁, hsteps₁⟩ := h.step_of_ne hx hd
      obtain ⟨p', h', hreceived', hsteps', hsame⟩ := ih h₁ hrest
      have hcount : (x :: hs).countP (Happening.isStepOf i) =
          hs.countP (Happening.isStepOf i) :=
        List.countP_cons_of_neg (by simpa [Happening.isStepOf_iff] using hx)
      refine ⟨p', h', ?_, by omega, fun hzero => hsame (by omega)⟩
      rw [hcons, hnone, Option.toList_none, List.nil_append, hreceived', hawaited₁]

/-! ## Steps that a released pump makes -/

theorem Released.eq_returned (h : Released i p c) (hzero : p.stepsLeft c.bridge.host.queue = 0) :
    p = .returned (.ok ()) := by
  have hreleased := h.released
  cases p with
  | starting => exact hreleased.elim
  | looping loop => simp [Pump.stepsLeft] at hzero
  | leaving result => simp [Pump.stepsLeft] at hzero
  | returned result => exact congrArg Pump.returned hreleased

theorem Released.isSome_step? (h : Released i p c)
    (hpos : 0 < p.stepsLeft c.bridge.host.queue) :
    (c.step? (control none) act (.pump i)).isSome = true := by
  have hreleased := h.released
  rw [Crowd.step?, h.pump, Option.bind_some, Option.isSome_map]
  cases p with
  | starting => exact hreleased.elim
  | returned result => simp [Pump.stepsLeft] at hpos
  | leaving result => rfl
  | looping loop =>
    by_cases hended : loop = .ended
    · subst hended
      rfl
    · have hquit : .quit ∈ c.bridge.host.queue := hreleased.resolve_left hended
      have hstep : (loop.step? c.bridge.host).isSome = true := by
        cases loop with
        | receiving =>
          simp only [Loop.step?]
          split
          · next hqueue => simp [hqueue] at hquit
          · rfl
          · rfl
        | delivering e boxes => cases boxes <;> rfl
        | ended => exact absurd rfl hended
        | _ => rfl
      simp [Pump.step?, control, hended, hstep]

/-- A step of the loop without a delivery, and without a change of the host. -/
theorem exists_silent_step {loop loop' : Loop Unit} (hp : c.pumps[i]? = some (.looping loop))
    (hended : loop ≠ .ended)
    (hs : loop.step? c.bridge.host = some (loop', c.bridge.host, none)) :
    ∃ c', c.step? (control none) act (.pump i) = some c' ∧ c'.bridge = c.bridge ∧
      c'.pumps[i]? = some (.looping loop') := by
  have hlt : i < c.pumps.length := (List.getElem?_eq_some_iff.mp hp).1
  refine ⟨⟨c.bridge, c.pumps.set i (.looping loop')⟩, ?_, rfl, List.getElem?_set_self hlt⟩
  rw [Crowd.step?, hp]
  simp [Pump.step?, control, hended, hs]

/-- Once the bridge is stopped, a message that is looked up finds no listeners, and goes nowhere. -/
theorem Released.looks_up {m : Message} (h : Released i (.looping (.received m)) c) :
    ∃ c₁, c.step? (control none) act (.pump i) = some c₁ ∧ c₁.bridge = c.bridge ∧
      c₁.pumps[i]? = some (.looping (.delivering m.event? [])) ∧
      ∀ hs d, c₁.run? (control none) act hs = some d → hs.countP (Happening.isStepOf i) = 0 →
        ∃ d', d.step? (control none) act (.pump i) = some d' ∧ d'.bridge = d.bridge ∧
          d'.pumps[i]? = some (.looping .receiving) := by
  have hlisteners : c.bridge.host.listeners m = [] := by simp [Host.listeners, h.stopped.2.2.1]
  have hstep : (Loop.received m).step? c.bridge.host =
      some (.delivering m.event? [], c.bridge.host, none) := by
    rw [Loop.step?, hlisteners]
  obtain ⟨c₁, hc₁, hbridge, hpump⟩ := exists_silent_step h.pump nofun hstep
  refine ⟨c₁, hc₁, hbridge, hpump, fun hs d hd hzero => ?_⟩
  obtain ⟨p₁, h₁, -⟩ := h.step_self hc₁
  obtain rfl : p₁ = .looping (.delivering m.event? []) :=
    Option.some.inj (h₁.pump.symm.trans hpump)
  obtain ⟨p₂, h₂, -, -, hsame⟩ := h₁.run hd
  rw [hsame hzero] at h₂
  exact exists_silent_step h₂.pump nofun rfl

end HostBridge

end InputRelay
