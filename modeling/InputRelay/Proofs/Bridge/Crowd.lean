import InputRelay.Bridge.Pump
import InputRelay.Proofs.Runs

/-!
# A crowd at a bridge

Any number of threads start one bridge, each on a pump of its own, and stop it, while others work on
its host and its mailbox. The order is open: between any two sections of a start anybody may do
anything. `Pump.Moves` lists what one step of a pump can be, and `Crowd.step?_bridge` what one step
of the crowd can do to the bridge.
-/

namespace InputRelay

variable {σ κ ι : Type} (control : HostControl σ κ)

/-! ## The steps of a pump -/

/-- The steps of a pump, with the bridge before and after. -/
inductive Pump.Moves : Pump κ → Bridge σ → Pump κ → Bridge σ → Prop where
  | started {b b' : Bridge σ} (h : b.start control = (.ok (), b')) :
    Moves .starting b (.looping control.enter) b'
  | refused {b b' : Bridge σ} {e : HostError} (h : b.start control = (.error e, b')) :
    Moves .starting b (.returned (.error e)) b'
  | looped {loop loop' : κ} {b : Bridge σ} {host : σ} {e : Option InputEvent}
      (hr : control.loopResult? loop = none)
      (h : control.loopStep? loop b.host = some (loop', host, e)) :
    Moves (.looping loop) b (.looping loop')
      { b with host, mailbox := b.mailbox.depositAll e.toList }
  | quit {loop : κ} {result : Except HostError Unit} {b : Bridge σ}
      (h : control.loopResult? loop = some result) : Moves (.looping loop) b (.leaving result) b
  | left {result : Except HostError Unit} {b : Bridge σ} :
    Moves (.leaving result) b (.returned result) (b.tearDown control)

theorem Pump.moves_of_step? {p p' : Pump κ} {b b' : Bridge σ}
    (h : p.step? control b = some (p', b')) : p.Moves control b p' b' := by
  cases p with
  | starting =>
    rw [step?] at h
    rcases hs : b.start control with ⟨e | ⟨⟩, c⟩
    · rw [hs] at h
      cases h
      exact .refused hs
    · rw [hs] at h
      cases h
      exact .started hs
  | looping loop =>
    rw [step?] at h
    cases hr : control.loopResult? loop with
    | some result =>
      rw [hr] at h
      cases h
      exact .quit hr
    | none =>
      rw [hr] at h
      obtain ⟨⟨loop', host, e⟩, hl, he⟩ := Option.map_eq_some_iff.mp h
      cases e with
      | none =>
        cases he
        exact .looped hr hl
      | some e =>
        cases he
        exact .looped hr hl
  | leaving result =>
    cases h
    exact .left
  | returned result => exact nomatch h

/-! ## The crowd -/

/-- A bridge and the pumps on which it was started. -/
structure Crowd (σ κ : Type) where
  bridge : Bridge σ
  pumps : List (Pump κ) := []

namespace Crowd

/-- What can happen next; `ι` are the things that others do. -/
inductive Happening (ι : Type) where
  /-- Somebody is about to start the bridge. -/
  | start
  /-- A pump makes a step. -/
  | pump (number : Nat)
  /-- Somebody stops the bridge. -/
  | stop
  /-- Others do something to its host or its mailbox. -/
  | outside (o : ι)

variable (act : ι → Bridge σ → Bridge σ)

/-- The crowd after something has happened; none if it cannot happen. -/
def step? (c : Crowd σ κ) : Happening ι → Option (Crowd σ κ)
  | .start => some { c with pumps := c.pumps ++ [.starting] }
  | .pump number => c.pumps[number]?.bind fun p =>
      (p.step? control c.bridge).map fun (p, bridge) => ⟨bridge, c.pumps.set number p⟩
  | .stop => some { c with bridge := c.bridge.stop control }
  | .outside o => some { c with bridge := act o c.bridge }

/-- The crowd after a row of happenings. -/
def run? (c : Crowd σ κ) (hs : List (Happening ι)) : Option (Crowd σ κ) :=
  hs.foldlM (step? control act) c

variable {control act} {c c' : Crowd σ κ}

theorem step?_pump {number : Nat} (h : c.step? control act (.pump number) = some c') :
    ∃ p p', c.pumps[number]? = some p ∧ p.Moves control c.bridge p' c'.bridge ∧
      c'.pumps = c.pumps.set number p' := by
  obtain ⟨p, hp, h⟩ := Option.bind_eq_some_iff.mp h
  obtain ⟨⟨p', bridge⟩, hstep, rfl⟩ := Option.map_eq_some_iff.mp h
  exact ⟨p, p', hp, Pump.moves_of_step? control hstep, rfl⟩

/-- What a happening does to the bridge. -/
theorem step?_bridge {x : Happening ι} (h : c.step? control act x = some c') :
    c'.bridge = c.bridge ∨ c'.bridge = (c.bridge.start control).2 ∨
      c'.bridge = c.bridge.stop control ∨ c'.bridge = c.bridge.tearDown control ∨
      (∃ o, c'.bridge = act o c.bridge) ∨
      ∃ loop loop' host e, control.loopStep? loop c.bridge.host = some (loop', host, e) ∧
        c'.bridge = { c.bridge with host, mailbox := c.bridge.mailbox.depositAll e.toList } := by
  cases x with
  | start =>
    cases h
    exact .inl rfl
  | stop =>
    cases h
    exact .inr (.inr (.inl rfl))
  | outside o =>
    cases h
    exact .inr (.inr (.inr (.inr (.inl ⟨o, rfl⟩))))
  | pump number =>
    obtain ⟨p, p', -, hmoves, -⟩ := step?_pump h
    generalize c'.bridge = b' at hmoves ⊢
    cases hmoves with
    | started hs => exact .inr (.inl (by rw [hs]))
    | refused hs => exact .inr (.inl (by rw [hs]))
    | looped _ hl => exact .inr (.inr (.inr (.inr (.inr ⟨_, _, _, _, hl, rfl⟩))))
    | quit _ => exact .inl rfl
    | left => exact .inr (.inr (.inr (.inl rfl)))

end Crowd

/-! ## Others at a host with a queue -/

namespace HostBridge

/-- What others do at a bridge that has the host to itself: they send messages to the host, a quit
among them, ask its loop to return, put events into the mailbox and take them out. They leave the
listeners of the host alone and do not shut the mailbox down. -/
inductive Outside where
  | arrive (m : Message)
  | requestQuit
  | deposit (e : InputEvent)
  | take

/-- The bridge after others have done something. -/
def act : Outside → HostBridge → HostBridge
  | .arrive m, b => { b with host := b.host.enqueue m }
  | .requestQuit, b => { b with host := b.host.requestQuit }
  | .deposit e, b => { b with mailbox := b.mailbox.deposit e }
  | .take, b => { b with mailbox := b.mailbox.tryTake.2 }

end HostBridge

end InputRelay
