import InputRelay.Proofs.Relay.Program

/-!
# The phases of the main thread

The other threads leave alone what the main thread has seen: a consumer that has ended, a script
with a result, a pump that has returned, and the flag of the inbox (`Program.Spares`). Therefore
what holds when the main thread enters a phase (`Program.Advances`) holds as long as it stays there
(`Program.Befits`), and what it ends with is told by the script and the pump (`Program.Concludes`).
-/

namespace InputRelay.Program

variable {p p' : Program} {x : Happening}

/-! ## What the other threads leave alone -/

/-- What the main thread has seen is as it was. -/
structure Spares (p p' : Program) : Prop where
  main : p'.main = p.main
  inbox : p'.desk.inbox.shuttingDown = p.desk.inbox.shuttingDown
  consumer : p.consumer.phase = .ended → p'.consumer = p.consumer
  script : p'.script.isSome = p.script.isSome
  scriptResult : ∀ r, p.script = some r → r.result?.isSome = true → p'.script = some r
  pump : ∀ result, p.pump = .returned result → p'.pump = p.pump

theorem Spares.of_same (hmain : p'.main = p.main)
    (hinbox : p'.desk.inbox.shuttingDown = p.desk.inbox.shuttingDown)
    (hconsumer : p'.consumer = p.consumer) (hscript : p'.script = p.script)
    (hpump : p'.pump = p.pump) : p.Spares p' :=
  ⟨hmain, hinbox, fun _ => hconsumer, congrArg _ hscript, fun _ hr _ => hscript.trans hr,
    fun _ _ => hpump⟩

theorem spares_pump (hp : p.stepPump? = some p') : p.Spares p' := by
  obtain ⟨⟨pump, bridge⟩, hstep, rfl⟩ := Option.map_eq_some_iff.mp hp
  refine ⟨rfl, rfl, fun _ => rfl, rfl, fun _ hr _ => hr, fun result hreturned => ?_⟩
  rw [hreturned] at hstep
  exact nomatch hstep

/-- An answer to the consumer touches its bridge, the log and what is in the inbox. -/
theorem answer_spares {q : Consumer.Ask} {a : Consumer.Answer q} (h : p.answer q = some (a, p')) :
    p'.main = p.main ∧ p'.pump = p.pump ∧ p'.script = p.script ∧
      p'.desk.inbox.shuttingDown = p.desk.inbox.shuttingDown := by
  cases q with
  | take =>
    obtain ⟨⟨e, mailbox⟩, -, he⟩ := Option.map_eq_some_iff.mp h
    cases he
    exact ⟨rfl, rfl, rfl, rfl⟩
  | overwritten | clipboard | stop =>
    cases h
    exact ⟨rfl, rfl, rfl, rfl⟩
  | report c =>
    cases h
    unfold hear
    dsimp only
    split <;> exact ⟨rfl, rfl, rfl, rfl⟩

theorem spares_consumer (hp : p.stepConsumer? = some p') : p.Spares p' := by
  obtain ⟨c, p₁, hmake, rfl⟩ := make?_of_stepConsumer? hp
  have hsame : p₁.main = p.main ∧ p₁.pump = p.pump ∧ p₁.script = p.script ∧
      p₁.desk.inbox.shuttingDown = p.desk.inbox.shuttingDown := by
    cases hm : p.consumer.move with
    | done totals =>
      rw [hm] at hmake
      cases hmake
    | quiet next =>
      rw [hm] at hmake
      cases hmake
      exact ⟨rfl, rfl, rfl, rfl⟩
    | ask q resume =>
      rw [hm] at hmake
      obtain ⟨⟨a, p₂⟩, ha, he⟩ := Option.map_eq_some_iff.mp hmake
      cases he
      exact answer_spares ha
  obtain ⟨hmain, hpump, hscript, hinbox⟩ := hsame
  refine ⟨hmain, hinbox, fun hended => ?_, congrArg _ hscript, fun r hr _ => hscript.trans hr,
    fun _ _ => hpump⟩
  rw [Consumer.move, hended] at hmake
  cases hmake

/-- The script goes on, and so it had no result. -/
theorem spares_runner {r r' : Script.Runner} {desk : Script.Desk} (hscript : p.script = some r)
    (hgoes : r.result? = none) (hinbox : desk.inbox.shuttingDown = p.desk.inbox.shuttingDown) :
    p.Spares { p with script := some r', desk } := by
  refine ⟨rfl, hinbox, fun _ => rfl, ?_, fun r₀ hr₀ hresult => ?_, fun _ _ => rfl⟩
  · rw [hscript]
    rfl
  · obtain rfl : r = r₀ := Option.some.inj (hscript.symm.trans hr₀)
    rw [hgoes] at hresult
    exact absurd hresult Bool.false_ne_true

theorem spares_script (hp : p.stepScript? = some p') : p.Spares p' := by
  obtain ⟨r, hscript, hp⟩ := Option.bind_eq_some_iff.mp hp
  obtain ⟨⟨r', desk⟩, hmake, rfl⟩ := Option.map_eq_some_iff.mp hp
  cases hm : r.move with
  | done result =>
    rw [hm] at hmake
    cases hmake
  | quiet next =>
    rw [hm] at hmake
    cases hmake
    exact spares_runner hscript (by rw [Script.Runner.result?, hm]; rfl) rfl
  | ask q resume =>
    rw [hm] at hmake
    obtain ⟨⟨a, k⟩, ha, he⟩ := Option.map_eq_some_iff.mp hmake
    cases he
    refine spares_runner hscript (by rw [Script.Runner.result?, hm]; rfl) ?_
    rcases inbox_of_desk ha with hsame | htaken
    · rw [hsame]
    · rw [htaken]
      rfl

theorem spares_expire (hp : p.expire? = some p') : p.Spares p' := by
  obtain ⟨r, hscript, hp⟩ := Option.bind_eq_some_iff.mp hp
  split at hp
  · next d resume hm =>
    split at hp
    · cases hp
    · cases hp
      exact spares_runner hscript (by rw [Script.Runner.result?, hm]; rfl) rfl
  · cases hp

theorem step?_spares (hx : x ≠ .step .main) (hp : p.step? x = some p') : p.Spares p' := by
  cases x with
  | step t =>
    cases t with
    | pump => exact spares_pump hp
    | consumer => exact spares_consumer hp
    | script => exact spares_script hp
    | signal =>
      replace hp : p.stepSignal? = some p' := hp
      unfold stepSignal? at hp
      split at hp
      · cases hp
        exact .of_same rfl rfl rfl rfl rfl
      · cases hp
        exact .of_same rfl rfl rfl rfl rfl
      · exact nomatch hp
    | main => exact absurd rfl hx
  | arrive m | pass d =>
    cases hp
    exact .of_same rfl rfl rfl rfl rfl
  | interrupt =>
    cases hp
    unfold Program.interrupt
    split <;> exact .of_same rfl rfl rfl rfl rfl
  | expire => exact spares_expire hp

/-! ## What befits a phase -/

/-- The script, if there is one, has come to its end. -/
def ScriptReturned (p : Program) : Prop :=
  ∀ r, p.script = some r → ∃ totals, r.result? = some (.ok totals)

/-- The result follows from those of the script and the pump. -/
inductive Concludes (p : Program) : Except Failure Unit → Prop where
  | broken {r : Script.Runner} {b : Script.Breakdown} (hscript : p.script = some r)
      (hresult : r.result? = some (.error b)) : Concludes p (.error (.brokenScript b))
  | returned {pumped : Except HostError Unit} (hscript : p.ScriptReturned)
      (hpump : p.pump = .returned pumped) : Concludes p (verdict pumped)

/-- What holds while the main thread is in a phase. -/
def Befits (p : Program) : Phase → Prop
  | .announcing _ _ | .consuming => p.desk.inbox.shuttingDown = false
  | .hushing | .closing => p.desk.inbox.shuttingDown = false ∧ p.consumer.phase = .ended
  | .awaitingScript => p.desk.inbox.shuttingDown = true ∧ p.consumer.phase = .ended
  | .awaitingPump =>
    p.desk.inbox.shuttingDown = true ∧ p.consumer.phase = .ended ∧ p.ScriptReturned
  | .counting pumped | .concluding pumped =>
    p.desk.inbox.shuttingDown = true ∧ p.consumer.phase = .ended ∧ p.ScriptReturned ∧
      p.pump = .returned pumped
  | .ended result =>
    p.desk.inbox.shuttingDown = true ∧ p.consumer.phase = .ended ∧ p.Concludes result

namespace Spares

theorem phase (h : p.Spares p') (hended : p.consumer.phase = .ended) :
    p'.consumer.phase = .ended := by
  rw [h.consumer hended]
  exact hended

theorem scriptReturned (h : p.Spares p') (hreturned : p.ScriptReturned) : p'.ScriptReturned := by
  intro r' hr'
  have hsome : p.script.isSome = true := by rw [← h.script, hr']; rfl
  obtain ⟨r, hr⟩ := Option.isSome_iff_exists.mp hsome
  obtain ⟨totals, hresult⟩ := hreturned r hr
  have hsame := h.scriptResult r hr (by rw [hresult]; rfl)
  obtain rfl : r = r' := Option.some.inj (hsame.symm.trans hr')
  exact ⟨totals, hresult⟩

theorem concludes (h : p.Spares p') {result : Except Failure Unit} (hc : p.Concludes result) :
    p'.Concludes result := by
  cases hc with
  | @broken r b hscript hresult =>
    exact .broken (h.scriptResult r hscript (by rw [hresult]; rfl)) hresult
  | returned hscript hpump =>
    exact .returned (h.scriptReturned hscript) ((h.pump _ hpump).trans hpump)

theorem befits (h : p.Spares p') {phase : Phase} (hb : p.Befits phase) : p'.Befits phase := by
  have hinbox := h.inbox
  cases phase with
  | announcing | consuming => exact hinbox.trans hb
  | hushing | closing | awaitingScript => exact ⟨hinbox.trans hb.1, h.phase hb.2⟩
  | awaitingPump => exact ⟨hinbox.trans hb.1, h.phase hb.2.1, h.scriptReturned hb.2.2⟩
  | counting pumped | concluding pumped =>
    obtain ⟨hflag, hended, hscript, hpump⟩ := hb
    exact ⟨hinbox.trans hflag, h.phase hended, h.scriptReturned hscript,
      (h.pump _ hpump).trans hpump⟩
  | ended result => exact ⟨hinbox.trans hb.1, h.phase hb.2.1, h.concludes hb.2.2⟩

end Spares

/-! ## From phase to phase -/

theorem phase_of_result? {c : Consumer} {totals : Consumer.Totals}
    (h : c.move.result? = some totals) : c.phase = .ended := by
  unfold Consumer.move at h
  split at h <;> try contradiction
  · split at h <;> contradiction
  · next hphase => exact hphase

theorem eq_returned_of_result? {pump : Pump (Loop Unit)} {pumped : Except HostError Unit}
    (h : pump.result? = some pumped) : pump = .returned pumped := by
  unfold Pump.result? at h
  split at h <;> cases h
  rfl

/-- The steps of the main thread, with the program before and after. -/
inductive Advances (p : Program) : Program → Prop where
  | announces {stopKey clipboardKey : String} (h : p.main = .announcing stopKey clipboardKey) :
    Advances p { p.note (.ready stopKey clipboardKey) with main := .consuming }
  | stops (h : p.main = .consuming) (hended : p.consumer.phase = .ended) :
    Advances p { p.stopBridge with main := .hushing }
  | hushes (h : p.main = .hushing) : Advances p { p.hush with main := .closing }
  | closes (h : p.main = .closing) :
    Advances p
      { p with
        desk := { p.desk with inbox := p.desk.inbox.shutDown }
        main := .awaitingScript }
  | noScript (h : p.main = .awaitingScript) (hscript : p.script = none) :
    Advances p { p with main := .awaitingPump }
  | scriptReturned {r : Script.Runner} {totals : Script.Totals} (h : p.main = .awaitingScript)
      (hscript : p.script = some r) (hresult : r.result? = some (.ok totals)) :
    Advances p { p.note (.scriptFinished totals) with main := .awaitingPump }
  | scriptBroke {r : Script.Runner} {b : Script.Breakdown} (h : p.main = .awaitingScript)
      (hscript : p.script = some r) (hresult : r.result? = some (.error b)) :
    Advances p { p with main := .ended (.error (.brokenScript b)) }
  | pumpReturned {pumped : Except HostError Unit} (h : p.main = .awaitingPump)
      (hpump : p.pump = .returned pumped) : Advances p { p with main := .counting pumped }
  | lostNothing {pumped : Except HostError Unit} (h : p.main = .counting pumped)
      (hlost : ¬ 0 < p.consumer.totals.dropped) :
    Advances p { p with main := .concluding pumped }
  | lost {pumped : Except HostError Unit} (h : p.main = .counting pumped)
      (hlost : 0 < p.consumer.totals.dropped) :
    Advances p
      { p.note (.dropped p.consumer.totals.dropped) with main := .concluding pumped }
  | concludes {pumped : Except HostError Unit} (h : p.main = .concluding pumped) :
    Advances p
      { p.note (.stopped p.consumer.totals.events p.consumer.totals.stoppedByBinding) with
        main := .ended (verdict pumped) }

theorem advances_of_afterScript (h : p.main = .awaitingScript) (hp : p.afterScript = some p') :
    p.Advances p' := by
  unfold afterScript at hp
  split at hp
  · next hnone =>
    cases hp
    exact .noScript h hnone
  · next r hscript =>
    obtain ⟨result, hresult, rfl⟩ := Option.map_eq_some_iff.mp hp
    cases result with
    | ok totals => exact .scriptReturned h hscript hresult
    | error b => exact .scriptBroke h hscript hresult

theorem advances_of_stepMain? (hp : p.stepMain? = some p') : p.Advances p' := by
  unfold stepMain? at hp
  cases hmain : p.main with
  | announcing stopKey clipboardKey =>
    rw [hmain] at hp
    cases hp
    exact .announces hmain
  | consuming =>
    rw [hmain] at hp
    obtain ⟨totals, htotals, rfl⟩ := Option.map_eq_some_iff.mp hp
    exact .stops hmain (phase_of_result? htotals)
  | hushing =>
    rw [hmain] at hp
    cases hp
    exact .hushes hmain
  | closing =>
    rw [hmain] at hp
    cases hp
    exact .closes hmain
  | awaitingScript =>
    rw [hmain] at hp
    exact advances_of_afterScript hmain hp
  | awaitingPump =>
    rw [hmain] at hp
    obtain ⟨pumped, hpumped, rfl⟩ := Option.map_eq_some_iff.mp hp
    exact .pumpReturned hmain (eq_returned_of_result? hpumped)
  | counting pumped =>
    rw [hmain] at hp
    by_cases hlost : 0 < p.consumer.totals.dropped
    · simp only [if_pos hlost] at hp
      cases hp
      exact .lost hmain hlost
    · simp only [if_neg hlost] at hp
      cases hp
      exact .lostNothing hmain hlost
  | concluding pumped =>
    rw [hmain] at hp
    cases hp
    exact .concludes hmain
  | ended result =>
    rw [hmain] at hp
    cases hp

/-- Turning interrupts away changes nothing else. -/
theorem hush_leaves (p : Program) :
    p.hush.consumer = p.consumer ∧ p.hush.script = p.script ∧ p.hush.desk = p.desk := by
  unfold hush
  split <;> exact ⟨rfl, rfl, rfl⟩

theorem befits_main (hb : p.Befits p.main) (hp : p.stepMain? = some p') :
    p'.Befits p'.main := by
  cases advances_of_stepMain? hp with
  | announces h =>
    rw [h] at hb
    exact hb
  | stops h hended =>
    rw [h] at hb
    exact ⟨hb, hended⟩
  | hushes h =>
    rw [h] at hb
    obtain ⟨hconsumer, -, hdesk⟩ := p.hush_leaves
    show p.hush.desk.inbox.shuttingDown = false ∧ p.hush.consumer.phase = .ended
    rw [hconsumer, hdesk]
    exact hb
  | closes h =>
    rw [h] at hb
    exact ⟨rfl, hb.2⟩
  | noScript h hscript =>
    rw [h] at hb
    refine ⟨hb.1, hb.2, fun r hr => ?_⟩
    cases hscript.symm.trans hr
  | @scriptReturned _ totals h hscript hresult =>
    rw [h] at hb
    refine ⟨hb.1, hb.2, fun r hr => ⟨totals, ?_⟩⟩
    cases hscript.symm.trans hr
    exact hresult
  | scriptBroke h hscript hresult =>
    rw [h] at hb
    exact ⟨hb.1, hb.2, .broken hscript hresult⟩
  | pumpReturned h hpump =>
    rw [h] at hb
    exact ⟨hb.1, hb.2.1, hb.2.2, hpump⟩
  | lostNothing h | lost h =>
    rw [h] at hb
    exact hb
  | concludes h =>
    rw [h] at hb
    obtain ⟨hflag, hended, hscript, hpump⟩ := hb
    exact ⟨hflag, hended, .returned hscript hpump⟩

theorem befits_step (hb : p.Befits p.main) (hp : p.step? x = some p') : p'.Befits p'.main := by
  by_cases hx : x = .step .main
  · subst hx
    exact befits_main hb hp
  · have hspares := step?_spares hx hp
    rw [hspares.main]
    exact hspares.befits hb

theorem befits_run {hs : List Happening} (hb : p.Befits p.main) (h : run? hs p = some p') :
    p'.Befits p'.main := by
  rw [run?_eq_foldlM] at h
  refine foldlM_keeps (P := fun p : Program => p.Befits p.main) ?_ h hb
  exact fun _ _ _ hb hp => befits_step hb hp

/-- A program that is started begins in the first phase. -/
theorem befits_of_assemble {s : Setup} {c : Config} {bindings : Bindings}
    (h : s.assemble c bindings = .ok p) : p.Befits p.main := by
  unfold Setup.assemble at h
  split at h
  · exact nomatch h
  · split at h
    · exact nomatch h
    · cases h
      rfl

/-- **The result of the program.** It is a failure just when the script broke off or the start of
the bridge came back with an error other than that the bridge had been stopped before. -/
theorem Concludes.isError_iff {result : Except Failure Unit} (h : p.Concludes result) :
    (∃ f, result = .error f) ↔
      (∃ r b, p.script = some r ∧ r.result? = some (.error b)) ∨
        ∃ e, p.pump.result? = some (.error e) ∧ e ≠ .alreadyStopped := by
  cases h with
  | @broken r b hscript hresult =>
    exact ⟨fun _ => .inl ⟨r, b, hscript, hresult⟩, fun _ => ⟨_, rfl⟩⟩
  | @returned pumped hscript hpump =>
    have hsound : ¬ ∃ r b, p.script = some r ∧ r.result? = some (.error b) := by
      rintro ⟨r, b, hr, hresult⟩
      obtain ⟨totals, hok⟩ := hscript r hr
      exact nomatch hok.symm.trans hresult
    rw [hpump]
    constructor
    · rintro ⟨f, hf⟩
      right
      cases pumped with
      | ok => exact nomatch hf
      | error e =>
        refine ⟨e, rfl, ?_⟩
        rintro rfl
        exact nomatch hf
    · rintro (hbroken | ⟨e, he, hne⟩)
      · exact absurd hbroken hsound
      · cases he
        cases e with
        | alreadyStopped => exact absurd rfl hne
        | _ => exact ⟨_, rfl⟩

end InputRelay.Program
