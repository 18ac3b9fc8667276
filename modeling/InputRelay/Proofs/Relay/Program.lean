import InputRelay.Program.Launch
import InputRelay.Proofs.Relay.Ending

/-!
# The program as a relay

The pump, the consumer and the script of the program are parties of a relay whose inbox is that of
the script (`Program.Shows`). A step of a thread is at most one happening in the relay
(`Program.step?_shows`), so that whatever holds in every run of a relay holds in every run of the
program.
-/

namespace InputRelay.Program

open HostBridge (Looks)

variable {p p' : Program} {r : Relay} {x : Happening}

/-! ## One step -/

/-- The relay has the bridge, the pump and the consumer of the program, and the inbox of its script
if there is one. -/
structure Shows (p : Program) (r : Relay) : Prop where
  crowd : r.crowd = ⟨p.bridge, [p.pump]⟩
  consumer : r.consumer = p.consumer
  inbox : p.script.isSome = true → r.inbox = p.desk.inbox

/-- A relay shows what comes after the program, possibly after one more happening. -/
structure Follows (p : Program) (r : Relay) (p' : Program) : Prop where
  failure : p'.loopFailure = p.loopFailure
  relay : Shows p' r ∨ ∃ x r', r.step? p.loopFailure x = some r' ∧ Shows p' r'

theorem Follows.trans {p'' : Program} (h : p.Follows r p')
    (hfailure : p''.loopFailure = p'.loopFailure) (hshows : ∀ r', Shows p' r' → Shows p'' r') :
    p.Follows r p'' := by
  refine ⟨hfailure.trans h.failure, ?_⟩
  rcases h.relay with h | ⟨x, r', hx, h⟩
  · exact .inl (hshows r h)
  · exact .inr ⟨x, r', hx, hshows r' h⟩

theorem Shows.pump (h : Shows p r) (hp : p.stepPump? = some p') : p.Follows r p' := by
  obtain ⟨⟨pump, bridge⟩, hpump, rfl⟩ := Option.map_eq_some_iff.mp hp
  refine ⟨rfl, .inr ⟨.bridge (.pump 0), { r with crowd := ⟨bridge, [pump]⟩ }, ?_, rfl, h.consumer,
    h.inbox⟩⟩
  have hcrowd : r.crowd.step? (HostBridge.control p.loopFailure) HostBridge.act (.pump 0) =
      some ⟨bridge, [pump]⟩ := by
    rw [h.crowd]
    show (p.pump.step? p.control p.bridge).map _ = _
    rw [hpump]
    rfl
  exact congrArg (Option.map _) hcrowd

theorem Shows.stopBridge (h : Shows p r) : p.Follows r p.stopBridge := by
  refine ⟨rfl, .inr ⟨.bridge .stop, _, rfl, ?_, h.consumer, h.inbox⟩⟩
  rw [h.crowd]
  rfl

theorem hear_loopFailure (p : Program) (c : Report) : (p.hear c).loopFailure = p.loopFailure := by
  unfold hear
  dsimp only
  split <;> rfl

theorem Shows.hear (h : Shows p r) (c : Report) : Shows (p.hear c) (r.hear c) := by
  cases c with
  | input e =>
    cases hscript : p.script with
    | none =>
      have hsame : p.hear (.input e) = p.note (.consumed (.input e)) := by
        simp only [Program.hear, note, hscript]
      rw [hsame]
      refine ⟨h.crowd, h.consumer, ?_⟩
      show p.script.isSome = true → _
      rw [hscript]
      exact nofun
    | some runner =>
      have hinbox : r.inbox = p.desk.inbox := h.inbox (by rw [hscript]; rfl)
      have hdeposit : p.hear (.input e) =
          { p.note (.consumed (.input e)) with
            desk := { p.desk with inbox := p.desk.inbox.deposit e } } := by
        simp only [Program.hear, note, hscript]
      rw [hdeposit]
      refine ⟨h.crowd, h.consumer, fun _ => ?_⟩
      show r.inbox.deposit e = p.desk.inbox.deposit e
      rw [hinbox]
  | clipboard text => exact ⟨h.crowd, h.consumer, h.inbox⟩

/-- The program answers its consumer as the relay does. -/
theorem Shows.answers (h : Shows p r) {q : Consumer.Ask} {a : Consumer.Answer q}
    (ha : p.answer q = some (a, p')) :
    p'.loopFailure = p.loopFailure ∧
      ∃ r', r.answer p.loopFailure p.clipboard q = some (a, r') ∧ Shows p' r' := by
  cases q with
  | take =>
    obtain ⟨⟨e, mailbox⟩, htake, he⟩ := Option.map_eq_some_iff.mp ha
    cases he
    have htake' : r.crowd.bridge.mailbox.take? = some (a, mailbox) := by rw [h.crowd]; exact htake
    refine ⟨rfl, { r with crowd.bridge.mailbox := mailbox }, ?_, ?_, h.consumer, h.inbox⟩
    · show r.crowd.bridge.mailbox.take?.map _ = _
      rw [htake']
      rfl
    · rw [h.crowd]
  | overwritten =>
    cases ha
    refine ⟨rfl, r, ?_, h⟩
    show some (r.crowd.bridge.mailbox.overwritten, r) = _
    rw [h.crowd]
    rfl
  | report c =>
    cases ha
    exact ⟨p.hear_loopFailure c, r.hear c, rfl, h.hear c⟩
  | clipboard =>
    cases ha
    exact ⟨rfl, r, rfl, h⟩
  | stop =>
    cases ha
    refine ⟨rfl, _, rfl, ?_, h.consumer, h.inbox⟩
    rw [h.crowd]
    rfl

/-- Once the main thread has announced the keys, a step of the consumer is a move of it. -/
theorem make?_of_stepConsumer? (hp : p.stepConsumer? = some p') :
    ∃ c p₁, p.consumer.move.make? answer p = some (c, p₁) ∧ p' = { p₁ with consumer := c } := by
  unfold stepConsumer? at hp
  split at hp
  · cases hp
  · obtain ⟨⟨c, p₁⟩, hmake, rfl⟩ := Option.map_eq_some_iff.mp hp
    exact ⟨c, p₁, hmake, rfl⟩

theorem Shows.consumer_step (h : Shows p r) (hp : p.stepConsumer? = some p') : p.Follows r p' := by
  obtain ⟨c, p₁, hmake, rfl⟩ := make?_of_stepConsumer? hp
  cases hm : p.consumer.move with
  | done totals =>
    rw [hm] at hmake
    cases hmake
  | quiet c' =>
    rw [hm] at hmake
    obtain ⟨rfl, rfl⟩ := Prod.mk.inj (Option.some.inj hmake)
    refine ⟨rfl, .inr ⟨.consume p.clipboard, { r with consumer := c' }, ?_,
      h.crowd, rfl, h.inbox⟩⟩
    show (r.consumer.move.make? _ r).map _ = _
    rw [h.consumer, hm]
    rfl
  | ask q resume =>
    rw [hm] at hmake
    obtain ⟨⟨a, p₂⟩, ha, he⟩ := Option.map_eq_some_iff.mp hmake
    obtain ⟨rfl, rfl⟩ := Prod.mk.inj he
    obtain ⟨hfailure, r₁, hr₁, hshows⟩ := h.answers ha
    refine ⟨hfailure, .inr ⟨.consume p.clipboard, { r₁ with consumer := resume a }, ?_,
      hshows.crowd, rfl, hshows.inbox⟩⟩
    show (r.consumer.move.make? _ r).map _ = _
    rw [h.consumer, hm]
    show ((Relay.answer p.loopFailure p.clipboard q r).map _).map _ = _
    rw [hr₁]
    rfl

/-- A step of the script takes an event from the inbox at most. -/
theorem inbox_of_desk {q : Script.Ask} {a : Script.Answer q} {k k' : Script.Desk}
    (h : k.answer q = some (a, k')) : k'.inbox = k.inbox ∨ k'.inbox = k.inbox.tryTake.2 := by
  cases q with
  | clock | send e =>
    cases h
    exact .inl rfl
  | takeNext | takeWithin d =>
    obtain ⟨⟨e, inbox⟩, htake, he⟩ := Option.map_eq_some_iff.mp h
    cases he
    right
    rw [Mailbox.take?] at htake
    split at htake
    · cases htake
      rfl
    · cases htake

theorem Shows.script_step (h : Shows p r) (hp : p.stepScript? = some p') : p.Follows r p' := by
  obtain ⟨runner, hscript, hp⟩ := Option.bind_eq_some_iff.mp hp
  obtain ⟨⟨runner', desk⟩, hmake, rfl⟩ := Option.map_eq_some_iff.mp hp
  have hinbox : r.inbox = p.desk.inbox := h.inbox (by rw [hscript]; rfl)
  refine ⟨rfl, ?_⟩
  have hdesk : desk.inbox = p.desk.inbox ∨ desk.inbox = p.desk.inbox.tryTake.2 := by
    cases hm : runner.move with
    | done result =>
      rw [hm] at hmake
      exact nomatch hmake
    | quiet next =>
      rw [hm] at hmake
      obtain ⟨rfl, rfl⟩ := Prod.mk.inj (Option.some.inj hmake)
      exact .inl rfl
    | ask q resume =>
      rw [hm] at hmake
      obtain ⟨⟨a, k⟩, ha, he⟩ := Option.map_eq_some_iff.mp hmake
      obtain ⟨rfl, rfl⟩ := Prod.mk.inj he
      exact inbox_of_desk ha
  rcases hdesk with hsame | htaken
  · exact .inl ⟨h.crowd, h.consumer, fun _ => hinbox.trans hsame.symm⟩
  · refine .inr ⟨.read, _, rfl, h.crowd, h.consumer, fun _ => ?_⟩
    show r.inbox.tryTake.2 = desk.inbox
    rw [hinbox, htaken]

theorem Shows.signal_step (h : Shows p r) (hp : p.stepSignal? = some p') : p.Follows r p' := by
  unfold stepSignal? at hp
  split at hp
  · cases hp
    exact ⟨rfl, .inl ⟨h.crowd, h.consumer, h.inbox⟩⟩
  · cases hp
    exact h.stopBridge.trans rfl fun _ h => ⟨h.crowd, h.consumer, h.inbox⟩
  · exact nomatch hp

theorem Shows.afterScript (h : Shows p r) (hp : p.afterScript = some p') :
    p'.loopFailure = p.loopFailure ∧ Shows p' r := by
  unfold Program.afterScript at hp
  split at hp
  · cases hp
    exact ⟨rfl, h.crowd, h.consumer, h.inbox⟩
  · obtain ⟨result, -, rfl⟩ := Option.map_eq_some_iff.mp hp
    cases result <;> exact ⟨rfl, h.crowd, h.consumer, h.inbox⟩

theorem Shows.main_step (h : Shows p r) (hp : p.stepMain? = some p') : p.Follows r p' := by
  unfold stepMain? at hp
  cases hmain : p.main with
  | announcing stopKey clipboardKey =>
    rw [hmain] at hp
    cases hp
    exact ⟨rfl, .inl ⟨h.crowd, h.consumer, h.inbox⟩⟩
  | consuming =>
    rw [hmain] at hp
    obtain ⟨_, -, rfl⟩ := Option.map_eq_some_iff.mp hp
    exact h.stopBridge.trans rfl fun _ h => ⟨h.crowd, h.consumer, h.inbox⟩
  | hushing =>
    rw [hmain] at hp
    cases hp
    unfold hush
    dsimp only
    split <;> exact ⟨rfl, .inl ⟨h.crowd, h.consumer, h.inbox⟩⟩
  | closing =>
    rw [hmain] at hp
    cases hp
    refine ⟨rfl, .inr ⟨.shutInbox, _, rfl, h.crowd, h.consumer, fun hscript => ?_⟩⟩
    exact congrArg Mailbox.shutDown (h.inbox hscript)
  | awaitingScript =>
    rw [hmain] at hp
    obtain ⟨hfailure, hshows⟩ := h.afterScript hp
    exact ⟨hfailure, .inl hshows⟩
  | awaitingPump =>
    rw [hmain] at hp
    obtain ⟨_, -, rfl⟩ := Option.map_eq_some_iff.mp hp
    exact ⟨rfl, .inl ⟨h.crowd, h.consumer, h.inbox⟩⟩
  | counting pumped =>
    rw [hmain] at hp
    by_cases hlost : 0 < p.consumer.totals.dropped
    · simp only [if_pos hlost] at hp
      cases hp
      exact ⟨rfl, .inl ⟨h.crowd, h.consumer, h.inbox⟩⟩
    · simp only [if_neg hlost] at hp
      cases hp
      exact ⟨rfl, .inl ⟨h.crowd, h.consumer, h.inbox⟩⟩
  | concluding pumped =>
    rw [hmain] at hp
    cases hp
    exact ⟨rfl, .inl ⟨h.crowd, h.consumer, h.inbox⟩⟩
  | ended result =>
    rw [hmain] at hp
    exact nomatch hp

theorem step?_shows (h : Shows p r) (hp : p.step? x = some p') : p.Follows r p' := by
  cases x with
  | step t =>
    cases t with
    | pump => exact h.pump hp
    | consumer => exact h.consumer_step hp
    | script => exact h.script_step hp
    | signal => exact h.signal_step hp
    | main => exact h.main_step hp
  | arrive m =>
    cases hp
    refine ⟨rfl, .inr ⟨.bridge (.arrive m), _, rfl, ?_, h.consumer, h.inbox⟩⟩
    rw [h.crowd]
    rfl
  | interrupt =>
    cases hp
    unfold Program.interrupt
    split <;> exact ⟨rfl, .inl ⟨h.crowd, h.consumer, h.inbox⟩⟩
  | pass d =>
    cases hp
    exact ⟨rfl, .inl ⟨h.crowd, h.consumer, h.inbox⟩⟩
  | expire =>
    obtain ⟨runner, hscript, hp⟩ := Option.bind_eq_some_iff.mp hp
    have hinbox : r.inbox = p.desk.inbox := h.inbox (by rw [hscript]; rfl)
    split at hp
    · split at hp
      · exact nomatch hp
      · cases hp
        exact ⟨rfl, .inl ⟨h.crowd, h.consumer, fun _ => hinbox⟩⟩
    · exact nomatch hp

/-! ## Runs -/

theorem run?_eq_foldlM (hs : List Happening) (p : Program) :
    run? hs p = hs.foldlM (fun p x => p.step? x) p := by
  induction hs generalizing p with
  | nil => rfl
  | cons x hs ih =>
    rw [run?, List.foldlM_cons]
    exact congrArg _ (funext ih)

/-- The pump and the consumer are about to begin, on a host that has no listeners. -/
structure IsNew (p : Program) : Prop where
  bridge : p.bridge = { host := p.bridge.host }
  live : p.bridge.host.live = []
  pump : p.pump = .starting
  consumer : p.consumer = { bindings := p.consumer.bindings }
  inbox : p.desk.inbox = {}

/-- What is launched is new. -/
theorem isNew_of_assemble {s : Setup} {c : Config} {bindings : Bindings}
    (hhost : ∀ host, s.host = .ok host → host.live = []) (h : s.assemble c bindings = .ok p) :
    p.IsNew := by
  unfold Setup.assemble at h
  split at h
  · exact nomatch h
  · split at h
    · exact nomatch h
    · next host heq =>
      cases h
      exact ⟨rfl, hhost host heq, rfl, rfl, rfl⟩

/-- A relay has gone through what the program went through since it began as `p₀`. -/
def IsShown (p₀ p : Program) : Prop :=
  ∃ (xs : List Relay.Happening) (b : Relay.Books) (r : Relay),
    xs.foldlM (Relay.watch? p₀.loopFailure)
      ({}, .new p₀.bridge.host p₀.consumer.bindings) = some (b, r) ∧ Shows p r

theorem IsNew.isShown (h : p.IsNew) : IsShown p p := by
  refine ⟨[.bridge .start], _, _, rfl, ?_, h.consumer.symm, fun _ => h.inbox.symm⟩
  rw [h.bridge, h.pump]
  rfl

theorem IsShown.step {p₀ : Program} (h : IsShown p₀ p) (hfailure : p.loopFailure = p₀.loopFailure)
    (hp : p.step? x = some p') : p'.loopFailure = p₀.loopFailure ∧ IsShown p₀ p' := by
  obtain ⟨xs, b, r, hrun, hshows⟩ := h
  have hfollows := step?_shows hshows hp
  refine ⟨hfollows.failure.trans hfailure, ?_⟩
  rcases hfollows.relay with hstill | ⟨y, r', hy, hshows'⟩
  · exact ⟨xs, b, r, hrun, hstill⟩
  · rw [hfailure] at hy
    refine ⟨xs ++ [y], b.note r y, r', ?_, hshows'⟩
    rw [List.foldlM_append, hrun]
    exact foldlM_cons_eq_some.mpr ⟨_, congrArg (Option.map _) hy, rfl⟩

theorem isShown_of_run? {p₀ : Program} (hnew : p₀.IsNew) {hs : List Happening}
    (h : run? hs p₀ = some p) : IsShown p₀ p := by
  rw [run?_eq_foldlM] at h
  refine (foldlM_keeps (P := fun p : Program => p.loopFailure = p₀.loopFailure ∧ IsShown p₀ p) ?_ h
    ⟨rfl, hnew.isShown⟩).2
  rintro p x p' ⟨hfailure, hshown⟩ hp
  exact hshown.step hfailure hp

/-- **A program whose consumer has ended has stopped its bridge**, and no listener is left at the
host. -/
theorem looks_stopped_of_result? {p₀ : Program} (hnew : p₀.IsNew) {hs : List Happening}
    (h : run? hs p₀ = some p) {totals : Consumer.Totals}
    (hdone : p.consumer.move.result? = some totals) : Looks p.bridge .stopped := by
  obtain ⟨xs, b, r, hrun, hshows⟩ := isShown_of_run? hnew h
  obtain ⟨-, -, hleaving⟩ := Relay.watch?_leaving hnew.live hrun
  have hstopped := hleaving (hshows.consumer ▸ Relay.isLeaving_of_result? hdone)
  rw [hshows.crowd] at hstopped
  exact hstopped

end InputRelay.Program
