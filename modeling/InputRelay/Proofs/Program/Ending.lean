import InputRelay.Program.Rehearsal
import InputRelay.Proofs.Config.RoundTrip
import InputRelay.Proofs.Outcome
import InputRelay.Proofs.Program.Handover
import InputRelay.Proofs.Relay.Tally
import InputRelay.Proofs.Script.ClockRange

/-!
# How the program fails and how it ends

What is found wrong before the host is asked for is found whatever the host is, and nothing is sent
(`Setup.Fails.of_host`). A program that was started and has come to its result has taken down
its bridge, its listeners and its mailboxes, has handed on what it took, and has failed just when
the script broke off or the bridge could not be started.
-/

namespace InputRelay

open HostBridge (Looks)

namespace Setup

variable {s : Setup} {c : Config} {bindings : Bindings} {f : Failure} {log : List Entry}
  {p : Program}

/-! ## Starting -/

theorem assemble_of_launch (h : s.launch = .ok p) :
    ∃ c bindings, s.assemble c bindings = .ok p := by
  unfold launch at h
  split at h
  · exact nomatch h
  · split at h
    · exact nomatch h
    · exact ⟨_, _, mapError_eq_ok.mp h⟩

theorem host_of_assemble (h : s.assemble c bindings = .ok p) : s.host = .ok p.bridge.host := by
  unfold assemble at h
  split at h
  · exact nomatch h
  · split at h
    · exact nomatch h
    · next host hhost =>
      cases h
      exact hhost

/-- How a start fails, with what is logged until then. -/
inductive Fails (s : Setup) : Failure → List Entry → Prop where
  | configuration {e : Config.Error} (h : s.config = .error e) : Fails s (.configuration e) []
  | binding {c : Config} {e : Config.Error} (hconfig : s.config = .ok c)
      (h : c.bindings = .error e) : Fails s (.binding e) []
  | script {c : Config} {bindings : Bindings} {f : Failure} (hconfig : s.config = .ok c)
      (hbindings : c.bindings = .ok bindings) (h : s.script c = .error f) : Fails s f [.starting]
  | host {c : Config} {bindings : Bindings} {script : Option (Script.Runner × Recorder)}
      {e : HostError} (hconfig : s.config = .ok c) (hbindings : c.bindings = .ok bindings)
      (hscript : s.script c = .ok script) (h : s.host = .error e) : Fails s (.host e) [.starting]

theorem fails_of_launch (h : s.launch = .error (f, log)) : s.Fails f log := by
  unfold launch at h
  split at h
  · next e hconfig =>
    cases h
    exact .configuration hconfig
  · next c hconfig =>
    split at h
    · next e hbindings =>
      cases h
      exact .binding hconfig hbindings
    · next bindings hbindings =>
      unfold assemble at h
      split at h
      · next e hscript =>
        cases h
        exact .script hconfig hbindings hscript
      · next script hscript =>
        split at h
        · next e hhost =>
          cases h
          exact .host hconfig hbindings hscript hhost
        · exact nomatch h

theorem Fails.launch (h : s.Fails f log) : s.launch = .error (f, log) := by
  cases h with
  | configuration h => simp only [Setup.launch, h]
  | binding hconfig h => simp only [Setup.launch, hconfig, h]
  | script hconfig hbindings h =>
    simp only [Setup.launch, hconfig, hbindings, assemble, h, Except.mapError]
  | host hconfig hbindings hscript h =>
    simp only [Setup.launch, hconfig, hbindings, assemble, hscript, h, Except.mapError]

/-- What is found wrong before the host is asked for is found whatever the host is. -/
theorem Fails.of_host (h : s.Fails f log) (hf : ∀ e, f ≠ .host e)
    (host : Except HostError (Host Unit)) : { s with host }.Fails f log := by
  cases h with
  | configuration h => exact .configuration h
  | binding hconfig h => exact .binding hconfig h
  | script hconfig hbindings h => exact .script hconfig hbindings h
  | host _ _ _ h => exact absurd rfl (hf _)

/-- The script is read before the sender is looked at. -/
theorem script_of_sender (h : s.script c = .error f) (hf : ∀ e, f ≠ .sender e)
    (sender : Except SendError Recorder) : { s with sender }.script c = .error f := by
  unfold script at h ⊢
  split at h
  · exact nomatch h
  · split at h
    · next hload =>
      dsimp only
      rw [hload]
      exact h
    · split at h
      · cases h
        exact absurd rfl (hf _)
      · exact nomatch h

theorem Fails.of_sender (h : s.Fails f log) (hhost : ∀ e, f ≠ .host e) (hf : ∀ e, f ≠ .sender e)
    (sender : Except SendError Recorder) : { s with sender }.Fails f log := by
  cases h with
  | configuration h => exact .configuration h
  | binding hconfig h => exact .binding hconfig h
  | script hconfig hbindings h => exact .script hconfig hbindings (script_of_sender h hf sender)
  | host _ _ _ h => exact absurd rfl (hhost _)

/-- Nothing is sent by a program that does not start. -/
theorem sent_of_launch_error (h : s.launch = .error (f, log)) (schedule : List Program.Cue)
    (ending : Program.Ending) : (s.perform schedule ending).sent = [] := by
  unfold perform
  split
  · rfl
  · rw [h]

end Setup

/-! ## Ending -/

namespace Program

variable {p₀ p : Program} {hs : List Happening}

theorem looks_stopped_of_ended (hnew : p₀.IsNew) (h : run? hs p₀ = some p)
    (hended : p.consumer.phase = .ended) : Looks p.bridge .stopped := by
  have hdone : p.consumer.move.result? = some p.consumer.totals := by
    rw [Consumer.move, hended]
    rfl
  exact looks_stopped_of_result? hnew h hdone

/-- A program that has stopped its bridge has removed each listener once. -/
theorem hasCleared (hnew : p₀.IsNew) (hfresh : p₀.bridge.host.IsFresh)
    (h : run? hs p₀ = some p) (hstopped : Looks p.bridge .stopped) :
    Crowd.HasCleared p₀.loopFailure p₀.bridge.host ⟨p.bridge, [p.pump]⟩ := by
  obtain ⟨xs, b, r, hrun, hshows⟩ := isShown_of_run? hnew h
  rw [← hshows.crowd]
  refine Relay.hasCleared hfresh hrun ?_
  rw [hshows.crowd]
  exact hstopped

/-- What happens in a run happens to the program as the run has left it until then. -/
theorem exists_step?_of_run? {before after : List Happening} {x : Happening} {q : Program}
    (h : run? (before ++ x :: after) p₀ = some p) (hq : run? before p₀ = some q) :
    ∃ q', q.step? x = some q' := by
  induction before generalizing p₀ with
  | nil =>
    cases hq
    obtain ⟨q', hq', -⟩ := Option.bind_eq_some_iff.mp h
    exact ⟨q', hq'⟩
  | cons y before ih =>
    obtain ⟨d, hd, hrest⟩ := Option.bind_eq_some_iff.mp h
    obtain ⟨d', hd', hq⟩ := Option.bind_eq_some_iff.mp hq
    cases hd.symm.trans hd'
    exact ih hrest hq

end Program

/-- **How the program fails and how it ends.** A start that fails on the configuration, a binding,
the script or the sender fails so on any host, which it leaves alone, and nothing is sent. A program
that was started and has its result, in whatever order the threads went on and messages and
interrupts came, leaves a stopped bridge without listeners, each of them removed once, and mailboxes
that are shutting down; into the inbox went, before that, what the consumer took. The result is a
failure just when the run of the script broke off or the start of the bridge came back with an error
other than that the bridge had been stopped before. -/
theorem Setup.fails_fast_and_ends_clean (s : Setup)
    (hfresh : ∀ host, s.host = .ok host → host.IsFresh) :
    -- A start that fails before the host is asked for does not touch the host.
    (∀ f log, s.launch = .error (f, log) →
      (∀ schedule ending, (s.perform schedule ending).sent = []) ∧
      ((∀ e, f ≠ .host e) → ∀ host, { s with host }.launch = .error (f, log)) ∧
      ((∀ e, f ≠ .host e) → (∀ e, f ≠ .sender e) →
        ∀ host sender, { s with host, sender }.launch = .error (f, log))) ∧
    -- Whatever happens to a program that was started, in whatever order, until it has its result:
    ∀ p₀, s.launch = .ok p₀ → ∀ hs p, Program.run? hs p₀ = some p →
      ∀ result, p.result? = some result →
        -- The bridge is stopped, and each listener has been removed once.
        p.bridge.state = .stopped ∧ p.bridge.handles = [] ∧
        Crowd.HasCleared p₀.loopFailure p₀.bridge.host ⟨p.bridge, [p.pump]⟩ ∧
        -- Both mailboxes are shutting down.
        p.bridge.mailbox.shuttingDown = true ∧ p.desk.inbox.shuttingDown = true ∧
        -- What the consumer took went into the inbox of the script, before it was shut down.
        (p₀.script.isSome = true →
          Program.collect Program.takes? hs p₀ = Program.collect Program.deposits? hs p₀) ∧
        (∀ before x after q e, hs = before ++ x :: after → Program.run? before p₀ = some q →
          q.deposits? x = some e → q.desk.inbox.shuttingDown = false ∧
            ∃ q', q.step? x = some q' ∧ q'.desk.inbox = q.desk.inbox.deposit e) ∧
        -- The result is that of the script and of the start of the bridge.
        ((∃ f, result = .error f) ↔
          (∃ r b, p.script = some r ∧ r.result? = some (.error b)) ∨
            ∃ e, p.pump.result? = some (.error e) ∧ e ≠ .alreadyStopped) := by
  refine ⟨fun f log h => ⟨sent_of_launch_error h, fun hhost host => ?_,
    fun hhost hsender host sender => ?_⟩, fun p₀ h hs p hrun result hresult => ?_⟩
  · exact ((fails_of_launch h).of_host hhost host).launch
  · exact (((fails_of_launch h).of_host hhost host).of_sender hhost hsender sender).launch
  · obtain ⟨c, bindings, hassemble⟩ := assemble_of_launch h
    have hhost := hfresh _ (host_of_assemble hassemble)
    have hnew : p₀.IsNew :=
      Program.isNew_of_assemble (fun host hh => (hfresh host hh).live_eq) hassemble
    have hbegin : p₀.Befits p₀.main := Program.befits_of_assemble hassemble
    have hend : p.Befits (.ended result) := by
      have hmain : p.main = .ended result := by
        unfold Program.result? at hresult
        split at hresult
        · next hmain =>
          cases hresult
          exact hmain
        · exact nomatch hresult
      exact hmain ▸ Program.befits_run hbegin hrun
    obtain ⟨hflag, hended, hconcludes⟩ := hend
    have hstopped := Program.looks_stopped_of_ended hnew hrun hended
    have hcleared := Program.hasCleared hnew hhost hrun hstopped
    obtain ⟨hstate, hhandles, -, hshut⟩ := hstopped
    refine ⟨hstate, hhandles, hcleared, hshut, hflag, fun hscript => ?_, ?_,
      hconcludes.isError_iff⟩
    · have hhanded := Program.handsOn_run hscript hrun
      have hfirst : p₀.consumer.carried = [] := by rw [hnew.consumer]; rfl
      have hlast : p.consumer.carried = [] := by simp only [Consumer.carried, hended]
      rw [hfirst, hlast, List.nil_append, List.append_nil] at hhanded
      exact hhanded
    · rintro before x after q e rfl hq he
      obtain ⟨q', hq'⟩ := Program.exists_step?_of_run? hrun hq
      obtain ⟨hopen, hdeposit⟩ := Program.deposit_step (Program.befits_run hbegin hq) hq' he
      exact ⟨hopen, q', hq', hdeposit⟩

namespace Setup

/-! ### A script that breaks off -/

open Program (Happening)
open Script (WrittenStep)

/-- A script with a repeat that would tick once in 317 billion years. -/
def glacial : List WrittenStep :=
  [.press [.name "a"], .repeating "1e-19hz" none (some [.name "f9"]) [.press [.name "b"]]]

def glacialPace : Script.Pace := ⟨Script.eon, none, [.keyDown 0x78]⟩

def glacialPlan : Script.Plan where
  steps := [.send [.keyDown 0x41, .keyUp 0x41],
    .repeating glacialPace [.send [.keyDown 0x42, .keyUp 0x42]]]

def glacialLibrary : Script.Library := fun path => if path = "s" then some glacial else none

theorem load_glacial : Script.load glacialLibrary "s" = .ok glacialPlan := by
  have hrate : Script.frequency "1e-19hz" = .ok glacialPace.interval := by
    have hread : Time.readFrequency? "1e-19hz" = some glacialPace.interval := by decide +kernel
    rw [Script.frequency, hread]
  have hpace : Script.pace "1e-19hz" none (some [.name "f9"]) = .ok glacialPace := by
    rw [Script.pace, hrate]
    rfl
  have hfound : glacialLibrary "s" = some glacial := rfl
  have hfile : Script.compileFile glacialLibrary Script.includeLimit [] true "s" =
      .ok glacialPlan := by
    unfold Script.includeLimit
    rw [Script.compileFile]
    simp only [hfound, glacial, Script.compileAll, WrittenStep.compile, hpace]
    rfl
  simp only [Script.load, Script.compile, Script.compileAll, WrittenStep.compile, hfile]
  rfl

def glacialConfig : Config := { script := some "s" }

def glacialBindings : Bindings where
  stop := some (.keyDown 0x1B)
  clipboard := some (.keyDown 0x77)

/-- The configuration has been saved, and the host is new. -/
def glacialSetup (sender : Except SendError Recorder) : Setup where
  location := ⟨some "etc", none⟩
  place := .file glacialConfig.write.toUTF8
  library := glacialLibrary
  sender
  host := .ok {}

theorem config_glacial (sender : Except SendError Recorder) :
    (glacialSetup sender).config = .ok glacialConfig := by
  have hfile : (glacialSetup sender).location.file =
      .ok (Config.join (Config.join "etc" "keybridge") "config.toml") := rfl
  have hplace : (glacialSetup sender).place = .file glacialConfig.write.toUTF8 := rfl
  have hread : Config.read? glacialConfig.write = some glacialConfig := by
    rw [Config.write, Config.read?_writeFields (by decide), Config.keep_all]
  rw [Setup.config, hfile, Except.bind, hplace]
  exact Config.load_file hread

theorem script_glacial (sender : Except SendError Recorder) :
    (glacialSetup sender).script glacialConfig =
      (sender.map fun recorder => some (.ofPlan glacialPlan, recorder)).mapError .sender := by
  have hnames : glacialConfig.script = some "s" := rfl
  have hplan : Script.load (glacialSetup sender).library "s" = .ok glacialPlan := load_glacial
  rw [Setup.script]
  simp only [hnames, hplan]
  cases sender <;> rfl

/-- The program as it is started. -/
def glacialStart : Program where
  bridge := { host := {} }
  consumer := { bindings := glacialBindings }
  script := some (.ofPlan glacialPlan)
  main := .announcing "esc" "f8"
  log := [.starting]

theorem launch_glacial : (glacialSetup (.ok {})).launch = .ok glacialStart := by
  have hconfig := config_glacial (.ok {})
  have hscript := script_glacial (.ok {})
  have hbindings : glacialConfig.bindings = .ok glacialBindings := rfl
  rw [launch]
  simp only [hconfig, hbindings]
  rw [assemble]
  simp only [hscript]
  rfl

/-- The script sends a key and comes to the repeat. The consumer takes a key, an interrupt stops the
bridge, and the main thread has its result before the pump returns. -/
def glacialRun : List Happening :=
  [.step .main, .step .pump, .arrive (.keyboard 0x100 0x41)] ++
    List.replicate 5 (.step .pump) ++ List.replicate 6 (.step .script) ++
    List.replicate 4 (.step .consumer) ++
    [.interrupt, .step .signal, .step .signal, .step .consumer, .step .consumer] ++
    List.replicate 4 (.step .main) ++ List.replicate 3 (.step .pump)

theorem exists_run_glacial :
    ∃ p, Program.run? glacialRun glacialStart = some p ∧
      p.result? = some (.error (.brokenScript .clockOverflow)) ∧
      p.pump.result? = some (.ok ()) :=
  ⟨_, rfl, rfl, rfl⟩

/-- Without a sender the script is not run. With one it breaks off, and all is cleared away. -/
theorem fails_fast_and_ends_clean_of_glacial :
    (glacialSetup (.error noSender)).launch = .error (.sender noSender, [.starting]) ∧
      { glacialSetup (.error noSender) with host := .error noHost }.launch =
        .error (.sender noSender, [.starting]) ∧
      (glacialSetup (.ok {})).launch = .ok glacialStart ∧
      ∃ p, Program.run? glacialRun glacialStart = some p ∧
        p.result? = some (.error (.brokenScript .clockOverflow)) ∧
        Crowd.HasCleared none {} ⟨p.bridge, [p.pump]⟩ ∧
        Program.collect Program.takes? glacialRun glacialStart = [.keyDown 0x41] ∧
        Program.collect Program.deposits? glacialRun glacialStart = [.keyDown 0x41] ∧
        ∃ r b, p.script = some r ∧ r.result? = some (.error b) := by
  have hfresh : ∀ sender host, (glacialSetup sender).host = .ok host → host.IsFresh := by
    intro sender host h
    cases h
    rfl
  have hfails : (glacialSetup (.error noSender)).launch =
      .error (.sender noSender, [.starting]) :=
    Fails.launch (.script (config_glacial _) rfl (script_glacial _))
  obtain ⟨hstart, -⟩ := fails_fast_and_ends_clean _ (hfresh (.error noSender))
  obtain ⟨-, hend⟩ := fails_fast_and_ends_clean _ (hfresh (.ok {}))
  obtain ⟨p, hrun, hresult, hpump⟩ := exists_run_glacial
  obtain ⟨-, -, hcleared, -, -, hhanded, -, hiff⟩ :=
    hend _ launch_glacial glacialRun p hrun _ hresult
  have htaken : Program.collect Program.takes? glacialRun glacialStart = [.keyDown 0x41] := rfl
  refine ⟨hfails, (hstart _ _ hfails).2.1 nofun _, launch_glacial, p, hrun, hresult, hcleared,
    htaken, (hhanded rfl).symm.trans htaken, ?_⟩
  rcases hiff.mp ⟨_, rfl⟩ with hbroken | ⟨e, he, -⟩
  · exact hbroken
  · exact nomatch hpump.symm.trans he

/-- The start of the bridge came back well, and yet the program has failed: the script broke off. -/
theorem fails_after_good_start :
    ∃ p₀ p result, (glacialSetup (.ok {})).launch = .ok p₀ ∧
      Program.run? glacialRun p₀ = some p ∧ p.result? = some result ∧
      ¬ ((∃ f, result = .error f) ↔
        ∃ e, p.pump.result? = some (.error e) ∧ e ≠ .alreadyStopped) := by
  obtain ⟨p, hrun, hresult, hpump⟩ := exists_run_glacial
  refine ⟨_, p, _, launch_glacial, hrun, hresult, fun hiff => ?_⟩
  obtain ⟨e, he, -⟩ := hiff.mp ⟨_, rfl⟩
  exact nomatch hpump.symm.trans he

end Setup

end InputRelay
