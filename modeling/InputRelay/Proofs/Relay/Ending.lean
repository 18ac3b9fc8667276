import InputRelay.Proofs.Relay.Accounting

/-!
# The consumer ends at a stopped bridge

The consumer ends when it takes the sentinel or stops the bridge itself. No message becomes the
sentinel, so it comes from a mailbox that is empty and shutting down, and the mailbox of the bridge
shuts down with the bridge.
-/

namespace InputRelay.Relay

open HostBridge (Outside Looks act control)

variable {failure : Option String} {queue : List Message} {b : Books} {r r' : Relay}
  {x : Happening}

theorem InStep.stopped (h : r.InStep) (hflag : r.crowd.bridge.mailbox.shuttingDown = true) :
    Looks r.crowd.bridge .stopped := by
  obtain ⟨s, hs⟩ := h.looks
  cases s with
  | uninstalled => simp [hs.2.2.2] at hflag
  | running => simp [hs.2.2] at hflag
  | stopped => exact hs

/-- Only a mailbox that is empty and shutting down hands out the sentinel. -/
theorem Agrees.take_sentinel (h : Agrees queue b r) {mailbox : Mailbox}
    (htake : r.crowd.bridge.mailbox.take? = some (.sentinel, mailbox)) :
    r.crowd.bridge.mailbox.shuttingDown = true ∧ r.crowd.bridge.mailbox.pending = none := by
  have hnot := h.pending_ne_sentinel
  unfold Mailbox.take? Mailbox.isReady at htake
  cases hp : r.crowd.bridge.mailbox.pending with
  | none =>
    rw [hp] at htake
    split_ifs at htake with hready
    exact ⟨hready, rfl⟩
  | some e =>
    rw [hp] at htake hnot
    cases htake
    exact absurd rfl hnot

theorem looks_stopped_step (h : Looks r.crowd.bridge .stopped) (hx : r.step? failure x = some r') :
    Looks r'.crowd.bridge .stopped := by
  rcases step?_crowd hx with hsame | ⟨y, hy⟩
  · rw [hsame]
    exact h
  · exact h.stays_stopped hy

/-- A consumer that takes no more events has left a stopped bridge behind. -/
theorem leaving_step (hin : r.InStep) (ha : Agrees queue b r)
    (h : r.consumer.IsLeaving → Looks r.crowd.bridge .stopped)
    (hx : r.step? failure x = some r') (hleaving : r'.consumer.IsLeaving) :
    Looks r'.crowd.bridge .stopped := by
  cases x with
  | bridge d =>
    have hsame : r'.consumer = r.consumer := by
      obtain ⟨crowd, -, rfl⟩ := Option.map_eq_some_iff.mp hx
      rfl
    exact looks_stopped_step (h (hsame ▸ hleaving)) hx
  | consume clipboard =>
    cases step?_consume hx with
    | @takes e mailbox _ htake =>
      obtain rfl : e = .sentinel := Consumer.isLeaving_took hleaving
      exact looks_stopped_step (hin.stopped (ha.take_sentinel htake).1) hx
    | handsOn _ _ hstays => exact absurd hleaving hstays
    | stops =>
      obtain ⟨s, hs⟩ := hin.looks
      exact hs.stop
    | goesOn _ _ _ hold => exact h (hold hleaving)
  | read | shutInbox =>
    cases hx
    exact h hleaving

theorem watch?_leaving {host : Host Unit} (hhost : host.live = []) {bindings : Bindings}
    {hs : List Happening} (h : hs.foldlM (watch? failure) ({}, new host bindings) = some (b, r)) :
    r.InStep ∧ Agrees host.queue b r ∧
      (r.consumer.IsLeaving → Looks r.crowd.bridge .stopped) := by
  refine watch?_keeps (P := fun _ r => r.consumer.IsLeaving → Looks r.crowd.bridge .stopped) hhost
    ?_ ?_ h
  · rintro (hphase | hphase) <;> exact nomatch hphase
  · exact fun _ _ _ _ hin ha hbefore hx => leaving_step hin ha hbefore hx

theorem isLeaving_of_result? {c : Consumer} {totals : Consumer.Totals}
    (h : c.move.result? = some totals) : c.IsLeaving := by
  unfold Consumer.move at h
  split at h <;> try contradiction
  · split at h <;> contradiction
  · next hphase => exact .inr hphase

/-- **The consumer never ends while the bridge is alive.** In every run of a new relay, whatever
messages come, whatever the bindings are and whoever starts and stops the bridge: no event that is
put into the mailbox of the bridge is the sentinel, so that only an empty mailbox that is shutting
down hands it out; and once the consumer has ended, the bridge is stopped, holds no listeners and
has none at the host, and its mailbox is shutting down. -/
theorem ends_at_stopped_bridge {host : Host Unit} (hhost : host.live = []) {bindings : Bindings}
    {hs : List Happening} (h : hs.foldlM (watch? failure) ({}, new host bindings) = some (b, r)) :
    (∀ e ∈ b.deposited, e ≠ .sentinel) ∧
    (∀ mailbox, r.crowd.bridge.mailbox.take? = some (.sentinel, mailbox) →
      r.crowd.bridge.mailbox.shuttingDown = true ∧ r.crowd.bridge.mailbox.pending = none) ∧
    ∀ totals, r.consumer.move.result? = some totals →
      r.crowd.bridge.state = .stopped ∧ r.crowd.bridge.mailbox.shuttingDown = true ∧
        r.crowd.bridge.handles = [] ∧ r.crowd.bridge.host.live = [] := by
  obtain ⟨-, ha, hleaving⟩ := watch?_leaving hhost h
  refine ⟨fun e he => ha.ne_sentinel he, fun mailbox htake => ha.take_sentinel htake,
    fun totals hdone => ?_⟩
  obtain ⟨hstate, hhandles, hlive, hflag⟩ := hleaving (isLeaving_of_result? hdone)
  exact ⟨hstate, hflag, hhandles, hlive⟩

/-- A wheel message becomes no event. The bridge is stopped while a key is in flight; the consumer
takes the key first and then ends with the sentinel. -/
theorem ends_at_stopped_bridge_of_late_key :
    let pumped := List.replicate 3 (Happening.bridge (.pump 0))
    let hs := [.bridge .start, .bridge (.pump 0), .bridge (.arrive (.mouse 0x20A)),
      .bridge (.arrive (.keyboard 0x104 0)), .bridge (.pump 0)] ++ pumped ++ pumped ++
      [.bridge .stop, .bridge (.pump 0)] ++ List.replicate 6 (.consume "")
    ∃ b r, hs.foldlM (watch? none) ({}, new {} {}) = some (b, r) ∧ b.deposited = [.keyDown 0] ∧
      InputEvent.keyDown 0 ≠ .sentinel ∧
      r.consumer.move.result? = some { events := 1 } ∧ r.crowd.bridge.state = .stopped := by
  intro pumped hs
  obtain ⟨b, r, h, hdeposited, hdone⟩ :
      ∃ b r, hs.foldlM (watch? none) ({}, new {} {}) = some (b, r) ∧
        b.deposited = [.keyDown 0] ∧ r.consumer.move.result? = some { events := 1 } :=
    ⟨_, _, rfl, rfl, rfl⟩
  obtain ⟨hgenuine, -, hended⟩ := ends_at_stopped_bridge rfl h
  refine ⟨b, r, h, hdeposited, hgenuine _ ?_, hdone, (hended _ hdone).1⟩
  rw [hdeposited]
  exact List.mem_singleton_self _

end InputRelay.Relay
