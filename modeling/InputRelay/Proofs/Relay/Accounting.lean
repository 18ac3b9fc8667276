import InputRelay.Proofs.Bridge.Quit
import InputRelay.Proofs.Mailbox.Accounting
import InputRelay.Proofs.Relay.Parties

/-!
# The relay keeps order and accounts for every loss

Two mailboxes stand one behind the other: the pump fills the first, the consumer empties it into the
second, and others read from there. `Books` are kept beside a run (`Relay.watch?`), and `Agrees` says
that books and relay agree: each mailbox has a `Ledger` of its own, what the consumer carries is what
it has taken and not handed on, and what a pump has in flight is what it has received and not put
into the mailbox.
-/

namespace InputRelay

open HostBridge (Outside Looks Sole act control received?)

/-- A bridge has at most one listener of each kind. -/
theorem HostBridge.Looks.length_listeners_le {b : HostBridge} {s : BridgeState} (h : b.Looks s)
    (m : Message) : (b.host.listeners m).length ≤ 1 := by
  cases s with
  | uninstalled => simp [Host.listeners, h.2.2.1]
  | stopped => simp [Host.listeners, h.2.2.1]
  | running =>
    obtain ⟨-, ⟨k, n, -, -, hlive⟩, -⟩ := h
    cases m <;> simp [Host.listeners, hlive, Message.kind?]

namespace HostBridge

variable {failure : Option String}

theorem eq_ended_of_loopResult? {loop : Loop Unit} {result : Except HostError Unit}
    (h : (control failure).loopResult? loop = some result) : loop = .ended := by
  by_contra hne
  simp [HostBridge.control, hne] at h

theorem installAll_leaves (kinds : List ListenerKind) (b : HostBridge) :
    (b.installAll (control failure) kinds).2.host.queue = b.host.queue ∧
      ((b.installAll (control failure) kinds).2.mailbox = b.mailbox ∨
        (b.installAll (control failure) kinds).2.mailbox = b.mailbox.shutDown) := by
  induction kinds generalizing b with
  | nil => exact ⟨rfl, .inl rfl⟩
  | cons kind kinds ih =>
    have hqueue : ((control failure).install kind b.host).2.queue = b.host.queue := by
      show (b.host.install kind ()).2.queue = b.host.queue
      unfold Host.install
      dsimp only
      split <;> rfl
    rw [Bridge.installAll]
    rcases hi : (control failure).install kind b.host with ⟨e | handle, host⟩
    · rw [hi] at hqueue
      exact ⟨(queue_tearDown _ failure).trans hqueue, .inr rfl⟩
    · rw [hi] at hqueue
      obtain ⟨hrest, hmailbox⟩ := ih { b with host, handles := b.handles ++ [handle] }
      exact ⟨hrest.trans hqueue, hmailbox⟩

/-- A start leaves the queue alone, and shuts the mailbox down at most. -/
theorem start_leaves (failure : Option String) (b : HostBridge) :
    (b.start (control failure)).2.host.queue = b.host.queue ∧
      ((b.start (control failure)).2.mailbox = b.mailbox ∨
        (b.start (control failure)).2.mailbox = b.mailbox.shutDown) := by
  unfold Bridge.start
  split
  · exact ⟨rfl, .inl rfl⟩
  · exact ⟨rfl, .inl rfl⟩
  · exact installAll_leaves _ b

end HostBridge

/-! ## What a pump has in flight -/

namespace Pump

/-- What a pump puts into the mailbox with its next step. -/
def deposits : Pump (Loop Unit) → List InputEvent
  | .looping (.delivering e (_ :: _)) => e.toList
  | _ => []

/-- What a pump has still to put into the mailbox before it receives another message. -/
def inFlight : Pump (Loop Unit) → List InputEvent
  | .looping (.received m) => m.event?.toList
  | .looping (.delivering e boxes) => boxes.flatMap fun _ => e.toList
  | .looping (.passing e boxes) => (boxes.drop 1).flatMap fun _ => e.toList
  | _ => []

theorem inFlight_of_not_isInLoop {p : Pump (Loop Unit)} (h : ¬ p.IsInLoop) : p.inFlight = [] := by
  unfold inFlight
  split
  · exact absurd ⟨_, rfl, nofun⟩ h
  · exact absurd ⟨_, rfl, nofun⟩ h
  · exact absurd ⟨_, rfl, nofun⟩ h
  · rfl

theorem isInLoop_of_deposits {p : Pump (Loop Unit)} (h : p.deposits ≠ []) : p.IsInLoop := by
  unfold deposits at h
  split at h
  · exact ⟨_, rfl, nofun⟩
  · exact absurd rfl h

variable {failure : Option String} {p p' : Pump (Loop Unit)} {b b' : HostBridge} {s : BridgeState}

/-- What a pump puts into the mailbox or has in flight comes from a message that it has received. -/
theorem Moves.inFlight_sublist (hlooks : b.Looks s) (h : p.Moves (control failure) b p' b') :
    (p.deposits ++ p'.inFlight).Sublist
      (p.inFlight ++ (p.receives? b.host.queue).toList.filterMap Message.event?) := by
  cases h with
  | started | refused | left => exact List.nil_sublist _
  | quit hr =>
    cases HostBridge.eq_ended_of_loopResult? hr
    exact List.nil_sublist _
  | looped hr hl =>
    obtain ⟨⟨_, _, d⟩, hstep, hd⟩ := Option.map_eq_some_iff.mp hl
    cases hd
    cases Loop.moves_of_step? hstep with
    | @receives m rest hqueue =>
      rw [receives?, hqueue, List.head?_cons]
      cases hm : m.event? <;> simp [deposits, inFlight, hm]
    | quits | returns => exact List.nil_sublist _
    | @looksUp m =>
      have hone := hlooks.length_listeners_le m
      rcases hboxes : b.host.listeners m with - | ⟨box, - | ⟨_, _⟩⟩
      · exact List.nil_sublist _
      · simp [deposits, inFlight]
      · simp [hboxes] at hone
    | delivers => simp [deposits, inFlight]
    | passes => simp [deposits, inFlight]

theorem Moves.queue_eq (h : p.Moves (control failure) b p' b') :
    (p.receives? b.host.queue).toList ++ b'.host.queue = b.host.queue := by
  cases h with
  | started hs | refused hs =>
    obtain ⟨hqueue, -⟩ := HostBridge.start_leaves failure b
    rw [hs] at hqueue
    exact hqueue
  | left => exact HostBridge.queue_tearDown b failure
  | quit hr =>
    cases HostBridge.eq_ended_of_loopResult? hr
    rfl
  | looped hr hl =>
    obtain ⟨⟨_, _, d⟩, hstep, hd⟩ := Option.map_eq_some_iff.mp hl
    cases hd
    cases Loop.moves_of_step? hstep with
    | receives hqueue | quits hqueue =>
      rw [receives?, hqueue]
      rfl
    | looksUp | returns | delivers | passes => rfl

/-- A step of a pump puts its deposits into the mailbox, or it shuts the mailbox down. -/
theorem Moves.mailbox_eq (h : p.Moves (control failure) b p' b') :
    b'.mailbox = b.mailbox.depositAll p.deposits ∨
      p.deposits = [] ∧ b'.mailbox = b.mailbox.shutDown := by
  cases h with
  | started hs | refused hs =>
    obtain ⟨-, hmailbox⟩ := HostBridge.start_leaves failure b
    rw [hs] at hmailbox
    exact hmailbox.imp id fun hshut => ⟨rfl, hshut⟩
  | left => exact .inr ⟨rfl, rfl⟩
  | quit hr =>
    cases HostBridge.eq_ended_of_loopResult? hr
    exact .inl rfl
  | looped hr hl =>
    obtain ⟨⟨_, _, d⟩, hstep, hd⟩ := Option.map_eq_some_iff.mp hl
    cases hd
    left
    cases Loop.moves_of_step? hstep with
    | receives | quits | looksUp | returns | passes => rfl
    | @delivers e => cases e <;> rfl

end Pump

/-! ## The books -/

namespace Message

/-- The messages that are not quits. -/
def raw (ms : List Message) : List Message := ms.filter (· ≠ .quit)

theorem raw_append (ms ns : List Message) : raw (ms ++ ns) = raw ms ++ raw ns :=
  List.filter_append ..

theorem raw_append_quit (ms : List Message) : raw (ms ++ [.quit]) = raw ms := by
  rw [raw_append]
  exact List.append_nil _

/-- No message becomes the event that describes nothing. -/
theorem ne_sentinel_of_event? {m : Message} {e : InputEvent} (h : m.event? = some e) :
    e ≠ .sentinel := by
  rintro rfl
  cases m with
  | keyboard message vk =>
    simp only [event?, keyboardEvent?] at h
    split_ifs at h <;> cases h
  | mouse message =>
    simp only [event?, mouseEvent?] at h
    split_ifs at h <;> cases h
  | quit => exact nomatch h

end Message

theorem HostBridge.raw_queue_stop (b : HostBridge) (failure : Option String) :
    Message.raw (b.stop (control failure)).host.queue = Message.raw b.host.queue := by
  by_cases hrunning : b.state = .running
  · rw [queue_stop hrunning, Message.raw_append_quit]
  · rw [Bridge.stop, if_neg hrunning, queue_tearDown]

theorem Mailbox.Ledger.depositAll {ins : List InputEvent} {outs : List (Nat × InputEvent)}
    {m : Mailbox} (h : m.Ledger ins outs) (es : List InputEvent) :
    (m.depositAll es).Ledger (ins ++ es) outs := by
  induction es generalizing ins m with
  | nil =>
    rw [List.append_nil]
    exact h
  | cons e es ih =>
    rw [List.append_cons]
    exact ih h.deposit

namespace Mailbox

/-- Of so many events put into the mailbox so many were taken out; the others were overwritten or
are still there. The count of those overwritten wraps around. -/
def Balances (m : Mailbox) (ins outs : Nat) : Prop :=
  ∃ lost, ins = outs + lost + m.pending.toList.length ∧ m.overwritten.toNat = lost % 2 ^ 64

theorem Balances.exact {m : Mailbox} {ins outs : Nat} (h : m.Balances ins outs)
    (hins : ins < 2 ^ 64) : ins = outs + m.overwritten.toNat + m.pending.toList.length := by
  obtain ⟨lost, hins', hlost⟩ := h
  rw [hlost, Nat.mod_eq_of_lt (by omega)]
  exact hins'

theorem Ledger.balances {m : Mailbox} {ins : List InputEvent} {outs : List (Nat × InputEvent)}
    (h : m.Ledger ins outs) : m.Balances ins.length outs.length := by
  have hroom : outs.length + m.pending.toList.length ≤ ins.length := by
    cases hp : m.pending with
    | none => simpa using h.subsequence.length_le
    | some e =>
      obtain ⟨earlier, rfl, hsub, -⟩ := h.full e hp
      simpa using hsub.length_le
  have hbalance : ins.length % 2 ^ 64 =
      (outs.length + m.overwritten.toNat + m.pending.toList.length) % 2 ^ 64 := h.balance
  have hcount := m.overwritten.toNat_lt
  refine ⟨ins.length - (outs.length + m.pending.toList.length), ?_, ?_⟩
  · omega
  · omega

end Mailbox

namespace Relay

/-- What has gone through a relay. An event that was taken out of a mailbox stands with its place
among those that were put in. -/
structure Books where
  injected : List Message := []
  received : List Message := []
  /-- The events put into the mailbox of the bridge. -/
  deposited : List InputEvent := []
  taken : List (Nat × InputEvent) := []
  /-- The events put into the inbox. -/
  handedOn : List InputEvent := []
  read : List (Nat × InputEvent) := []

/-- The books after something has happened to a relay. -/
def Books.note (b : Books) (r : Relay) : Happening → Books
  | .bridge (.arrive m) => { b with injected := b.injected ++ [m] }
  | .bridge (.pump number) =>
    { b with
      received := b.received ++ (received? r.crowd (.pump number)).toList
      deposited := b.deposited ++ (r.crowd.pumps[number]?.map Pump.deposits).getD [] }
  | .consume _ =>
    match r.consumer.phase with
    | .taking =>
      { b with
        taken := b.taken ++ r.crowd.bridge.mailbox.pending.toList.map fun e =>
          (b.deposited.length - 1, e) }
    | .reporting e => { b with handedOn := b.handedOn ++ [e] }
    | _ => b
  | .read =>
    { b with read := b.read ++ r.inbox.pending.toList.map fun e => (b.handedOn.length - 1, e) }
  | _ => b

/-- A step of a relay, with the books beside it. -/
def watch? (failure : Option String) (w : Books × Relay) (x : Happening) : Option (Books × Relay) :=
  (w.2.step? failure x).map fun r => (w.1.note w.2 x, r)

/-- The bridge looks like one of its states, and at most one pump is in the loop. -/
structure InStep (r : Relay) : Prop where
  looks : ∃ s, Looks r.crowd.bridge s
  sole : Sole r.crowd

/-- The books agree with the relay, which began with these messages in the queue. -/
structure Agrees (queue : List Message) (b : Books) (r : Relay) : Prop where
  queued : Message.raw b.received ++ Message.raw r.crowd.bridge.host.queue =
    Message.raw (queue ++ b.injected)
  translated : b.deposited.Sublist (b.received.filterMap Message.event?)
  inFlight : ∀ p ∈ r.crowd.pumps,
    (b.deposited ++ p.inFlight).Sublist (b.received.filterMap Message.event?)
  mailbox : r.crowd.bridge.mailbox.Ledger b.deposited b.taken
  carried : b.taken.map Prod.snd = b.handedOn ++ r.consumer.carried
  inbox : r.inbox.Ledger b.handedOn b.read

variable {failure : Option String} {queue : List Message} {b b' : Books} {r r' : Relay}
  {x : Happening}

theorem InStep.step (h : r.InStep) (hx : r.step? failure x = some r') : r'.InStep := by
  rcases step?_crowd hx with hsame | ⟨y, hy⟩
  · exact ⟨hsame ▸ h.looks, hsame ▸ h.sole⟩
  · obtain ⟨s, hs⟩ := h.looks
    obtain ⟨s', hs', -⟩ := hs.step hy
    exact ⟨⟨s', hs'⟩, h.sole.step hs hy⟩

namespace Agrees

theorem ne_sentinel (h : Agrees queue b r) {e : InputEvent} (he : e ∈ b.deposited) :
    e ≠ .sentinel := by
  obtain ⟨m, -, hm⟩ := List.mem_filterMap.mp (h.translated.subset he)
  exact Message.ne_sentinel_of_event? hm

theorem pending_ne_sentinel (h : Agrees queue b r) :
    r.crowd.bridge.mailbox.pending ≠ some .sentinel := by
  intro hp
  obtain ⟨earlier, hins, -⟩ := h.mailbox.full _ hp
  have hmem : .sentinel ∈ b.deposited := by
    rw [hins]
    exact List.mem_concat_self
  exact h.ne_sentinel hmem rfl

/-- A pump makes a step. -/
theorem pump (hin : r.InStep) (h : Agrees queue b r) {number : Nat}
    {crowd : Crowd (Host Unit) (Loop Unit)}
    (hx : r.crowd.step? (control failure) act (.pump number) = some crowd) :
    Agrees queue (b.note r (.bridge (.pump number))) { r with crowd } := by
  obtain ⟨s, hlooks⟩ := hin.looks
  obtain ⟨p, p', hp, hmoves, hpumps⟩ := Crowd.step?_pump hx
  have hmem : p ∈ r.crowd.pumps := List.mem_of_getElem? hp
  have hbooks : b.note r (.bridge (.pump number)) =
      { b with
        received := b.received ++ (p.receives? r.crowd.bridge.host.queue).toList
        deposited := b.deposited ++ p.deposits } := by
    simp only [Books.note, received?, hp, Option.bind_some, Option.map_some, Option.getD_some]
  rw [hbooks]
  have hgrown : (b.received.filterMap Message.event?).Sublist
      ((b.received ++ (p.receives? r.crowd.bridge.host.queue).toList).filterMap
        Message.event?) := by
    rw [List.filterMap_append]
    exact List.sublist_append_left _ _
  -- What the pump puts into the mailbox it had in flight or has just received.
  have hown : (b.deposited ++ (p.deposits ++ p'.inFlight)).Sublist
      ((b.received ++ (p.receives? r.crowd.bridge.host.queue).toList).filterMap
        Message.event?) := by
    rw [List.filterMap_append]
    refine ((hmoves.inFlight_sublist hlooks).append_left b.deposited).trans ?_
    rw [← List.append_assoc]
    exact (h.inFlight p hmem).append_right _
  rw [← List.append_assoc] at hown
  constructor
  case queued =>
    show Message.raw (b.received ++ _) ++ Message.raw crowd.bridge.host.queue = _
    rw [Message.raw_append, List.append_assoc, ← Message.raw_append, hmoves.queue_eq]
    exact h.queued
  case translated => exact (List.sublist_append_left _ _).trans hown
  case inFlight =>
    intro q hq
    obtain ⟨j, hj⟩ := List.mem_iff_getElem?.mp hq
    change crowd.pumps[j]? = some q at hj
    rw [hpumps, List.getElem?_set] at hj
    by_cases hn : number = j
    · rw [if_pos hn] at hj
      split_ifs at hj
      cases hj
      exact hown
    · rw [if_neg hn] at hj
      have hqold : q ∈ r.crowd.pumps := List.mem_of_getElem? hj
      by_cases hnone : p.deposits = []
      · rw [hnone, List.append_nil]
        exact (h.inFlight q hqold).trans hgrown
      · -- Only one pump is in the loop, so no other has anything in flight.
        have hout : ¬ q.IsInLoop := fun hqin =>
          hn (hin.sole.single number j p q hp hj (Pump.isInLoop_of_deposits hnone) hqin)
        rw [Pump.inFlight_of_not_isInLoop hout, List.append_nil]
        exact (List.sublist_append_left _ _).trans hown
  case mailbox =>
    rcases hmoves.mailbox_eq with hdeposits | ⟨hnone, hshut⟩
    · show crowd.bridge.mailbox.Ledger _ _
      rw [hdeposits]
      exact h.mailbox.depositAll p.deposits
    · show crowd.bridge.mailbox.Ledger (b.deposited ++ p.deposits) _
      rw [hshut, hnone, List.append_nil]
      exact h.mailbox.shutDown
  case carried => exact h.carried
  case inbox => exact h.inbox

theorem stop (h : Agrees queue b r) :
    Agrees queue b { r with crowd.bridge := r.crowd.bridge.stop (control failure) } := by
  refine ⟨?_, h.translated, h.inFlight, ?_, h.carried, h.inbox⟩
  · exact (congrArg _ (HostBridge.raw_queue_stop _ failure)).trans h.queued
  · show (r.crowd.bridge.stop (control failure)).mailbox.Ledger _ _
    rw [Bridge.stop_mailbox]
    exact h.mailbox.shutDown

theorem bridge (hin : r.InStep) (h : Agrees queue b r) {d : AtBridge}
    {crowd : Crowd (Host Unit) (Loop Unit)}
    (hx : r.crowd.step? (control failure) act d.happening = some crowd) :
    Agrees queue (b.note r (.bridge d)) { r with crowd } := by
  cases d with
  | pump number => exact h.pump hin hx
  | start =>
    cases hx
    refine ⟨h.queued, h.translated, ?_, h.mailbox, h.carried, h.inbox⟩
    intro p hp
    rcases List.mem_append.mp hp with hold | hnew
    · exact h.inFlight p hold
    · cases List.mem_singleton.mp hnew
      show (b.deposited ++ []).Sublist _
      rw [List.append_nil]
      exact h.translated
  | stop =>
    cases hx
    exact h.stop
  | arrive m =>
    cases hx
    refine ⟨?_, h.translated, h.inFlight, h.mailbox, h.carried, h.inbox⟩
    show Message.raw b.received ++ Message.raw (r.crowd.bridge.host.queue ++ [m]) =
      Message.raw (queue ++ (b.injected ++ [m]))
    rw [← List.append_assoc, Message.raw_append _ [m], Message.raw_append _ [m], ← h.queued,
      List.append_assoc]
  | requestQuit =>
    cases hx
    refine ⟨?_, h.translated, h.inFlight, h.mailbox, h.carried, h.inbox⟩
    exact (congrArg _ (Message.raw_append_quit _)).trans h.queued

theorem consume (h : Agrees queue b r) {clipboard : String} (hx : r.Consumes failure r') :
    Agrees queue (b.note r (.consume clipboard)) r' := by
  cases hx with
  | @takes e mailbox hphase htake =>
    have hbooks : b.note r (.consume clipboard) =
        { b with
          taken := b.taken ++ r.crowd.bridge.mailbox.pending.toList.map fun e =>
            (b.deposited.length - 1, e) } := by
      simp only [Books.note, hphase]
    rw [Mailbox.take?] at htake
    split_ifs at htake
    cases htake
    rw [hbooks]
    refine ⟨h.queued, h.translated, h.inFlight, h.mailbox.take, ?_, h.inbox⟩
    have hnone : r.consumer.carried = [] := by simp only [Consumer.carried, hphase]
    have hcarried := h.carried
    rw [hnone, List.append_nil] at hcarried
    show (b.taken ++ _).map Prod.snd = b.handedOn ++ (r.consumer.took _).carried
    rw [List.map_append, hcarried, Consumer.carried_took]
    cases hp : r.crowd.bridge.mailbox.pending with
    | none => simp
    | some e =>
      have hne : e ≠ .sentinel := fun he => h.pending_ne_sentinel (he ▸ hp)
      simp [hne]
  | @handsOn e c hphase hcarried _ =>
    have hbooks : b.note r (.consume clipboard) = { b with handedOn := b.handedOn ++ [e] } := by
      simp only [Books.note, hphase]
    rw [hbooks]
    refine ⟨h.queued, h.translated, h.inFlight, h.mailbox, ?_, h.inbox.deposit⟩
    have hone : r.consumer.carried = [e] := by simp only [Consumer.carried, hphase]
    show b.taken.map Prod.snd = (b.handedOn ++ [e]) ++ c.carried
    rw [h.carried, hone, hcarried, List.append_nil]
  | @stops e c hphase hcarried =>
    have hbooks : b.note r (.consume clipboard) = b := by simp only [Books.note, hphase]
    have hnone : r.consumer.carried = [] := by simp only [Consumer.carried, hphase]
    have hstopped : Agrees queue b
        { r with crowd.bridge := r.crowd.bridge.stop (control failure) } := h.stop
    rw [hbooks]
    refine ⟨hstopped.queued, h.translated, h.inFlight, hstopped.mailbox, ?_, h.inbox⟩
    show b.taken.map Prod.snd = b.handedOn ++ c.carried
    rw [h.carried, hnone, hcarried]
  | @goesOn c hphase hreports hcarried _ =>
    have hbooks : b.note r (.consume clipboard) = b := by
      unfold Books.note
      split <;> simp_all
    rw [hbooks]
    exact ⟨h.queued, h.translated, h.inFlight, h.mailbox, h.carried.trans (by rw [hcarried]),
      h.inbox⟩

theorem step (hin : r.InStep) (h : Agrees queue b r) (hx : r.step? failure x = some r') :
    Agrees queue (b.note r x) r' := by
  cases x with
  | bridge d =>
    obtain ⟨crowd, hcrowd, rfl⟩ := Option.map_eq_some_iff.mp hx
    exact h.bridge hin hcrowd
  | consume clipboard => exact h.consume (step?_consume hx)
  | read =>
    cases hx
    exact ⟨h.queued, h.translated, h.inFlight, h.mailbox, h.carried, h.inbox.take⟩
  | shutInbox =>
    cases hx
    exact ⟨h.queued, h.translated, h.inFlight, h.mailbox, h.carried, h.inbox.shutDown⟩

end Agrees

/-! ## Order and losses -/

/-- Events taken out of a row, each from its place and in order. -/
def Drawn (outs : List (Nat × InputEvent)) (ins : List InputEvent) : Prop :=
  (outs.map Prod.snd).Sublist ins ∧ outs.Pairwise (·.1 < ·.1) ∧ ∀ o ∈ outs, ins[o.1]? = some o.2

/-- A bridge that was never started, with a consumer and an empty inbox. -/
def new (host : Host Unit) (bindings : Bindings) : Relay where
  crowd := { bridge := { host } }
  consumer := { bindings }

theorem inStep_new {host : Host Unit} (hhost : host.live = []) (bindings : Bindings) :
    (new host bindings).InStep :=
  ⟨⟨.uninstalled, rfl, rfl, hhost, rfl⟩, ⟨by simp [new], by simp [new]⟩⟩

theorem agrees_new (host : Host Unit) (bindings : Bindings) :
    Agrees host.queue {} (new host bindings) :=
  ⟨by simp [new, Message.raw], List.nil_sublist _, by simp [new], .fresh, rfl, .fresh⟩

/-- What every step of a relay keeps whose books agree with it, a run of a new relay keeps. -/
theorem watch?_keeps {P : Books → Relay → Prop} {host : Host Unit} (hhost : host.live = [])
    {bindings : Bindings} (start : P {} (new host bindings))
    (step : ∀ b r x r', r.InStep → Agrees host.queue b r → P b r → r.step? failure x = some r' →
      P (b.note r x) r')
    {hs : List Happening} (h : hs.foldlM (watch? failure) ({}, new host bindings) = some (b, r)) :
    r.InStep ∧ Agrees host.queue b r ∧ P b r := by
  refine foldlM_keeps
    (P := fun w : Books × Relay => w.2.InStep ∧ Agrees host.queue w.1 w.2 ∧ P w.1 w.2) ?_ h
    ⟨inStep_new hhost bindings, agrees_new host bindings, start⟩
  rintro ⟨b, r⟩ x w ⟨hin, hagrees, hkept⟩ hx
  obtain ⟨r', hr', rfl⟩ := Option.map_eq_some_iff.mp hx
  exact ⟨hin.step hr', hagrees.step hin hr', step b r x r' hin hagrees hkept hr'⟩

/-- **The relay keeps the order and accounts for every loss.** In every run of a new relay: what was
read from the inbox was drawn, in order, from what the consumer took, and that from what was put
into the mailbox of the bridge, which are translations of messages received, in the order in which
they were injected. What was put into the mailbox was taken, overwritten or is there; and unless the
consumer carries an event, what it took was read, overwritten in the inbox or is there. -/
theorem keeps_order_and_accounts {host : Host Unit} (hhost : host.live = []) {bindings : Bindings}
    {hs : List Happening} (h : hs.foldlM (watch? failure) ({}, new host bindings) = some (b, r)) :
    (Drawn b.read (b.taken.map Prod.snd) ∧ Drawn b.taken b.deposited ∧
      b.deposited.Sublist (b.received.filterMap Message.event?) ∧
      Message.raw b.received ++ Message.raw r.crowd.bridge.host.queue =
        Message.raw (host.queue ++ b.injected)) ∧
    r.crowd.bridge.mailbox.Balances b.deposited.length b.taken.length ∧
    (b.deposited.length < 2 ^ 64 →
      b.deposited.length = b.taken.length + r.crowd.bridge.mailbox.overwritten.toNat +
        r.crowd.bridge.mailbox.pending.toList.length) ∧
    (r.consumer.carried = [] →
      r.inbox.Balances b.taken.length b.read.length ∧
      (b.taken.length < 2 ^ 64 →
        b.taken.length = b.read.length + r.inbox.overwritten.toNat +
          r.inbox.pending.toList.length)) := by
  obtain ⟨-, ha, -⟩ := watch?_keeps (P := fun _ _ => True) hhost trivial
    (fun _ _ _ _ _ _ _ _ => trivial) h
  have htaken := ha.mailbox.balances
  refine ⟨⟨⟨?_, ha.inbox.ordered, fun o ho => ?_⟩, ⟨ha.mailbox.subsequence, ha.mailbox.ordered,
    ha.mailbox.placed⟩, ha.translated, ha.queued⟩, htaken, htaken.exact, fun hnone => ?_⟩
  · rw [ha.carried]
    exact ha.inbox.subsequence.trans (List.sublist_append_left _ _)
  · rw [ha.carried, List.getElem?_append_left (ha.inbox.place_lt ho)]
    exact ha.inbox.placed o ho
  · have hsame : b.handedOn.length = b.taken.length := by
      have hcarried := congrArg List.length ha.carried
      rw [hnone, List.append_nil, List.length_map] at hcarried
      exact hcarried.symm
    have hread := ha.inbox.balances
    rw [hsame] at hread
    exact ⟨hread, hread.exact⟩

/-- A press is overwritten in the mailbox of the bridge, the release after it in the inbox. The click
is in flight when the bridge is stopped, and it is the only event that is read. -/
theorem keeps_order_and_accounts_of_late_click :
    let pumped := List.replicate 5 (Happening.bridge (.pump 0))
    let consumed := List.replicate 4 (Happening.consume "")
    let hs := [.bridge .start, .bridge (.pump 0), .bridge (.arrive (.keyboard 0x100 0x41)),
      .bridge (.arrive (.keyboard 0x101 0x41)), .bridge (.arrive (.mouse 0x201))] ++
      pumped ++ pumped ++ consumed ++ [.bridge (.pump 0), .bridge (.pump 0), .bridge .stop] ++
      pumped ++ consumed ++ [.read]
    ∃ b r, hs.foldlM (watch? none) ({}, new {} {}) = some (b, r) ∧
      b.deposited = [.keyDown 0x41, .keyUp 0x41, .mouse .leftMouseDown] ∧
      Drawn b.taken b.deposited ∧ b.taken = [(1, .keyUp 0x41), (2, .mouse .leftMouseDown)] ∧
      Drawn b.read [.keyUp 0x41, .mouse .leftMouseDown] ∧ b.read = [(1, .mouse .leftMouseDown)] ∧
      3 = 2 + r.crowd.bridge.mailbox.overwritten.toNat + 0 ∧
      2 = 1 + r.inbox.overwritten.toNat + 0 := by
  intro pumped consumed hs
  obtain ⟨b, r, h, hdeposited, htaken, hread, hpending, hinbox, hcarried⟩ :
      ∃ b r, hs.foldlM (watch? none) ({}, new {} {}) = some (b, r) ∧
        b.deposited = [.keyDown 0x41, .keyUp 0x41, .mouse .leftMouseDown] ∧
        b.taken = [(1, .keyUp 0x41), (2, .mouse .leftMouseDown)] ∧
        b.read = [(1, .mouse .leftMouseDown)] ∧
        r.crowd.bridge.mailbox.pending = none ∧ r.inbox.pending = none ∧
        r.consumer.carried = [] :=
    ⟨_, _, rfl, rfl, rfl, rfl, rfl, rfl, rfl⟩
  obtain ⟨⟨hdrawn, hdrawn', -⟩, -, hbridge, hbox⟩ := keeps_order_and_accounts rfl h
  obtain ⟨-, hbox⟩ := hbox hcarried
  simp only [hdeposited, htaken, hread, hpending, hinbox] at hdrawn hdrawn' hbridge hbox
  refine ⟨b, r, h, hdeposited, ?_, htaken, ?_, hread, ?_, ?_⟩
  · rw [hdeposited, htaken]
    exact hdrawn'
  · rw [hread]
    exact hdrawn
  · exact hbridge (by decide)
  · exact hbox (by decide)

end Relay

end InputRelay
