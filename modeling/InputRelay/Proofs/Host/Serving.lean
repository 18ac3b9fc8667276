import InputRelay.Proofs.Host.Installed
import Mathlib.Algebra.GroupWithZero.Nat

/-!
# What the loop of a host serves

While a loop runs, others may send messages, and listeners come and go. The loop takes the messages
in the order in which they came and looks up whom each is meant for; from then on it is settled what
it deposits and how often it passes the message on (`Loop.Works`). A quit ends it, and what came
after the quit is left for the next loop (`Station.keeps_books`).
-/

namespace InputRelay

/-! ## A loop and what it has before it -/

namespace Loop

variable {β : Type} {l l' l'' : Loop β} {h h' h'' : Host β}

/-- The message that a loop has taken from the queue and not looked up. The quit that has ended it
stays in its hand. -/
def inHand : Loop β → List Message
  | .received m => [m]
  | .ended => [.quit]
  | _ => []

/-- How often the message that was looked up last has still to be passed on. -/
def unpassed : Loop β → Nat
  | .delivering _ boxes => boxes.length
  | .passing _ boxes => (boxes.drop 1).length + 1
  | _ => 0

/-- What has still to be deposited of the message that was looked up last. -/
def due : Loop β → List (β × InputEvent)
  | .delivering e boxes => deliveries e boxes
  | .passing e boxes => deliveries e (boxes.drop 1)
  | _ => []

/-- Between two moments of a loop, messages have arrived, some were looked up with the boxes of those
whom they are meant for, and events were deposited. -/
structure Works (l : Loop β) (h : Host β) (l' : Loop β) (h' : Host β) (arrived : List Message)
    (served : List (Message × List β)) (deposited : List (β × InputEvent)) : Prop where
  order : l.inHand ++ h.queue ++ arrived = served.map Prod.fst ++ l'.inHand ++ h'.queue
  passedOn : h'.chained + l'.unpassed =
    h.chained + l.unpassed + (served.map fun x => x.2.length).sum
  deposits : l.due ++ served.flatMap (fun x => deliveries x.1.event? x.2) = deposited ++ l'.due

theorem Works.trans {arrived arrived' : List Message} {served served' : List (Message × List β)}
    {deposited deposited' : List (β × InputEvent)} (w : Works l h l' h' arrived served deposited)
    (w' : Works l' h' l'' h'' arrived' served' deposited') :
    Works l h l'' h'' (arrived ++ arrived') (served ++ served') (deposited ++ deposited') := by
  refine ⟨?_, ?_, ?_⟩
  · rw [← List.append_assoc, w.order, List.map_append, List.append_assoc _ l'.inHand,
      List.append_assoc, w'.order]
    simp only [List.append_assoc]
  · have hfirst := w.passedOn
    have hthen := w'.passedOn
    rw [List.map_append, List.sum_append]
    omega
  · rw [List.flatMap_append, ← List.append_assoc, w.deposits, List.append_assoc, w'.deposits,
      List.append_assoc]

/-- What others do at the host leaves the loop where it is. -/
theorem works_of_same {arrived : List Message} (hqueue : h'.queue = h.queue ++ arrived)
    (hchained : h'.chained = h.chained) : Works l h l h' arrived [] [] := by
  refine ⟨?_, by rw [hchained]; rfl, List.append_nil _⟩
  rw [hqueue, List.append_assoc]
  rfl

theorem works_of_step? {d : Option (β × InputEvent)} (hs : l.step? h = some (l', h', d)) :
    Works l h l' h' [] (l.finds? h).toList d.toList := by
  cases moves_of_step? hs with
  | receives hqueue | quits hqueue => exact ⟨by simp [inHand, hqueue, finds?], rfl, rfl⟩
  | looksUp =>
    rw [Host.listeners_eq]
    exact ⟨by simp [inHand, finds?], by simp [unpassed, finds?], by simp [due, finds?]⟩
  | returns => exact ⟨by simp [inHand, finds?], rfl, by simp [due, finds?]⟩
  | delivers =>
    refine ⟨by simp [inHand, finds?], rfl, ?_⟩
    simp only [due, finds?, deliveries_cons, List.drop_succ_cons, List.drop_zero]
    exact List.append_nil _
  | @passes e boxes =>
    refine ⟨by simp [inHand, finds?], ?_, by simp [due, finds?]⟩
    show h.chained + 1 + (boxes.drop 1).length = h.chained + ((boxes.drop 1).length + 1) + 0
    omega

/-- A message that a loop takes and goes on with is no quit. -/
theorem ne_quit_of_received {m : Message} {d : Option (β × InputEvent)}
    (hs : l.step? h = some (.received m, h', d)) : m ≠ .quit := by
  rintro rfl
  cases moves_of_step? hs with
  | receives hqueue =>
    rw [step?, hqueue] at hs
    exact nomatch hs

end Loop

/-! ## A loop while others are at work -/

namespace Station

variable {β : Type} [DecidableEq β] {s s' c c' d : Station β} {x : Happening β}
  {during : List (Happening β)} {l l' : Loop β} {box : β}

/-- What others do comes to the loop as messages in the queue, and nothing else. -/
structure Spares (s s' : Station β) (x : Happening β) : Prop where
  loop : x ≠ .enter → s'.loop = s.loop
  queue : s'.host.queue = s.host.queue ++ x.arrives?.toList
  chained : s'.host.chained = s.host.chained
  boxes : ∀ box, (∀ change, x ≠ .visit box change) → s'.boxes box = s.boxes box
  finds : s.serves? x = none
  deposits : s.deposits? x = none

theorem spares_step (h : s.step? x = some s') (hx : x ≠ .work) : Spares s s' x := by
  cases x with
  | work => exact absurd rfl hx
  | enter =>
    rw [step?] at h
    split at h
    · cases h
      exact ⟨fun hne => absurd rfl hne, (List.append_nil _).symm, rfl, fun _ _ => rfl, rfl, rfl⟩
    · cases h
  | install kind box =>
    cases h
    refine ⟨fun _ => rfl, ?_, ?_, fun _ _ => rfl, rfl, rfl⟩ <;>
    · by_cases hrefused : s.host.refuses = some kind
      · simp [Host.install_of_refused hrefused, Happening.arrives?]
      · simp [Host.install_of_granted hrefused, Happening.arrives?]
  | uninstall handle =>
    cases h
    refine ⟨fun _ => rfl, ?_, ?_, fun _ _ => rfl, rfl, rfl⟩ <;>
    · unfold Host.uninstall
      split <;> simp [Happening.arrives?]
  | arrive m | requestQuit =>
    cases h
    exact ⟨fun _ => rfl, rfl, rfl, fun _ _ => rfl, rfl, rfl⟩
  | visit box' change =>
    cases h
    refine ⟨fun _ => rfl, (List.append_nil _).symm, rfl, fun box hne => ?_, rfl, rfl⟩
    have hbox : box ≠ box' := fun heq => hne change (by rw [heq])
    exact Function.update_of_ne hbox _ _

/-- Nobody is in the loop as long as nobody enters it. -/
theorem loop_eq_none_of_run (h : c.run? during = some d) (hno : .enter ∉ during)
    (hc : c.loop = none) : d.loop = none := by
  induction during generalizing c with
  | nil => exact Option.some.inj h ▸ hc
  | cons x during ih =>
    rw [List.mem_cons, not_or] at hno
    obtain ⟨c', hc', hrest⟩ := foldlM_cons_eq_some.mp h
    refine ih hrest hno.2 ?_
    by_cases hx : x = .work
    · subst hx
      rcases step?_work hc' with ⟨hended, -⟩ | ⟨loop, -, -, hloop, -⟩
      · exact nomatch hc.symm.trans hended
      · exact nomatch hc.symm.trans hloop
    · exact ((spares_step hc' hx).loop (Ne.symm hno.1)).trans hc

theorem works_step (h : c.step? x = some c') (hx : x ≠ .enter) (hl : c.loop = some l)
    (hl' : c'.loop = some l') :
    l.Works c.host l' c'.host x.arrives?.toList (c.serves? x).toList (c.deposits? x).toList := by
  by_cases hwork : x = .work
  · subst hwork
    rcases step?_work h with ⟨-, rfl⟩ | ⟨loop, loop', e, hloop, hloop', hstep, -⟩
    · exact nomatch hl'
    · cases hl.symm.trans hloop
      cases hl'.symm.trans hloop'
      simp only [serves?, deposits?, hl, Option.bind_some, hstep]
      exact Loop.works_of_step? hstep
  · have hspares := spares_step h hwork
    cases hl'.symm.trans ((hspares.loop hx).trans hl)
    rw [hspares.finds, hspares.deposits]
    exact Loop.works_of_same hspares.queue hspares.chained

theorem works_run (h : c.run? during = some d) (hno : .enter ∉ during) (hl : c.loop = some l)
    (hl' : d.loop = some l') :
    l.Works c.host l' d.host (during.filterMap Happening.arrives?) (c.served during)
      (c.deposited during) := by
  induction during generalizing c l with
  | nil =>
    cases h
    cases hl.symm.trans hl'
    exact Loop.works_of_same (List.append_nil _).symm rfl
  | cons x during ih =>
    rw [List.mem_cons, not_or] at hno
    obtain ⟨c', hc', hrest⟩ := foldlM_cons_eq_some.mp h
    have harrived : (x :: during).filterMap Happening.arrives? =
        x.arrives?.toList ++ during.filterMap Happening.arrives? := by
      rw [List.filterMap_cons]
      cases x.arrives? <;> rfl
    cases hnext : c'.loop with
    | none => exact nomatch hl'.symm.trans (loop_eq_none_of_run hrest hno.2 hnext)
    | some next =>
      have hfirst := works_step hc' (Ne.symm hno.1) hl hnext
      rw [served, deposited, collected_cons hc', collected_cons hc', harrived]
      exact hfirst.trans (ih hrest hno.2 hnext)

/-- No quit is looked up. -/
theorem ne_quit_of_served (h : c.run? during = some d) (hno : .enter ∉ during)
    (hc : c.loop ≠ some (.received .quit)) : ∀ y ∈ c.served during, y.1 ≠ .quit := by
  induction during generalizing c with
  | nil => exact List.forall_mem_nil _
  | cons x during ih =>
    rw [List.mem_cons, not_or] at hno
    obtain ⟨c', hc', hrest⟩ := foldlM_cons_eq_some.mp h
    rw [served, collected_cons hc', List.forall_mem_append]
    by_cases hx : x = .work
    · subst hx
      rcases step?_work hc' with ⟨hended, rfl⟩ | ⟨loop, loop', e, hloop, hloop', hstep, -⟩
      · refine ⟨?_, ih hrest hno.2 nofun⟩
        simp [serves?, hended, Loop.finds?]
      · refine ⟨fun y hy hquit => hc ?_, ih hrest hno.2 ?_⟩
        · simp only [serves?, hloop, Option.bind_some] at hy
          cases loop with
          | received m =>
            cases List.mem_singleton.mp hy
            rw [hloop, ← hquit]
          | _ => exact absurd hy List.not_mem_nil
        · rintro hquit
          cases hloop'.symm.trans hquit
          exact Loop.ne_quit_of_received hstep rfl
    · have hspares := spares_step hc' hx
      rw [hspares.finds]
      refine ⟨List.forall_mem_nil _, ih hrest hno.2 ?_⟩
      rw [hspares.loop (Ne.symm hno.1)]
      exact hc

/-! ## What comes into the mailboxes -/

theorem deposit_apply (boxes : β → Mailbox) (e : Option (β × InputEvent)) (box : β) :
    deposit boxes e box =
      (boxes box).depositAll ((e.toList.filter fun y => y.1 = box).map Prod.snd) := by
  rcases e with _ | ⟨box', e⟩
  · rfl
  · by_cases hbox : box' = box
    · subst hbox
      simp [deposit, Mailbox.depositAll]
    · simp [deposit, Mailbox.depositAll, hbox, Function.update_of_ne (Ne.symm hbox)]

theorem boxes_step (h : c.step? x = some c') (hno : ∀ change, x ≠ .visit box change) :
    c'.boxes box = (c.boxes box).depositAll
      (((c.deposits? x).toList.filter fun y => y.1 = box).map Prod.snd) := by
  by_cases hx : x = .work
  · subst hx
    rcases step?_work h with ⟨hended, rfl⟩ | ⟨loop, loop', e, hloop, -, hstep, hboxes⟩
    · simp [deposits?, hended, Loop.step?, Mailbox.depositAll]
    · simp only [deposits?, hloop, Option.bind_some, hstep, hboxes]
      exact deposit_apply c.boxes e box
  · have hspares := spares_step h hx
    rw [hspares.boxes box hno, hspares.deposits]
    rfl

/-- A mailbox that nobody else works on is changed by what the loop deposits into it. -/
theorem boxes_run (h : c.run? during = some d) (hno : ∀ change, .visit box change ∉ during) :
    d.boxes box =
      (c.boxes box).depositAll (((c.deposited during).filter fun y => y.1 = box).map Prod.snd) := by
  induction during generalizing c with
  | nil => exact Option.some.inj h ▸ rfl
  | cons x during ih =>
    obtain ⟨c', hc', hrest⟩ := foldlM_cons_eq_some.mp h
    have hfirst : ∀ change, x ≠ .visit box change := by
      rintro change rfl
      exact hno change List.mem_cons_self
    have hthen := ih hrest fun change hin => hno change (List.mem_cons_of_mem _ hin)
    rw [deposited, collected_cons hc', List.filter_append, List.map_append, hthen,
      boxes_step hc' hfirst]
    exact List.foldl_append.symm

/-! ## A loop from its entry on -/

/-- A loop was entered at `c`. Until `d` it has come to messages in the order in which they were in
the queue or came into it, none of them a quit, and it has not come to the `rest`. Each of them it
has passed on once for everybody whom it is meant for and who was installed when the loop came to
it, and it has deposited its event, if it is one, once into the box of each of them, in the order of
their installation. -/
structure Serves (c : Station β) (during : List (Happening β)) (d : Station β)
    (rest : List Message) : Prop where
  order : c.host.queue ++ during.filterMap Happening.arrives? =
    (c.served during).map Prod.fst ++ rest
  noQuit : ∀ y ∈ c.served during, y.1 ≠ .quit
  passedOn : d.host.chained = c.host.chained + ((c.served during).map fun y => y.2.length).sum
  deposits : c.deposited during = (c.served during).flatMap fun y => deliveries y.1.event? y.2
  boxes : ∀ box, (∀ change, .visit box change ∉ during) → d.boxes box =
    (c.boxes box).depositAll (((c.deposited during).filter fun y => y.1 = box).map Prod.snd)

/-- A loop that was entered and that waits, or has ended, has nothing left to do for the messages
that it has come to. -/
theorem serves_of_run (h : c.run? during = some d) (hno : .enter ∉ during)
    (hc : c.loop = some .receiving) (hd : d.loop = some l) (hunpassed : l.unpassed = 0)
    (hdue : l.due = []) : Serves c during d (l.inHand ++ d.host.queue) := by
  have hworks := works_run h hno hc hd
  refine ⟨?_, ?_, ?_, ?_, fun box hbox => boxes_run h hbox⟩
  · rw [← List.append_assoc]
    exact hworks.order
  · refine ne_quit_of_served h hno ?_
    rw [hc]
    exact nofun
  · have hpassed := hworks.passedOn
    rw [hunpassed] at hpassed
    exact hpassed
  · have hdeposits := hworks.deposits
    rw [hdue, List.append_nil] at hdeposits
    exact hdeposits.symm

end Station

/-! ## A loop that is left alone -/

namespace Host

variable {β : Type}

variable {m : Message} {ms rest : List Message}

theorem dispatch_eq (m : Message) (h : Host β) :
    h.dispatch m = (deliveries m.event? (recipients m h.live),
      { h with chained := h.chained + (recipients m h.live).length }) := by
  rw [← listeners_eq, dispatch]
  cases m.event? with
  | none => simp [deliveries]
  | some e => simp [deliveries, List.map_eq_flatMap]

theorem drain?_cons (hm : m ≠ .quit) (h : Host β) :
    drain? (m :: ms) h =
      (drain? ms { h with chained := h.chained + (recipients m h.live).length }).map
        fun (others, h') => (deliveries m.event? (recipients m h.live) ++ others, h') := by
  cases m with
  | quit => exact absurd rfl hm
  | keyboard | mouse => rw [drain?, dispatch_eq]; exact nofun

/-- The host after its loop has been through the messages, with the `rest` left in the queue. -/
def afterLoop (ms rest : List Message) (h : Host β) : Host β :=
  { h with
    queue := rest
    chained := h.chained + (ms.map fun m => (recipients m h.live).length).sum }

theorem drain?_append (hno : .quit ∉ ms) (h : Host β) :
    drain? (ms ++ .quit :: rest) h =
      some (ms.flatMap fun m => deliveries m.event? (recipients m h.live), h.afterLoop ms rest) := by
  induction ms generalizing h with
  | nil => rfl
  | cons m ms ih =>
    rw [List.mem_cons, not_or] at hno
    rw [List.cons_append, drain?_cons (Ne.symm hno.1), ih hno.2]
    simp [afterLoop, Nat.add_assoc]

theorem drain?_of_no_quit (hno : .quit ∉ ms) (h : Host β) : drain? ms h = none := by
  induction ms generalizing h with
  | nil => rfl
  | cons m ms ih =>
    rw [List.mem_cons, not_or] at hno
    rw [drain?_cons (Ne.symm hno.1), ih hno.2]
    rfl

end Host

namespace Station

variable {β : Type} [DecidableEq β] {c c' d : Station β}

/-- The loop alone comes from `c` to `d` and deposits this on the way. -/
def Alone (c d : Station β) (deposited : List (β × InputEvent)) : Prop :=
  ∃ n, c.run? (List.replicate n .work) = some d ∧
    c.deposited (List.replicate n .work) = deposited

theorem Alone.trans {ds ds' : List (β × InputEvent)} (h : Alone c c' ds) (h' : Alone c' d ds') :
    Alone c d (ds ++ ds') := by
  obtain ⟨n, hrun, rfl⟩ := h
  obtain ⟨n', hrun', rfl⟩ := h'
  refine ⟨n + n', ?_, ?_⟩
  · rw [← List.replicate_append_replicate, run?, List.foldlM_append]
    exact Option.bind_eq_some_iff.mpr ⟨c', hrun, hrun'⟩
  · rw [← List.replicate_append_replicate]
    exact collected_append hrun

variable {host host' : Host β} {mailboxes : β → Mailbox}

theorem alone_of_step? {l l' : Loop β} {e : Option (β × InputEvent)}
    (hstep : l.step? host = some (l', host', e)) :
    Alone ⟨host, mailboxes, some l⟩ ⟨host', deposit mailboxes e, some l'⟩ e.toList := by
  have hwork : step? ⟨host, mailboxes, some l⟩ .work =
      some ⟨host', deposit mailboxes e, some l'⟩ := by
    cases l with
    | ended => exact nomatch hstep
    | _ => simp only [step?, hstep, Option.map_some]
  refine ⟨1, foldlM_cons_eq_some.mpr ⟨_, hwork, rfl⟩, ?_⟩
  rw [deposited, List.replicate_one, collected_cons hwork]
  simp [deposits?, hstep, collected]

/-- A step with which nothing is deposited. -/
theorem alone_of_quiet {l l' : Loop β} (hstep : l.step? host = some (l', host', none)) :
    Alone ⟨host, mailboxes, some l⟩ ⟨host', mailboxes, some l'⟩ [] :=
  alone_of_step? hstep

theorem alone_delivering (host : Host β) (mailboxes : β → Mailbox) (e : Option InputEvent)
    (boxes : List β) :
    ∃ mailboxes', Alone ⟨host, mailboxes, some (.delivering e boxes)⟩
      ⟨{ host with chained := host.chained + boxes.length }, mailboxes', some .receiving⟩
      (deliveries e boxes) := by
  induction boxes generalizing host mailboxes with
  | nil =>
    refine ⟨mailboxes, ?_⟩
    rw [deliveries_nil]
    exact alone_of_quiet rfl
  | cons box boxes ih =>
    have hdelivers : Alone ⟨host, mailboxes, some (.delivering e (box :: boxes))⟩
        ⟨host, deposit mailboxes (e.map fun e => (box, e)), some (.passing e (box :: boxes))⟩
        (e.map fun e => (box, e)).toList := alone_of_step? rfl
    have hpasses : Alone
        ⟨host, deposit mailboxes (e.map fun e => (box, e)), some (.passing e (box :: boxes))⟩
        ⟨{ host with chained := host.chained + 1 }, deposit mailboxes (e.map fun e => (box, e)),
          some (.delivering e boxes)⟩ [] := alone_of_quiet rfl
    obtain ⟨mailboxes', hrest⟩ := ih { host with chained := host.chained + 1 }
      (deposit mailboxes (e.map fun e => (box, e)))
    refine ⟨mailboxes', ?_⟩
    rw [deliveries_cons, List.length_cons, Nat.add_comm boxes.length, ← Nat.add_assoc]
    exact hdelivers.trans (hpasses.trans hrest)

/-- A loop that is left alone goes through the queue up to the first quit. -/
theorem alone_looping {ms rest : List Message} (host : Host β) (mailboxes : β → Mailbox)
    (hno : .quit ∉ ms) (hqueue : host.queue = ms ++ .quit :: rest) :
    ∃ mailboxes', Alone ⟨host, mailboxes, some .receiving⟩
      ⟨host.afterLoop ms rest, mailboxes', some .ended⟩
      (ms.flatMap fun m => deliveries m.event? (recipients m host.live)) := by
  induction ms generalizing host mailboxes with
  | nil =>
    have hquits : Loop.receiving.step? host = some (.ended, { host with queue := rest }, none) := by
      rw [Loop.step?, hqueue]
      rfl
    exact ⟨mailboxes, alone_of_step? hquits⟩
  | cons m ms ih =>
    rw [List.mem_cons, not_or] at hno
    have hstep : Loop.receiving.step? host =
        some (.received m, { host with queue := ms ++ .quit :: rest }, none) := by
      rw [Loop.step?, hqueue]
      cases m with
      | quit => exact absurd rfl hno.1
      | keyboard | mouse => rfl
    have hreceives : Alone ⟨host, mailboxes, some .receiving⟩
        ⟨{ host with queue := ms ++ .quit :: rest }, mailboxes, some (.received m)⟩ [] :=
      alone_of_step? hstep
    have hlooksUp : Alone
        ⟨{ host with queue := ms ++ .quit :: rest }, mailboxes, some (.received m)⟩
        ⟨{ host with queue := ms ++ .quit :: rest }, mailboxes,
          some (.delivering m.event? (recipients m host.live))⟩ [] :=
      alone_of_quiet (by rw [Loop.step?, Host.listeners_eq])
    obtain ⟨between, hserves⟩ := alone_delivering { host with queue := ms ++ .quit :: rest }
      mailboxes m.event? (recipients m host.live)
    obtain ⟨mailboxes', hrest⟩ := ih { host with
      queue := ms ++ .quit :: rest
      chained := host.chained + (recipients m host.live).length } between hno.2 rfl
    refine ⟨mailboxes', ?_⟩
    have hall := hreceives.trans (hlooksUp.trans (hserves.trans hrest))
    simpa [Host.afterLoop, Nat.add_assoc] using hall

/-! ## The books of a host -/

theorem uninstall_of_stale {s : Station β} {handle : ListenerHandle}
    (hstale : ∀ l ∈ s.host.live, l.handle ≠ handle) : s.step? (.uninstall handle) = some s := by
  have hlive : s.host.isLive handle = false :=
    List.any_eq_false.mpr fun l hl => by simpa using hstale l hl
  rw [step?, Host.uninstall_of_not_live hlive]

/-- What is true of the books of a host that was fresh at `start` and of its listeners, after these
happenings. -/
structure Books (start : Station β) (hs : List (Happening β)) (s : Station β) : Prop where
  /-- Handles are given out with the numbers 1, 2, and so on. -/
  issued : start.issued hs =
    (List.range' 1 (grants start.host.refuses hs)).map ListenerHandle.mk
  distinct : (start.issued hs).Nodup
  /-- A listener is there if it was granted and not removed since. -/
  live_iff : ∀ l, l ∈ s.host.live ↔ IsHeld start.host.refuses hs l
  /-- The listeners stand in the order of their installation. -/
  ordered : s.host.live.Pairwise fun l l' => l.handle.number < l'.handle.number
  /-- Whatever was asked for is there, was removed, or was refused. -/
  asked : s.host.installs.length =
    s.host.live.length + s.host.uninstalls + (start.refused hs).length
  /-- Nothing changes if a handle without a listener is given back. -/
  stale : ∀ handle, (∀ l ∈ s.host.live, l.handle ≠ handle) → s.step? (.uninstall handle) = some s

theorem books_of_run {refuses : Option ListenerKind} {boxes : β → Mailbox}
    {hs : List (Happening β)} {s : Station β} (h : (fresh refuses boxes).run? hs = some s) :
    Books (fresh refuses boxes) hs s := by
  have hcounts := counts_run h
  have hgrants := (grants_run h).2
  have hnext : s.host.nextHandle = 1 + ((fresh refuses boxes).issued hs).length := hcounts.next
  have hasked : s.host.installs.length = 0 + ((fresh refuses boxes).issued hs).length +
      ((fresh refuses boxes).refused hs).length := hcounts.asked
  have htallies : s.host.Tallies :=
    foldlM_keeps (P := fun s : Station β => s.host.Tallies)
      (fun _ _ _ ht hx => tallies_step hx ht) h (Host.IsFresh.tallies rfl)
  have hissued : (fresh refuses boxes).issued hs =
      (List.range' 1 (grants refuses hs)).map ListenerHandle.mk := by
    have hlength : ((fresh refuses boxes).issued hs).length = grants refuses hs := by omega
    rw [← hlength]
    exact hcounts.numbers
  refine ⟨hissued, ?_, fun l => mem_live_iff h, htallies.ordered, ?_, fun _ => uninstall_of_stale⟩
  · rw [hissued]
    exact (List.nodup_range' ..).map fun a b hab => congrArg ListenerHandle.number hab
  · have hgranted := htallies.issued
    have hremoved := htallies.removed
    omega

/-- **A host keeps its books, and its loop serves every message once.** Whatever happens at a host
that was fresh, in whatever order and while its loop is at work: the handles that it gives out are
distinct; its listeners are those that were granted and not removed since, in the order of their
installation; what it was asked to install is installed, was removed, or was refused; and a handle
without a listener can be given back without any effect (`Books`).

Its loop goes through the messages in the queue up to the first quit and leaves the rest there; it
does not return if there is no quit. Also while others send messages, install and remove, what it
has come to until it waits or has ended are the messages in the order in which they came, up to the
first quit (`Serves`). Each message is passed on once for every listener of its kind whether or not
it is an event, and if it is one, the event is deposited once into the box of each, in the order of
installation. -/
theorem keeps_books :
    (∀ refuses boxes hs (s : Station β), (fresh refuses boxes).run? hs = some s →
      Books (fresh refuses boxes) hs s) ∧
    (∀ (h : Host β) ms rest, .quit ∉ ms → h.queue = ms ++ .quit :: rest →
      h.runLoop? = some (ms.flatMap fun m => deliveries m.event? (recipients m h.live),
        { h with
          queue := rest
          chained := h.chained + (ms.map fun m => (recipients m h.live).length).sum })) ∧
    (∀ h : Host β, .quit ∉ h.queue → h.runLoop? = none) ∧
    (∀ (c d : Station β) during, c.loop = some .receiving → .enter ∉ during →
      c.run? during = some d →
      (d.loop = some .ended → Serves c during d (.quit :: d.host.queue)) ∧
      (d.loop = some .receiving → Serves c during d d.host.queue)) ∧
    ∀ (h h' : Host β) boxes deposited, h.runLoop? = some (deposited, h') →
      ∃ boxes', Alone ⟨h, boxes, some .receiving⟩ ⟨h', boxes', some .ended⟩ deposited := by
  have hruns (h : Host β) (ms rest : List Message) (hno : .quit ∉ ms)
      (hqueue : h.queue = ms ++ .quit :: rest) :
      h.runLoop? = some (ms.flatMap fun m => deliveries m.event? (recipients m h.live),
        h.afterLoop ms rest) := by
    rw [Host.runLoop?, hqueue]
    exact Host.drain?_append hno h
  have hwaits (h : Host β) (hno : .quit ∉ h.queue) : h.runLoop? = none :=
    Host.drain?_of_no_quit hno h
  refine ⟨fun _ _ _ _ h => books_of_run h, hruns, hwaits, fun c d during hc hno h => ?_, ?_⟩
  · exact ⟨fun hd => serves_of_run h hno hc hd rfl rfl, fun hd => serves_of_run h hno hc hd rfl rfl⟩
  · intro h h' boxes deposited hruns'
    have hquit : .quit ∈ h.queue := by
      by_contra hno
      exact nomatch hruns'.symm.trans (hwaits h hno)
    obtain ⟨ms, rest, hqueue, hno⟩ := List.eq_append_cons_of_mem hquit
    cases hruns'.symm.trans (hruns h ms rest hno hqueue)
    exact alone_looping h boxes hno hqueue

/-- Three listeners to the keyboard and one to the mouse have a box each, and one of the three is
removed. A message to either kind comes before a quit, and one more behind it. -/
theorem keeps_books_of_both_kinds :
    let start : Station Nat := fresh none fun _ => {}
    let calls : List (Happening Nat) :=
      [.install .keyboard 10, .install .mouse 20, .install .keyboard 30, .install .keyboard 40,
        .uninstall ⟨3⟩, .uninstall ⟨7⟩, .arrive (.keyboard 0x100 0x41), .enter]
    let host : Host Nat :=
      { nextHandle := 5
        live := [⟨⟨1⟩, .keyboard, 10⟩, ⟨⟨2⟩, .mouse, 20⟩, ⟨⟨4⟩, .keyboard, 40⟩]
        installs := [.keyboard, .mouse, .keyboard, .keyboard]
        uninstalls := 1
        queue := [.keyboard 0x100 0x41] }
    let entered : Station Nat := ⟨host, fun _ => {}, some .receiving⟩
    let during : List (Happening Nat) :=
      [.work, .arrive (.mouse 0x201), .requestQuit, .arrive (.keyboard 0x101 0x41)] ++
        List.replicate 12 .work
    let refusing : Station Nat := fresh (some .mouse) fun _ => {}
    start.run? calls = some entered ∧ Books start calls entered ∧
      entered.step? (.uninstall ⟨3⟩) = some entered ∧
      (∃ d, entered.run? during = some d ∧ d.host.chained = 3 ∧
        entered.deposited during =
          [(10, .keyDown 0x41), (40, .keyDown 0x41), (20, .mouse .leftMouseDown)] ∧
        Serves entered during d [.quit, .keyboard 0x101 0x41]) ∧
      host.runLoop? = none ∧
      (∃ boxes, Alone ⟨host.requestQuit, fun _ => {}, some .receiving⟩
        ⟨host.requestQuit.afterLoop [.keyboard 0x100 0x41] [], boxes, some .ended⟩
        [(10, .keyDown 0x41), (40, .keyDown 0x41)]) ∧
      ∃ s, refusing.run? (calls.take 2) = some s ∧ Books refusing (calls.take 2) s ∧
        s.host.live = [⟨⟨1⟩, .keyboard, 10⟩] ∧ refusing.refused (calls.take 2) = [.mouse] := by
  intro start calls host entered during refusing
  obtain ⟨hbooks, hruns, hwaits, hserves, halone⟩ := @keeps_books Nat _
  have hentered : start.run? calls = some entered := rfl
  have hcalls : Books start calls entered := hbooks _ _ calls _ hentered
  have hno : .enter ∉ during := by simp [during]
  refine ⟨hentered, hcalls, hcalls.stale _ (by decide), ⟨_, rfl, rfl, rfl, ?_⟩,
    hwaits host (by decide), halone host.requestQuit _ _ _ ?_,
    ⟨_, rfl, hbooks _ _ (calls.take 2) _ rfl, rfl, rfl⟩⟩
  · exact (hserves entered _ during rfl hno rfl).1 rfl
  · exact hruns host.requestQuit [.keyboard 0x100 0x41] [] (by decide) rfl

end Station

end InputRelay
