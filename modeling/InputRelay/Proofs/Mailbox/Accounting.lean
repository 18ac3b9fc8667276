import InputRelay.Proofs.Mailbox.Run
import Mathlib.Data.Nat.ModEq

/-!
# The mailbox keeps its books

What goes into a mailbox comes out in order and at most once, or is counted as overwritten, or is
still in the slot. The books of a run are the events that were put in (`deposits`) and those that
were taken out (`removals`), each with its place among those put in. `Ledger` says that books and
mailbox agree: a deposit, a removal and a shutdown keep it, hence a run does, whoever takes and in
whatever order.
-/

namespace InputRelay.Mailbox

/-! ## The books of a run -/

/-- What a happening puts into the slot. -/
def Happening.deposited : Happening → List InputEvent
  | .deposit e => [e]
  | _ => []

/-- The events that are put into the slot, in order. -/
def deposits (hs : List Happening) : List InputEvent := hs.flatMap Happening.deposited

/-- The event that a happening hands out of the slot, when it leads from `w` to `w'`. A sentinel
that a caller gets at an empty slot comes from nowhere. -/
def Waiting.removed (w w' : Waiting) : Happening → List InputEvent
  | .tryTake => w.slot.tryTake.1.toList
  | .look caller => if w.slot.pending.isSome then (w'.result? caller).join.toList else []
  | _ => []

/-- The events that a run takes out of the slot, in order, each with its place: the latest of the
deposits so far, of which there are `count` at the start. -/
def Waiting.removals (w : Waiting) (count : Nat) : List Happening → List (Nat × InputEvent)
  | [] => []
  | h :: hs =>
    match w.step? h with
    | none => []
    | some w' =>
      (w.removed w' h).map (fun e => (count - 1, e)) ++
        w'.removals (count + h.deposited.length) hs

/-! ## Books that agree with the mailbox -/

/-- The books agree with the mailbox. -/
structure Ledger (ins : List InputEvent) (outs : List (Nat × InputEvent)) (m : Mailbox) : Prop where
  placed : ∀ o ∈ outs, ins[o.1]? = some o.2
  ordered : outs.Pairwise (·.1 < ·.1)
  subsequence : (outs.map Prod.snd).Sublist ins
  balance : ins.length ≡ outs.length + m.overwritten.toNat + m.pending.toList.length [MOD 2 ^ 64]
  full : ∀ e, m.pending = some e → ∃ earlier, ins = earlier ++ [e] ∧
    (outs.map Prod.snd).Sublist earlier ∧ ∀ o ∈ outs, o.1 < earlier.length
  empty : m.pending = none → ∀ e, ins.getLast? = some e → outs.getLast? = some (ins.length - 1, e)

namespace Ledger

variable {ins : List InputEvent} {outs : List (Nat × InputEvent)} {m : Mailbox} {e : InputEvent}

theorem fresh : Ledger [] [] {} where
  placed := by simp
  ordered := .nil
  subsequence := .refl _
  balance := rfl
  full := by simp
  empty := by simp

theorem place_lt (h : Ledger ins outs m) {o : Nat × InputEvent} (ho : o ∈ outs) :
    o.1 < ins.length := by
  obtain ⟨hlt, -⟩ := List.getElem?_eq_some_iff.mp (h.placed o ho)
  exact hlt

theorem deposit (h : Ledger ins outs m) : Ledger (ins ++ [e]) outs (m.deposit e) where
  placed o ho := by
    rw [List.getElem?_append_left (h.place_lt ho)]
    exact h.placed o ho
  ordered := h.ordered
  subsequence := h.subsequence.trans (List.sublist_append_left ins [e])
  balance := by
    have hb := h.balance
    unfold Mailbox.deposit
    cases hp : m.pending with
    | none =>
      rw [hp] at hb
      simpa using hb.add_right 1
    | some d =>
      rw [hp] at hb
      have hmod := Nat.mod_modEq (m.overwritten.toNat + 1) (2 ^ 64)
      simp only [Option.isSome_some, if_true, UInt64.toNat_add, UInt64.toNat_one,
        Option.toList_some, List.length_append, List.length_singleton]
      calc ins.length + 1
          ≡ outs.length + (m.overwritten.toNat + 1) + 1 [MOD 2 ^ 64] := hb.add_right 1
        _ ≡ outs.length + (m.overwritten.toNat + 1) % 2 ^ 64 + 1 [MOD 2 ^ 64] :=
          (hmod.symm.add_left _).add_right 1
  full d hd := by
    cases hd
    exact ⟨ins, rfl, h.subsequence, fun o ho => h.place_lt ho⟩
  empty hd := nomatch hd

/-- The event in the slot goes out. -/
theorem remove (h : Ledger ins outs m) (hp : m.pending = some e) :
    Ledger ins (outs ++ [(ins.length - 1, e)]) { m with pending := none } := by
  obtain ⟨earlier, rfl, hsub, hlt⟩ := h.full e hp
  have hplace : (earlier ++ [e]).length - 1 = earlier.length := by simp
  rw [hplace]
  constructor
  case placed =>
    intro o ho
    rcases List.mem_append.mp ho with ho | ho
    · exact h.placed o ho
    · cases List.mem_singleton.mp ho
      exact List.getElem?_concat_length
  case ordered =>
    rw [List.pairwise_append]
    refine ⟨h.ordered, List.pairwise_singleton _ _, fun o ho x hx => ?_⟩
    cases List.mem_singleton.mp hx
    exact hlt o ho
  case subsequence =>
    rw [List.map_append]
    exact hsub.append (.refl _)
  case balance =>
    have hb := h.balance
    rw [hp, Option.toList_some, List.length_singleton] at hb
    have hcount : (outs ++ [(earlier.length, e)]).length + m.overwritten.toNat + 0 =
        outs.length + m.overwritten.toNat + 1 := by
      rw [List.length_append, List.length_singleton]
      omega
    exact hb.trans (hcount ▸ .refl _)
  case full =>
    intro d hd
    exact nomatch hd
  case empty =>
    intro _ d hd
    rw [List.getLast?_concat] at hd ⊢
    rw [List.length_append, ← Option.some.inj hd]
    rfl

/-- Whoever takes what is in the slot, if anything, leaves it empty. -/
theorem take (h : Ledger ins outs m) :
    Ledger ins (outs ++ m.pending.toList.map fun e => (ins.length - 1, e))
      { m with pending := none } := by
  cases hp : m.pending with
  | none =>
    have hm : { m with pending := none } = m := by rw [← hp]
    rw [hm, Option.toList_none, List.map_nil, List.append_nil]
    exact h
  | some e => exact h.remove hp

theorem shutDown (h : Ledger ins outs m) : Ledger ins outs m.shutDown :=
  ⟨h.placed, h.ordered, h.subsequence, h.balance, h.full, h.empty⟩

end Ledger

/-! ## The books along a run -/

namespace Waiting

/-- A caller that looks at a full slot goes away with what is in it. -/
theorem removed_look {w : Waiting} {caller : Nat} {expired : Bool} {s : Stage}
    (hs : w.stage? caller = some s) :
    w.removed (w.look caller expired) (.look caller) = w.slot.pending.toList := by
  rw [removed]
  cases hp : w.slot.pending with
  | none => simp
  | some e =>
    have htake : w.slot.take? = some (e, { w.slot with pending := none }) := by
      rw [take?, isReady, hp]
      rfl
    have hgone : (w.look caller expired).stage? caller = some (.gone (some e)) := by
      unfold look
      rw [htake]
      show (({ w with slot := _ } : Waiting).setStage caller _).stage? caller = _
      rw [stage?_setStage]
      show (w.stage? caller).map _ = _
      rw [hs, Option.map_some, if_pos rfl]
    have hres : (w.look caller expired).result? caller = some (some e) := by
      unfold result?
      rw [show ((w.look caller expired).callers[caller]?.map Caller.stage) = _ from hgone]
    rw [hres]
    simp

theorem ledger_step {w w' : Waiting} {x : Happening} {ins : List InputEvent}
    {outs : List (Nat × InputEvent)} (h : Ledger ins outs w.slot) (hx : w.step? x = some w') :
    Ledger (ins ++ x.deposited) (outs ++ (w.removed w' x).map fun e => (ins.length - 1, e))
      w'.slot := by
  -- A happening of which the books take no notice.
  have same (hd : x.deposited = []) (hr : w.removed w' x = []) (hl : Ledger ins outs w'.slot) :
      Ledger (ins ++ x.deposited) (outs ++ (w.removed w' x).map fun e => (ins.length - 1, e))
        w'.slot := by
    rw [hd, hr, List.map_nil, List.append_nil, List.append_nil]
    exact hl
  -- A happening that takes what is in the slot.
  have take (hd : x.deposited = []) (hr : w.removed w' x = w.slot.pending.toList)
      (hslot : w'.slot = { w.slot with pending := none }) :
      Ledger (ins ++ x.deposited) (outs ++ (w.removed w' x).map fun e => (ins.length - 1, e))
        w'.slot := by
    rw [hd, hr, hslot, List.append_nil]
    exact h.take
  cases x with
  | call timed =>
    cases hx
    exact same rfl rfl h
  | look caller =>
    obtain ⟨expired, hs, rfl⟩ := step?_look hx
    obtain ⟨s, hs⟩ : ∃ s, w.stage? caller = some s := hs.elim (⟨_, ·⟩) (⟨_, ·⟩)
    exact take rfl (removed_look hs) (look_slot w caller expired)
  | deposit e =>
    cases hx
    show Ledger (ins ++ [e]) (outs ++ []) (w.slot.deposit e)
    rw [List.append_nil]
    exact h.deposit
  | tryTake =>
    cases hx
    exact take rfl rfl rfl
  | shutDown =>
    cases hx
    exact same rfl rfl h.shutDown
  | notify woken =>
    obtain ⟨-, -, -, rfl⟩ := step?_notify hx
    exact same rfl rfl ((awakenAll_slot woken w).symm ▸ h)
  | notifyAll =>
    cases step?_notifyAll hx
    exact same rfl rfl ((awakenAll_slot _ w).symm ▸ h)
  | wake caller =>
    obtain ⟨-, rfl⟩ := step?_wake hx
    exact same rfl rfl h
  | expire caller =>
    rcases step?_expire hx with ⟨_, -, rfl⟩ | ⟨_, -, rfl⟩
    · exact same rfl rfl h
    · exact same rfl rfl h

theorem ledger_run {w w' : Waiting} {hs : List Happening} {ins : List InputEvent}
    {outs : List (Nat × InputEvent)} (h : Ledger ins outs w.slot) (hrun : w.run? hs = some w') :
    Ledger (ins ++ deposits hs) (outs ++ w.removals ins.length hs) w'.slot := by
  induction hs generalizing w ins outs with
  | nil =>
    cases hrun
    simpa only [deposits, removals, List.flatMap_nil, List.append_nil] using h
  | cons x hs ih =>
    obtain ⟨v, hv, hrest⟩ := run?_cons.mp hrun
    have hall := ih (ledger_step h hv) hrest
    rw [deposits, List.flatMap_cons, removals, hv, ← List.append_assoc, ← List.append_assoc]
    rw [List.length_append] at hall
    exact hall

/-- **The mailbox keeps its books.** In every run from a fresh mailbox, before and after a shutdown:
what was taken out is a subsequence of what was put in, at strictly increasing places; what was put
in was taken out, overwritten or is in the slot, up to the wrapping of the count; what is in the
slot was put in last; and what was put in last is in the slot or was taken out last. -/
theorem accounts_of_run {hs : List Happening} {w : Waiting}
    (h : ({} : Waiting).run? hs = some w) :
    let ins := deposits hs
    let outs := ({} : Waiting).removals 0 hs
    ((outs.map Prod.snd).Sublist ins ∧ outs.Pairwise (·.1 < ·.1) ∧
      ∀ o ∈ outs, ins[o.1]? = some o.2) ∧
    ins.length ≡
      outs.length + w.slot.overwritten.toNat + (if w.slot.pending.isSome then 1 else 0)
      [MOD 2 ^ 64] ∧
    (∀ e, w.slot.pending = some e → ins.getLast? = some e) ∧
    (∀ e, ins.getLast? = some e →
      w.slot.pending = some e ∨ outs.getLast? = some (ins.length - 1, e)) := by
  intro ins outs
  have hl : Ledger ins outs w.slot := by
    simpa only [List.nil_append, List.length_nil] using ledger_run (w := {}) Ledger.fresh h
  have hcount : w.slot.pending.toList.length = if w.slot.pending.isSome then 1 else 0 := by
    cases w.slot.pending <;> rfl
  refine ⟨⟨hl.subsequence, hl.ordered, hl.placed⟩, hcount ▸ hl.balance, fun e he => ?_,
    fun e he => ?_⟩
  · obtain ⟨earlier, hins, -, -⟩ := hl.full e he
    rw [hins, List.getLast?_concat]
  · cases hp : w.slot.pending with
    | none => exact .inr (hl.empty hp e he)
    | some d =>
      obtain ⟨earlier, hins, -, -⟩ := hl.full d hp
      rw [hins, List.getLast?_concat] at he
      exact .inl he

/-- One event is overwritten, one goes to a waiting caller, one is put in after the shutdown, and
the sentinel that the last caller gets is in no book. -/
theorem accounts_of_run_past_shutdown :
    let hs : List Happening := [.call false, .deposit (.keyDown 65), .deposit (.keyUp 65), .look 0,
      .shutDown, .deposit (.keyDown 66), .tryTake, .call true, .look 1]
    ({} : Waiting).run? hs =
      some ⟨⟨none, true, 1⟩, [⟨false, .gone (some (.keyUp 65))⟩, ⟨true, .gone (some .sentinel)⟩],
        3, 1⟩ ∧
    ({} : Waiting).removals 0 hs = [(1, .keyUp 65), (2, .keyDown 66)] ∧
    (({} : Waiting).removals 0 hs).Pairwise (·.1 < ·.1) ∧ 3 ≡ 2 + 1 + 0 [MOD 2 ^ 64] := by
  intro hs
  have h : ({} : Waiting).run? hs = some ⟨⟨none, true, 1⟩,
      [⟨false, .gone (some (.keyUp 65))⟩, ⟨true, .gone (some .sentinel)⟩], 3, 1⟩ := by decide
  obtain ⟨⟨-, hordered, -⟩, hbalance, -⟩ := accounts_of_run h
  exact ⟨h, by decide, hordered, hbalance⟩

end Waiting

end InputRelay.Mailbox
