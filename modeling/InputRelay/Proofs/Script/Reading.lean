import InputRelay.Proofs.Outcome
import InputRelay.Script.Compile
import Mathlib.Data.List.Forall2
import Mathlib.Tactic.IntervalCases

/-!
# What a script names

Keys, frequencies and durations as a script writes them, with what they stand for, and when reading
them succeeds.
-/

namespace InputRelay.Script

/-! ## Keys -/

/-- What a key stands for: a digit for the press of its key, a name for what the name means. -/
def WrittenKey.Means : WrittenKey → Key.Meaning → Prop
  | .digit d, m => 0 ≤ d ∧ d ≤ 9 ∧ m = ⟨.keyDown (0x30 + d.toNat.toUInt32), false⟩
  | .name text, m => Key.parse text = .ok m

/-- The key is a digit or a name that is known. -/
def WrittenKey.IsReadable : WrittenKey → Prop
  | .digit d => 0 ≤ d ∧ d ≤ 9
  | .name text => ∃ m, Key.parse text = .ok m

variable {use : KeyUse} {k : WrittenKey} {keys : List WrittenKey} {m : Key.Meaning}
  {ms : List Key.Meaning} {e : InputEvent}

theorem parse_digit {d : Int} (h₀ : 0 ≤ d) (h₉ : d ≤ 9) :
    Key.parse (toString d) = .ok ⟨.keyDown (0x30 + d.toNat.toUInt32), false⟩ := by
  interval_cases d <;> rfl

theorem resolve_eq_ok : k.resolve use = .ok m ↔ k.Means m := by
  cases k with
  | name text => exact mapError_eq_ok
  | digit d =>
    rw [WrittenKey.resolve, WrittenKey.Means]
    by_cases hd : 0 ≤ d ∧ d ≤ 9
    · rw [if_pos (by simpa using hd), mapError_eq_ok, parse_digit hd.1 hd.2]
      simp [hd.1, hd.2, eq_comm]
    · rw [if_neg (by simpa using hd)]
      simp only [reduceCtorEq, false_iff]
      exact fun h => hd ⟨h.1, h.2.1⟩

theorem isReadable_iff : k.IsReadable ↔ ∃ m, k.Means m := by
  cases k with
  | name text => rfl
  | digit d =>
    constructor
    · rintro ⟨h₀, h₉⟩
      exact ⟨_, h₀, h₉, rfl⟩
    · rintro ⟨m, h₀, h₉, -⟩
      exact ⟨h₀, h₉⟩

theorem WrittenKey.Means.unique {m' : Key.Meaning} (h : k.Means m) (h' : k.Means m') : m = m' := by
  cases k with
  | digit d => rw [h.2.2, h'.2.2]
  | name text => exact Except.ok.inj (h.symm.trans h')

theorem resolveKeys_eq_ok : resolveKeys use keys = .ok ms ↔ List.Forall₂ WrittenKey.Means keys ms := by
  induction keys generalizing ms with
  | nil =>
    rw [resolveKeys, List.forall₂_nil_left_iff]
    simp [eq_comm]
  | cons k ks ih =>
    rw [resolveKeys, List.forall₂_cons_left_iff]
    simp only [bind_eq_ok, resolve_eq_ok, ih]
    constructor
    · rintro ⟨m, hm, ms', hms, h⟩
      cases h
      exact ⟨m, ms', hm, hms, rfl⟩
    · rintro ⟨m, ms', hm, hms, rfl⟩
      exact ⟨m, hm, ms', hms, rfl⟩

theorem exists_forall₂_means :
    (∃ ms, List.Forall₂ WrittenKey.Means keys ms) ↔ ∀ k ∈ keys, k.IsReadable := by
  induction keys with
  | nil => simp
  | cons k ks ih =>
    rw [List.forall_mem_cons, isReadable_iff, ← ih]
    constructor
    · rintro ⟨_, h⟩
      cases h with
      | cons hm hms => exact ⟨⟨_, hm⟩, _, hms⟩
    · rintro ⟨⟨m, hm⟩, ms, hms⟩
      exact ⟨m :: ms, .cons hm hms⟩

theorem resolveEvents_eq_ok {es : List InputEvent} :
    resolveEvents use keys = .ok es ↔
      ∃ ms, List.Forall₂ WrittenKey.Means keys ms ∧ ms.map Key.Meaning.event = es := by
  rw [resolveEvents, map_eq_ok]
  simp only [resolveKeys_eq_ok]

/-! ## Paces -/

/-- The pace of a repeat is `p`: `rate` is read as its interval, `limit` as its limit, and the keys
in `stop` stand for the events that end it. -/
structure Pace.IsWritten (rate : String) (limit : Option String) (stop : Option (List WrittenKey))
    (p : Pace) : Prop where
  interval_eq : Time.readFrequency? rate = some p.interval
  limit_eq : limit.map Time.readDuration? = p.limit.map some
  stop_eq : ∃ ms, List.Forall₂ WrittenKey.Means (stop.getD []) ms ∧ ms.map Key.Meaning.event = p.stop
  ends : p.limit ≠ none ∨ p.stop ≠ []

/-- A repeat with these can be read: the frequency, the duration and the keys can, and there is a
duration or a key. -/
structure HasPace (rate : String) (limit : Option String) (stop : Option (List WrittenKey)) :
    Prop where
  reads_rate : (Time.readFrequency? rate).isSome
  reads_limit : ∀ text ∈ limit, (Time.readDuration? text).isSome
  reads_stop : ∀ k ∈ stop.getD [], k.IsReadable
  ends : limit ≠ none ∨ stop.getD [] ≠ []

variable {rate text : String} {limit : Option String} {stop : Option (List WrittenKey)} {p : Pace}
  {d : Duration}

theorem frequency_eq_ok : frequency text = .ok d ↔ Time.readFrequency? text = some d := by
  unfold frequency
  cases Time.readFrequency? text <;> simp

theorem frequency_eq_error {e : Error} :
    frequency text = .error e ↔ Time.readFrequency? text = none ∧ e = .invalidFrequency text := by
  unfold frequency
  cases Time.readFrequency? text <;> simp [eq_comm]

theorem duration_eq_ok : duration text = .ok d ↔ Time.readDuration? text = some d := by
  unfold duration
  cases Time.readDuration? text <;> simp

theorem timeLimit_eq_ok {l : Option Duration} :
    timeLimit limit = .ok l ↔ limit.map Time.readDuration? = l.map some := by
  cases limit with
  | none => cases l <;> simp [timeLimit]
  | some text =>
    simp only [timeLimit, map_eq_ok, duration_eq_ok]
    cases l with
    | none => simp
    | some d => simp

theorem stopEvents_eq_ok {es : List InputEvent} :
    stopEvents stop = .ok es ↔
      ∃ ms, List.Forall₂ WrittenKey.Means (stop.getD []) ms ∧ ms.map Key.Meaning.event = es := by
  cases stop with
  | none => simp [stopEvents]
  | some keys => exact resolveEvents_eq_ok

theorem pace_eq_ok : pace rate limit stop = .ok p ↔ p.IsWritten rate limit stop := by
  simp only [pace, bind_eq_ok, frequency_eq_ok, timeLimit_eq_ok, stopEvents_eq_ok]
  constructor
  · rintro ⟨interval, hinterval, l, hl, es, hes, h⟩
    by_cases hends : (l.isNone && es.isEmpty) = true
    · rw [if_pos hends] at h
      exact nomatch h
    · rw [if_neg hends] at h
      cases h
      refine ⟨hinterval, hl, hes, ?_⟩
      simpa [← not_and_or] using hends
  · rintro ⟨hinterval, hl, hes, hends⟩
    refine ⟨p.interval, hinterval, p.limit, hl, p.stop, hes, ?_⟩
    rw [if_neg]
    · rfl
    · simpa [← not_and_or] using hends

theorem exists_isWritten : (∃ p : Pace, p.IsWritten rate limit stop) ↔ HasPace rate limit stop := by
  constructor
  · rintro ⟨p, hrate, hlimit, ⟨ms, hms, hstop⟩, hends⟩
    refine ⟨Option.isSome_iff_exists.mpr ⟨_, hrate⟩, ?_, exists_forall₂_means.mp ⟨ms, hms⟩, ?_⟩
    · rintro text rfl
      rw [Option.map_some, eq_comm, Option.map_eq_some_iff] at hlimit
      obtain ⟨d, -, hd⟩ := hlimit
      exact Option.isSome_iff_exists.mpr ⟨d, hd.symm⟩
    · refine hends.imp (fun hl hn => hl ?_) fun hs hn => hs ?_
      · rw [hn] at hlimit
        simpa using hlimit.symm
      · rw [hn, List.forall₂_nil_left_iff] at hms
        rw [← hstop, hms, List.map_nil]
  · rintro ⟨hrate, hlimit, hstop, hends⟩
    obtain ⟨interval, hinterval⟩ := Option.isSome_iff_exists.mp hrate
    obtain ⟨ms, hms⟩ := exists_forall₂_means.mpr hstop
    obtain ⟨l, hl⟩ : ∃ l : Option Duration, limit.map Time.readDuration? = l.map some := by
      cases limit with
      | none => exact ⟨none, rfl⟩
      | some text =>
        obtain ⟨d, hd⟩ := Option.isSome_iff_exists.mp (hlimit text rfl)
        exact ⟨some d, congrArg some hd⟩
    refine ⟨⟨interval, l, ms.map Key.Meaning.event⟩, hinterval, hl, ⟨ms, hms, rfl⟩, ?_⟩
    refine hends.imp (fun hsome hn => hsome ?_) fun hne hn => hne ?_
    · have hnone : l = none := hn
      rw [hnone, Option.map_none] at hl
      exact Option.map_eq_none_iff.mp hl
    · have hlength := hms.length_eq
      rw [List.map_eq_nil_iff.mp hn] at hlength
      exact List.length_eq_zero_iff.mp hlength

end InputRelay.Script
