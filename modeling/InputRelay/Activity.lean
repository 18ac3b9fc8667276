/-!
# Activities

An activity goes on in small moves. A move is quiet, asks a question of the surroundings and goes on
with the answer, or ends with a result. What an answer does to the surroundings, and when it is to
be had at all, is up to them: one activity can run alone, or take turns with others.
-/

namespace InputRelay

/-- What an activity does next, from among the states `σ`. -/
inductive Move (Ask : Type) (Answer : Ask → Type) (σ ρ : Type) where
  /-- It has ended. -/
  | done (result : ρ)
  /-- It goes on by itself. -/
  | quiet (next : σ)
  /-- It wants an answer to go on with. -/
  | ask (q : Ask) (resume : Answer q → σ)

/-- Surroundings `ε` that answer questions; a question without an answer has to wait. -/
abbrev Surroundings (Ask : Type) (Answer : Ask → Type) (ε : Type) :=
  (q : Ask) → ε → Option (Answer q × ε)

namespace Move

variable {Ask : Type} {Answer : Ask → Type} {σ ρ ε : Type}

/-- One move made in some surroundings; none if the activity has ended or has to wait. -/
def make? (answer : Surroundings Ask Answer ε) (e : ε) : Move Ask Answer σ ρ → Option (σ × ε)
  | .done _ => none
  | .quiet s => some (s, e)
  | .ask q resume => (answer q e).map fun (a, e) => (resume a, e)

/-- The result of an activity that has ended. -/
def result? : Move Ask Answer σ ρ → Option ρ
  | .done r => some r
  | _ => none

end Move

/-- Makes moves as long as any can be made, at most `fuel` of them. The result, if the activity
ended, and the surroundings afterwards. -/
def rehearse {Ask : Type} {Answer : Ask → Type} {σ ρ ε : Type}
    (move : σ → Move Ask Answer σ ρ) (answer : Surroundings Ask Answer ε) :
    Nat → σ → ε → Option ρ × ε
  | 0, s, e => ((move s).result?, e)
  | fuel + 1, s, e =>
    match (move s).make? answer e with
    | some (s, e) => rehearse move answer fuel s e
    | none => ((move s).result?, e)

end InputRelay
