import FlagPoll.Time

/-!
# FlagPoll.Agenda

Calls that are to be made at given moments, the earliest first; those of one moment keep the order
in which they were given. They are made while time passes.
-/

namespace FlagPoll

abbrev Agenda (τ ω : Type) := List (τ × ω)

namespace Agenda

variable {τ ω : Type} [Time τ]

def insert (e : τ × ω) : Agenda τ ω → Agenda τ ω
  | [] => [e]
  | f :: rest => if e.1 < f.1 then e :: f :: rest else f :: insert e rest

def ofList (es : List (τ × ω)) : Agenda τ ω := es.foldl (fun a e => insert e a) []

/-- The first call if it is due by a moment, and the calls after it. -/
def due? (a : Agenda τ ω) (moment : τ) : Option ((τ × ω) × Agenda τ ω) :=
  match a with
  | [] => none
  | e :: rest => if e.1 ≤ moment then some (e, rest) else none

end Agenda

inductive Span where
  /-- Nothing has begun yet. -/
  | lead
  /-- A task waits. -/
  | wait
  /-- Something takes its time. -/
  | work
  /-- Nothing will happen any more. -/
  | rest
  deriving DecidableEq, Repr

namespace Span

variable {τ : Type} [Time τ]

/-- Whether a span of time that ends at `target` goes on beyond the horizon, where everything but
work ends. -/
def exceeds (span : Span) (target horizon : τ) : Bool := span ≠ .work && decide (horizon < target)

/-- The moment up to which calls are due in a span of time that ends at `target`. -/
def bound (span : Span) (target horizon : τ) : τ :=
  if span.exceeds target horizon then horizon else target

end Span
end FlagPoll
