/-!
# FlagPoll.Callout

Calls out of the library: what a callee does before it returns.
-/

namespace FlagPoll

/-- A callee makes calls of its own and then returns, or raises an exception with a message. -/
structure Script (ω : Type) where
  ops : List ω
  raises : Option String

def Script.quiet {ω : Type} : Script ω := ⟨[], none⟩

end FlagPoll
