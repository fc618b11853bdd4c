import FlagPoll.Log

/-!
# FlagPoll.Listeners.Basic

Listeners in the order of their registration; one may be registered more than once.
-/

namespace FlagPoll

abbrev Listeners (κ : Type) := List κ

namespace Listeners

variable {κ : Type}

def add (ls : Listeners κ) (k : κ) : Listeners κ := ls ++ [k]

/-- Takes the first registration of a listener away, if there is one. -/
def remove [BEq κ] (ls : Listeners κ) (k : κ) : Listeners κ := ls.erase k

def raisedLog (description message : String) : Log.Record :=
  ⟨.error, "Unexpected error in " ++ description ++ " listener: " ++ message⟩

theorem mem_add (ls : Listeners κ) (k : κ) : k ∈ add ls k := by simp [add]

end Listeners
end FlagPoll
