/-!
# FlagPoll.Text.Ranges

Classes of characters given by runs of code points, as tables of Unicode properties are.
-/

namespace FlagPoll.Text

/-- Runs of code points, each by its first and its last one. -/
abbrev Ranges := List (Nat × Nat)

def Ranges.contains (rs : Ranges) (c : Char) : Bool :=
  rs.any fun (first, last) => first ≤ c.toNat && c.toNat ≤ last

end FlagPoll.Text
