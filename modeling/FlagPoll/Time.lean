/-!
# FlagPoll.Time

What the library asks of a clock: moments and durations of one type that can be added, subtracted
and compared. Nothing is assumed about them; laws are stated where a theorem needs them.
-/

namespace FlagPoll

class Time (τ : Type) extends Zero τ, Add τ, Sub τ, LT τ, LE τ where
  decideLt : DecidableLT τ
  decideLe : DecidableLE τ
  /-- A time as it stands in a message. -/
  text : τ → String
  /-- A moment as a clock keeps it. -/
  kept : τ → τ

namespace Time

instance decidableLT {τ : Type} [Time τ] : DecidableLT τ := decideLt

instance decidableLE {τ : Type} [Time τ] : DecidableLE τ := decideLe

variable {τ : Type} [Time τ]

/-- The later of two moments; the first unless the second is above it. -/
def latest (a b : τ) : τ := if a < b then b else a

/-- How long it is from `now` to a moment, nothing for one that has come. -/
def remaining (moment now : τ) : τ := latest 0 (moment - now)

end Time

end FlagPoll
