/-!
# FlagPoll.Log

Records of the log.
-/

namespace FlagPoll.Log

inductive Level where
  | debug
  | info
  | warning
  | error
  deriving DecidableEq, Repr

def Level.name : Level → String
  | .debug => "debug"
  | .info => "info"
  | .warning => "warning"
  | .error => "error"

structure Record where
  level : Level
  message : String
  deriving DecidableEq, Repr

end FlagPoll.Log
