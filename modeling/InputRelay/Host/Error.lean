import InputRelay.Message

/-!
# What goes wrong with a host or a bridge
-/

namespace InputRelay

/-- Why input is not captured. -/
inductive HostError where
  /-- The host refused a listener. -/
  | installFailed (kind : ListenerKind) (reason : String)
  | alreadyRunning
  | alreadyStopped
  /-- The message loop of the host failed. -/
  | messageLoop (reason : String)
  | unsupportedPlatform (name : String)
  deriving DecidableEq, Repr

/-- The text of an error. -/
def HostError.message : HostError → String
  | .installFailed kind reason => "failed to install " ++ kind.word ++ " hook: " ++ reason
  | .alreadyRunning => "bridge is already running"
  | .alreadyStopped => "bridge has already been stopped"
  | .messageLoop reason => "host message loop failed: " ++ reason
  | .unsupportedPlatform name => "platform not supported: " ++ name

end InputRelay
