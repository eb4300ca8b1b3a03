import GasMachine.Parameter

/-!
# Events

What scripts tell the outside world while they run. Events are shown to the caller only if the
whole chain halts.
-/

set_option autoImplicit false

namespace GasMachine

structure Notification where
  /-- The script that emitted it. -/
  script : ScriptHash
  name : String
  state : Parameter

structure LogEntry where
  script : ScriptHash
  message : String

end GasMachine
