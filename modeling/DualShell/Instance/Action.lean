import DualShell.Family

/-!
The actions of a control script: what its first argument can ask for.
-/

namespace DualShell

inductive Action where
  | init
  | status
  | stop
  | start
  | stdout
  | stderr
  | exitStatus
  | tail
  | tailError
  | run
  deriving DecidableEq, Repr

namespace Action

def all : List Action :=
  [.init, .status, .stop, .start, .stdout, .stderr, .exitStatus, .tail, .tailError, .run]

def name : Action → Text
  | .init => "init"
  | .status => "status"
  | .stop => "stop"
  | .start => "start"
  | .stdout => "stdout"
  | .stderr => "stderr"
  | .exitStatus => "exitstatus"
  | .tail => "tail"
  | .tailError => "tailerr"
  | .run => "run"

end Action

end DualShell
