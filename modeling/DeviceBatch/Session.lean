import DeviceBatch.Session.Batches
import DeviceBatch.Session.Buffers
import DeviceBatch.Session.Platforms
import DeviceBatch.Session.Sides

/-!
# Sessions

A session performs commands one after the other. A command that fails leaves behind what it had done
to the machine, and nothing that it would have made.
-/

namespace DeviceBatch

/-- What a session can be told to do. -/
inductive Command where
  | buffer (command : BufferCommand)
  | platform (command : PlatformCommand)
  | batch (command : BatchCommand)
  | side (command : SideCommand)
  deriving DecidableEq, Repr

namespace Command

/-- Performs a command. -/
def run : Command → Action Session Reply
  | buffer command => command.run
  | platform command => command.run
  | batch command => command.run
  | side command => command.run

end Command

namespace Session

/-- The state after a command, and what came of it. -/
def perform (s : Session) (command : Command) : Except Error Reply × Session :=
  Action.outcome command.run s

/-- What came of each of several commands, and the state after the last. -/
def performAll (s : Session) : List Command → List (Except Error Reply) × Session
  | [] => ([], s)
  | command :: rest =>
    let (outcome, s) := s.perform command
    let (outcomes, s) := s.performAll rest
    (outcome :: outcomes, s)

/-- The events since there were `count` of them. -/
def eventsSince (s : Session) (count : Nat) : List Event := s.machine.events.toList.drop count

end Session

end DeviceBatch
