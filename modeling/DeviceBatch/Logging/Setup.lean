import DeviceBatch.Logging.Filter
import DeviceBatch.Logging.Settings
import DeviceBatch.Text.FileFault

/-!
# Setting up the log

A process has one log. Where the log of the process is already set up, setting it up again fails,
and this module says how: the filter is checked first, then the file is opened, and only a log of
JSON lines goes to a file.
-/

namespace DeviceBatch

/-- Why a log cannot be set up. -/
inductive LogFault where
  | invalidFilter (fault : Logging.FilterFault)
  | fileOpen (fault : Text.FileFault)
  | alreadyInitialized
  deriving DecidableEq, Repr

/-- The text of a fault. -/
def LogFault.message : LogFault → String
  | invalidFilter fault => "Invalid log filter: " ++ fault.message
  | fileOpen fault => "Failed to open log file: " ++ fault.message
  | alreadyInitialized => "Subscriber already initialized"

/-- How setting up a second log fails, if opening its file would fail as given. -/
def LogSettings.refusal (s : LogSettings) (file : Except Text.FileFault Unit) : LogFault :=
  match Logging.checkFilter s.level with
  | .error fault => .invalidFilter fault
  | .ok () =>
    match s.format, s.outputPath, file with
    | .json, some _, .error fault => .fileOpen fault
    | _, _, _ => .alreadyInitialized

end DeviceBatch
