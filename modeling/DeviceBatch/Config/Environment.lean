import DeviceBatch.Config
import DeviceBatch.Named
import DeviceBatch.Size
import DeviceBatch.Text.FileFault

/-!
# Configuration by environment variables

Variables that are missing, are no text or mean nothing leave the default. Numbers of simulated
devices that make no sense are raised to the least that does.
-/

namespace DeviceBatch

/-- The environment: variables with the bytes of their values. -/
abbrev Environment := Named (List UInt8)

namespace Environment

/-- The value of a variable, if it is a text. -/
def text? (env : Environment) (name : String) : Option String :=
  (env.lookup name).bind Text.ofBytes?

/-- The truth value that a word stands for. -/
def flag? (text : String) : Option Bool :=
  match (Text.trim text).toLower with
  | "1" | "true" | "yes" | "on" => some true
  | "0" | "false" | "no" | "off" => some false
  | _ => none

/-- A variable that holds a size. -/
def size (env : Environment) (name : String) (default : Nat) : Nat :=
  ((env.text? name).bind fun text => Size.ofText? (Text.trim text)).getD default

/-- A variable that holds a truth value. -/
def flag (env : Environment) (name : String) (default : Bool) : Bool :=
  ((env.text? name).bind flag?).getD default

/-- The level of the log, unless it is blank. -/
def level? (env : Environment) : Option String :=
  (env.text? "GG_BATCH_LOG_LEVEL").filter fun level => !Text.isAllBlank level

end Environment

/-- The configuration that an environment asks for. -/
def Config.ofEnvironment (env : Environment) : Config :=
  let defaults : Config := {}
  { platform := ((env.text? "GG_BATCH_PLATFORM").bind PlatformKind.parse?).getD defaults.platform
    device := env.size "GG_BATCH_DEVICE_ID" defaults.device
    simulated :=
      { count := max (env.size "GG_BATCH_DEVICE_COUNT" defaults.simulated.count) 1
        capacity :=
          max (env.size "GG_BATCH_DEVICE_CAPACITY" defaults.simulated.capacity) minimumCapacity
        deferred := env.flag "GG_BATCH_DEFERRED_COPIES" defaults.simulated.deferred }
    batch :=
      { pinnedInput := env.flag "GG_BATCH_PINNED_INPUT" defaults.batch.pinnedInput
        pinnedOutput := env.flag "GG_BATCH_PINNED_OUTPUT" defaults.batch.pinnedOutput
        maximum := env.size "GG_BATCH_MAX_BATCH_SIZE" defaults.batch.maximum }
    logging :=
      { format :=
          ((env.text? "GG_BATCH_LOG_FORMAT").bind LogFormat.parse?).getD defaults.logging.format
        level := env.level?.getD defaults.logging.level } }

end DeviceBatch
