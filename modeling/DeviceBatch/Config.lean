import DeviceBatch.Batch.Settings
import DeviceBatch.Error
import DeviceBatch.Logging.Settings
import DeviceBatch.Platform

/-!
# Configuration

What can be configured, with the defaults; which configurations are valid, and the platform that a
valid one asks for.
-/

namespace DeviceBatch

/-- The kinds of platform that can be asked for. -/
inductive PlatformKind where
  | host
  | simulated
  | cuda
  deriving DecidableEq, Repr

namespace PlatformKind

def all : List PlatformKind := [host, simulated, cuda]

def name : PlatformKind → String
  | host => "host"
  | simulated => "simulated"
  | cuda => "cuda"

/-- The kind of exactly that name. -/
def ofName? (name : String) : Option PlatformKind := all.find? fun k => k.name == name

/-- The kind that a user means: blanks around the name and the case of its letters are ignored, and
there are short names. -/
def parse? (text : String) : Option PlatformKind :=
  match (Text.trim text).toLower with
  | "cpu" => some host
  | "sim" => some simulated
  | "gpu" => some cuda
  | name => ofName? name

end PlatformKind

/-- All that can be configured. -/
structure Config where
  platform : PlatformKind := .host
  /-- The device that tensors are placed on. -/
  device : Nat := 0
  simulated : SimulatedDevices := {}
  batch : BatchSettings := {}
  logging : LogSettings := {}
  deriving DecidableEq, Repr

namespace Config

/-- The least capacity of a simulated device. -/
def minimumCapacity : Nat := 1024 * 1024

/-- Refuses a configuration of simulated devices that cannot work. -/
def validate (c : Config) : Except Error Unit :=
  if c.platform ≠ .simulated then .ok ()
  else if c.simulated.count = 0 then .error (.config .noDevices)
  else if c.simulated.capacity < minimumCapacity then
    .error (.config (.lowCapacity minimumCapacity))
  else if c.simulated.count ≤ c.device then
    .error (.config (.deviceOutOfRange c.device c.simulated.count))
  else .ok ()

/-- The platform that is asked for. -/
def buildPlatform (c : Config) : Except Error Platform :=
  match c.validate with
  | .error e => .error e
  | .ok () =>
    match c.platform with
    | .host => .ok .host
    | .simulated => .ok (.simulated c.simulated)
    | .cuda => .error (.config .cudaUnavailable)

end Config

end DeviceBatch
