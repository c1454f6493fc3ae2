import DeviceBatch.Location

/-!
# Platforms

What a deployment offers. The host platform has no device memory at all. A platform with simulated
devices keeps device memory within a capacity for each device; it may defer copies that touch a
device until their stream is synchronized.
-/

namespace DeviceBatch

/-- The devices of a simulated platform. -/
structure SimulatedDevices where
  count : Nat := 1
  /-- The bytes of each device. -/
  capacity : Nat := 256 * 1024 * 1024
  /-- Copies that touch a device wait in the queue of their stream. -/
  deferred : Bool := false
  deriving DecidableEq, Repr, Inhabited

/-- What memory there is and when copies take effect. -/
inductive Platform where
  | host
  | simulated (devices : SimulatedDevices)
  deriving DecidableEq, Repr

namespace Platform

/-- The name used in events and messages. -/
def name : Platform → String
  | host => "host"
  | simulated _ => "simulated"

/-- The number of devices; the host platform has none. -/
def deviceCount : Platform → Nat
  | host => 0
  | simulated devices => devices.count

/-- Device memory can be allocated. -/
def hasDeviceMemory (p : Platform) : Bool := 0 < p.deviceCount

/-- A copy of this kind takes effect only when its stream is synchronized. -/
def defers : Platform → CopyKind → Bool
  | host, _ => false
  | simulated devices, kind => devices.deferred && kind.touchesDevice

end Platform

end DeviceBatch
