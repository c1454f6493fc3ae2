/-!
# Locations and directions

Storage lives on the host, where the processor can address it, or on a device. A copy has a
direction, which is the pair of the location it writes and the location it reads
(`CopyKind.between`).
-/

namespace DeviceBatch

/-- Where storage lives. -/
inductive Location where
  | host
  | device
  deriving DecidableEq, Repr, Inhabited

/-- The direction of a copy, named source first. -/
inductive CopyKind where
  | hostToHost
  | hostToDevice
  | deviceToHost
  | deviceToDevice
  deriving DecidableEq, Repr

/-! ## Locations -/

namespace Location

/-- The word used in messages and as a metric label. -/
def name : Location → String
  | host => "host"
  | device => "device"

/-- The name as it stands in the text of a value. -/
def title : Location → String
  | host => "Host"
  | device => "Device"

def isHost : Location → Bool
  | host => true
  | device => false

def isDevice : Location → Bool
  | host => false
  | device => true

end Location

/-! ## Directions -/

namespace CopyKind

/-- The direction of a copy that writes `dst` and reads `src`. -/
def between : (dst src : Location) → CopyKind
  | .host, .host => hostToHost
  | .device, .host => hostToDevice
  | .host, .device => deviceToHost
  | .device, .device => deviceToDevice

/-- The location that the copy writes. -/
def destination : CopyKind → Location
  | hostToHost | deviceToHost => .host
  | hostToDevice | deviceToDevice => .device

/-- The location that the copy reads. -/
def source : CopyKind → Location
  | hostToHost | hostToDevice => .host
  | deviceToHost | deviceToDevice => .device

/-- The copy reads or writes device memory. -/
def touchesDevice : CopyKind → Bool
  | hostToHost => false
  | _ => true

/-- The name of the direction spelled out. -/
def title : CopyKind → String
  | hostToHost => "HostToHost"
  | hostToDevice => "HostToDevice"
  | deviceToHost => "DeviceToHost"
  | deviceToDevice => "DeviceToDevice"

/-- The short form, used in events and as a metric label. -/
def label : CopyKind → String
  | hostToHost => "h2h"
  | hostToDevice => "h2d"
  | deviceToHost => "d2h"
  | deviceToDevice => "d2d"

@[simp] theorem destination_between (dst src : Location) : (between dst src).destination = dst := by
  cases dst <;> cases src <;> rfl

@[simp] theorem source_between (dst src : Location) : (between dst src).source = src := by
  cases dst <;> cases src <;> rfl

theorem touchesDevice_between (dst src : Location) :
    (between dst src).touchesDevice = (dst.isDevice || src.isDevice) := by
  cases dst <;> cases src <;> rfl

end CopyKind

end DeviceBatch
