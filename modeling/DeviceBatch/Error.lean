import DeviceBatch.Element
import DeviceBatch.Location
import DeviceBatch.Shape

/-!
# Errors

An error is its cause. Each family of errors that shares an opening phrase carries a fault, which
says what exactly went wrong; `message` is the only place where wording is chosen. Collaborators
from outside the library report in words of their own: every family has a fault `other` for them.

Addresses mean nothing outside one run, so messages print `0x?` in their place.
-/

namespace DeviceBatch

/-! ## Faults -/

/-- Why storage was not provided. -/
inductive AllocationFault where
  /-- A platform was asked for no bytes at all. -/
  | zeroSized
  /-- The host has no block of this size. -/
  | hostExhausted
  /-- Device memory was asked of a platform that has none. -/
  | hostOnly
  /-- The same, noticed before the platform was asked. -/
  | noDeviceSupport (platform : String)
  | noSuchDevice
  | outOfDeviceMemory (available : Nat)
  /-- The byte length is above `Size.storageLimit`. -/
  | sizeOverflow
  | other (text : String)
  deriving DecidableEq, Repr

/-- How shapes, counts and byte lengths disagree. -/
inductive ShapeFault where
  | countMismatch (shape : Shape) (count held : Nat)
  | countOverflow (shape : Shape)
  | scalarInput (input : String) (request : Nat)
  | incompatibleInput (input : String) (request : Nat) (shape combined : Shape)
  | rowOverflow (input : String)
  | inputCountOverflow (input : String)
  | inputBytesOverflow (input : String)
  | partialElement (input : String) (bytes : Nat) (dtype : ElementType)
  | inputData (input : String) (shape : Shape) (count : Nat)
  | scalarOutput (output : String)
  | rowMismatch (output : String) (rows held : Nat)
  | other (text : String)
  deriving DecidableEq, Repr

/-- What should never happen if every part keeps its contract. -/
inductive ConsistencyFault where
  | hostOnlyRelease
  /-- The storage to release is not in the table of device allocations. -/
  | unknownAllocation
  | misplacedInput (input : String) (location : Location) (device : Nat)
      (wanted : Location) (wantedDevice : Nat)
  | nullInput (input : String)
  | misalignedInput (input : String) (dtype : ElementType)
  | nullOutput (output : String)
  | outputType (held read : ElementType)
  /-- A name stands for nothing. -/
  | unknownName (name : String)
  | other (text : String)
  deriving DecidableEq, Repr

/-- Why a platform refuses an operation. -/
inductive PlatformFault where
  | hostOnlyCopy (kind : CopyKind)
  /-- A range of that many bytes lies in no live device allocation. -/
  | invalidDeviceRange (bytes : Nat)
  | other (text : String)
  deriving DecidableEq, Repr

/-- What is wrong with a configuration. -/
inductive ConfigFault where
  | unreadable (path reason : String)
  /-- The document is no TOML, or its values do not fit the fields. -/
  | malformed
  /-- A number is too large to be written. -/
  | unwritableNumber
  | noDevices
  | lowCapacity (minimum : Nat)
  | deviceOutOfRange (device count : Nat)
  | cudaUnavailable
  | other (text : String)
  deriving DecidableEq, Repr

/-! ## Errors -/

/-- Everything that an operation of this library can fail with. -/
inductive Error where
  | allocation (bytes : Nat) (location : Location) (device : Nat) (fault : AllocationFault)
  /-- A copy whose source or destination range does not lie in its buffer. -/
  | range (dstOffset srcOffset srcEnd srcSize dstSize : Nat)
  | shapeMismatch (fault : ShapeFault)
  | internalConsistency (fault : ConsistencyFault)
  | doubleFinalize
  | batchFinalized
  | emptyBatch
  | batchTooLarge (count maximum : Nat)
  /-- An input that a request does not have; the request is named where it is known. -/
  | missingInput (input : String) (request : Option Nat)
  | duplicateOutput (output : String)
  | notHostAccessible (location : Location)
  | platform (fault : PlatformFault)
  | config (fault : ConfigFault)
  deriving DecidableEq, Repr

/-- The coarse classes of errors that are reported for each request. -/
inductive ErrorKind where
  | allocation
  | range
  | shapeMismatch
  | internalConsistency
  | doubleFinalize
  | invalidRequest
  | platform
  deriving DecidableEq, Repr

/-! ## Wording -/

def AllocationFault.message : AllocationFault → String
  | zeroSized => "zero-sized allocation requested from platform"
  | hostExhausted => "host allocator returned null"
  | hostOnly => "device memory requested on a host-only platform"
  | noDeviceSupport platform =>
    s!"device memory requested on {platform} platform without device support"
  | noSuchDevice => "no such device"
  | outOfDeviceMemory available => s!"out of device memory, available {available} bytes"
  | sizeOverflow => "size overflows address space"
  | other text => text

def ShapeFault.message : ShapeFault → String
  | countMismatch shape count held =>
    s!"shape {shape.text} holds {count} elements but buffer holds {held}"
  | countOverflow shape => s!"shape {shape.text} overflows element count"
  | scalarInput input request =>
    s!"input {input} of request {request} is a scalar and cannot be batched"
  | incompatibleInput input request shape combined =>
    s!"input {input} of request {request} has shape {shape.text}, " ++
      s!"incompatible with {combined.text}"
  | rowOverflow input => s!"input {input} overflows the batch dimension"
  | inputCountOverflow input => s!"input {input} overflows element count"
  | inputBytesOverflow input => s!"input {input} overflows byte size"
  | partialElement input bytes dtype =>
    s!"input {input} collected {bytes} bytes, not a whole number of {dtype.name} elements"
  | inputData input shape count => s!"input {input} has shape {shape.text} but {count} elements"
  | scalarOutput output => s!"output {output} is a scalar and cannot be split"
  | rowMismatch output rows held => s!"output {output} has {rows} rows but the batch holds {held}"
  | other text => text

def ConsistencyFault.message : ConsistencyFault → String
  | hostOnlyRelease => "device deallocation on a host-only platform"
  | unknownAllocation => "double-free or unknown device allocation 0x?"
  | misplacedInput input location device wanted wantedDevice =>
    s!"input {input} collected in {location.name} memory on device {device}, " ++
      s!"requested {wanted.name} memory on device {wantedDevice}"
  | nullInput input => s!"input {input} collected as a null pointer"
  | misalignedInput input dtype =>
    s!"input {input} collected at an address misaligned for {dtype.name}"
  | nullOutput output => s!"output {output} has a null data pointer"
  | outputType held read => s!"output holds {held.name} elements, read as {read.name}"
  | unknownName name => s!"nothing is named {name}"
  | other text => text

def PlatformFault.message : PlatformFault → String
  | hostOnlyCopy kind => s!"{kind.label} copy on a host-only platform"
  | invalidDeviceRange bytes => s!"invalid device range 0x?+{bytes} bytes"
  | other text => text

def ConfigFault.message : ConfigFault → String
  | unreadable path reason => s!"{path}: {reason}"
  | malformed => "TOML parse error"
  | unwritableNumber => "out-of-range value for u64 type"
  | noDevices => "simulated.device_count must be at least 1"
  | lowCapacity minimum => s!"simulated.capacity must be at least {minimum} bytes"
  | deviceOutOfRange device count =>
    s!"device_id {device} out of range for {count} simulated devices"
  | cudaUnavailable =>
    "cuda platform requested but the crate was built without the `cuda` feature"
  | other text => text

namespace Error

/-- The text of an error. -/
def message : Error → String
  | allocation bytes location device fault =>
    s!"Allocation failed: {bytes} bytes in {location.name} memory (device {device}): " ++
      fault.message
  | range dstOffset srcOffset srcEnd srcSize dstSize =>
    s!"Bad copy between buffers: source range {srcOffset}..{srcEnd} of {srcSize}, " ++
      s!"destination offset {dstOffset} of {dstSize}"
  | shapeMismatch fault => "Shape mismatch: " ++ fault.message
  | internalConsistency fault => "Internal consistency violation: " ++ fault.message
  | doubleFinalize => "Batch already finalized"
  | batchFinalized => "Batch is finalized; no further inputs or outputs can be requested"
  | emptyBatch => "Batch contains no requests"
  | batchTooLarge count maximum => s!"Batch too large: {count} requests, maximum {maximum}"
  | missingInput input none => "Input not found: " ++ input
  | missingInput input (some request) => s!"Input not found: {input} (request {request})"
  | duplicateOutput output => "Output already requested: " ++ output
  | notHostAccessible location => s!"Buffer in {location.name} memory is not host accessible"
  | platform fault => "Platform operation failed: " ++ fault.message
  | config fault => "Invalid configuration: " ++ fault.message

/-- The class of an error. -/
def kind : Error → ErrorKind
  | allocation .. => .allocation
  | range .. => .range
  | shapeMismatch _ => .shapeMismatch
  | internalConsistency _ => .internalConsistency
  | doubleFinalize => .doubleFinalize
  | batchFinalized | emptyBatch | batchTooLarge .. | missingInput .. | duplicateOutput _
  | notHostAccessible _ | config _ => .invalidRequest
  | platform _ => .platform

/-- The error comes from misuse by the calling code, not from the data of a request. -/
def isProgrammingError : Error → Bool
  | range .. | doubleFinalize | batchFinalized | duplicateOutput _ | notHostAccessible _ => true
  | _ => false

end Error

end DeviceBatch
