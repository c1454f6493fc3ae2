import DeviceBatch.Error
import DeviceBatch.Stream

/-!
# Events

What the library reports while it works. An event is what happened, with its values; `level`,
`message` and `fields` give the form in which it is logged. A batch also has a span, which is opened
with the batch and gets its outcome recorded when the batch is finalized.
-/

namespace DeviceBatch

/-- The severity of an event. -/
inductive Level where
  | trace
  | debug
  | info
  | warn
  deriving DecidableEq, Repr

/-- What is recorded into the span of a batch. -/
inductive SpanRecord where
  | succeeded
  | failed
  | errorMessage (error : Error)
  | synchronized (waited : Bool)
  deriving DecidableEq, Repr

/-- What happened. -/
inductive Event where
  | allocatedBuffer (elements : Nat) (dtype : ElementType) (location : Location) (device : Nat)
  | releaseFailed (error : Error) (bytes : Nat) (location : Location)
  | bufferCopy (kind : CopyKind) (bytes : Nat) (stream : Stream)
  | reboundStream (old new : Stream)
  | drainedStream (stream : Stream) (pending : Nat)
  | collectedInput (input : String) (shape : Shape) (bytes : Nat) (location : Location)
  | allocatedOutput (output : String) (shape : Shape) (location : Location)
  | openedSpan (requests : Nat) (stream : Stream)
  | openedBatch (platform : String)
  | spanRecord (entry : SpanRecord)
  | finalizedBatch (outputs : Nat) (synchronized : Bool)
  | finalizeFailed (error : Error)
  | gatheringOnHost (input : String)
  | inputInPlace (input : String)
  | gatheredInput (input : String) (parts bytes : Nat) (pinned : Bool)
  | scatteredOutput (output : String) (requests : Nat) (pinned : Bool)
  deriving DecidableEq, Repr

/-- The word for a truth value. -/
def Event.flag (b : Bool) : String := if b then "true" else "false"

namespace SpanRecord

/-- The field that is recorded, and its text. -/
def field : SpanRecord → String × String
  | succeeded => ("status", "ok")
  | failed => ("status", "error")
  | errorMessage error => ("error.message", error.message)
  | synchronized waited => ("synchronized", Event.flag waited)

end SpanRecord

namespace Level

def name : Level → String
  | trace => "TRACE"
  | debug => "DEBUG"
  | info => "INFO"
  | warn => "WARN"

end Level

namespace Event

/-- The severity and the message of an event; none for the span of a batch and its records. -/
def headline? : Event → Option (Level × String)
  | allocatedBuffer .. => some (.trace, "allocated buffer")
  | releaseFailed .. => some (.warn, "failed to release buffer storage")
  | bufferCopy .. => some (.trace, "buffer copy")
  | reboundStream .. => some (.debug, "rebinding buffer stream")
  | drainedStream .. => some (.trace, "draining simulated stream")
  | collectedInput .. => some (.debug, "collected batch input")
  | allocatedOutput .. => some (.debug, "allocated batch output")
  | openedBatch _ => some (.debug, "batch opened")
  | finalizedBatch .. => some (.info, "batch finalized")
  | finalizeFailed _ => some (.warn, "batch finalize failed")
  | gatheringOnHost _ => some (.debug, "no device memory, collecting on host")
  | inputInPlace _ => some (.debug, "zero-copy input")
  | gatheredInput .. => some (.debug, "gathered input")
  | scatteredOutput .. => some (.trace, "scattered output")
  | openedSpan .. | spanRecord _ => none

/-- The values of an event, each as text under the name of its field. -/
def fields : Event → List (String × String)
  | allocatedBuffer elements dtype location device =>
    [("elements", toString elements), ("dtype", dtype.name), ("location", location.name),
      ("device_id", toString device)]
  | releaseFailed error bytes location =>
    [("error", error.message), ("bytes", toString bytes), ("location", location.name)]
  | bufferCopy kind bytes stream =>
    [("kind", kind.label), ("bytes", toString bytes), ("stream", stream.label)]
  | reboundStream old new => [("from", old.label), ("to", new.label)]
  | drainedStream stream pending => [("stream", stream.label), ("pending", toString pending)]
  | collectedInput input shape bytes location =>
    [("input", input), ("shape", shape.text), ("bytes", toString bytes),
      ("location", location.name)]
  | allocatedOutput output shape location =>
    [("output", output), ("shape", shape.text), ("location", location.name)]
  | openedSpan requests stream =>
    [("request_count", toString requests), ("stream", toString stream.id)]
  | openedBatch platform => [("platform", platform)]
  | spanRecord entry => [entry.field]
  | finalizedBatch outputs synchronized =>
    [("outputs", toString outputs), ("synchronized", flag synchronized)]
  | finalizeFailed error => [("error", error.message)]
  | gatheringOnHost input | inputInPlace input => [("input", input)]
  | gatheredInput input parts bytes pinned =>
    [("input", input), ("parts", toString parts), ("bytes", toString bytes),
      ("pinned", flag pinned)]
  | scatteredOutput output requests pinned =>
    [("output", output), ("requests", toString requests), ("pinned", flag pinned)]

end Event

end DeviceBatch
