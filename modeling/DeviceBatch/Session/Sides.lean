import DeviceBatch.Session.Reply

/-!
# Commands on the sides of the exchange

The gathering and the scattering side used directly, without a batch. They work on all requests of
the session; the scattering side delivers to responses that are kept in the session.
-/

namespace DeviceBatch

/-- A command on a side of the exchange. -/
inductive SideCommand where
  /-- Gets a gathering side ready, in place of the one before. -/
  | openGather (pinned : Bool) (stream : Stream)
  | collect (query : InputQuery)
  | closeGather
  /-- Gets a scattering side ready, with a fresh response to each request. -/
  | openScatter (pinned : Bool) (maximum : Nat) (stream : Stream)
  /-- Scatters the data of a buffer as an output of that name and shape. -/
  | process (place : Place) (name : String) (shape : Shape) (elementSize : Option Nat)
      (withoutData : Bool)
  | finishScatter
  deriving DecidableEq, Repr

namespace SideCommand

open Session

/-- Gives back what the gathering side holds. -/
def dropGather (s : Session) : Session :=
  match s.gather with
  | none => s
  | some gather => { s with machine := gather.close s.machine, gather := none }

/-- An action on the gathering side. -/
def onGather {α : Type} (act : Action (Machine × Local.Gather) α) : Action Session α := do
  match (← get).gather with
  | none => throw (.internalConsistency (.unknownName "collector"))
  | some gather =>
    act.within (fun s => (s.machine, gather)) fun (machine, gather) s =>
      { s with machine, gather := some gather }

/-- An action on the scattering side and the kept responses. -/
def onScatter {α : Type} (act : Action (Machine × Local.Scatter × List Local.Response) α) :
    Action Session α := do
  match (← get).scatter with
  | none => throw (.internalConsistency (.unknownName "responder"))
  | some scatter =>
    act.within (fun s => (s.machine, scatter, s.kept)) fun (machine, scatter, kept) s =>
      { s with machine, scatter := some scatter, kept }

/-- The view of a buffer as an output of that name and shape. -/
def viewOf (b : Buffer) (name : String) (shape : Shape) (elementSize : Option Nat)
    (withoutData : Bool) : OutputView where
  name := name
  shape := shape
  dtype := b.dtype
  elementSize := elementSize.getD b.dtype.width
  data := if withoutData then none else some b.data
  byteSize := b.byteSize
  location := b.location
  device := b.device
  stream := b.stream

/-- Performs a command. -/
def run : SideCommand → Action Session Reply
  | openGather pinned stream => do
    Action.change fun s => { dropGather s with gather := some { pinned, stream } }
    return .done
  | collect query => do
    let requests := (← get).requests
    onGather fun p =>
      let (outcome, m, gather) := Action.outcome (Local.Gather.collect requests query) p
      .ok (.collected outcome gather.staging.length) (m, gather)
  | closeGather => do
    Action.change dropGather
    return .done
  | openScatter pinned maximum stream => do
    Action.change fun s =>
      { s with
        machine := s.kept.foldl (fun m r => r.release m) s.machine
        kept := s.requests.map .empty
        scatter := some { pinned, maximum, stream } }
    return .count (← get).kept.length
  | process place name shape elementSize withoutData => do
    let b ← bufferAt place
    let requests := (← get).requests
    onScatter (Local.Scatter.process requests (viewOf b name shape elementSize withoutData))
    return .done
  | finishScatter => return .flag (← onScatter Local.Scatter.finish)

end SideCommand

end DeviceBatch
