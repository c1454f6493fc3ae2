import DeviceBatch.Batch
import DeviceBatch.Local.Gather
import DeviceBatch.Local.Scatter

/-!
# The exchange in memory

The exchange of requests that store their inputs in memory: the gathering side of `Local.Gather` and
the scattering side of `Local.Scatter`, each acting on its own part of the state.
-/

namespace DeviceBatch.Local

/-- Both sides of the exchange. -/
structure Sides where
  inputs : Gather := {}
  outputs : Scatter := {}

namespace Sides

def onInputs {α : Type} (act : Action (Machine × Gather) α) : Action (Machine × Sides) α :=
  act.within (fun (m, sides) => (m, sides.inputs))
    fun (m, inputs) (_, sides) => (m, { sides with inputs })

def onOutputs {α : Type} (act : Action (Machine × Scatter × List Response) α) :
    Action (Machine × Sides × List Response) α :=
  act.within (fun (m, sides, responses) => (m, sides.outputs, responses))
    fun (m, outputs, responses) (_, sides, _) => (m, { sides with outputs }, responses)

end Sides

/-- Gathering and scattering in memory. -/
def exchange : Exchange Request Response Sides where
  inputShape := Request.inputShape
  createResponse request := .ok (.empty request)
  openInputs pinned stream :=
    Action.change fun (m, sides) => (m, { sides with inputs := { pinned, stream } })
  openOutputs pinned maximum stream :=
    Action.change fun (m, sides) => (m, { sides with outputs := { pinned, maximum, stream } })
  collect requests query := Sides.onInputs (Gather.collect requests query)
  scatter requests output := Sides.onOutputs (Scatter.process requests output)
  finish _ := Sides.onOutputs Scatter.finish
  close sides := sides.inputs.close
  dropResponse := Response.release

/-- A batch of requests in memory. -/
abbrev Batch : Type := DeviceBatch.Batch Request Response Sides

end DeviceBatch.Local
