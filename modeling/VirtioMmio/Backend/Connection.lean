import VirtioMmio.Backend.Call
import VirtioMmio.Dma.Error

/-!
The way from a device to its backend. Once the backend was told to shut down, nothing but
announcements of mappings and the teardown of an IOMMU reaches it any more. Every operation gives
the calls it makes; those the backend may refuse also take its answer and give the outcome.
-/

namespace VirtioMmio.Backend

structure Connection where
  isShutDown : Bool := false
  deriving DecidableEq, Repr

namespace Connection

/-- Pass a call on, unless the backend was shut down. -/
def unlessShutDown (c : Connection) (call : BackendCall) : List BackendCall :=
  if c.isShutDown then [] else [call]

def notify (c : Connection) (queue : UInt16) : List BackendCall :=
  c.unlessShutDown (.notify queue)

def reset (c : Connection) : List BackendCall :=
  c.unlessShutDown .reset

/-- Shut the backend down, the first time only. -/
def shutdown (c : Connection) : Connection × List BackendCall :=
  (⟨true⟩, c.unlessShutDown .shutdown)

/-- Announce an IOMMU. A backend that was shut down is not asked and refuses. -/
def attach (c : Connection) (answer : Except IommuError Unit) :
    List BackendCall × Except IommuError Unit :=
  if c.isShutDown then ([], .error .attachFailed) else ([.attach], answer)

def detach (_ : Connection) : List BackendCall :=
  [.detach]

/-- Announce a mapping that is about to become active. -/
def map (_ : Connection) (cls : UInt16) (mapping : Dma.Mapping) (answer : Except IommuError Unit) :
    List BackendCall × Except IommuError Unit :=
  ([.map cls mapping], answer)

def unmap (_ : Connection) (cls : UInt16) (mapping : Dma.Mapping) : List BackendCall :=
  [.unmap cls mapping]

end Connection

end VirtioMmio.Backend
