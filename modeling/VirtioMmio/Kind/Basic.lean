import VirtioMmio.Kind.Block
import VirtioMmio.Kind.Console
import VirtioMmio.Kind.Net
import VirtioMmio.Kind.Socket

/-!
The device types a machine can be given, each with its settings.
-/

namespace VirtioMmio

inductive Kind where
  | block (settings : Kind.Block)
  | net (settings : Kind.Net)
  | socket (settings : Kind.Socket)
  | console (settings : Kind.Console)
  deriving DecidableEq, Repr

def Kind.profile : Kind → Device.Profile
  | .block settings => settings.profile
  | .net settings => settings.profile
  | .socket settings => settings.profile
  | .console settings => settings.profile

end VirtioMmio
