import Spillway.Filter.KeyFilter
import Spillway.Id

/-!
# Filter descriptors

A descriptor is what a plan says about one filter of a query: its kind and size, the columns it is
computed from and applied to, how many producers contribute to it and how long it may take. A local
filter is resolved within one worker.
-/

namespace Spillway

/-- What a plan says about one filter. The deadline counts in milliseconds from the opening of the
filter. -/
structure FilterDescriptor where
  id : FilterId
  kind : FilterKind
  target : String
  build : String
  producers : Nat
  deadline : Nat
  isLocal : Bool := false
  bloomBytes : Nat
  deriving DecidableEq, Repr

/-- Which filters a query produces. -/
inductive FilterMode where
  | off
  | localOnly
  | everywhere
  deriving DecidableEq, Repr

namespace FilterMode

/-- Name of a mode as it is printed. -/
def name : FilterMode → String
  | off => "OFF"
  | localOnly => "LOCAL"
  | everywhere => "GLOBAL"

/-- Reads the name of a mode; blanks around it and the case of its letters do not matter. Failure is
described by a message. -/
def parse (text : String) : Except String FilterMode :=
  let wanted := Text.upper (Text.trim text)
  if wanted = "OFF" then .ok off
  else if wanted = "LOCAL" then .ok localOnly
  else if wanted = "GLOBAL" then .ok everywhere
  else .error ("unknown runtime filter mode: " ++ wanted)

/-- Whether a query of this mode produces the filter. -/
def allows (mode : FilterMode) (descriptor : FilterDescriptor) : Bool :=
  match mode with
  | off => false
  | localOnly => descriptor.isLocal
  | everywhere => true

end FilterMode

end Spillway
