import FirstFailure.Process
import FirstFailure.Target.Markup
/-!
# What a command relies on

How YAML is read, how scratch files are named and which of several conversions moves next is not for
a command to say. It does its work whatever these are.
-/

namespace FirstFailure

/-- What a command takes as it is. -/
structure Environment where
  reader : YamlReader
  naming : ScratchNaming
  schedule : Schedule

/-- Plain YAML, serial numbers for new names, and one conversion after the other. -/
def Environment.plain : Environment where
  reader := .plain
  naming := .serial
  schedule := fun _ _ => true

end FirstFailure
