import Pipework.Definition.Decode
import Pipework.Yaml.Document

/-! Definitions written in YAML. -/

namespace Pipework.Definition

def yamlLevels : Nat := 128

def ofYaml? (s : String) : Option Definition := (Yaml.parse? s).bind (read yamlLevels)

end Pipework.Definition
