import CrateAtlas.Yaml.Parser
import CrateAtlas.Yaml.Printer

/-!
YAML as a format for documents.
-/

namespace CrateAtlas

def Yaml.format : Json.Format where
  print := print
  parse text := (parse text).mapError Fault.message

end CrateAtlas
