import Backbox.Settings.Form
import Backbox.Yaml.Stream

/-!
# Settings from a text

Settings are written as one YAML document, and are checked once they are read.
-/

namespace Backbox.Settings

/-- The origin that is named for settings that come from no file. -/
def inlineOrigin : String := "<inline>"

/-- Reads settings from a document and checks them. -/
def load (origin : String) (d : Option Document) : Except SettingsFault Settings :=
  match d.bind ofDocument? with
  | none => .error (.unparsable origin)
  | some s => s.validate.map fun _ => s

/-- Reads settings from a text and checks them. -/
def ofYaml (origin text : String) : Except SettingsFault Settings :=
  load origin (Yaml.document text)

end Backbox.Settings
