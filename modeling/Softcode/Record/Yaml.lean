import Softcode.Record.Source
import Softcode.Yaml.Node
import Softcode.Yaml.Word

/-!
# Records in YAML

Any scalar is a text, whatever it looks like; flags and numbers have to be plain. A node that is
left out is a record without members or a list without items.
-/

namespace Softcode

namespace Yaml.Node

/-- The text of a scalar. -/
def text? : Node → Option String
  | .scalar _ text => some text
  | _ => none

/-- The text of a plain scalar. -/
def plain? : Node → Option String
  | .scalar true text => some text
  | _ => none

end Yaml.Node

instance : Source Yaml.Node where
  text? := Yaml.Node.text?
  flag? node := node.plain?.bind Yaml.flag?
  natural? node := node.plain?.bind Yaml.natural?
  real? node := node.plain?.bind Yaml.real?
  list?
    | .sequence items => some items
    | .scalar true "" => some []
    | _ => none
  members? _
    | .mapping members => members.mapM fun (key, value) => key.text?.map fun name => (name, value)
    | .scalar true "" => some []
    | _ => none
  isAbsent node := node.plain?.any fun text => text.isEmpty || Yaml.isNull text
  choice? := Yaml.Node.text?

end Softcode
