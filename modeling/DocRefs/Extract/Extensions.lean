import DocRefs.Config
import DocRefs.Extract.Decoded
import DocRefs.Extract.Provenance

/-!
# Extensions

The entries of a mapping whose keys begin with the mark of extensions, decoded, in document order.
-/
namespace DocRefs

namespace Node

/-- The extensions of a mapping under a mark. -/
def extensionsMarked (n : Node) (mark : String) :
    OrderedMap (FromKey String) (FromNode Decoded) :=
  let kept := n.content.effectivePairs.filter fun (key, _) => isMarkedKey mark key.text
  OrderedMap.ofList <| kept.map fun (key, value) =>
    let value := value.resolveAlias
    ({ value := key.text, node := some key }, { value := Decoded.ofNode value, node := some value })

/-- The extensions of a mapping under the mark that is usual. -/
def extensions (n : Node) : OrderedMap (FromKey String) (FromNode Decoded) :=
  n.extensionsMarked ({} : Config).extensionPrefix

end Node

end DocRefs
