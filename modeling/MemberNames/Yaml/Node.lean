import MemberNames.Yaml.Token

/-!
# YAML nodes

* `Yaml.Node`: the tree that a document denotes
* `Yaml.Node.resolve?`: the node that an alias stands for
-/

namespace MemberNames
namespace Yaml

/-- What may stand in front of a node: the number of its anchor and its tag. -/
structure Properties where
  anchor : Option Nat
  tag : Option Octets
  deriving Repr

namespace Properties

def none : Properties :=
  ⟨.none, .none⟩

def isNone (props : Properties) : Bool :=
  props.anchor.isNone && props.tag.isNone

/-- The name that a local tag gives, which is what follows an exclamation mark. -/
def localName? (props : Properties) : Option Text :=
  match props.tag with
  | some (b :: bs) => if b = '!'.toUInt8 then Utf8.decode? bs else .none
  | _ => .none

end Properties

/-- A node of a document. -/
inductive Node where
  /-- A reference to the node whose anchor has the number. -/
  | alias (anchor : Nat)
  /-- A scalar, and whether it is written without quotes and indicators. -/
  | scalar (props : Properties) (plain : Bool) (text : Text)
  | list (props : Properties) (items : List Node)
  | map (props : Properties) (entries : List (Node × Node))
  deriving Repr

namespace Node

/-- The node of a place where nothing is written. -/
def absent : Node :=
  .scalar .none true []

/-! ## Aliases -/

/-- The node with the number of its anchor, if it has one. -/
def own (props : Properties) (node : Node) : List (Nat × Node) :=
  props.anchor.toList.map fun number => (number, node)

mutual

/-- The nodes that have an anchor, with its number, in the order in which they start. -/
def anchored : Node → List (Nat × Node)
  | .alias _ => []
  | .scalar props plain text => own props (.scalar props plain text)
  | .list props items => own props (.list props items) ++ anchoredItems items
  | .map props entries => own props (.map props entries) ++ anchoredEntries entries

def anchoredItems : List Node → List (Nat × Node)
  | [] => []
  | item :: items => anchored item ++ anchoredItems items

def anchoredEntries : List (Node × Node) → List (Nat × Node)
  | [] => []
  | (key, value) :: entries => anchored key ++ anchored value ++ anchoredEntries entries

end

/-- The node that an alias in a document stands for. If several nodes have its number, it is the
one that starts last. Every other node stands for itself. -/
def resolve? (document : Node) : Node → Option Node
  | .alias number => document.anchored.reverse.lookup number
  | node => some node

end Node
end Yaml
end MemberNames
