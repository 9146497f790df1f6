import MemberNames.Yaml.Tag

/-!
# YAML tokens

The indentation of a document is spelled out in its tokens: block collections have a start and an
end, and every key is announced.

* `Yaml.Token`: the tokens
-/

namespace MemberNames
namespace Yaml

inductive Token where
  | directive (d : Directive)
  | documentStart
  | documentEnd
  | blockListStart
  | blockMapStart
  | blockEnd
  | flowListStart
  | flowListEnd
  | flowMapStart
  | flowMapEnd
  /-- The dash in front of an item. -/
  | dash
  | comma
  | key
  | value
  | anchor (name : Text)
  | alias (name : Text)
  | tag (t : Tag)
  /-- A scalar, and whether it is written without quotes and indicators. -/
  | scalar (plain : Bool) (text : Text)
  deriving Repr

end Yaml
end MemberNames
