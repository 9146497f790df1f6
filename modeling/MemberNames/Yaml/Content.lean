import MemberNames.Yaml.Layout
import MemberNames.Yaml.Node

/-!
# The nodes that YAML tokens spell

Every reader takes a bound on the number of nested steps, which the number of tokens gives. The
theory below covers plain documents, maps of words and of block lists of words, which are read as
what they are made of. Quoted and folded scalars, flow collections, tags and anchors are read here
as well, but nothing is proved of them; configurations are specified over nodes.

* `Yaml.Content`: the tokens that are left
* `Yaml.Content.node?`: the node that starts there
* `Yaml.Content.document?`: the node of all tokens
-/

namespace MemberNames
namespace Yaml

/-- The tokens that are left of a document, and the numbers of the anchors in front of them. -/
structure Content where
  tokens : List Token
  numbers : List (Text × Nat)

namespace Content

def next? (c : Content) : Option Token :=
  c.tokens.head?

def drop (c : Content) : Content :=
  { c with tokens := c.tokens.drop 1 }

/-- Gives an anchor its number, which is the number of different names in front of it. A name that
is used again thus moves to another number, and the next new name shares that one. -/
def number (c : Content) (name : Text) : Nat × Content :=
  let n := c.numbers.length
  (n, { c with numbers := (name, n) :: c.numbers.filter (·.1 ≠ name) })

/-- Splits an anchor and a tag off the tokens, each at most once and in any order. -/
def splitProperties : List Token → Option Text × Option Tag × List Token
  | .anchor name :: .tag t :: tokens => (some name, some t, tokens)
  | .tag t :: .anchor name :: tokens => (some name, some t, tokens)
  | .anchor name :: tokens => (some name, none, tokens)
  | .tag t :: tokens => (none, some t, tokens)
  | tokens => (none, none, tokens)

/-- Reads the properties of a node. -/
def properties? (handles : Handles) (c : Content) : Option (Properties × Content) := do
  let (name, tag, tokens) := splitProperties c.tokens
  let tag ←
    match tag with
    | none => some none
    | some tag => (tag.resolve? handles).map some
  let c := { c with tokens := tokens }
  match name with
  | none => return (⟨none, tag⟩, c)
  | some name =>
    let (n, c) := c.number name
    return (⟨some n, tag⟩, c)

/-! ## Nodes -/

/-- Whether no item of a block list stands in front of the token. -/
def endsItem : Option Token → Bool
  | some .dash | some .blockEnd => true
  | _ => false

/-- Whether no item stands in front of the token, in a block list without a start and an end of its
own. -/
def endsBareItem : Option Token → Bool
  | some .dash | some .key | some .value | some .blockEnd => true
  | _ => false

/-- Whether no key and no value of a block map stands in front of the token. -/
def endsBlockPart : Option Token → Bool
  | some .key | some .value | some .blockEnd => true
  | _ => false

/-- Whether no key and no value of a flow collection stands in front of the token. -/
def endsFlowPart : Option Token → Bool
  | some .value | some .comma | some .flowListEnd | some .flowMapEnd => true
  | _ => false

section

variable (handles : Handles)

mutual

/-- Reads a node. Block collections start only in a block, and there a list may have no start of
its own if it is `bare`, that is a key or a value of a map. -/
def node? (bound : Nat) (block bare : Bool) (c : Content) : Option (Node × Content) :=
  match bound with
  | 0 => none
  | bound + 1 =>
    match c.next? with
    | some (.alias name) => do
      let number ← c.numbers.lookup name
      return (.alias number, c.drop)
    | _ => do
      let (props, c) ← c.properties? handles
      match c.next? with
      | some .dash =>
        if bare then do
          let (items, c) ← bareItems? bound c
          return (.list props items, c)
        else if props.isNone then none
        else return (.scalar props true [], c)
      | some (.scalar plain text) => return (.scalar props plain text, c.drop)
      | some .flowListStart => do
        let (items, c) ← flowItems? bound true c.drop
        return (.list props items, c)
      | some .flowMapStart => do
        let (entries, c) ← flowEntries? bound true c.drop
        return (.map props entries, c)
      | next =>
        if block && next matches some .blockListStart then do
          let (items, c) ← blockItems? bound c.drop
          return (.list props items, c)
        else if block && next matches some .blockMapStart then do
          let (entries, c) ← blockEntries? bound c.drop
          return (.map props entries, c)
        else if props.isNone then none
        else return (.scalar props true [], c)

/-- Reads a node unless it is missing in front of the next token. -/
def part? (bound : Nat) (ends : Option Token → Bool) (block bare : Bool) (c : Content) :
    Option (Node × Content) :=
  match bound with
  | 0 => none
  | bound + 1 => if ends c.next? then some (.absent, c) else node? bound block bare c

/-- Reads the items of a block list and its end. -/
def blockItems? (bound : Nat) (c : Content) : Option (List Node × Content) :=
  match bound with
  | 0 => none
  | bound + 1 =>
    match c.next? with
    | some .dash => do
      let (item, c) ← part? bound endsItem true false c.drop
      let (items, c) ← blockItems? bound c
      return (item :: items, c)
    | some .blockEnd => some ([], c.drop)
    | _ => none

/-- Reads the items of a block list that the map around it ends. -/
def bareItems? (bound : Nat) (c : Content) : Option (List Node × Content) :=
  match bound with
  | 0 => none
  | bound + 1 =>
    match c.next? with
    | some .dash => do
      let (item, c) ← part? bound endsBareItem true false c.drop
      let (items, c) ← bareItems? bound c
      return (item :: items, c)
    | _ => some ([], c)

/-- Reads the value behind a key; without a colon there is none. -/
def value? (bound : Nat) (ends : Option Token → Bool) (block : Bool) (c : Content) :
    Option (Node × Content) :=
  match bound with
  | 0 => none
  | bound + 1 =>
    match c.next? with
    | some .value => part? bound ends block block c.drop
    | _ => some (.absent, c)

/-- Reads the entries of a block map and its end. -/
def blockEntries? (bound : Nat) (c : Content) : Option (List (Node × Node) × Content) :=
  match bound with
  | 0 => none
  | bound + 1 =>
    match c.next? with
    | some .key => do
      let (key, c) ← part? bound endsBlockPart true true c.drop
      let (value, c) ← value? bound endsBlockPart true c
      let (entries, c) ← blockEntries? bound c
      return ((key, value) :: entries, c)
    | some .blockEnd => some ([], c.drop)
    | _ => none

/-- Reads the items of a flow list and its end. A key in it makes a map of one entry. -/
def flowItems? (bound : Nat) (first : Bool) (c : Content) : Option (List Node × Content) :=
  match bound with
  | 0 => none
  | bound + 1 =>
    if c.next? matches some .flowListEnd then some ([], c.drop)
    else if !first && !(c.next? matches some .comma) then none
    else
      let c := if first then c else c.drop
      match c.next? with
      | some .flowListEnd => some ([], c.drop)
      | some .key => do
        let (key, c) ← part? bound endsFlowPart false false c.drop
        let (value, c) ← value? bound endsFlowPart false c
        let (items, c) ← flowItems? bound false c
        return (.map .none [(key, value)] :: items, c)
      | _ => do
        let (item, c) ← node? bound false false c
        let (items, c) ← flowItems? bound false c
        return (item :: items, c)

/-- Reads the entries of a flow map and its end. A node that is no key has no value. -/
def flowEntries? (bound : Nat) (first : Bool) (c : Content) :
    Option (List (Node × Node) × Content) :=
  match bound with
  | 0 => none
  | bound + 1 =>
    if c.next? matches some .flowMapEnd then some ([], c.drop)
    else if !first && !(c.next? matches some .comma) then none
    else
      let c := if first then c else c.drop
      match c.next? with
      | some .flowMapEnd => some ([], c.drop)
      | some .key => do
        let (key, c) ← part? bound endsFlowPart false false c.drop
        let (value, c) ← value? bound endsFlowPart false c
        let (entries, c) ← flowEntries? bound false c
        return ((key, value) :: entries, c)
      | _ => do
        let (key, c) ← node? bound false false c
        let (entries, c) ← flowEntries? bound false c
        return ((key, .absent) :: entries, c)

end

end

/-! ## Documents -/

/-- Splits the directives off the tokens. -/
def splitDirectives : List Token → List Directive × List Token
  | .directive d :: tokens =>
    let (ds, tokens) := splitDirectives tokens
    (d :: ds, tokens)
  | tokens => ([], tokens)

/-- Whether no node stands in front of the token between documents. -/
def endsDocument : Option Token → Bool
  | none | some (.directive _) | some .documentStart | some .documentEnd => true
  | _ => false

/-- Reads the node of a document up to the markers that end it. Directives have to be followed by
the marker that starts the document, behind which there may be nothing. -/
def root? (tokens : List Token) : Option (Node × Content) := do
  let (directives, rest) := splitDirectives tokens
  let handles ← Handles.ofDirectives? directives
  let bound := 4 * tokens.length + 4
  match rest with
  | .documentStart :: rest => part? handles bound endsDocument true false ⟨rest, []⟩
  | [] => if directives.isEmpty then return (.absent, ⟨[], []⟩) else none
  | _ => if directives.isEmpty then node? handles bound true false ⟨rest, []⟩ else none

end Content

/-- The node of the tokens of at most one document. Nothing but markers may follow it. -/
def Node.ofTokens? (tokens : List Token) : Option Node := do
  let (node, c) ← Content.root? tokens
  if c.tokens.all (· matches .documentEnd) then return node else none

/-- The node of a text that holds at most one document. -/
def document? (s : Text) : Option Node := do
  Node.ofTokens? (← tokens? s)

end Yaml
end MemberNames
