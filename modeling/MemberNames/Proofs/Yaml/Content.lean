import MemberNames.Proofs.Yaml.Layout
import MemberNames.Yaml.Content

/-!
# The nodes of plain documents

The tokens of a plain document are read as the map of its entries. A list without items has no
tokens, so that in its place there is the absent node.

* `Yaml.Entry.node`: an entry as nodes
* `Yaml.Content.bareItems?_words`, `Yaml.Content.blockEntries?_entries`: lists and maps
* `Yaml.document?_render`: plain documents are read as what they are made of
-/

namespace MemberNames
namespace Yaml

/-! ## Nodes -/

def Word.node (w : Word) : Node :=
  .scalar .none true w.text

def Value.node : Value → Node
  | .word w => w.node
  | .list [] => .absent
  | .list (w :: ws) => .list .none ((w :: ws).map Word.node)

def Entry.node (e : Entry) : Node × Node :=
  (e.key.node, e.value.node)

namespace Content

variable {handles : Handles} {bound : Nat} {numbers : List (Text × Nat)} {tokens rest : List Token}

/-! ## Lists -/

theorem part?_word {ends : Option Token → Bool} (w : Word) (h : ends (some w.scalar) = false)
    (block bare : Bool) (rest : List Token) :
    part? handles (bound + 2) ends block bare ⟨w.scalar :: rest, numbers⟩ =
      some (w.node, ⟨rest, numbers⟩) := by
  rw [part?, next?, List.head?_cons, h]
  rfl

/-- What ends a value in a block map. -/
def IsNextPart (rest : List Token) : Prop :=
  rest.head? = some .key ∨ rest.head? = some .blockEnd

theorem endsBlockPart_of_isNextPart (h : IsNextPart rest) : endsBlockPart rest.head? := by
  rcases h with hKey | hEnd
  · rw [hKey]
    rfl
  · rw [hEnd]
    rfl

theorem bareItems?_words (ws : List Word) (hRest : IsNextPart rest)
    (hBound : ws.length + 2 < bound) :
    bareItems? handles bound ⟨ws.flatMap Word.itemTokens ++ rest, numbers⟩ =
      some (ws.map Word.node, ⟨rest, numbers⟩) := by
  induction ws generalizing bound with
  | nil =>
      obtain ⟨bound, rfl⟩ : ∃ b, bound = b + 1 := ⟨bound - 1, by omega⟩
      rcases hRest with hKey | hEnd
      · simp [bareItems?, next?, hKey]
      · simp [bareItems?, next?, hEnd]
  | cons w ws ih =>
      rw [List.length_cons] at hBound
      obtain ⟨bound, rfl⟩ : ∃ b, bound = b + 3 := ⟨bound - 3, by omega⟩
      have hItem : part? handles (bound + 2) endsBareItem true false
          ⟨w.scalar :: (ws.flatMap Word.itemTokens ++ rest), numbers⟩ = some _ :=
        part?_word w rfl true false _
      have hItems : bareItems? handles (bound + 2)
          ⟨ws.flatMap Word.itemTokens ++ rest, numbers⟩ = _ := ih (by omega)
      rw [bareItems?, List.flatMap_cons, Word.itemTokens]
      simp [next?, drop, hItem, hItems]

/-- In place of a value, a list needs no start of its own. -/
theorem node?_dash {items : List Node} {c : Content} (block : Bool)
    (h : bareItems? handles bound ⟨.dash :: tokens, numbers⟩ = some (items, c)) :
    node? handles (bound + 1) block true ⟨.dash :: tokens, numbers⟩ =
      some (.list .none items, c) := by
  have hNode : node? handles (bound + 1) block true ⟨.dash :: tokens, numbers⟩ =
      (bareItems? handles bound ⟨.dash :: tokens, numbers⟩ >>= fun found =>
        pure (.list .none found.1, found.2)) := rfl
  rw [hNode, h]
  rfl

/-! ## Maps -/

theorem part?_value (v : Value) (hRest : IsNextPart rest) (hBound : v.tokens.length + 2 < bound) :
    part? handles (bound + 2) endsBlockPart true true ⟨v.tokens ++ rest, numbers⟩ =
      some (v.node, ⟨rest, numbers⟩) := by
  cases v with
  | word w => exact part?_word w rfl true true rest
  | list ws =>
      cases ws with
      | nil =>
          have hEnds : endsBlockPart (⟨rest, numbers⟩ : Content).next? :=
            endsBlockPart_of_isNextPart hRest
          have hNone : (Value.list []).tokens ++ rest = rest := rfl
          rw [hNone, part?, if_pos hEnds]
          rfl
      | cons w ws =>
          have hCount : (w :: ws).length ≤ (Value.list (w :: ws)).tokens.length := by
            simp [Value.tokens, Word.itemTokens]
            omega
          have hItems : bareItems? handles bound
              ⟨(w :: ws).flatMap Word.itemTokens ++ rest, numbers⟩ = _ :=
            bareItems?_words (w :: ws) hRest (by omega)
          rw [part?]
          exact node?_dash true hItems

theorem value?_eq (v : Value) (hRest : IsNextPart rest) (hBound : v.tokens.length + 2 < bound) :
    value? handles (bound + 3) endsBlockPart true ⟨.value :: (v.tokens ++ rest), numbers⟩ =
      some (v.node, ⟨rest, numbers⟩) := by
  rw [value?]
  exact part?_value v hRest hBound

theorem blockEntries?_entries (es : List Entry)
    (hBound : (es.flatMap Entry.tokens).length + 5 < bound) :
    blockEntries? handles bound ⟨es.flatMap Entry.tokens ++ .blockEnd :: rest, numbers⟩ =
      some (es.map Entry.node, ⟨rest, numbers⟩) := by
  induction es generalizing bound with
  | nil =>
      obtain ⟨bound, rfl⟩ : ∃ b, bound = b + 1 := ⟨bound - 1, by omega⟩
      rfl
  | cons e es ih =>
      have hLength : ((e :: es).flatMap Entry.tokens).length =
          e.value.tokens.length + 3 + (es.flatMap Entry.tokens).length := by
        rw [List.flatMap_cons, List.length_append, Entry.tokens]
        rfl
      obtain ⟨bound, rfl⟩ : ∃ b, bound = b + 4 := ⟨bound - 4, by omega⟩
      have hNext : IsNextPart (es.flatMap Entry.tokens ++ .blockEnd :: rest) := by
        cases es with
        | nil => exact .inr rfl
        | cons e es => exact .inl rfl
      have hKey : part? handles (bound + 3) endsBlockPart true true ⟨e.key.scalar :: .value ::
          (e.value.tokens ++ (es.flatMap Entry.tokens ++ .blockEnd :: rest)), numbers⟩ = some _ :=
        part?_word e.key rfl true true _
      have hValue : value? handles (bound + 3) endsBlockPart true
          ⟨.value :: (e.value.tokens ++ (es.flatMap Entry.tokens ++ .blockEnd :: rest)), numbers⟩ =
            _ :=
        value?_eq e.value hNext (by omega)
      have hEntries : blockEntries? handles (bound + 3)
          ⟨es.flatMap Entry.tokens ++ .blockEnd :: rest, numbers⟩ = _ := ih (by omega)
      rw [List.flatMap_cons, Entry.tokens, blockEntries?]
      simp [next?, drop, hKey, hValue, hEntries, Entry.node]

end Content

/-! ## Documents -/

theorem ofTokens?_entries (es : List Entry) :
    Node.ofTokens? (.blockMapStart :: (es.flatMap Entry.tokens ++ [.blockEnd])) =
      some (.map .none (es.map Entry.node)) := by
  let tokens : List Token := es.flatMap Entry.tokens ++ [.blockEnd]
  have hBound : (es.flatMap Entry.tokens).length + 5 < 4 * (tokens.length + 1) + 3 := by
    rw [List.length_append, List.length_singleton]
    omega
  have hRoot : Content.root? (.blockMapStart :: tokens) =
      (Content.blockEntries? Handles.standard (4 * (tokens.length + 1) + 3) ⟨tokens, []⟩ >>=
        fun found => pure (.map .none found.1, found.2)) := rfl
  have hEntries : Content.blockEntries? Handles.standard (4 * (tokens.length + 1) + 3)
      ⟨tokens, []⟩ = some (es.map Entry.node, ⟨[], []⟩) :=
    Content.blockEntries?_entries es hBound
  rw [Node.ofTokens?, hRoot, hEntries]
  rfl

/-- A plain document is read as the map of its entries. -/
theorem document?_render {es : List Entry} (hEntries : es ≠ []) :
    document? (es.flatMap Entry.render) = some (.map .none (es.map Entry.node)) := by
  rw [document?, tokens?_render hEntries]
  exact ofTokens?_entries es

end Yaml
end MemberNames
