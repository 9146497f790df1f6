import MemberNames.Proofs.Attribute
import MemberNames.Proofs.Name.Structure
import MemberNames.Proofs.Rdn.Decompose

/-!
# Elements in text and in principals

A type and an element for its value can be written as text, with the dotted identifier and the
hexadecimal digits of the element, or as a set of a principal. The two readers have nothing in
common before the element itself. They find the same pairs all the same, or the same first defect,
and therefore the same name or the same error.

* `ElementPair`: a type, an element and its digits
* `ElementPair.text`, `ElementPair.principal`: the two forms of a list of them
* `ElementPair.decompose_text`, `ElementPair.rdns_principal`: reading each of them
* `ElementPair.parseWith_text`: both are read alike
-/

namespace MemberNames

/-- A type, a well-formed element of whatever type, and the digits of the element, each of them in
either letter case. -/
structure ElementPair where
  oid : ObjectId
  element : Der.Element
  digits : Text
  representable : oid.IsRepresentable
  complete : element.Complete
  lower_digits : Text.lower digits = Hex.encode element.toOctets

namespace ElementPair

/-! ## Two forms -/

def segment (pair : ElementPair) : Text :=
  pair.oid.toDotted ++ '=' :: '#' :: pair.digits

/-- The segments of the pairs in their order, with a comma between each two. -/
def text (pairs : List ElementPair) : Text :=
  [','].intercalate (pairs.map segment)

def typedValue (pair : ElementPair) : Principal.TypedValue :=
  ⟨pair.oid, pair.oid.toContents, pair.element⟩

/-- The element of the principal that has one set for each pair, in their order. -/
def principal (pairs : List ElementPair) : Der.Element :=
  Principal.sequenceElement (pairs.map fun pair => [pair.typedValue])

/-- What both readers make of a pair. -/
def rdn (pair : ElementPair) : Except Defect Rdn :=
  (Value.ofElement pair.element).map fun v => ⟨pair.oid.toDotted, v⟩

/-! ## Principals -/

theorem isPrincipal {pairs : List ElementPair}
    (h : (principal pairs).toOctets.length ≤ Der.maxLength) :
    Principal.IsPrincipal (principal pairs).toOctets
      (pairs.map fun pair => [pair.typedValue]) := by
  have hForm : pairs.map (fun pair => [pair.typedValue]) =
      (pairs.map typedValue).map fun v => [v] := by
    rw [List.map_map]
    rfl
  rw [principal, hForm] at h ⊢
  apply Principal.isPrincipal_of_values h
  intro v hv
  rcases List.mem_map.1 hv with ⟨pair, -, rfl⟩
  have hOid := ObjectId.ofContents?_toContents_iff.2 pair.representable
  exact ⟨ObjectId.ofContents?_eq_some_iff.1 hOid, pair.complete.known⟩

theorem rdns_principal {pairs : List ElementPair}
    (h : (principal pairs).toOctets.length ≤ Der.maxLength) :
    Principal.rdns (principal pairs).toOctets = (pairs.mapM rdn).mapError .malformed := by
  have hSets : (pairs.map fun pair => [pair.typedValue]).mapM Principal.rdn = pairs.mapM rdn := by
    apply Result.mapM_eq_of_forall₂
    rw [List.forall₂_map_left_iff, List.forall₂_same]
    intro pair _
    rfl
  rw [Principal.rdns_of_isPrincipal (isPrincipal h), hSets]

/-! ## Text -/

theorem denotes_toDotted (pair : ElementPair) :
    AttributeType.Denotes pair.oid.toDotted pair.oid.toDotted := by
  rcases pair.representable.arcs with ⟨first, second, arcs, hArcs, -⟩
  exact .dotted (ObjectId.spellsArcs_toDotted (by simp [hArcs])).isDottedDigits

/-- The digits stand without padding, so that they are read as they are. -/
theorem read_digits (pair : ElementPair) :
    Value.read ('#' :: pair.digits) = Value.ofElement pair.element := by
  have hTrimmed : Text.trimEnd Text.isPadding pair.digits = pair.digits := by
    refine Text.trimEnd_eq_iff.2 ⟨[], (List.append_nil _).symm, List.forall_mem_nil _, ?_⟩
    intro c hc
    have hDigit := Hex.isDigit_of_lower_eq pair.lower_digits (List.mem_of_getLast? hc)
    exact Value.isPadding_of_isDigit hDigit
  rw [Value.read_of_hash rfl, hTrimmed, Value.readHex_of_lower_eq pair.complete pair.lower_digits]

theorem ofSegment_segment (pair : ElementPair) : Rdn.ofSegment pair.segment = pair.rdn := by
  have hSign : '=' ∉ pair.oid.toDotted := by
    intro hMem
    cases pair.denotes_toDotted.isTokenChar hMem
  have hType : AttributeType.read pair.oid.toDotted = .ok pair.oid.toDotted :=
    AttributeType.read_eq_ok_iff.2 ⟨[], _, [], by simp, pair.denotes_toDotted, by simp, by simp⟩
  rw [segment, Rdn.ofSegment_append hSign, hType, read_digits]
  rfl

/-- Nothing in a segment is a separator, a quote or a backslash. -/
theorem spans_segment (pair : ElementPair) : Segment.Spans false pair.segment false := by
  apply Segment.Spans.of_inactive
  intro c hc
  simp only [segment, List.mem_append, List.mem_cons] at hc
  rcases hc with hDotted | rfl | rfl | hDigit
  · exact AttributeType.isActive_of_isTokenChar (pair.denotes_toDotted.isTokenChar hDotted)
  · rfl
  · rfl
  · exact Lexeme.isActive_of_isDigit (Hex.isDigit_of_lower_eq pair.lower_digits hDigit)

theorem pieces_text (pair : ElementPair) (pairs : List ElementPair) :
    Segment.Pieces false (text (pair :: pairs)) ((pair :: pairs).map segment) := by
  have hSpans : ∀ s ∈ (pair :: pairs).map segment, Segment.Spans false s false := by
    intro s hs
    rcases List.mem_map.1 hs with ⟨other, -, rfl⟩
    exact other.spans_segment
  simpa [text, Function.comp_def] using Segment.pieces_intercalate (.nil false) hSpans

/-- The text is cut between the pairs, and each segment is read as its pair. -/
theorem decompose_text (pairs : List ElementPair) :
    Rdn.decompose (text pairs) = pairs.mapM rdn := by
  cases pairs with
  | nil =>
      rfl
  | cons pair pairs =>
      have hPieces := pieces_text pair pairs
      have hSign : '=' ∈ text (pair :: pairs) :=
        hPieces.mem List.mem_cons_self (by simp [segment])
      rw [Rdn.decompose_of_mem hSign, Segment.cutFrom_of_pieces hPieces, Result.ok_bind]
      apply Result.mapM_eq_of_forall₂
      rw [List.forall₂_map_left_iff, List.forall₂_same]
      intro pair _
      exact pair.ofSegment_segment

/-! ## Names -/

/-- Types with elements are read alike from text and from a principal: both give the same name or
the same error, whether the elements are directory strings or not. -/
theorem parseWith_text {pairs : List ElementPair}
    (h : (principal pairs).toOctets.length ≤ Der.maxLength) (rules : Rules) :
    Name.parseWith (text pairs) rules = Name.fromDerWith (principal pairs).toOctets rules := by
  calc
    Name.parseWith (text pairs) rules
        = ((pairs.mapM rdn).mapError .malformed >>= fun rdns => Name.ofRdns rdns rules) := by
      rw [Name.parseWith, decompose_text]
    _ = Name.fromDerWith (principal pairs).toOctets rules := by
      rw [Name.fromDerWith, rdns_principal h]

/-- A number counts before a repeated type, and digits may be in both letter cases. -/
theorem parseWith_text_number :
    let organisation : ElementPair := ⟨⟨[2, 5, 4, 10]⟩, ⟨Der.Tag.utf8String, [0x4A]⟩,
      ['0', 'C', '0', '1', '4', 'a'], ObjectId.ofContents?_toContents_iff.1 rfl,
      ⟨rfl, by decide⟩, rfl⟩
    let number : ElementPair := ⟨⟨[1, 2, 840]⟩, ⟨0x02, [0x01]⟩, ['0', '2', '0', '1', '0', '1'],
      ObjectId.ofContents?_toContents_iff.1 rfl, ⟨rfl, by decide⟩, rfl⟩
    let pairs := [organisation, organisation, number]
    (principal pairs).toOctets.length ≤ Der.maxLength ∧
      Name.parseWith (text pairs) .standard = Name.fromDer (principal pairs).toOctets ∧
        Name.fromDer (principal pairs).toOctets =
          .error (.malformed (.unsupportedValueType 0x02)) := by
  intro organisation number pairs
  have hShort : (principal pairs).toOctets.length ≤ Der.maxLength := by decide
  have hRead : Rdn.decompose (text pairs) = .error (.unsupportedValueType 0x02) :=
    decompose_text pairs
  have hText : Name.parseWith (text pairs) .standard =
      .error (.malformed (.unsupportedValueType 0x02)) := by
    rw [Name.parseWith, hRead]
    rfl
  have hSame := parseWith_text hShort .standard
  exact ⟨hShort, hSame, hSame.symm.trans hText⟩

end ElementPair
end MemberNames
