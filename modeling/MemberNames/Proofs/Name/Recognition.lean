import MemberNames.Proofs.Name.Reencoding

/-!
# Which identifiers principals may have

A principal is read as a name only if each of its identifiers is that of an attribute. Identifiers
are not compared in octets: they are read as arcs, printed and looked up as text. This finds an
attribute for the three octets of its identifier, and also with *filler* in front of the second or
third of them: groups of zeros, or groups of which nothing is left below the 32 bits of an arc. It
finds one for no other octets, however a principal is made up otherwise.

* `ObjectId.IsFiller`, `ObjectId.foldl_addGroup_concat_eq_iff`: octets that do not count
* `Attribute.IsIdentifiedBy`, `Attribute.ofToken?_ofContents?_iff`: the octets of attributes
* `Principal.IsPrincipal.exists_value`: octets are made up in one way
* `Name.recognised_identifiers`: the identifiers of principals that are read, and of the others
* `Name.exists_oidContents_ne_toContents`: filler occurs
-/

namespace MemberNames

/-! ## Filler -/

namespace ObjectId

/-- Octets in front of the last octet of an arc that leave the arc what this octet says. -/
inductive IsFiller : Octets → Prop where
  | zeros (count : Nat) :
      count ≤ 3 → IsFiller (List.replicate count 0x80)
  /-- Four groups whose only bits are in the first one and above the 32 bits of an arc. -/
  | beyond (high : Nat) :
      high < 8 → IsFiller [UInt8.ofNat (0x80 + 16 * high), 0x80, 0x80, 0x80]

theorem foldl_addGroup_replicate (count : Nat) :
    (List.replicate count 0x80).foldl addGroup 0 = 0 := by
  induction count with
  | zero => rfl
  | succ count ih => exact ih

/-- Behind filler, the next group of seven bits is all that is left of an arc. -/
theorem IsFiller.foldl_addGroup {front : Octets} (h : IsFiller front) :
    front.foldl addGroup 0 % 0x2000000 = 0 := by
  cases h with
  | zeros count _ =>
      rw [foldl_addGroup_replicate]
  | beyond high hHigh =>
      have hFirst := Utf8.toNat_ofNat_of_lt (n := 0x80 + 16 * high) (by omega)
      have hZero : (0x80 : UInt8).toNat = 0x80 := rfl
      simp only [List.foldl_cons, List.foldl_nil, addGroup, arcBound, hFirst, hZero]
      omega

theorem IsFiller.length_le {front : Octets} (h : IsFiller front) : front.length ≤ 4 := by
  cases h with
  | zeros count hCount =>
      rw [List.length_replicate]
      omega
  | beyond _ _ =>
      exact Nat.le_refl 4

theorem IsFiller.le_toNat {front : Octets} (h : IsFiller front) :
    ∀ o ∈ front, 0x80 ≤ o.toNat := by
  intro o ho
  cases h with
  | zeros _ _ =>
      rw [List.eq_of_mem_replicate ho]
      decide
  | beyond high hHigh =>
      have hFirst := Utf8.toNat_ofNat_of_lt (n := 0x80 + 16 * high) (by omega)
      rcases List.mem_cons.1 ho with rfl | hMem
      · omega
      · have hZero : o = 0x80 :=
          List.eq_of_mem_replicate (show o ∈ List.replicate 3 0x80 from hMem)
        rw [hZero]
        decide

theorem exists_high_of_foldl_addGroup {a b c d : UInt8}
    (hHigh : ∀ o ∈ [a, b, c, d], 0x80 ≤ o.toNat)
    (h : [a, b, c, d].foldl addGroup 0 % 0x2000000 = 0) :
    ∃ high < 8, [a, b, c, d] = [UInt8.ofNat (0x80 + 16 * high), 0x80, 0x80, 0x80] := by
  simp only [List.forall_mem_cons, List.not_mem_nil, false_implies, implies_true, and_true]
    at hHigh
  have ha := a.toNat_lt
  have hb := b.toNat_lt
  have hc := c.toNat_lt
  have hd := d.toNat_lt
  simp only [List.foldl_cons, List.foldl_nil, addGroup, arcBound] at h
  have hFirst : UInt8.ofNat (0x80 + 16 * ((a.toNat - 0x80) / 16)) = a :=
    Utf8.ofNat_eq (by omega)
  have hZero : ∀ o : UInt8, o.toNat = 0x80 → o = 0x80 := fun o ho => UInt8.toNat_inj.1 ho
  refine ⟨(a.toNat - 0x80) / 16, by omega, ?_⟩
  rw [hFirst, hZero b (by omega), hZero c (by omega), hZero d (by omega)]

theorem isFiller_of_foldl_addGroup {front : Octets} (hFront : ∀ o ∈ front, 0x80 ≤ o.toNat)
    (hShort : front.length ≤ 4) (h : front.foldl addGroup 0 % 0x2000000 = 0) :
    IsFiller front := by
  -- Groups of zeros in front make it four octets and do not change the value.
  have hLength : (List.replicate (4 - front.length) 0x80 ++ front).length = 4 := by
    rw [List.length_append, List.length_replicate]
    omega
  have hHigh : ∀ o ∈ List.replicate (4 - front.length) 0x80 ++ front, 0x80 ≤ o.toNat := by
    intro o ho
    rcases List.mem_append.1 ho with hMem | hMem
    · rw [List.eq_of_mem_replicate hMem]
      decide
    · exact hFront o hMem
  have hValue : (List.replicate (4 - front.length) 0x80 ++ front).foldl addGroup 0 %
      0x2000000 = 0 := by
    rw [List.foldl_append, foldl_addGroup_replicate, h]
  generalize hPadded : List.replicate (4 - front.length) 0x80 ++ front = padded
    at hLength hHigh hValue
  match padded, hLength with
  | [a, b, c, d], _ =>
      rcases exists_high_of_foldl_addGroup hHigh hValue with ⟨high, hBound, hForm⟩
      rw [hForm] at hPadded
      by_cases hFour : front.length = 4
      · rw [hFour, Nat.sub_self, List.replicate_zero, List.nil_append] at hPadded
        rw [hPadded]
        exact .beyond high hBound
      -- With room in front, all octets of `front` are among the last three ones.
      · have hTail := congrArg List.tail hPadded
        rw [show 4 - front.length = (3 - front.length) + 1 by omega, List.replicate_succ,
          List.cons_append, List.tail_cons, List.tail_cons] at hTail
        have hAll : ∀ o ∈ front, o = 0x80 := by
          intro o ho
          have hMem : o ∈ [(0x80 : UInt8), 0x80, 0x80] := by
            rw [← hTail]
            exact List.mem_append_right _ ho
          simpa using hMem
        rw [List.eq_replicate_of_mem hAll]
        exact .zeros _ (by omega)

/-- An arc below 128 is its last octet, and everything in front of this is filler. -/
theorem foldl_addGroup_concat_eq_iff {front : Octets} {last : UInt8} {v : Nat}
    (hFront : ∀ o ∈ front, 0x80 ≤ o.toNat) (hShort : front.length ≤ 4)
    (hLast : last.toNat < 0x80) (hv : v < 0x80) :
    (front ++ [last]).foldl addGroup 0 = v ↔ IsFiller front ∧ last.toNat = v := by
  have hStep : (front ++ [last]).foldl addGroup 0 =
      (front.foldl addGroup 0 * 128 + last.toNat % 128) % 0x100000000 := by
    rw [List.foldl_append]
    rfl
  rw [hStep]
  constructor
  · intro h
    exact ⟨isFiller_of_foldl_addGroup hFront hShort (by omega), by omega⟩
  · rintro ⟨hFiller, rfl⟩
    have hValue := hFiller.foldl_addGroup
    omega

theorem arcs_cons_iff {octets : Octets} {v : Nat} {arcs : List Nat} (hv : v < 0x10) :
    Arcs octets (v :: arcs) ↔
      ∃ front rest, IsFiller front ∧ octets = front ++ UInt8.ofNat v :: rest ∧ Arcs rest arcs := by
  have hOctet : (UInt8.ofNat v).toNat = v := Utf8.toNat_ofNat_of_lt (by omega)
  constructor
  · intro h
    generalize hArcs : v :: arcs = arcs' at h
    cases h with
    | nil =>
        cases hArcs
    | @cons front rest last arcs' hFront hLast hShort _ hRest =>
        rcases List.cons.inj hArcs with ⟨hValue, rfl⟩
        rcases (foldl_addGroup_concat_eq_iff hFront hShort hLast (by omega)).1 hValue.symm with
          ⟨hFiller, hSame⟩
        refine ⟨front, rest, hFiller, ?_, hRest⟩
        rw [Utf8.ofNat_eq hSame.symm]
  · rintro ⟨front, rest, hFiller, rfl, hRest⟩
    have hValue : (front ++ [UInt8.ofNat v]).foldl addGroup 0 = v :=
      (foldl_addGroup_concat_eq_iff hFiller.le_toNat hFiller.length_le (by omega) (by omega)).2
        ⟨hFiller, hOctet⟩
    have hLast : (UInt8.ofNat v).toNat < 0x80 := by omega
    have hFifth : front.length = 4 → (UInt8.ofNat v).toNat < 0x10 := fun _ => by omega
    have hCons := Arcs.cons hFiller.le_toNat hLast hFiller.length_le hFifth hRest
    rw [hValue] at hCons
    exact hCons

end ObjectId

/-! ## Identifiers of attributes -/

namespace Attribute

open ObjectId (IsFiller)

/-- The octets of an attribute's identifier, with filler in front of the second and the third. -/
inductive IsIdentifiedBy (a : Attribute) : Octets → Prop where
  | intro {first second third : UInt8} {front back : Octets} :
      a.oid.toContents = [first, second, third] → IsFiller front → IsFiller back →
        IsIdentifiedBy a (first :: (front ++ second :: (back ++ [third])))

theorem toContents_oid (a : Attribute) :
    a.oid.toContents = [0x55, UInt8.ofNat 4, UInt8.ofNat a.lastArc] := by
  cases a <;> rfl

theorem lastArc_lt (a : Attribute) : a.lastArc < 0x10 := by
  cases a <;> decide

theorem denotes_oid_iff {contents : Octets} {a : Attribute} :
    ObjectId.Denotes contents a.oid ↔ a.IsIdentifiedBy contents := by
  constructor
  · intro h
    generalize hOid : a.oid = oid at h
    cases h with
    | @intro b bs arcs _ _ _ hArcs =>
        have hList : [2, 5, 4, a.lastArc] = b.toNat / 40 :: b.toNat % 40 :: arcs :=
          congrArg ObjectId.arcs hOid
        simp only [List.cons.injEq] at hList
        rcases hList with ⟨hFirst, hSecond, rfl⟩
        have hShared : b = 0x55 := UInt8.toNat_inj.1 (show b.toNat = 0x55 by omega)
        rcases (ObjectId.arcs_cons_iff (by decide)).1 hArcs with ⟨front, rest, hFront, rfl, hRest⟩
        rcases (ObjectId.arcs_cons_iff a.lastArc_lt).1 hRest with ⟨back, end', hBack, rfl, hEnd⟩
        cases hEnd
        rw [hShared]
        exact .intro a.toContents_oid hFront hBack
  · rintro ⟨hContents, hFront, hBack⟩
    rw [toContents_oid] at hContents
    simp only [List.cons.injEq, and_true] at hContents
    rcases hContents with ⟨rfl, rfl, rfl⟩
    have hLast := (ObjectId.arcs_cons_iff a.lastArc_lt).2 ⟨_, [], hBack, rfl, .nil⟩
    have hArcs := (ObjectId.arcs_cons_iff (v := 4) (by decide)).2 ⟨_, _, hFront, rfl, hLast⟩
    have hFrontLength := hFront.length_le
    have hBackLength := hBack.length_le
    refine ObjectId.Denotes.intro (b := 0x55) (by decide) ?_ ?_ hArcs
    · simp only [List.length_append, List.length_cons]
      omega
    · simp only [List.length_append, List.length_cons, List.length_nil]
      omega

/-- The way through arcs and dotted text finds an attribute exactly for its octets, up to filler. -/
theorem ofToken?_ofContents?_iff {contents : Octets} {a : Attribute} :
    ((ObjectId.ofContents? contents).bind fun oid => ofToken? oid.toDotted) = some a ↔
      a.IsIdentifiedBy contents := by
  simp only [Option.bind_eq_some_iff, ObjectId.ofContents?_eq_some_iff,
    ofToken?_toDotted_eq_some_iff, exists_eq_right, denotes_oid_iff]

end Attribute

/-! ## One way to make up a principal -/

namespace Principal

open Der

theorem container_inj {tag : UInt8} {es es' : List Element}
    (h : container tag es = container tag es')
    (hShort : (container tag es).content.length ≤ maxLength) : es = es' := by
  have hContent : es.flatMap Element.toOctets = es'.flatMap Element.toOctets :=
    congrArg Element.content h
  refine flatMap_toOctets_inj ?_ ?_ hContent
  · intro e he
    exact Nat.le_trans (length_content_le_content he) hShort
  · intro e he
    rw [h] at hShort
    exact Nat.le_trans (length_content_le_content he) hShort

/-- Octets that are read are made up of the typed values that are read, whatever sets of typed
values they are taken to be made up of. -/
theorem IsPrincipal.exists_value {octets : Octets} {sets sets' : List (List TypedValue)}
    (h : IsPrincipal octets sets) (hOctets : octets = (sequenceElement sets').toOctets)
    {set' : List TypedValue} (hSet' : set' ∈ sets') {v' : TypedValue} (hv' : v' ∈ set') :
    ∃ set ∈ sets, ∃ v ∈ set, v.oidContents = v'.oidContents ∧ v.value = v'.value := by
  have hShort := h.length_content_le
  have hWhole : (sequenceElement sets).toOctets ++ [] = (sequenceElement sets').toOctets ++ [] := by
    rw [List.append_nil, List.append_nil, ← h.octets_eq, hOctets]
  have hShort' : (sequenceElement sets').content.length ≤ maxLength := by
    have hAll := h.short
    rw [hOctets] at hAll
    exact Nat.le_trans (Element.length_content_le _) hAll
  have hSame := (Element.toOctets_append_inj hShort hShort' hWhole).1
  -- From the outermost layer inwards, each element of one tree is an element of the other.
  have hSets : sets.map setElement = sets'.map setElement := container_inj hSame hShort
  have hMem : setElement set' ∈ sets.map setElement := by
    rw [hSets]
    exact List.mem_map_of_mem hSet'
  rcases List.mem_map.1 hMem with ⟨set, hSet, hSetSame⟩
  have hSetShort := Nat.le_trans (length_setElement_le hSet) hShort
  have hValues : set.map TypedValue.element = set'.map TypedValue.element :=
    container_inj hSetSame hSetShort
  have hValueMem : v'.element ∈ set.map TypedValue.element := by
    rw [hValues]
    exact List.mem_map_of_mem hv'
  rcases List.mem_map.1 hValueMem with ⟨v, hv, hValueSame⟩
  have hParts : [(⟨Tag.objectIdentifier, v.oidContents⟩ : Element), v.value] =
      [⟨Tag.objectIdentifier, v'.oidContents⟩, v'.value] :=
    container_inj hValueSame (Nat.le_trans (TypedValue.length_element_le hv) hSetShort)
  rcases List.cons.inj hParts with ⟨hType, hRest⟩
  exact ⟨set, hSet, v, hv, congrArg Element.content hType, (List.cons.inj hRest).1⟩

end Principal

/-! ## Names -/

namespace Name

open Principal

/-- Each identifier of a principal that is read as a name is the one of the attribute that it is
read as, up to filler. -/
theorem exists_values_of_fromDerWith {octets : Octets} {rules : Rules} {n : Name}
    (h : fromDerWith octets rules = .ok n) :
    ∃ (values : List TypedValue) (pairs : List (Attribute × Text)),
      IsPrincipal octets (values.map fun v => [v]) ∧ pairs.Perm n.attributes ∧
        List.Forall₂ (fun v pair => pair.1.IsIdentifiedBy v.oidContents ∧
          v.value.content = Utf8.encode pair.2) values pairs := by
  rcases fromDerWith_eq_ok_iff.1 h with ⟨values, pairs, hPrincipal, hCarries, hPerm, -⟩
  have hDenotes : ∀ v ∈ values, ObjectId.Denotes v.oidContents v.oid := by
    intro v hv
    exact (hPrincipal.values [v] (List.mem_map_of_mem hv) v List.mem_cons_self).oid
  have hBoth := (List.forall₂_and_left values pairs).2 ⟨hDenotes, hCarries⟩
  refine ⟨values, pairs, hPrincipal, hPerm, hBoth.imp ?_⟩
  rintro v pair ⟨hOid, hPair⟩
  rw [hPair.oid] at hOid
  exact ⟨Attribute.denotes_oid_iff.1 hOid, hPair.content⟩

theorem isIdentifiedBy_of_fromDerWith {octets : Octets} {rules : Rules} {n : Name}
    (h : fromDerWith octets rules = .ok n) {sets : List (List TypedValue)}
    (hOctets : octets = (sequenceElement sets).toOctets) {set : List TypedValue}
    (hSet : set ∈ sets) {v : TypedValue} (hv : v ∈ set) :
    ∃ a : Attribute, a.IsIdentifiedBy v.oidContents := by
  rcases exists_values_of_fromDerWith h with ⟨values, pairs, hPrincipal, -, hEach⟩
  rcases hPrincipal.exists_value hOctets hSet hv with ⟨set', hSet', w, hw, hContents, -⟩
  rcases List.mem_map.1 hSet' with ⟨w', hw', rfl⟩
  rcases List.mem_singleton.1 hw with rfl
  rcases List.forall₂_iff_get.1 hEach with ⟨hLength, hGet⟩
  rcases List.get_of_mem hw' with ⟨i, rfl⟩
  have hPair := (hGet i i.isLt (hLength ▸ i.isLt)).1
  rw [hContents] at hPair
  exact ⟨_, hPair⟩

/-- Octets are read as a name only if all identifiers in them are those of attributes, up to filler,
and each attribute is found under the identifier that is its own. Octets with any other identifier
are refused, whatever they hold besides. Filler makes no difference to what is found. -/
theorem recognised_identifiers (octets : Octets) (rules : Rules) :
    (∀ n, fromDerWith octets rules = .ok n →
      (∃ (values : List TypedValue) (pairs : List (Attribute × Text)),
        IsPrincipal octets (values.map fun v => [v]) ∧ pairs.Perm n.attributes ∧
          List.Forall₂ (fun v pair => pair.1.IsIdentifiedBy v.oidContents ∧
            v.value.content = Utf8.encode pair.2) values pairs) ∧
      ∀ sets, octets = (sequenceElement sets).toOctets → ∀ set ∈ sets, ∀ v ∈ set,
        ∃ a : Attribute, a.IsIdentifiedBy v.oidContents) ∧
    (∀ sets, octets = (sequenceElement sets).toOctets → ∀ set ∈ sets, ∀ v ∈ set,
      (∀ a : Attribute, ¬ a.IsIdentifiedBy v.oidContents) →
        ∃ e, fromDerWith octets rules = .error e) ∧
    (∀ (contents : Octets) (a : Attribute),
      ((ObjectId.ofContents? contents).bind fun oid => Attribute.ofToken? oid.toDotted) = some a ↔
        a.IsIdentifiedBy contents) := by
  refine ⟨?_, ?_, fun contents a => Attribute.ofToken?_ofContents?_iff⟩
  · intro n h
    refine ⟨exists_values_of_fromDerWith h, ?_⟩
    intro sets hOctets set hSet v hv
    exact isIdentifiedBy_of_fromDerWith h hOctets hSet hv
  · intro sets hOctets set hSet v hv hOther
    cases hRead : fromDerWith octets rules with
    | error e =>
        exact ⟨e, rfl⟩
    | ok n =>
        rcases isIdentifiedBy_of_fromDerWith hRead hOctets hSet hv with ⟨a, ha⟩
        exact absurd ha (hOther a)

/-- A leading group of zeros in the identifier of the organisation, and an identifier that is none
of an attribute, in a set of two. -/
theorem recognised_identifiers_filler :
    let values : List TypedValue := [
      ⟨Attribute.country.oid, [0x55, 0x04, 0x06], ⟨Der.Tag.printableString, [0x44, 0x45]⟩⟩,
      ⟨Attribute.locality.oid, [0x55, 0x04, 0x07], ⟨Der.Tag.utf8String, [0xC3, 0xA9]⟩⟩,
      ⟨Attribute.organisation.oid, [0x55, 0x04, 0x80, 0x0A], ⟨Der.Tag.utf8String, [0x4A, 0x50]⟩⟩]
    let octets := (sequenceElement (values.map fun v => [v])).toOctets
    let serial : TypedValue := ⟨⟨[]⟩, [0x55, 0x04, 0x05], ⟨Der.Tag.utf8String, [0x37]⟩⟩
    let others : List (List TypedValue) := [values, [serial]]
    fromDerWith octets .standard = .ok (minimal ['J', 'P'] ['é'] ['D', 'E']) ∧
      Attribute.organisation.IsIdentifiedBy [0x55, 0x04, 0x80, 0x0A] ∧
        (∀ set ∈ values.map fun v => [v], ∀ v ∈ set,
          ∃ a : Attribute, a.IsIdentifiedBy v.oidContents) ∧
          ∃ e, fromDerWith (sequenceElement others).toOctets .standard = .error e := by
  intro values octets serial others
  have hRead : fromDerWith octets .standard = .ok (minimal ['J', 'P'] ['é'] ['D', 'E']) := by
    decide +kernel
  rcases recognised_identifiers octets .standard with ⟨hNames, -, hForms⟩
  rcases recognised_identifiers (sequenceElement others).toOctets .standard with ⟨-, hRefused, -⟩
  have hSerial : ∀ a : Attribute, ¬ a.IsIdentifiedBy [0x55, 0x04, 0x05] := by
    intro a ha
    cases (hForms [0x55, 0x04, 0x05] a).2 ha
  refine ⟨hRead, (hForms _ _).1 rfl, (hNames _ hRead).2 _ rfl, ?_⟩
  exact hRefused others rfl [serial] (by simp [others]) serial List.mem_cons_self hSerial

/-- An identifier may be read from other octets than those in which it is written. -/
theorem exists_oidContents_ne_toContents :
    ¬ ∀ (octets : Octets) (rules : Rules) (n : Name), fromDerWith octets rules = .ok n →
      ∀ sets, octets = (sequenceElement sets).toOctets → ∀ set ∈ sets, ∀ v ∈ set,
        ∃ a : Attribute, v.oidContents = a.oid.toContents := by
  intro h
  let bank : TypedValue :=
    ⟨Attribute.organisation.oid, [0x55, 0x04, 0x80, 0x0A],
      ⟨Der.Tag.utf8String, [0x42, 0x61, 0x6E, 0x6B, 0x20, 0x41]⟩⟩
  let sets : List (List TypedValue) := [
    [⟨Attribute.country.oid, [0x55, 0x04, 0x06], ⟨Der.Tag.printableString, [0x55, 0x53]⟩⟩],
    [⟨Attribute.locality.oid, [0x55, 0x04, 0x07],
      ⟨Der.Tag.utf8String, [0x4E, 0x65, 0x77, 0x20, 0x59, 0x6F, 0x72, 0x6B]⟩⟩],
    [bank]]
  have hRead : fromDerWith (sequenceElement sets).toOctets .standard =
      .ok (minimal "Bank A".toList "New York".toList ['U', 'S']) := by
    decide +kernel
  have hMem : [bank] ∈ sets := List.mem_cons_of_mem _ (List.mem_cons_of_mem _ List.mem_cons_self)
  rcases h _ _ _ hRead sets rfl [bank] hMem bank List.mem_cons_self with ⟨a, ha⟩
  have hNone : ∀ a : Attribute, [0x55, 0x04, 0x80, 0x0A] ≠ a.oid.toContents := by
    intro a
    cases a <;> decide
  exact hNone a ha

end Name
end MemberNames
