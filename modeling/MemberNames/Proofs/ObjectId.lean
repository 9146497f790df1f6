import MemberNames.ObjectId
import MemberNames.Proofs.Text.Utf8
import Mathlib.Data.List.TakeWhile

/-!
# Octets of object identifiers

An arc is written in groups of seven bits, and the octet with the last group has a clear high bit.
The reader accepts leading groups of zeros, so that an identifier has several forms in octets, and
it refuses a fifth group of more than four bits, so that not every arc of 32 bits has one.

* `ObjectId.Arcs`, `ObjectId.Denotes`: octets and the identifiers that they denote
* `ObjectId.ofContents?_eq_some_iff`: reading
* `ObjectId.IsRepresentable`, `ObjectId.ofContents?_toContents_iff`: the identifiers that are read
  back from the octets in which they are written
* `ObjectId.toContents_inj`: different identifiers have different octets
-/

namespace MemberNames
namespace ObjectId

/-! ## Arcs -/

/-- The value of an arc after one more group of seven bits. -/
def addGroup (value : Nat) (b : UInt8) : Nat :=
  (value * 128 + b.toNat % 128) % arcBound

/-- Octets and the arcs that they denote. The last octet of an arc is the first one below 128, and
a fifth one is below 16. -/
inductive Arcs : Octets → List Nat → Prop where
  | nil :
      Arcs [] []
  | cons {front rest : Octets} {last : UInt8} {arcs : List Nat} :
      (∀ b ∈ front, 0x80 ≤ b.toNat) → last.toNat < 0x80 → front.length ≤ 4 →
        (front.length = 4 → last.toNat < 0x10) → Arcs rest arcs →
          Arcs (front ++ last :: rest) ((front ++ [last]).foldl addGroup 0 :: arcs)

theorem readArcs_append {front : Octets} {count : Nat} (h : ∀ b ∈ front, 0x80 ≤ b.toNat)
    (hCount : count + front.length ≤ 4) (value : Nat) (rest : Octets) :
    readArcs value count (front ++ rest) =
      readArcs (front.foldl addGroup value) (count + front.length) rest := by
  induction front generalizing value count with
  | nil =>
      rfl
  | cons b front ih =>
      rcases List.forall_mem_cons.1 h with ⟨hb, hFront⟩
      simp only [List.length_cons] at hCount
      have hRoom : count + 1 + front.length ≤ 4 := by omega
      have hRest := ih hFront hRoom (addGroup value b)
      rw [List.cons_append, readArcs, if_neg (by omega)]
      simp only [if_neg (Nat.not_lt_of_le hb), List.length_cons, List.foldl_cons]
      rw [show count + (front.length + 1) = count + 1 + front.length by omega, ← hRest]
      rfl

theorem readArcs_last {last : UInt8} {count : Nat} (h : last.toNat < 0x80)
    (hFifth : 4 ≤ count → last.toNat < 0x10) (value : Nat) (rest : Octets) :
    readArcs value count (last :: rest) =
      (readArcs 0 0 rest).map (addGroup value last :: ·) := by
  rw [readArcs, if_neg (by omega)]
  simp only [if_pos h]
  rfl

theorem readArcs_of_arcs {octets : Octets} {arcs : List Nat} (h : Arcs octets arcs) :
    readArcs 0 0 octets = some arcs := by
  induction h with
  | nil =>
      rfl
  | cons hFront hLast hShort hFifth _ ih =>
      rw [readArcs_append hFront (by omega), readArcs_last hLast (by omega), ih, Option.map_some,
        List.foldl_append]
      rfl

/-- Octets behind the first `count` ones of an arc, which have made up `value` so far, and the arcs
that they complete and denote. -/
inductive Completes (value count : Nat) : Octets → List Nat → Prop where
  | nil :
      count = 0 → Completes value count [] []
  | cons {front rest : Octets} {last : UInt8} {arcs : List Nat} :
      (∀ b ∈ front, 0x80 ≤ b.toNat) → last.toNat < 0x80 →
        (front ≠ [] → count + front.length ≤ 4) →
          (4 ≤ count + front.length → last.toNat < 0x10) → Arcs rest arcs →
            Completes value count (front ++ last :: rest)
              ((front ++ [last]).foldl addGroup value :: arcs)

theorem Completes.arcs {octets : Octets} {arcs : List Nat} (h : Completes 0 0 octets arcs) :
    Arcs octets arcs := by
  cases h with
  | nil _ =>
      exact .nil
  | @cons front rest last arcs hFront hLast hShort hFifth hRest =>
      have hLength : front.length ≤ 4 := by
        by_cases hNe : front = []
        · simp [hNe]
        · simpa using hShort hNe
      exact .cons hFront hLast hLength (fun hFour => hFifth (by omega)) hRest

theorem completes_of_readArcs {value count : Nat} {octets : Octets} {arcs : List Nat}
    (h : readArcs value count octets = some arcs) : Completes value count octets arcs := by
  fun_induction readArcs value count octets generalizing arcs with
  | case1 value =>
      rcases Option.some.inj h with rfl
      exact .nil rfl
  | case2 | case3 =>
      cases h
  -- A new arc begins behind the last octet of this one.
  | case4 value count b bs hFifth next hLast =>
      rename_i ih
      rcases Option.map_eq_some_iff.1 h with ⟨arcs', hRest, rfl⟩
      have hCompletes : Completes value count ([] ++ b :: bs) (addGroup value b :: arcs') := by
        refine .cons (List.forall_mem_nil _) hLast ?_ ?_ (ih hRest).arcs
        · intro hNe
          exact absurd rfl hNe
        · simp only [List.length_nil]
          omega
      exact hCompletes
  | case5 value count b bs hFifth next hHigh =>
      rename_i ih
      generalize hCount : count + 1 = count' at h ih
      cases ih h with
      | nil hNone =>
          omega
      | @cons front rest last arcs' hFront hLast hShort hSmall hRest =>
          have hHighs : ∀ b' ∈ b :: front, 0x80 ≤ b'.toNat :=
            List.forall_mem_cons.2 ⟨Nat.le_of_not_lt hHigh, hFront⟩
          refine Completes.cons hHighs hLast ?_ ?_ hRest
          -- No octet with a set high bit is the fifth one.
          · intro _
            by_cases hNe : front = []
            · simp only [hNe, List.length_cons, List.length_nil]
              omega
            · have hRoom := hShort hNe
              simp only [List.length_cons]
              omega
          · intro hFour
            simp only [List.length_cons] at hFour
            exact hSmall (by omega)

theorem readArcs_eq_some_iff {octets : Octets} {arcs : List Nat} :
    readArcs 0 0 octets = some arcs ↔ Arcs octets arcs := by
  constructor
  · intro h
    exact (completes_of_readArcs h).arcs
  · exact readArcs_of_arcs

/-! ## Identifiers -/

/-- Octets and the identifier that they denote. The first two arcs share one octet. -/
inductive Denotes : Octets → ObjectId → Prop where
  | intro {b : UInt8} {bs : Octets} {arcs : List Nat} :
      b.toNat < 120 → 2 ≤ bs.length → bs.length ≤ 38 → Arcs bs arcs →
        Denotes (b :: bs) ⟨b.toNat / 40 :: b.toNat % 40 :: arcs⟩

theorem Denotes.length_le {octets : Octets} {oid : ObjectId} (h : Denotes octets oid) :
    octets.length ≤ 39 := by
  cases h with
  | intro _ _ hMost _ => exact Nat.succ_le_succ hMost

theorem ofContents?_eq_some_iff {octets : Octets} {oid : ObjectId} :
    ofContents? octets = some oid ↔ Denotes octets oid := by
  constructor
  · intro h
    simp only [ofContents?] at h
    split at h
    · rename_i hLength
      split at h
      · cases h
      · rename_i b bs
        split at h
        · rename_i hFirst
          rcases Option.map_eq_some_iff.1 h with ⟨arcs, hArcs, rfl⟩
          simp only [List.length_cons] at hLength
          exact .intro hFirst (by omega) (by omega) (readArcs_eq_some_iff.1 hArcs)
        · cases h
    · cases h
  · rintro ⟨hFirst, hLeast, hMost, hArcs⟩
    simp only [ofContents?, List.length_cons]
    rw [if_pos (by omega), if_pos hFirst, readArcs_eq_some_iff.2 hArcs, Option.map_some]

/-! ## Identifiers that are read back -/

/-- Whether an arc can be read. The octets of an arc from 2²⁸ on are five, and the last one of these
holds its low seven bits. -/
structure IsReadable (arc : Nat) : Prop where
  bounded : arc < arcBound
  fifth : 0x10000000 ≤ arc → arc % 0x80 < 0x10

/-- Whether an identifier can be read from the octets in which it is written. -/
structure IsRepresentable (oid : ObjectId) : Prop where
  arcs : ∃ first second arcs, oid.arcs = first :: second :: arcs ∧ first ≤ 2 ∧ second ≤ 39 ∧
    ∀ arc ∈ arcs, IsReadable arc
  size : 3 ≤ oid.toContents.length ∧ oid.toContents.length ≤ 39

/-- An octet with a group of seven bits that is not the last one of its arc. -/
def highOctet (group : Nat) : UInt8 :=
  UInt8.ofNat (0x80 + group)

theorem arcOctets_eq (arc : Nat) :
    arcOctets arc = (highGroups arc).map highOctet ++ [UInt8.ofNat (arc % 128)] :=
  rfl

theorem toNat_highOctet {group : Nat} (h : group < 0x80) :
    (highOctet group).toNat = 0x80 + group :=
  Utf8.toNat_ofNat_of_lt (by omega)

theorem addGroup_highOctet {group : Nat} (h : group < 0x80) (value : Nat) :
    addGroup value (highOctet group) = (value * 128 + group) % arcBound := by
  simp [addGroup, toNat_highOctet h, Nat.mod_eq_of_lt h]

theorem toNat_lastOctet (arc : Nat) : (UInt8.ofNat (arc % 128)).toNat = arc % 128 :=
  Utf8.toNat_ofNat_of_lt (by omega)

/-- The groups above the last one are those of the four highest places, without leading zeros. -/
theorem exists_zeros_append_highGroups (arc : Nat) :
    ∃ zeros, (∀ z ∈ zeros, z = 0) ∧ zeros ++ highGroups arc =
      [arc / 0x10000000, arc / 0x200000 % 128, arc / 0x4000 % 128, arc / 0x80 % 128] := by
  refine ⟨_, ?_, List.takeWhile_append_dropWhile⟩
  intro z hz
  simpa using List.mem_takeWhile_imp hz

theorem lt_of_mem_highGroups {arc group : Nat} (hArc : arc < arcBound)
    (h : group ∈ highGroups arc) : group < 0x80 := by
  rcases exists_zeros_append_highGroups arc with ⟨zeros, -, hGroups⟩
  have hMem := List.mem_append_right zeros h
  simp only [arcBound] at hArc
  simp only [hGroups, List.mem_cons, List.not_mem_nil, or_false] at hMem
  omega

theorem length_highGroups_le (arc : Nat) : (highGroups arc).length ≤ 4 := by
  rcases exists_zeros_append_highGroups arc with ⟨zeros, -, hGroups⟩
  have hLength := congrArg List.length hGroups
  simp only [List.length_append, List.length_cons, List.length_nil] at hLength
  omega

/-- All four groups are written exactly if the highest one is not zero. -/
theorem length_highGroups_eq_four_iff {arc : Nat} :
    (highGroups arc).length = 4 ↔ 0x10000000 ≤ arc := by
  rcases exists_zeros_append_highGroups arc with ⟨zeros, hZeros, hGroups⟩
  have hLength := congrArg List.length hGroups
  simp only [List.length_append, List.length_cons, List.length_nil] at hLength
  constructor
  · intro hFour
    have hNil : zeros = [] := List.eq_nil_of_length_eq_zero (by omega)
    simp only [hNil, List.nil_append] at hGroups
    have hHead : (highGroups arc).head? = some (arc / 0x10000000) := by rw [hGroups]; rfl
    have hNe := List.head?_dropWhile_not (· == 0)
      [arc / 0x10000000, arc / 0x200000 % 128, arc / 0x4000 % 128, arc / 0x80 % 128]
    rw [← highGroups, hHead] at hNe
    simp only [beq_eq_false_iff_ne] at hNe
    omega
  · intro hArc
    cases zeros with
    | nil => simpa using hLength
    | cons z zeros =>
        have hZero := hZeros z List.mem_cons_self
        have hHead := (List.cons.inj hGroups).1
        omega

theorem foldl_addGroup_zeros {zeros : List Nat} (h : ∀ z ∈ zeros, z = 0) :
    (zeros.map highOctet).foldl addGroup 0 = 0 := by
  induction zeros with
  | nil =>
      rfl
  | cons z zeros ih =>
      rcases List.forall_mem_cons.1 h with ⟨rfl, hZeros⟩
      exact ih hZeros

theorem foldl_addGroup_arcOctets {arc : Nat} (h : arc < arcBound) :
    (arcOctets arc).foldl addGroup 0 = arc := by
  rcases exists_zeros_append_highGroups arc with ⟨zeros, hZeros, hGroups⟩
  -- Leading groups of zeros change nothing, so that all four groups may be added.
  have hHigh : ((highGroups arc).map highOctet).foldl addGroup 0 =
      ((zeros ++ highGroups arc).map highOctet).foldl addGroup 0 := by
    rw [List.map_append, List.foldl_append, foldl_addGroup_zeros hZeros]
  have hBound : arc / 0x10000000 < 0x80 := by
    simp only [arcBound] at h
    omega
  have hGroup : ∀ n, n % 128 < 0x80 := fun n => Nat.mod_lt n (by decide)
  rw [arcOctets_eq, List.foldl_append, hHigh, hGroups]
  simp only [List.map_cons, List.map_nil, List.foldl_cons, List.foldl_nil]
  rw [addGroup_highOctet hBound, addGroup_highOctet (hGroup _), addGroup_highOctet (hGroup _),
    addGroup_highOctet (hGroup _), addGroup, toNat_lastOctet]
  simp only [arcBound] at h ⊢
  omega

theorem le_of_mem_map_highOctet {arc : Nat} (h : arc < arcBound) :
    ∀ b ∈ (highGroups arc).map highOctet, 0x80 ≤ b.toNat := by
  intro b hb
  rcases List.mem_map.1 hb with ⟨group, hGroup, rfl⟩
  rw [toNat_highOctet (lt_of_mem_highGroups h hGroup)]
  omega

theorem Arcs.cons_arcOctets {arc : Nat} {rest : Octets} {arcs : List Nat} (hArc : IsReadable arc)
    (h : Arcs rest arcs) : Arcs (arcOctets arc ++ rest) (arc :: arcs) := by
  have hLast : (UInt8.ofNat (arc % 128)).toNat < 0x80 := by
    rw [toNat_lastOctet]
    omega
  have hShort : ((highGroups arc).map highOctet).length ≤ 4 := by
    simpa using length_highGroups_le arc
  have hFifth : ((highGroups arc).map highOctet).length = 4 →
      (UInt8.ofNat (arc % 128)).toNat < 0x10 := by
    rw [List.length_map, length_highGroups_eq_four_iff, toNat_lastOctet]
    exact hArc.fifth
  have hCons := Arcs.cons (le_of_mem_map_highOctet hArc.bounded) hLast hShort hFifth h
  rw [← arcOctets_eq, foldl_addGroup_arcOctets hArc.bounded] at hCons
  simpa [arcOctets_eq] using hCons

/-- The first octet below 128 ends an arc, so that octets are cut into arcs in one way. -/
theorem append_cons_inj {front front' rest rest' : Octets} {last last' : UInt8}
    (hFront : ∀ b ∈ front, 0x80 ≤ b.toNat) (hFront' : ∀ b ∈ front', 0x80 ≤ b.toNat)
    (hLast : last.toNat < 0x80) (hLast' : last'.toNat < 0x80)
    (h : front ++ last :: rest = front' ++ last' :: rest') :
    front = front' ∧ last = last' ∧ rest = rest' := by
  induction front generalizing front' with
  | nil =>
      cases front' with
      | nil =>
          exact ⟨rfl, List.cons.inj h⟩
      | cons b front' =>
          have hb := hFront' b List.mem_cons_self
          rw [(List.cons.inj h).1] at hLast
          omega
  | cons b front ih =>
      rcases List.forall_mem_cons.1 hFront with ⟨hb, hFront⟩
      cases front' with
      | nil =>
          rw [(List.cons.inj h).1] at hb
          omega
      | cons b' front' =>
          rcases List.cons.inj h with ⟨rfl, hRest⟩
          rcases ih hFront (List.forall_mem_cons.1 hFront').2 hRest with ⟨rfl, hSame⟩
          exact ⟨rfl, hSame⟩

theorem Arcs.of_arcOctets {arc : Nat} {rest : Octets} {arcs : List Nat}
    (h : Arcs (arcOctets arc ++ rest) (arc :: arcs)) : IsReadable arc ∧ Arcs rest arcs := by
  generalize hOctets : arcOctets arc ++ rest = octets at h
  generalize hArcs : arc :: arcs = arcs' at h
  cases h with
  | nil =>
      cases hArcs
  | @cons front rest' last arcs' hFront hLast _ hFifth hRest =>
      rcases List.cons.inj hArcs with ⟨hValue, rfl⟩
      have hBounded : arc < arcBound := by
        rw [hValue, List.foldl_append]
        exact Nat.mod_lt _ (by decide)
      have hForm : (highGroups arc).map highOctet ++ UInt8.ofNat (arc % 128) :: rest =
          front ++ last :: rest' := by
        rw [← hOctets, arcOctets_eq, List.append_assoc, List.singleton_append]
      rcases append_cons_inj (le_of_mem_map_highOctet hBounded) hFront
        (by rw [toNat_lastOctet]; omega) hLast hForm with ⟨rfl, rfl, rfl⟩
      refine ⟨⟨hBounded, ?_⟩, hRest⟩
      intro hFour
      rw [List.length_map, length_highGroups_eq_four_iff, toNat_lastOctet] at hFifth
      exact hFifth hFour

theorem arcs_flatMap_arcOctets_iff {arcs : List Nat} :
    Arcs (arcs.flatMap arcOctets) arcs ↔ ∀ arc ∈ arcs, IsReadable arc := by
  induction arcs with
  | nil =>
      exact iff_of_true .nil (List.forall_mem_nil _)
  | cons arc arcs ih =>
      rw [List.flatMap_cons, List.forall_mem_cons, ← ih]
      constructor
      · exact Arcs.of_arcOctets
      · rintro ⟨hArc, hArcs⟩
        exact .cons_arcOctets hArc hArcs

/-- The identifiers that are read back from the octets in which they are written. -/
theorem ofContents?_toContents_iff {oid : ObjectId} :
    ofContents? oid.toContents = some oid ↔ oid.IsRepresentable := by
  rw [ofContents?_eq_some_iff]
  constructor
  · intro h
    generalize hOctets : oid.toContents = octets at h
    cases h with
    | @intro b bs arcs hFirst hLeast hMost hArcs =>
        have hTail : arcs.flatMap arcOctets = bs := (List.cons.inj hOctets).2
        rw [← hTail, arcs_flatMap_arcOctets_iff] at hArcs
        refine ⟨⟨_, _, arcs, rfl, by omega, by omega, hArcs⟩, ?_⟩
        rw [hOctets, List.length_cons]
        omega
  · rintro ⟨⟨first, second, arcs, hOid, hFirst, hSecond, hArcs⟩, hSize⟩
    cases oid with
    | mk all =>
        subst hOid
        have hShared : (UInt8.ofNat (40 * first + second)).toNat = 40 * first + second :=
          Utf8.toNat_ofNat_of_lt (by omega)
        simp only [toContents, List.length_cons] at hSize ⊢
        have hDenotes := Denotes.intro (b := UInt8.ofNat (40 * first + second)) (by omega)
          (by omega) (by omega) (arcs_flatMap_arcOctets_iff.2 hArcs)
        rw [hShared, show (40 * first + second) / 40 = first by omega,
          show (40 * first + second) % 40 = second by omega] at hDenotes
        exact hDenotes

/-! ## Different identifiers -/

theorem flatMap_arcOctets_inj {arcs arcs' : List Nat} (h : ∀ arc ∈ arcs, arc < arcBound)
    (h' : ∀ arc ∈ arcs', arc < arcBound)
    (hSame : arcs.flatMap arcOctets = arcs'.flatMap arcOctets) : arcs = arcs' := by
  induction arcs generalizing arcs' with
  | nil =>
      cases arcs' with
      | nil => rfl
      | cons arc' arcs' => simp [arcOctets] at hSame
  | cons arc arcs ih =>
      cases arcs' with
      | nil => simp [arcOctets] at hSame
      | cons arc' arcs' =>
          rcases List.forall_mem_cons.1 h with ⟨hArc, hArcs⟩
          rcases List.forall_mem_cons.1 h' with ⟨hArc', hArcs'⟩
          have hForm : (highGroups arc).map highOctet ++
                UInt8.ofNat (arc % 128) :: arcs.flatMap arcOctets =
              (highGroups arc').map highOctet ++
                UInt8.ofNat (arc' % 128) :: arcs'.flatMap arcOctets := by
            simpa [List.flatMap_cons, arcOctets_eq] using hSame
          rcases append_cons_inj (le_of_mem_map_highOctet hArc) (le_of_mem_map_highOctet hArc')
            (by rw [toNat_lastOctet]; omega) (by rw [toNat_lastOctet]; omega) hForm with
            ⟨hHigh, hLast, hRest⟩
          have hValue : arc = arc' := by
            rw [← foldl_addGroup_arcOctets hArc, ← foldl_addGroup_arcOctets hArc', arcOctets_eq,
              arcOctets_eq, hHigh, hLast]
          rw [hValue, ih hArcs hArcs' hRest]

theorem exists_of_isAdmissible {arcs : List Nat} (h : isAdmissible arcs) :
    ∃ first second rest, arcs = first :: second :: rest ∧ first ≤ 2 ∧ second ≤ 39 := by
  rw [isAdmissible.eq_def] at h
  split at h
  · simp only [Bool.and_eq_true, decide_eq_true_eq] at h
    exact ⟨_, _, _, rfl, h.1.1, h.1.2⟩
  · cases h

/-- Identifiers within the bounds of dotted text are the same if their octets are. -/
theorem toContents_inj {oid oid' : ObjectId} (hAdmissible : isAdmissible oid.arcs)
    (hAdmissible' : isAdmissible oid'.arcs) (h : ∀ arc ∈ oid.arcs, arc < arcBound)
    (h' : ∀ arc ∈ oid'.arcs, arc < arcBound) (hSame : oid.toContents = oid'.toContents) :
    oid = oid' := by
  rcases exists_of_isAdmissible hAdmissible with ⟨first, second, arcs, hArcs, hFirst, hSecond⟩
  rcases exists_of_isAdmissible hAdmissible' with
    ⟨first', second', arcs', hArcs', hFirst', hSecond'⟩
  cases oid
  cases oid'
  subst hArcs hArcs'
  rcases List.cons.inj hSame with ⟨hShared, hRest⟩
  -- The first two arcs are the quotient and the remainder of the octet that they share.
  have hNumber := congrArg UInt8.toNat hShared
  rw [Utf8.toNat_ofNat_of_lt (by omega), Utf8.toNat_ofNat_of_lt (by omega)] at hNumber
  have hTail := flatMap_arcOctets_inj
    (List.forall_mem_cons.1 (List.forall_mem_cons.1 h).2).2
    (List.forall_mem_cons.1 (List.forall_mem_cons.1 h').2).2 hRest
  rw [show first = first' by omega, show second = second' by omega, hTail]

end ObjectId
end MemberNames
