import MemberNames.Proofs.Name.Memoized
import MemberNames.Proofs.Name.Source
import MemberNames.Roster
import Mathlib.Data.Finset.Card
import Mathlib.Data.Multiset.Filter

/-!
# Rosters are sets of field tuples

Names are equal if their field tuples are, and then their hashes are the same, so that a hash set of
names is a set of tuples. A name is a member by its six fields, wherever it was read from, under
whatever rules, and whatever it or the members remember of their derived forms. A run of requests
gives the answers that the same run on a finite set of tuples gives, and the roster holds one member
for each tuple after every request. What it shows of its members are their canonical texts, as many
as there are members, so that names with one canonical text show as several.

* `Roster.Fields`, `Roster.tuple`, `Roster.ofTuple`: names as tuples
* `Roster.FieldSet.act`, `Roster.FieldSet.step`, `Roster.FieldSet.run`: runs on sets of tuples
* `Roster.Represents`, `Roster.Represents.step`, `Roster.run_represents`: rosters as sets
* `Roster.run_eq_set`: runs from the empty roster
-/

namespace MemberNames
namespace Roster

/-! ## Tuples -/

/-- Common name, organisation unit, organisation, locality, state and country. -/
def Fields : Type :=
  Option Text × Option Text × Text × Text × Option Text × Text

def tuple (n : Name) : Fields :=
  (n.commonName, n.organisationUnit, n.organisation, n.locality, n.state, n.country)

def ofTuple : Fields → Name
  | (commonName, organisationUnit, organisation, locality, state, country) =>
    ⟨commonName, organisationUnit, organisation, locality, state, country⟩

instance : DecidableEq Fields :=
  haveI : DecidableEq (Text × Option Text × Text) := inferInstance
  inferInstanceAs (DecidableEq (Option Text × Option Text × Text × Text × Option Text × Text))

theorem ofTuple_tuple (n : Name) : ofTuple (tuple n) = n :=
  rfl

theorem tuple_injective : Function.Injective tuple :=
  Function.LeftInverse.injective ofTuple_tuple

theorem beq_iff_tuple {n m : MemoizedName} : (n == m) = true ↔ tuple n.toName = tuple m.toName := by
  rw [MemoizedName.beq_iff, tuple_injective.eq_iff]

/-! ## Sets of tuples -/

namespace FieldSet

/-- A set of tuples after an action, and the answer to it. -/
def act (s : Finset Fields) (action : Action) (t : Fields) : Finset Fields × Bool :=
  match action with
  | .add => (insert t s, decide (t ∉ s))
  | .has => (s, decide (t ∈ s))
  | .remove => (s.erase t, decide (t ∈ s))

/-- An operand that is no tuple is the answer itself. -/
def step (s : Finset Fields) (action : Action) :
    Except NameError Fields → Finset Fields × Except NameError Bool
  | .error e => (s, .error e)
  | .ok t => ((act s action t).1, .ok (act s action t).2)

end FieldSet

/-! ## Runs -/

/-- An action on a name that is made from a source under rules. -/
structure Request where
  action : Action
  source : Name.Source
  rules : Rules
  /-- The derived forms of the name that are read before it is used. -/
  forms : List MemoizedName.Form
  /-- Whether the roster shows its canonical texts afterwards. -/
  shows : Bool

namespace Request

/-- The name of a request, if the rules accept it. -/
def name (request : Request) : Except NameError Name :=
  request.source.read request.rules

/-- The name as the roster gets it. -/
def operand (request : Request) : Except NameError MemoizedName :=
  request.name.map fun n => request.forms.foldl MemoizedName.remember (.ofName n)

theorem map_toName_operand (request : Request) :
    request.operand.map MemoizedName.toName = request.name := by
  rw [operand]
  cases request.name with
  | error e => rfl
  | ok n => exact congrArg Except.ok (MemoizedName.toName_foldl_remember _ request.forms)

end Request

/-- The answers to requests, each with the set of tuples after it. -/
def FieldSet.run (s : Finset Fields) : List Request → List (Except NameError Bool × Finset Fields)
  | [] => []
  | request :: requests =>
    let (s, answer) := FieldSet.step s request.action (request.name.map tuple)
    (answer, s) :: FieldSet.run s requests

variable [Hasher]

/-- The answers to requests, each with the roster after it. -/
def run (r : Roster) : List Request → List (Except NameError Bool × Roster)
  | [] => []
  | request :: requests =>
    let (r, answer) := r.step request.action request.operand
    let r := if request.shows then r.canonicalTexts.2 else r
    (answer, r) :: run r requests

/-! ## Rosters as sets -/

/-- Whether the members of a roster are the names with a tuple in a set. -/
def Represents (r : Roster) (s : Finset Fields) : Prop :=
  ∀ n : MemoizedName, r.has n = decide (tuple n.toName ∈ s)

variable {r : Roster} {s : Finset Fields}

theorem represents_empty : Represents empty ∅ := by
  intro n
  rw [has, empty, Std.HashSet.contains_empty]
  rfl

theorem add_eq (r : Roster) (n : MemoizedName) :
    r.add n = (⟨r.members.insert n⟩, !r.has n) := by
  rw [add, has, ← Std.HashSet.containsThenInsert_fst, ← Std.HashSet.containsThenInsert_snd]

theorem Represents.add (h : Represents r s) (n : MemoizedName) :
    (r.add n).2 = decide (tuple n.toName ∉ s) ∧
      Represents (r.add n).1 (insert (tuple n.toName) s) := by
  rw [add_eq]
  refine ⟨?_, ?_⟩
  · rw [h n, decide_not]
  · intro m
    have hMember : r.members.contains m = decide (tuple m.toName ∈ s) := h m
    rw [has, Std.HashSet.contains_insert, hMember, Bool.eq_iff_iff, Bool.or_eq_true, beq_iff_tuple,
      decide_eq_true_iff, decide_eq_true_iff, Finset.mem_insert, eq_comm (a := tuple n.toName)]

theorem Represents.remove (h : Represents r s) (n : MemoizedName) :
    (r.remove n).2 = decide (tuple n.toName ∈ s) ∧
      Represents (r.remove n).1 (s.erase (tuple n.toName)) := by
  refine ⟨h n, ?_⟩
  intro m
  have hMember : r.members.contains m = decide (tuple m.toName ∈ s) := h m
  rw [Roster.remove, has, Std.HashSet.contains_erase, hMember, Bool.eq_iff_iff, Bool.and_eq_true,
    Bool.not_eq_true', ← Bool.not_eq_true, beq_iff_tuple, decide_eq_true_iff, decide_eq_true_iff,
    Finset.mem_erase, eq_comm (a := tuple n.toName)]

/-- Showing the canonical texts changes nothing but what members remember. -/
theorem Represents.canonicalTexts (h : Represents r s) : Represents r.canonicalTexts.2 s := by
  intro n
  have hMember : r.members.contains n = decide (tuple n.toName ∈ s) := h n
  rw [← hMember, ← Std.HashSet.contains_toList, has, Roster.canonicalTexts,
    Std.HashSet.contains_ofList, List.map_map, Bool.eq_iff_iff]
  simp only [List.contains_iff_exists_mem_beq, List.mem_map, exists_exists_and_eq_and,
    MemoizedName.beq_iff, Function.comp_apply, MemoizedName.toName_readCanonical]

/-- A request gives the same answer on a roster and on the set that it represents, and represents
the set after it. -/
theorem Represents.step (h : Represents r s) (action : Action)
    (operand : Except NameError MemoizedName) :
    let fields := operand.map fun n => tuple n.toName
    (r.step action operand).2 = (FieldSet.step s action fields).2 ∧
      Represents (r.step action operand).1 (FieldSet.step s action fields).1 := by
  cases operand with
  | error e =>
      exact ⟨rfl, h⟩
  | ok n =>
      cases action with
      | add => exact ⟨congrArg Except.ok (h.add n).1, (h.add n).2⟩
      | has => exact ⟨congrArg Except.ok (h n), h⟩
      | remove => exact ⟨congrArg Except.ok (h.remove n).1, (h.remove n).2⟩

theorem run_represents (h : Represents r s) (requests : List Request) :
    List.Forall₂ (fun after after' => after.1 = after'.1 ∧ Represents after.2 after'.2)
      (run r requests) (FieldSet.run s requests) := by
  induction requests generalizing r s with
  | nil =>
      exact .nil
  | cons request requests ih =>
      have hFields : (request.operand.map fun n => tuple n.toName) = request.name.map tuple := by
        rw [← request.map_toName_operand]
        cases request.operand <;> rfl
      have hStep := h.step request.action request.operand
      rw [hFields] at hStep
      have hAfter : Represents
          (if request.shows then (r.step request.action request.operand).1.canonicalTexts.2
            else (r.step request.action request.operand).1)
          (FieldSet.step s request.action (request.name.map tuple)).1 := by
        split
        · exact hStep.2.canonicalTexts
        · exact hStep.2
      exact .cons ⟨hStep.1, hAfter⟩ (ih hAfter)

/-! ## What a roster shows -/

/-- The tuples of the members. -/
def tuples (r : Roster) : List Fields :=
  r.members.toList.map fun n => tuple n.toName

theorem nodup_tuples (r : Roster) : r.tuples.Nodup := by
  rw [tuples, List.nodup_iff_pairwise_ne, List.pairwise_map]
  refine Std.HashSet.distinct_toList.imp ?_
  intro n m hNe hSame
  rw [beq_iff_tuple.2 hSame] at hNe
  cases hNe

theorem Represents.mem_tuples_iff (h : Represents r s) (t : Fields) : t ∈ r.tuples ↔ t ∈ s := by
  have hMember : r.members.contains (.ofName (ofTuple t)) = decide (t ∈ s) :=
    h (.ofName (ofTuple t))
  rw [← Std.HashSet.contains_toList] at hMember
  rw [← decide_eq_true_iff (p := t ∈ s), ← hMember, List.contains_iff_exists_mem_beq, tuples,
    List.mem_map]
  simp only [beq_iff_tuple]
  exact exists_congr fun n => and_congr_right fun _ => eq_comm

/-- A canonical text shows as often as there are tuples that have it. -/
theorem Represents.count_canonicalTexts (h : Represents r s) (text : Text) :
    r.canonicalTexts.1.count text = (s.filter fun t => (ofTuple t).canonical = text).card := by
  have hTexts : r.canonicalTexts.1.Perm (r.tuples.map fun t => (ofTuple t).canonical) := by
    rw [tuples, List.map_map]
    refine (List.mergeSort_perm _ _).trans (.of_eq ?_)
    rw [List.map_map]
    exact List.map_congr_left fun n _ => n.readCanonical_eq
  have hTuples : (r.tuples : Multiset Fields) = s.val :=
    ((Multiset.coe_nodup.2 r.nodup_tuples).ext s.nodup).2 h.mem_tuples_iff
  have hCount : (r.tuples.map fun t => (ofTuple t).canonical).count text =
      r.tuples.countP fun t => decide ((ofTuple t).canonical = text) := by
    rw [List.count, List.countP_map]
    exact List.countP_congr fun t _ => by
      rw [Function.comp_apply, beq_iff_eq, decide_eq_true_iff]
  rw [hTexts.count_eq, hCount, ← Multiset.coe_countP, hTuples, Multiset.countP_eq_card_filter]
  rfl

/-! ## Runs from the empty roster -/

/-- Names are equal exactly if their tuples are, and equal names have one hash, so that the hash set
is a set of tuples. The operand of a request is the name that its source denotes, if that satisfies
the rules, and there is none otherwise. A run from the empty roster gives the answers of the same
run on sets of tuples. After each request the members are the tuples of the set, each once, and a
canonical text shows as often as there are members that have it. -/
theorem run_eq_set (requests : List Request) :
    (∀ n m : MemoizedName, (n == m) = true ↔ tuple n.toName = tuple m.toName) ∧
    (∀ n m : MemoizedName, (n == m) = true → hash n = hash m) ∧
    (∀ (request : Request) (n : Name),
      request.operand.map MemoizedName.toName = .ok n ↔
        request.source.Denotes n ∧ n.Satisfies request.rules) ∧
    List.Forall₂
      (fun after after' =>
        after.1 = after'.1 ∧
          (after.2.members.toList.map fun n => tuple n.toName).Nodup ∧
          (∀ t, t ∈ after.2.members.toList.map (fun n => tuple n.toName) ↔ t ∈ after'.2) ∧
          (∀ n, after.2.has n = decide (tuple n.toName ∈ after'.2)) ∧
          ∀ text, after.2.canonicalTexts.1.count text =
            (after'.2.filter fun t => (ofTuple t).canonical = text).card)
      (run empty requests) (FieldSet.run ∅ requests) := by
  refine ⟨fun n m => beq_iff_tuple, fun n m h => MemoizedName.hash_congr (MemoizedName.beq_iff.1 h),
    ?_, ?_⟩
  · intro request n
    rw [request.map_toName_operand]
    exact Name.Source.read_eq_ok_iff
  · refine (run_represents represents_empty requests).imp ?_
    rintro ⟨answer, r⟩ ⟨answer', s⟩ ⟨hAnswer, h⟩
    exact ⟨hAnswer, r.nodup_tuples, h.mem_tuples_iff, h, h.count_canonicalTexts⟩

omit [Hasher] in
/-- Two organisations have one canonical text, because the quotes of the second are part of it. Both
are members. The first is known again in another order and spelling, and from its fields. -/
theorem run_eq_set_collision :
    let plain : Name := .minimal "A,B".toList "Bonn".toList "DE".toList
    let quoted : Name := .minimal "\"A,B\"".toList "Bonn".toList "DE".toList
    let line : Text := "O=\"A,B\", L=Bonn, C=DE".toList
    let spelled : Text := "c=DE; oid.2.5.4.10=\\41\\,B ,L=\"Bonn\"".toList
    let requests : List Request := [
      ⟨.add, .text line, .standard, [.canonical], false⟩,
      ⟨.add, .fields quoted, .standard, [], true⟩,
      ⟨.add, .text spelled, .standard, [.principal, .canonical], false⟩,
      ⟨.add, .text "O=A,B".toList, .standard, [], true⟩,
      ⟨.remove, .fields plain, .standard, [.principal], false⟩,
      ⟨.has, .text line, .standard, [], false⟩,
      ⟨.has, .fields quoted, .standard, [.canonical], false⟩]
    letI : Hasher := .octetwise
    plain.canonical = line ∧ quoted.canonical = line ∧
      (run empty requests).map Prod.fst =
        [.ok true, .ok true, .ok false, .error (.malformed (.noSeparator "B".toList)), .ok true,
          .ok false, .ok true] := by
  intro plain quoted line spelled requests
  let hasher : Hasher := .octetwise
  rcases run_eq_set requests with ⟨-, -, -, hRun⟩
  have hAnswers : (run empty requests).map Prod.fst = (FieldSet.run ∅ requests).map Prod.fst := by
    rw [← List.forall₂_eq_eq_eq, List.forall₂_map_left_iff, List.forall₂_map_right_iff]
    exact hRun.imp fun _ _ h => h.1
  refine ⟨by decide +kernel, by decide +kernel, ?_⟩
  rw [hAnswers]
  decide +kernel

end Roster
end MemberNames
