import MemberNames.Name.Memoized
import Std.Data.HashSet

/-!
# Rosters

A roster is a hash set of names. Names are members by their fields, so that two names with one
canonical text can both be members.

* `Roster.add`, `Roster.has`, `Roster.remove`: the operations, each with its answer
* `Roster.canonicalTexts`: what a roster shows
* `Roster.step`: an operation on an operand that may be no name
-/

namespace MemberNames

/-- A set of names, found by their hashes. -/
structure Roster [Hasher] where
  members : Std.HashSet MemoizedName

namespace Roster

variable [Hasher]

def empty : Roster :=
  ⟨∅⟩

def has (r : Roster) (n : MemoizedName) : Bool :=
  r.members.contains n

/-- The roster with the name, and whether the name is new to it. -/
def add (r : Roster) (n : MemoizedName) : Roster × Bool :=
  let (known, members) := r.members.containsThenInsert n
  (⟨members⟩, !known)

/-- The roster without the name, and whether the name was a member. -/
def remove (r : Roster) (n : MemoizedName) : Roster × Bool :=
  (⟨r.members.erase n⟩, r.has n)

/-- The canonical texts of the members in ascending order, and the roster whose members remember
them. -/
def canonicalTexts (r : Roster) : List Text × Roster :=
  let readings := r.members.toList.map MemoizedName.readCanonical
  ((readings.map Prod.fst).mergeSort fun s t => !decide (t < s),
    ⟨.ofList (readings.map Prod.snd)⟩)

/-! ## Steps -/

/-- What is done with a name. -/
inductive Action where
  | add
  | has
  | remove
  deriving DecidableEq, Repr

/-- The roster after an action, and the answer to it. -/
def act (r : Roster) (action : Action) (n : MemoizedName) : Roster × Bool :=
  match action with
  | .add => r.add n
  | .has => (r, r.has n)
  | .remove => r.remove n

/-- The roster after an action on an operand that may be no name, and the answer to it. -/
def step (r : Roster) (action : Action) :
    Except NameError MemoizedName → Roster × Except NameError Bool
  | .error e => (r, .error e)
  | .ok n =>
    let (r, answer) := r.act action n
    (r, .ok answer)

end Roster
end MemberNames
