import MemberNames.Name.Principal

/-!
# Names that remember their derived forms

The canonical text and the principal form are computed when they are first read, and remembered from
then on. Names are compared and hashed field by field; what they remember counts for neither.

* `Hasher`: how fields are hashed
* `MemoizedName`: a name with the derived forms that it remembers
* `MemoizedName.readCanonical`, `MemoizedName.readPrincipal`: reading the derived forms
* `MemoizedName.isEqual`, `MemoizedName.hashFields`: equality and hash
-/

namespace MemberNames

/-! ## Hashers -/

/-- A way to hash data: a state that takes in one piece after the other. -/
class Hasher where
  State : Type
  start : State
  /-- Takes in the number of the case that a value belongs to. -/
  addCase : State → Nat → State
  addText : State → Text → State
  finish : State → UInt64

namespace Hasher

/-- Takes in an octet by exclusive or and multiplication with a prime. -/
def mixOctet (state : UInt64) (b : UInt8) : UInt64 :=
  (state ^^^ b.toUInt64) * 0x100000001B3

/-- Takes in everything octet by octet. A text ends in an octet that is not in UTF-8. -/
@[reducible] def octetwise : Hasher where
  State := UInt64
  start := 0xCBF29CE484222325
  addCase state number := mixOctet state (UInt8.ofNat number)
  addText state s := (Utf8.encode s ++ [0xFF]).foldl mixOctet state
  finish state := state

/-- Takes in a text that may be absent: its case, and the text if there is one. -/
def addOption [Hasher] (state : State) : Option Text → State
  | none => addCase state 0
  | some v => addText (addCase state 1) v

end Hasher

/-! ## Names -/

/-- A name with the derived forms that it remembers. -/
structure MemoizedName extends Name where
  canonicalForm : Option Text
  principalForm : Option Octets
  canonicalForm_eq : ∀ s, canonicalForm = some s → s = toName.canonical
  principalForm_eq : ∀ octets, principalForm = some octets → toName.toDer = .ok octets

namespace MemoizedName

/-- The name that remembers nothing yet. -/
def ofName (n : Name) : MemoizedName :=
  ⟨n, none, none, nofun, nofun⟩

/-! ## Derived forms -/

/-- The canonical text, and the name that remembers it. -/
def readCanonical (n : MemoizedName) : Text × MemoizedName :=
  match n.canonicalForm with
  | some s => (s, n)
  | none =>
    (n.toName.canonical,
      { n with
        canonicalForm := some n.toName.canonical
        canonicalForm_eq := fun _ h => (Option.some.inj h).symm })

/-- The principal form, and the name that remembers it. A failure is not remembered. -/
def readPrincipal (n : MemoizedName) : Except NameError Octets × MemoizedName :=
  match n.principalForm with
  | some octets => (.ok octets, n)
  | none =>
    match h : n.toName.toDer with
    | .error e => (.error e, n)
    | .ok octets =>
      (.ok octets,
        { n with
          principalForm := some octets
          principalForm_eq := fun _ h' => Option.some.inj h' ▸ h })

/-- The derived forms. -/
inductive Form where
  | canonical
  | principal
  deriving DecidableEq, Repr

/-- The name after a form has been read. -/
def remember (n : MemoizedName) : Form → MemoizedName
  | .canonical => n.readCanonical.2
  | .principal => n.readPrincipal.2

/-! ## Equality and hash -/

/-- Whether two names agree in every field. -/
def isEqual (n m : MemoizedName) : Bool :=
  n.commonName == m.commonName &&
    n.organisationUnit == m.organisationUnit &&
    n.organisation == m.organisation &&
    n.locality == m.locality &&
    n.state == m.state &&
    n.country == m.country

instance : BEq MemoizedName :=
  ⟨isEqual⟩

/-- The hash of the fields, one after the other. -/
def hashFields [Hasher] (n : MemoizedName) : UInt64 :=
  let state := Hasher.addOption Hasher.start n.commonName
  let state := Hasher.addOption state n.organisationUnit
  let state := Hasher.addText state n.organisation
  let state := Hasher.addText state n.locality
  let state := Hasher.addOption state n.state
  let state := Hasher.addText state n.country
  Hasher.finish state

instance [Hasher] : Hashable MemoizedName :=
  ⟨hashFields⟩

end MemoizedName
end MemberNames
