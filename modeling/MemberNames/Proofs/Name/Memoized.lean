import MemberNames.Name.Memoized

/-!
# Names that remember their derived forms

What is remembered never shows. Reading a derived form gives the form of the fields, whether it is
computed or remembered, and leaves the fields as they are. Equality is that of the fields, and names
that are equal have one hash, with whatever hasher.

* `MemoizedName.readCanonical_eq`, `MemoizedName.readPrincipal_eq`: derived forms
* `MemoizedName.beq_iff`, `MemoizedName.hash_congr`: equality and hash
* the instances of `EquivBEq` and `LawfulHashable`, on which sets of these names rest
-/

namespace MemberNames
namespace MemoizedName

variable {n m : MemoizedName}

/-! ## Derived forms -/

theorem readCanonical_eq (n : MemoizedName) : n.readCanonical.1 = n.toName.canonical := by
  rw [readCanonical]
  split
  · rename_i s hForm
    exact n.canonicalForm_eq s hForm
  · rfl

theorem toName_readCanonical (n : MemoizedName) : n.readCanonical.2.toName = n.toName := by
  rw [readCanonical]
  split
  · rfl
  · rfl

theorem readPrincipal_eq (n : MemoizedName) : n.readPrincipal.1 = n.toName.toDer := by
  rw [readPrincipal]
  split
  · rename_i octets hForm
    exact (n.principalForm_eq octets hForm).symm
  · split
    · rename_i hDer
      exact hDer.symm
    · rename_i hDer
      exact hDer.symm

theorem toName_readPrincipal (n : MemoizedName) : n.readPrincipal.2.toName = n.toName := by
  rw [readPrincipal]
  split
  · rfl
  · split
    · rfl
    · rfl

theorem toName_remember (n : MemoizedName) (form : Form) : (n.remember form).toName = n.toName := by
  cases form with
  | canonical => exact n.toName_readCanonical
  | principal => exact n.toName_readPrincipal

theorem toName_foldl_remember (n : MemoizedName) (forms : List Form) :
    (forms.foldl remember n).toName = n.toName := by
  induction forms generalizing n with
  | nil =>
      rfl
  | cons form forms ih =>
      rw [List.foldl_cons, ih, toName_remember]

/-! ## Equality and hash -/

theorem isEqual_iff : n.isEqual m ↔ n.toName = m.toName := by
  rcases n with ⟨⟨_, _, _, _, _, _⟩, _, _, _, _⟩
  rcases m with ⟨⟨_, _, _, _, _, _⟩, _, _, _, _⟩
  simp only [isEqual, Bool.and_eq_true, beq_iff_eq, and_assoc, Name.mk.injEq]

theorem beq_iff : (n == m) = true ↔ n.toName = m.toName :=
  isEqual_iff

instance : EquivBEq MemoizedName where
  rfl := beq_iff.2 rfl
  symm h := beq_iff.2 (beq_iff.1 h).symm
  trans h h' := beq_iff.2 ((beq_iff.1 h).trans (beq_iff.1 h'))

/-- The hash is taken from the fields alone. -/
theorem hash_congr [Hasher] (h : n.toName = m.toName) : hash n = hash m := by
  change hashFields n = hashFields m
  simp only [hashFields, h]

instance [Hasher] : LawfulHashable MemoizedName where
  hash_eq _ _ h := hash_congr (beq_iff.1 h)

end MemoizedName
end MemberNames
