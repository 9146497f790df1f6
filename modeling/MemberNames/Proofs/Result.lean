import MemberNames.Text.Basic
import Mathlib.Data.List.Forall2

/-!
# Results of readers

When a reader that is made of smaller readers succeeds, each of these has succeeded; when it fails,
the first one that fails tells why. The laws are about results in general, so that no proof about a
reader has to open its `do` block.

* `Result.bind_eq_ok_iff`, `Result.map_eq_ok_iff`, `Result.mapError_eq_ok_iff`: two readers in turn
* `Result.bind_eq_error_iff`, `Result.mapError_eq_error_iff`: the error of two readers in turn
* `Result.mapM_eq_ok_iff`, `Result.forM_eq_ok_iff`: one reader or check on every item of a list
* `Result.mapM_eq_error_iff`, `Result.forM_eq_error_iff`: the first item that fails
-/

namespace MemberNames
namespace Result

variable {α β δ ε : Type}

/-! ## One reader after another -/

@[simp] theorem ok_bind (a : α) (f : α → Except ε β) : (Except.ok a >>= f) = f a :=
  rfl

@[simp] theorem error_bind (e : ε) (f : α → Except ε β) : (Except.error e >>= f) = .error e :=
  rfl

theorem bind_eq_ok_iff {r : Except ε α} {f : α → Except ε β} {b : β} :
    (r >>= f) = .ok b ↔ ∃ a, r = .ok a ∧ f a = .ok b := by
  cases r with
  | error e =>
      constructor
      · intro h
        cases h
      · rintro ⟨a, h, -⟩
        cases h
  | ok a =>
      constructor
      · intro h
        exact ⟨a, rfl, h⟩
      · rintro ⟨a', h, hf⟩
        cases h
        exact hf

theorem bind_of_ok {r : Except ε α} {f : α → Except ε β} {a : α} (h : r = .ok a) :
    (r >>= f) = f a := by
  rw [h]
  rfl

theorem map_eq_ok_iff {r : Except ε α} {f : α → β} {b : β} :
    r.map f = .ok b ↔ ∃ a, r = .ok a ∧ f a = b := by
  cases r with
  | error e => simp [Except.map]
  | ok a => simp [Except.map]

theorem mapError_eq_ok_iff {r : Except ε α} {f : ε → δ} {a : α} :
    r.mapError f = .ok a ↔ r = .ok a := by
  cases r with
  | error e =>
      constructor
      · intro h
        cases (h : Except.error (f e) = .ok a)
      · intro h
        cases h
  | ok a' =>
      constructor
      · intro h
        exact congrArg Except.ok (Except.ok.inj (h : Except.ok a' = .ok a))
      · intro h
        exact congrArg Except.ok (Except.ok.inj h)

theorem bind_eq_error_iff {r : Except ε α} {f : α → Except ε β} {e : ε} :
    (r >>= f) = .error e ↔ r = .error e ∨ ∃ a, r = .ok a ∧ f a = .error e := by
  cases r with
  | error e' => simp [bind, Except.bind]
  | ok a => simp [bind, Except.bind]

theorem map_eq_error_iff {r : Except ε α} {f : α → β} {e : ε} :
    r.map f = .error e ↔ r = .error e := by
  cases r with
  | error e' => simp [Except.map]
  | ok a => simp [Except.map]

theorem mapError_eq_error_iff {r : Except ε α} {f : ε → δ} {d : δ} :
    r.mapError f = .error d ↔ ∃ e, r = .error e ∧ f e = d := by
  cases r with
  | error e => simp [Except.mapError]
  | ok a => simp [Except.mapError]

/-! ## One reader on every item -/

theorem mapM_eq_ok_iff {f : α → Except ε β} {as : List α} {bs : List β} :
    as.mapM f = .ok bs ↔ as.map f = bs.map .ok := by
  induction as generalizing bs with
  | nil =>
      cases bs with
      | nil => simp [pure, Except.pure]
      | cons b bs => simp [pure, Except.pure]
  | cons a as ih =>
      rw [List.mapM_cons, bind_eq_ok_iff]
      constructor
      · rintro ⟨b, hb, h⟩
        rcases bind_eq_ok_iff.1 h with ⟨bs', hbs, hEq⟩
        cases hEq
        rw [List.map_cons, List.map_cons, hb, ih.1 hbs]
      · intro h
        cases bs with
        | nil => cases h
        | cons b bs =>
            rw [List.map_cons, List.map_cons] at h
            rcases List.cons.inj h with ⟨hb, hbs⟩
            exact ⟨b, hb, bind_eq_ok_iff.2 ⟨bs, ih.2 hbs, rfl⟩⟩

theorem mapM_eq_ok_iff_forall₂ {f : α → Except ε β} {as : List α} {bs : List β} :
    as.mapM f = .ok bs ↔ List.Forall₂ (fun a b => f a = .ok b) as bs := by
  rw [mapM_eq_ok_iff, ← List.forall₂_eq_eq_eq, List.forall₂_map_left_iff,
    List.forall₂_map_right_iff]

/-- The same for readers that give no reason. -/
theorem mapM_eq_some_iff_forall₂ {f : α → Option β} {as : List α} {bs : List β} :
    as.mapM f = some bs ↔ List.Forall₂ (fun a b => f a = some b) as bs := by
  induction as generalizing bs with
  | nil =>
      rw [List.mapM_nil, List.forall₂_nil_left_iff]
      exact Option.some_inj.trans eq_comm
  | cons a as ih =>
      simp only [List.mapM_cons, Option.bind_eq_bind, Option.bind_eq_some_iff, ih,
        List.forall₂_cons_left_iff]
      constructor
      · rintro ⟨b, hb, bs', hbs, hEq⟩
        exact ⟨b, bs', hb, hbs, (Option.some.inj hEq).symm⟩
      · rintro ⟨b, bs', hb, hbs, rfl⟩
        exact ⟨b, hb, bs', hbs, rfl⟩

/-- Behind items that are all read, the rest of the list decides. -/
theorem mapM_append_of_eq_ok {f : α → Except ε β} {as : List α} {bs : List β}
    (h : as.mapM f = .ok bs) (rest : List α) :
    (as ++ rest).mapM f = (rest.mapM f).map (bs ++ ·) := by
  rw [List.mapM_append, h, ok_bind]
  cases rest.mapM f with
  | error e => rfl
  | ok bs' => rfl

/-- Two readers that agree item by item agree on the whole lists. -/
theorem mapM_eq_of_forall₂ {γ : Type} {f : α → Except ε β} {g : γ → Except ε β} {as : List α}
    {cs : List γ} (h : List.Forall₂ (fun a c => f a = g c) as cs) : as.mapM f = cs.mapM g := by
  induction h with
  | nil => rfl
  | cons hHead _ ih => rw [List.mapM_cons, List.mapM_cons, hHead, ih]

/-- A reader that recovers what was written recovers a list of it. -/
theorem mapM_eq_ok_iff_map {f : α → Except ε β} {g : β → α} {P : β → Prop}
    (h : ∀ a b, f a = .ok b ↔ a = g b ∧ P b) {as : List α} {bs : List β} :
    as.mapM f = .ok bs ↔ as = bs.map g ∧ ∀ b ∈ bs, P b := by
  rw [mapM_eq_ok_iff]
  induction bs generalizing as with
  | nil =>
      simp
  | cons b bs ih =>
      cases as with
      | nil => simp
      | cons a as =>
          simp only [List.map_cons, List.cons.injEq, List.forall_mem_cons, h, ih]
          exact and_and_and_comm

/-- A check of every item passes exactly if it passes for each of them. -/
theorem forM_eq_ok_iff {f : α → Except ε Unit} {as : List α} :
    as.forM f = .ok () ↔ ∀ a ∈ as, f a = .ok () := by
  induction as with
  | nil =>
      constructor
      · intro _ a ha
        cases ha
      · intro _
        rfl
  | cons a as ih =>
      -- The first item is checked before the others.
      have hStep : (a :: as).forM f = (f a >>= fun _ => as.forM f) := rfl
      rw [hStep, bind_eq_ok_iff, List.forall_mem_cons, ← ih]
      constructor
      · intro h
        rcases h with ⟨⟨⟩, ha, has⟩
        exact ⟨ha, has⟩
      · intro h
        exact ⟨(), h⟩

/-! ## The first item that fails -/

theorem mapM_eq_error_iff {f : α → Except ε β} {as : List α} {e : ε} :
    as.mapM f = .error e ↔
      ∃ before a after, as = before ++ a :: after ∧ (∀ b ∈ before, ∃ x, f b = .ok x) ∧
        f a = .error e := by
  induction as with
  | nil =>
      simp [pure, Except.pure]
  | cons a as ih =>
      rw [List.mapM_cons, bind_eq_error_iff]
      constructor
      · rintro (ha | ⟨x, ha, hRest⟩)
        · exact ⟨[], a, as, rfl, List.forall_mem_nil _, ha⟩
        · rcases bind_eq_error_iff.1 hRest with hAs | ⟨xs, -, hPure⟩
          · rcases ih.1 hAs with ⟨before, b, after, rfl, hBefore, hb⟩
            exact ⟨a :: before, b, after, rfl, List.forall_mem_cons.2 ⟨⟨x, ha⟩, hBefore⟩, hb⟩
          · cases hPure
      · rintro ⟨before, b, after, hSplit, hBefore, hb⟩
        cases before with
        | nil =>
            cases hSplit
            exact .inl hb
        | cons b' before =>
            cases hSplit
            rcases List.forall_mem_cons.1 hBefore with ⟨⟨x, ha⟩, hBefore⟩
            have hRest := ih.2 ⟨before, b, after, rfl, hBefore, hb⟩
            exact .inr ⟨x, ha, bind_eq_error_iff.2 (.inl hRest)⟩

theorem forM_eq_error_iff {f : α → Except ε Unit} {as : List α} {e : ε} :
    as.forM f = .error e ↔
      ∃ before a after, as = before ++ a :: after ∧ (∀ b ∈ before, f b = .ok ()) ∧
        f a = .error e := by
  -- A check is a reader without a value.
  have hForM : as.forM f = .error e ↔ as.mapM f = .error e := by
    induction as with
    | nil =>
        simp [pure, Except.pure]
    | cons a as ih =>
        have hStep : (a :: as).forM f = (f a >>= fun _ => as.forM f) := rfl
        rw [hStep, List.mapM_cons, bind_eq_error_iff, bind_eq_error_iff, ih]
        refine or_congr_right (exists_congr fun x => and_congr_right fun _ => ?_)
        simp [bind_eq_error_iff, pure, Except.pure]
  have hUnit : ∀ b, (∃ x, f b = .ok x) ↔ f b = .ok () := by
    intro b
    constructor
    · rintro ⟨⟨⟩, hb⟩
      exact hb
    · intro hb
      exact ⟨(), hb⟩
  simp only [hForM, mapM_eq_error_iff, hUnit]

end Result
end MemberNames
