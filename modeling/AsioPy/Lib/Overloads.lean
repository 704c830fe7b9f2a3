import Mathlib.Data.List.Basic

/-!
# Overloads tried in two passes

A call is resolved by trying a list of overloads in its order, first strictly, then again with the
conversions that an overload allows. `attempt` says whether an overload serves the call in a pass,
and how.

Where two groups of overloads follow each other, what the second group serves was refused by the
whole first group in the same pass (`resolve_append`). Where at most one overload serves a call, and
what serves strictly serves with conversions as well, neither the order nor the passes matter
(`resolve_eq_some_iff_of_unique`).
-/

namespace Overloads

variable {α ρ : Type*} {attempt : Bool → α → Option ρ} {overloads : List α} {r : ρ}

/-- The first overload that serves the call strictly, else the first one that serves it with
conversions. -/
def resolve (attempt : Bool → α → Option ρ) (overloads : List α) : Option ρ :=
  (overloads.findSome? (attempt false)).or (overloads.findSome? (attempt true))

/-- A call that is served is served in one of the passes. -/
theorem exists_pass (h : resolve attempt overloads = some r) :
    ∃ convert, overloads.findSome? (attempt convert) = some r := by
  rcases Option.or_eq_some_iff.mp h with h | ⟨-, h⟩
  · exact ⟨false, h⟩
  · exact ⟨true, h⟩

/-- **Two groups of overloads.** An overload of the first group serves the call, or one of the
second serves it in a pass in which the first group refuses it. -/
theorem resolve_append {first second : List α}
    (h : resolve attempt (first ++ second) = some r) :
    ∃ convert, (∃ o ∈ first, attempt convert o = some r) ∨
      (∀ o ∈ first, attempt convert o = none) ∧ ∃ o ∈ second, attempt convert o = some r := by
  obtain ⟨convert, hpass⟩ := exists_pass h
  refine ⟨convert, ?_⟩
  rw [List.findSome?_append] at hpass
  rcases Option.or_eq_some_iff.mp hpass with hfirst | ⟨hnone, hsecond⟩
  · exact Or.inl (List.exists_of_findSome?_eq_some hfirst)
  · exact Or.inr ⟨List.findSome?_eq_none_iff.mp hnone, List.exists_of_findSome?_eq_some hsecond⟩

/-- Groups of overloads of which all but one refuse the call are that one group. -/
theorem resolve_flatMap {γ : Type*} {groups : List γ} {group : γ → List α} {g : γ}
    (hg : g ∈ groups)
    (hothers : ∀ g' ∈ groups, g' ≠ g → ∀ convert, ∀ o ∈ group g', attempt convert o = none) :
    resolve attempt (groups.flatMap group) = resolve attempt (group g) := by
  have hpass : ∀ convert, ∀ l : List γ, (∀ g' ∈ l, g' ∈ groups) →
      (l.flatMap group).findSome? (attempt convert) = (group g).findSome? (attempt convert) ∨
        g ∉ l ∧ (l.flatMap group).findSome? (attempt convert) = none := by
    intro convert l
    induction l with
    | nil => exact fun _ => Or.inr ⟨List.not_mem_nil, rfl⟩
    | cons g' l ih =>
      intro hl
      rw [List.flatMap_cons, List.findSome?_append]
      have hrest := ih fun x hx => hl x (List.mem_cons_of_mem g' hx)
      by_cases hg' : g' = g
      · -- A group that occurs again finds nothing that its first occurrence has not found.
        subst hg'
        left
        rcases hrest with h | ⟨-, h⟩ <;> rw [h]
        · exact Option.or_self
        · exact Option.or_none
      · have hnone : (group g').findSome? (attempt convert) = none :=
          List.findSome?_eq_none_iff.mpr (hothers g' (hl g' List.mem_cons_self) hg' convert)
        rw [hnone, Option.none_or, List.mem_cons, not_or]
        exact hrest.imp id fun h => ⟨⟨Ne.symm hg', h.1⟩, h.2⟩
  have hsame : ∀ convert, (groups.flatMap group).findSome? (attempt convert) =
      (group g).findSome? (attempt convert) := fun convert =>
    (hpass convert groups fun _ h => h).resolve_right fun h => h.1 hg
  rw [resolve, resolve, hsame, hsame]

/-- Where one element at most passes, which is found does not depend on the order. -/
theorem findSome?_eq_some_iff_of_unique {f : α → Option ρ}
    (hunique : ∀ a ∈ overloads, ∀ b ∈ overloads, (f a).isSome → (f b).isSome → a = b) :
    overloads.findSome? f = some r ↔ ∃ a ∈ overloads, f a = some r := by
  constructor
  · exact List.exists_of_findSome?_eq_some
  · rintro ⟨a, ha, hr⟩
    rcases hfirst : overloads.findSome? f with - | r'
    · rw [List.findSome?_eq_none_iff.mp hfirst a ha] at hr
      cases hr
    · -- Another one is found first only if it is the same.
      obtain ⟨b, hb, hr'⟩ := List.exists_of_findSome?_eq_some hfirst
      obtain rfl := hunique a ha b hb (by rw [hr]; rfl) (by rw [hr']; rfl)
      rw [← hr, ← hr']

/-- **Neither the order nor the passes matter** where one overload at most serves the call. -/
theorem resolve_eq_some_iff_of_unique
    (hmono : ∀ o ∈ overloads, ∀ r, attempt false o = some r → attempt true o = some r)
    (hunique : ∀ a ∈ overloads, ∀ b ∈ overloads,
      (attempt true a).isSome → (attempt true b).isSome → a = b) :
    resolve attempt overloads = some r ↔ ∃ o ∈ overloads, attempt true o = some r := by
  have hsecond : overloads.findSome? (attempt true) = some r ↔ _ :=
    findSome?_eq_some_iff_of_unique hunique
  unfold resolve
  rcases hfirst : overloads.findSome? (attempt false) with - | r'
  · rw [Option.none_or, hsecond]
  · -- What the first pass finds is what the second one would find.
    obtain ⟨o, ho, hr'⟩ := List.exists_of_findSome?_eq_some hfirst
    have hsame := (findSome?_eq_some_iff_of_unique hunique).mpr ⟨o, ho, hmono o ho r' hr'⟩
    rw [Option.some_or, ← hsame, hsecond]

end Overloads
