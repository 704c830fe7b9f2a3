import AsioPy.Lib.FirstOccurrences
import AsioPy.Options

/-!
# The order of the type lists

`all_executors` is put together by `tuple_cat` and freed of duplicates by `as_set`, at the end and
at every property within `apply_properties`. `type_lists_keep_order` says what the two functions do
with the order of their types, and that the inner calls of `as_set` make no difference: it is the
list that one call at the end makes of everything the properties give.
-/

namespace AsioPy

open FirstOccurrences

/-- `as_set` of a part beforehand makes no difference. -/
theorem as_set_append_as_set {α : Type*} [DecidableEq α] (xs ys : List α) :
    as_set (as_set xs ++ ys) = as_set (xs ++ ys) ∧
      as_set (xs ++ as_set ys) = as_set (xs ++ ys) := by
  simp only [as_set_eq_eraseDups]
  exact ⟨eraseDups_append_eraseDups_left xs ys, eraseDups_append_eraseDups_right xs ys⟩

variable {ε π : Type*} [DecidableEq ε]

/-- What `apply_properties` would be without its `as_set`. -/
def apply_properties_repeated (T : ExecutorTraits ε π) (e : ε) : List π → List ε
  | [] => []
  | first :: properties =>
    let mine := if T.can_require e first then T.require_result e first else e
    let is_modified := !decide (mine = e)
    let other_type := if is_modified then [mine] else []
    let cascade := if is_modified then apply_properties_repeated T mine properties else []
    let next := apply_properties_repeated T e properties
    tuple_cat [other_type, cascade, next]

/-- The `as_set` of every property comes to one at the end. -/
theorem apply_properties_eq_as_set (T : ExecutorTraits ε π) (e : ε) (properties : List π) :
    apply_properties T e properties = as_set (apply_properties_repeated T e properties) := by
  induction properties generalizing e with
  | nil => rfl
  | cons first properties ih =>
    have hright : ∀ xs ys zs : List ε,
        as_set (xs ++ as_set ys ++ as_set zs) = as_set (xs ++ ys ++ zs) := by
      intro xs ys zs
      calc as_set (xs ++ as_set ys ++ as_set zs)
          = as_set (xs ++ as_set ys ++ zs) := (as_set_append_as_set _ zs).2
        _ = as_set (as_set (xs ++ as_set ys) ++ zs) := (as_set_append_as_set _ zs).1.symm
        _ = as_set (as_set (xs ++ ys) ++ zs) := by rw [(as_set_append_as_set xs ys).2]
        _ = as_set (xs ++ ys ++ zs) := (as_set_append_as_set _ zs).1
    rw [apply_properties, apply_properties_repeated]
    simp only [tuple_cat, ih]
    generalize (if T.can_require e first then T.require_result e first else e) = mine
    by_cases hmod : mine = e
    · simpa [hmod] using
        (as_set_append_as_set [] (apply_properties_repeated T e properties)).2
    · simpa [hmod] using hright [mine] (apply_properties_repeated T mine properties)
        (apply_properties_repeated T e properties)

/-- The parts of a concatenation may be freed of duplicates beforehand. -/
theorem as_set_flatten_map (xs : List ε) (yss : List (List ε)) :
    as_set (xs ++ (yss.map as_set).flatten) = as_set (xs ++ yss.flatten) := by
  induction yss generalizing xs with
  | nil => rfl
  | cons ys yss ih =>
    rw [List.map_cons, List.flatten_cons, List.flatten_cons, ← List.append_assoc, ih,
      ← List.append_assoc, ← (as_set_append_as_set (xs ++ as_set ys) _).1,
      (as_set_append_as_set xs ys).2, (as_set_append_as_set (xs ++ ys) _).1]

/-- **The type lists keep their order.** `tuple_cat` concatenates any number of lists in order, and
`as_set` keeps the first occurrence of each type where it is. A part of a list may be freed of
duplicates beforehand, on either side; so `all_executors` is what one `as_set` at the end makes of
all that the properties give. -/
theorem type_lists_keep_order (T : ExecutorTraits ε π) (base : List ε) (properties : List π) :
    (∀ ls : List (List ε), tuple_cat ls = ls.flatten) ∧
      (∀ xs : List ε, as_set xs = firstOccurrences xs) ∧
      (∀ xs ys : List ε, as_set (as_set xs ++ ys) = as_set (xs ++ as_set ys) ∧
        as_set (xs ++ as_set ys) = as_set (xs ++ ys)) ∧
      all_executors T base properties =
        as_set (tuple_cat [base,
          tuple_cat (base.map fun e => apply_properties_repeated T e properties)]) := by
  refine ⟨tuple_cat_eq_flatten, ?_, ?_, ?_⟩
  · intro xs
    rw [as_set_eq_eraseDups, eraseDups_eq_firstOccurrences]
  · intro xs ys
    obtain ⟨hleft, hright⟩ := as_set_append_as_set xs ys
    exact ⟨hleft.trans hright.symm, hright⟩
  · have hparts := as_set_flatten_map base
      (base.map fun e => apply_properties_repeated T e properties)
    unfold all_executors apply_properties_multiple
    simp only [apply_properties_eq_as_set]
    simpa [tuple_cat_eq_flatten, Function.comp_def] using hparts

end AsioPy
