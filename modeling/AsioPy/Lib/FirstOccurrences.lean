import Mathlib.Data.List.Induction

/-!
# The first occurrences in a list

`List.eraseDups` removes duplicates by filtering what follows each element. Here it is compared with
what it is meant to compute: `firstOccurrences` keeps the places whose element does not stand before
them. The absorption laws say that it makes no difference whether duplicates are removed from a part
of a list beforehand.
-/

namespace FirstOccurrences

variable {α : Type*} [DecidableEq α]

/-- The elements at the places before which they do not occur, in order. -/
def firstOccurrences (xs : List α) : List α :=
  (xs.zipIdx.filter fun p => p.1 ∉ xs.take p.2).map Prod.fst

/-- What one more element at the end adds. -/
theorem firstOccurrences_append_singleton (xs : List α) (x : α) :
    firstOccurrences (xs ++ [x]) = firstOccurrences xs ++ if x ∈ xs then [] else [x] := by
  -- The element at a place of `xs` has the same elements before it.
  have hbefore : xs.zipIdx.filter (fun p => p.1 ∉ (xs ++ [x]).take p.2) =
      xs.zipIdx.filter fun p => p.1 ∉ xs.take p.2 := by
    refine List.filter_congr fun p hp => ?_
    have hlt : p.2 < xs.length := List.snd_lt_of_mem_zipIdx hp
    rw [List.take_append_of_le_length (by omega)]
  unfold firstOccurrences
  rw [List.zipIdx_append, List.filter_append, List.map_append, hbefore]
  by_cases hx : x ∈ xs <;> simp [hx]

/-- What one more element at the end adds to the list without its duplicates. -/
theorem eraseDups_append_singleton (xs : List α) (x : α) :
    (xs ++ [x]).eraseDups = xs.eraseDups ++ if x ∈ xs then [] else [x] := by
  rw [List.eraseDups_append]
  by_cases hx : x ∈ xs <;> simp [List.removeAll, List.eraseDups_cons, hx]

/-- Removing duplicates keeps the first occurrences. -/
theorem eraseDups_eq_firstOccurrences (xs : List α) : xs.eraseDups = firstOccurrences xs := by
  induction xs using List.reverseRecOn with
  | nil => rfl
  | append_singleton xs x ih =>
    rw [firstOccurrences_append_singleton, eraseDups_append_singleton, ih]

/-- Duplicates may be removed from the second part beforehand. -/
theorem eraseDups_append_eraseDups_right (xs ys : List α) :
    (xs ++ ys.eraseDups).eraseDups = (xs ++ ys).eraseDups := by
  induction ys using List.reverseRecOn with
  | nil => rfl
  | append_singleton ys y ih =>
    rw [eraseDups_append_singleton, ← List.append_assoc, ← List.append_assoc,
      eraseDups_append_singleton (xs ++ ys)]
    by_cases hy : y ∈ ys
    · -- The element is kept out of both lists.
      simp [hy, ih]
    · rw [if_neg hy, eraseDups_append_singleton, ih]
      simp

/-- Duplicates may be removed from the first part beforehand. -/
theorem eraseDups_append_eraseDups_left (xs ys : List α) :
    (xs.eraseDups ++ ys).eraseDups = (xs ++ ys).eraseDups := by
  induction ys using List.reverseRecOn with
  | nil =>
    have hright := eraseDups_append_eraseDups_right [] xs
    simpa using hright
  | append_singleton ys y ih =>
    rw [← List.append_assoc, ← List.append_assoc, eraseDups_append_singleton, ih,
      eraseDups_append_singleton (xs ++ ys)]
    simp

end FirstOccurrences
