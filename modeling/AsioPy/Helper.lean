import Mathlib.Data.List.Nodup

/-!
# Lists of types

The type lists `register_tag<Ts...>` of `detail/helper.hpp` and the functions on them, a C++ type
being an element of a type with decidable equality. `tuple_cat_eq_flatten`, `as_set_eq_eraseDups`
and `remove_eq_filter` say what the functions compute; the membership and duplicate lemmas follow.
-/

namespace AsioPy

variable {α : Type*} [DecidableEq α]

/-- `insert_set`: a type is appended unless it is in the list. -/
def insert_set (args : List α) (t : α) : List α :=
  if args.contains t then args else args ++ [t]

/-- `as_set_impl`: the next type is inserted, then the rest. -/
def as_set_impl (tuple : List α) (next : α) : List α → List α
  | [] => insert_set tuple next
  | next' :: rest => as_set_impl (insert_set tuple next) next' rest

/-- `as_set`: the list without its duplicates. -/
def as_set : List α → List α
  | [] => []
  | [t] => [t]
  | next :: rest => as_set_impl [] next rest

/-- `tuple_cat`: the cases of up to four lists and the recursive one. -/
def tuple_cat {α : Type*} : List (List α) → List α
  | [] => []
  | [ts] => ts
  | [ts, us] => ts ++ us
  | [ts, us, vs] => ts ++ us ++ vs
  | [ts, us, vs, ws] => ts ++ us ++ vs ++ ws
  | ts :: rest => ts ++ tuple_cat rest

/-- `tuple_cat` is the concatenation, whatever the number of lists. -/
theorem tuple_cat_eq_flatten {α : Type*} (ls : List (List α)) : tuple_cat ls = ls.flatten := by
  fun_induction tuple_cat ls with
  | case1 => rfl
  | case2 ts => simp
  | case3 ts us => simp
  | case4 ts us vs => simp
  | case5 ts us vs ws => simp
  | case6 ts rest _ _ _ _ ih => rw [ih, List.flatten_cons]

/-- The insertions of `as_set_impl` one after the other. -/
theorem as_set_impl_eq_foldl (tuple : List α) (next : α) (rest : List α) :
    as_set_impl tuple next rest = (next :: rest).foldl insert_set tuple := by
  induction rest generalizing tuple next with
  | nil => rfl
  | cons next' rest ih => exact ih (insert_set tuple next) next'

/-- The insertions into a list append what is new to it, each once. -/
theorem foldl_insert_set (xs args : List α) :
    xs.foldl insert_set args = args ++ (xs.removeAll args).eraseDups := by
  induction xs generalizing args with
  | nil => simp
  | cons x xs ih =>
    rw [List.foldl_cons, ih]
    unfold insert_set
    by_cases hx : x ∈ args
    · simp [hx, List.removeAll]
    · -- The rest of the insertions sees `x` among the types that are already there.
      have hrest : xs.removeAll (args ++ [x]) = (xs.removeAll args).filter fun b => !b == x := by
        unfold List.removeAll
        rw [List.filter_filter]
        refine List.filter_congr fun b _ => ?_
        rw [Bool.eq_iff_iff]
        simp [and_comm]
      have hfirst : (x :: xs).removeAll args = x :: xs.removeAll args := by
        simp [List.removeAll, hx]
      rw [hfirst, List.eraseDups_cons, ← hrest]
      simp [hx]

/-- `as_set` keeps the first occurrence of each type, in order. -/
theorem as_set_eq_eraseDups (xs : List α) : as_set xs = xs.eraseDups := by
  have hfold : ∀ (x : α) rest, as_set_impl [] x rest = (x :: rest).eraseDups := by
    intro x rest
    rw [as_set_impl_eq_foldl, foldl_insert_set]
    simp [List.removeAll]
  match xs with
  | [] => rfl
  | [t] => simp [as_set, List.eraseDups_cons]
  | x :: y :: rest => exact hfold x (y :: rest)

/-- `as_set` keeps every type. -/
@[simp] theorem mem_as_set {x : α} {xs : List α} : x ∈ as_set xs ↔ x ∈ xs := by
  rw [as_set_eq_eraseDups, List.mem_eraseDups]

/-- An insertion makes no duplicate. -/
theorem nodup_insert_set {args : List α} (h : args.Nodup) (t : α) : (insert_set args t).Nodup := by
  unfold insert_set
  split
  · exact h
  · next ht =>
    have ht' : t ∉ args := by simpa using ht
    simpa [List.nodup_append, h] using fun x hx => ne_of_mem_of_not_mem hx ht'

/-- `as_set` leaves no duplicate. -/
theorem nodup_as_set (xs : List α) : (as_set xs).Nodup := by
  have hfold : ∀ (xs args : List α), args.Nodup → (xs.foldl insert_set args).Nodup := by
    intro xs
    induction xs with
    | nil => exact fun _ h => h
    | cons x xs ih => exact fun args h => ih _ (nodup_insert_set h x)
  match xs with
  | [] => exact List.nodup_nil
  | [t] => exact List.nodup_singleton t
  | x :: y :: rest =>
    show (as_set_impl [] x (y :: rest)).Nodup
    rw [as_set_impl_eq_foldl]
    exact hfold _ _ List.nodup_nil

/-- `push_front` -/
def push_front {α : Type*} (elem : α) (ts : List α) : List α := elem :: ts

/-- `remove`: every occurrence of the type is left out. -/
def remove (elem : α) : List α → List α
  | [] => []
  | first :: ts =>
    let next := remove elem ts
    if elem = first then next else push_front first next

/-- `remove` keeps the other types. -/
theorem remove_eq_filter (elem : α) (ts : List α) : remove elem ts = ts.filter (elem ≠ ·) := by
  induction ts with
  | nil => rfl
  | cons first ts ih =>
    rw [remove, ih]
    by_cases h : elem = first <;> simp [h, push_front]

/-- `remove` makes a list shorter that has the type. -/
theorem length_remove_lt {elem : α} {ts : List α} (h : elem ∈ ts) :
    (remove elem ts).length < ts.length := by
  rw [remove_eq_filter]
  refine List.length_filter_lt_length_iff_exists.mpr ⟨elem, h, by simp⟩

end AsioPy
