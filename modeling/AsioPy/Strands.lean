import AsioPy.RegisterExecutors
import Mathlib.Data.Finset.Max

/-!
# The list with strands

`register_strand` makes a class `asio::strand<E>` for every executor of `all_executors`, and
`register_all` then goes over `all_executors_with_strands` to define `prefer`, `query` and
`require`, and the conversions to `any_io_executor`. `options.hpp` has `add_strand` for that list
and does not use it: the list is `all_executors` once more. `strands_covered_iff` says when the list
does what it is there for, and `strands_covered_by_add_strand` that it would with `add_strand`.
-/

namespace AsioPy

/-- An executor type: an instance of `asio::strand`, or another type. -/
inductive ExecutorType (α : Type) where
  | executor (e : α)
  /-- `asio::strand<Executor>` -/
  | strand (Executor : ExecutorType α)
  deriving DecidableEq, Repr

variable {α π : Type}

/-- `add_strand` -/
def add_strand (Args : List (ExecutorType α)) : List (ExecutorType α) :=
  Args.map .strand

/-- `register_query`: the parameter types of the overloads. -/
def register_query {ε : Type} (can_query : ε → π → Bool) (executors : List ε)
    (properties : List π) : List (ε × π) :=
  executors.flatMap fun exec => properties.filterMap fun prop =>
    if can_query exec prop then some (exec, prop) else none

/-- What `register_executors` makes implicitly convertible to `any_io_executor`. -/
def implicitly_convertible {ε : Type} (executors : List ε) : List ε := executors

/-- `register_strand_impl`: the class of the strand, and the lookup of `inner_executor_type`. -/
def register_strand_impl [DecidableEq α] (classes : List (ExecutorType α)) (e : ExecutorType α) :
    Except (RegistryError (ExecutorType α)) (List (ExecutorType α)) :=
  match class_ classes (.strand e) with
  | .error x => .error x
  | .ok classes =>
    match type_of classes e with
    | .error x => .error x
    | .ok () => .ok classes

/-- `register_strand`, for every executor of the list. -/
def register_strand [DecidableEq α] (classes executors : List (ExecutorType α)) :
    Except (RegistryError (ExecutorType α)) (List (ExecutorType α)) :=
  executors.foldlM register_strand_impl classes

/-- What goes over `all_executors_with_strands` takes in the executor type: it is convertible, and
has every overload of `query`, `require` and `prefer` that asio has for it. -/
structure Covered (T : ExecutorTraits (ExecutorType α) π)
    (can_query : ExecutorType α → π → Bool) (properties : List π)
    (executors : List (ExecutorType α)) (e : ExecutorType α) : Prop where
  convertible : e ∈ implicitly_convertible executors
  query : ∀ p ∈ properties, can_query e p → (e, p) ∈ register_query can_query executors properties
  require : ∀ p ∈ properties, T.can_require e p →
    ∃ o ∈ register_require T executors properties, o.exec = e ∧ o.prop = p
  prefer : ∀ p ∈ properties, T.can_prefer e p →
    ∃ o ∈ register_prefer T executors properties, o.exec = e ∧ o.prop = p

/-- An executor type of the list is covered. -/
theorem covered_of_mem {T : ExecutorTraits (ExecutorType α) π}
    {can_query : ExecutorType α → π → Bool} {properties : List π}
    {executors : List (ExecutorType α)} {e : ExecutorType α} (he : e ∈ executors) :
    Covered T can_query properties executors e where
  convertible := he
  query p hp hq := List.mem_flatMap.mpr ⟨e, he, List.mem_filterMap.mpr ⟨p, hp, if_pos hq⟩⟩
  require p hp hq :=
    ⟨_, List.mem_flatMap.mpr ⟨e, he, List.mem_filterMap.mpr ⟨p, hp, if_pos hq⟩⟩, rfl, rfl⟩
  prefer p hp hq :=
    ⟨_, List.mem_flatMap.mpr ⟨e, he, List.mem_filterMap.mpr ⟨p, hp, if_pos hq⟩⟩, rfl, rfl⟩

/-- How many strands are around one another. -/
def ExecutorType.depth : ExecutorType α → ℕ
  | .executor _ => 0
  | .strand Executor => Executor.depth + 1

variable [DecidableEq α]

/-- What the list with strands is for: it has, once each, the executors and their strands, and
covers every strand class that `register_strand` makes for the executors. -/
structure StrandsCovered (T : ExecutorTraits (ExecutorType α) π)
    (can_query : ExecutorType α → π → Bool) (properties : List π)
    (all with_strands : List (ExecutorType α)) : Prop where
  nodup : with_strands.Nodup
  executors : ∀ e ∈ all, e ∈ with_strands
  strands : ∀ e ∈ all, .strand e ∈ with_strands
  covered : ∀ classes classes', register_strand classes all = .ok classes' →
    ∀ s ∈ classes', s ∉ classes → Covered T can_query properties with_strands s

/-- The class that `register_strand_impl` makes is the strand. -/
theorem register_strand_impl_eq {classes classes' : List (ExecutorType α)} {e : ExecutorType α}
    (h : register_strand_impl classes e = .ok classes') : classes' = classes ++ [.strand e] := by
  unfold register_strand_impl class_ at h
  split_ifs at h
  split at h
  · cases h
  · next hclass =>
    obtain rfl := Except.ok.inj hclass
    split at h
    · cases h
    · exact (Except.ok.inj h).symm

/-- The classes that `register_strand` makes are the strands. -/
theorem register_strand_eq {classes classes' executors : List (ExecutorType α)}
    (h : register_strand classes executors = .ok classes') :
    classes' = classes ++ add_strand executors := by
  unfold register_strand at h
  induction executors generalizing classes with
  | nil =>
    obtain rfl := Except.ok.inj h
    simp [add_strand]
  | cons e executors ih =>
    rw [List.foldlM_cons] at h
    rcases hclass : register_strand_impl classes e with x | classes1
    · rw [hclass] at h
      cases h
    · rw [hclass] at h
      rw [ih h, register_strand_impl_eq hclass]
      simp [add_strand]

/-- A list without duplicates that has the executors and their strands does what it is for. -/
theorem strandsCovered_of_mem {T : ExecutorTraits (ExecutorType α) π}
    {can_query : ExecutorType α → π → Bool} {properties : List π}
    {all with_strands : List (ExecutorType α)} (hnodup : with_strands.Nodup)
    (hall : ∀ e ∈ all, e ∈ with_strands) (hstrand : ∀ e ∈ all, .strand e ∈ with_strands) :
    StrandsCovered T can_query properties all with_strands where
  nodup := hnodup
  executors := hall
  strands := hstrand
  covered classes classes' h s hs hnew := by
    rw [register_strand_eq h, List.mem_append] at hs
    obtain ⟨e, he, rfl⟩ := List.mem_map.mp (hs.resolve_left hnew)
    exact covered_of_mem (hstrand e he)

/-- No list but the empty one has the strands of its executors: a strand of the deepest is
deeper. -/
theorem eq_nil_of_strand_mem {executors : List (ExecutorType α)}
    (h : ∀ e ∈ executors, .strand e ∈ executors) : executors = [] := by
  by_contra hne
  obtain ⟨e, he, hmax⟩ := executors.toFinset.exists_max_image ExecutorType.depth
    (by simpa using hne)
  have hstrand := hmax (.strand e) (by simpa using h e (by simpa using he))
  have hdeeper : (ExecutorType.strand e).depth = e.depth + 1 := rfl
  omega

/-- **When the list with strands contains the strands.** For all contexts, executors and properties:
`all_executors_with_strands` has every executor and its strand, and every strand class is covered,
exactly if there are neither contexts nor executors. -/
theorem strands_covered_iff (T : ExecutorTraits (ExecutorType α) π)
    (can_query : ExecutorType α → π → Bool) (contexts : List (Context (ExecutorType α)))
    (executors : List (ExecutorType α)) (properties : List π) :
    StrandsCovered T can_query properties
        (all_executors T (all_base_executors contexts executors) properties)
        (all_executors_with_strands T (all_base_executors contexts executors) properties) ↔
      contexts = [] ∧ executors = [] := by
  constructor
  · intro h
    have hnil := eq_nil_of_strand_mem h.strands
    have hbase : ∀ e, e ∉ all_base_executors contexts executors := by
      intro e he
      have hmem : e ∈ all_executors T (all_base_executors contexts executors) properties :=
        mem_all_executors.mpr ⟨e, he, Or.inl rfl⟩
      rw [hnil] at hmem
      cases hmem
    have hempty := List.eq_nil_iff_forall_not_mem.mpr hbase
    simpa [all_base_executors, tuple_cat, context_executors] using hempty
  · rintro ⟨rfl, rfl⟩
    have hnil : all_executors T (all_base_executors [] []) properties = [] := by
      refine List.eq_nil_iff_forall_not_mem.mpr fun x hx => ?_
      obtain ⟨e, he, -⟩ := mem_all_executors.mp hx
      simp [all_base_executors, tuple_cat, context_executors] at he
    rw [hnil]
    exact strandsCovered_of_mem (nodup_as_set _) (by simp) (by simp)

/-- One context, and a property list that changes nothing: the strand of the context's executor is
not convertible to `any_io_executor`. -/
theorem strands_not_covered_io_context :
    ¬ ∀ (T : ExecutorTraits (ExecutorType ℕ) ℕ) (can_query : ExecutorType ℕ → ℕ → Bool)
        (contexts : List (Context (ExecutorType ℕ))) (executors : List (ExecutorType ℕ))
        (properties : List ℕ),
      StrandsCovered T can_query properties
        (all_executors T (all_base_executors contexts executors) properties)
        (all_executors_with_strands T (all_base_executors contexts executors) properties) := by
  intro h
  have hstrands := (h ⟨fun _ _ => false, fun e _ => e, fun _ _ => false⟩ (fun _ _ => false)
    [⟨.executor 0⟩] [.executor 1] []).strands (.executor 0) (by decide)
  revert hstrands
  decide

/-- **With `add_strand` the list would be as intended**: freed of duplicates, the executors and
their strands. -/
theorem strands_covered_by_add_strand (T : ExecutorTraits (ExecutorType α) π)
    (can_query : ExecutorType α → π → Bool) (base : List (ExecutorType α)) (properties : List π) :
    StrandsCovered T can_query properties (all_executors T base properties)
      (as_set (tuple_cat [all_executors T base properties,
        add_strand (all_executors T base properties)])) := by
  refine strandsCovered_of_mem (nodup_as_set _) (fun e he => ?_) fun e he => ?_
  · exact mem_as_set.mpr (List.mem_append_left _ he)
  · exact mem_as_set.mpr (List.mem_append_right _ (List.mem_map_of_mem he))

end AsioPy
