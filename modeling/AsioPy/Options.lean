import AsioPy.Helper

/-!
# The computed executor lists

`helpers/options.hpp` computes which executor types the module is built for: those of the contexts,
those in the list `executors`, and what requiring the listed properties makes of them. Executor and
property types are the elements of `ε` and `π`; what asio says about them is `ExecutorTraits`.
`register_require` and `register_prefer` define an overload for every executor of a list and every
property that applies to it.
-/

namespace AsioPy

/-- What asio says about the executor types `ε` and the property types `π`. -/
structure ExecutorTraits (ε π : Type*) where
  /-- `asio::can_require` -/
  can_require : ε → π → Bool
  /-- `asio::require_result` -/
  require_result : ε → π → ε
  /-- `asio::can_prefer` -/
  can_prefer : ε → π → Bool

variable {ε π : Type*}

/-- The result type of `asio::prefer`: that of `require` where the executor has it, else the
executor's own. -/
def ExecutorTraits.prefer_result (T : ExecutorTraits ε π) (e : ε) (p : π) : ε :=
  if T.can_require e p then T.require_result e p else e

/-- An execution context, of which only the executor type matters here. -/
structure Context (ε : Type*) where
  executor_type : ε
  deriving DecidableEq, Repr

/-- `context_executors` -/
def context_executors (contexts : List (Context ε)) : List ε :=
  contexts.map Context.executor_type

/-- `all_base_executors_t` -/
def all_base_executors (contexts : List (Context ε)) (executors : List ε) : List ε :=
  tuple_cat [context_executors contexts, executors]

/-- The base executors of the contexts and `any_io_executor`, one by one. -/
theorem all_base_executors_any (contexts : List (Context ε)) (any_io_executor : ε) :
    all_base_executors contexts [any_io_executor] =
      contexts.map Context.executor_type ++ [any_io_executor] := by
  simp [all_base_executors, tuple_cat, context_executors]

/-- An overload of a module function: its two parameter types and its result type. -/
structure Overload (ε π : Type*) where
  exec : ε
  prop : π
  result : ε

/-- `register_require` -/
def register_require (T : ExecutorTraits ε π) (executors : List ε) (properties : List π) :
    List (Overload ε π) :=
  executors.flatMap fun exec => properties.filterMap fun prop =>
    if T.can_require exec prop then some ⟨exec, prop, T.require_result exec prop⟩ else none

/-- `register_prefer` -/
def register_prefer (T : ExecutorTraits ε π) (executors : List ε) (properties : List π) :
    List (Overload ε π) :=
  executors.flatMap fun exec => properties.filterMap fun prop =>
    if T.can_prefer exec prop then some ⟨exec, prop, T.prefer_result exec prop⟩ else none

/-- An overload of `require` is one of an executor and a property of the lists. -/
theorem mem_register_require {T : ExecutorTraits ε π} {executors : List ε} {properties : List π}
    {o : Overload ε π} (h : o ∈ register_require T executors properties) :
    o.exec ∈ executors ∧ o.prop ∈ properties ∧ T.can_require o.exec o.prop ∧
      o.result = T.require_result o.exec o.prop := by
  obtain ⟨e, he, h⟩ := List.mem_flatMap.mp h
  obtain ⟨p, hp, h⟩ := List.mem_filterMap.mp h
  split at h
  · next hreq =>
    obtain rfl := Option.some.inj h
    exact ⟨he, hp, hreq, rfl⟩
  · cases h

/-- An overload of `prefer` is one of an executor and a property of the lists. -/
theorem mem_register_prefer {T : ExecutorTraits ε π} {executors : List ε} {properties : List π}
    {o : Overload ε π} (h : o ∈ register_prefer T executors properties) :
    o.exec ∈ executors ∧ o.prop ∈ properties ∧ o.result = T.prefer_result o.exec o.prop := by
  obtain ⟨e, he, h⟩ := List.mem_flatMap.mp h
  obtain ⟨p, hp, h⟩ := List.mem_filterMap.mp h
  split at h
  · obtain rfl := Option.some.inj h
    exact ⟨he, hp, rfl⟩
  · cases h

variable [DecidableEq ε]

/-- `apply_properties`: what requiring the properties makes of an executor. A property that changes
the executor type is followed by the later properties on the new type; in any case the later
properties are applied to the executor without it. -/
def apply_properties (T : ExecutorTraits ε π) (e : ε) : List π → List ε
  | [] => []
  | first :: properties =>
    let mine := if T.can_require e first then T.require_result e first else e
    let is_modified := !decide (mine = e)
    let other_type := if is_modified then [mine] else []
    let cascade := if is_modified then apply_properties T mine properties else []
    let next := apply_properties T e properties
    as_set (tuple_cat [other_type, cascade, next])

/-- What one property adds: where it changes the executor, the changed one and what the later
properties make of that. -/
theorem mem_apply_properties_cons {T : ExecutorTraits ε π} {e x : ε} {p : π} {ps : List π} :
    x ∈ apply_properties T e (p :: ps) ↔
      (T.prefer_result e p ≠ e ∧
        (x = T.prefer_result e p ∨ x ∈ apply_properties T (T.prefer_result e p) ps)) ∨
      x ∈ apply_properties T e ps := by
  rw [apply_properties]
  -- `mine` is the result type of `prefer`.
  show x ∈ as_set (tuple_cat [
    if !decide (T.prefer_result e p = e) then [T.prefer_result e p] else [],
    if !decide (T.prefer_result e p = e) then apply_properties T (T.prefer_result e p) ps else [],
    apply_properties T e ps]) ↔ _
  rw [mem_as_set]
  by_cases h : T.prefer_result e p = e
  · simp [tuple_cat, h]
  · simp [tuple_cat, h, or_assoc]

/-- `apply_properties_multiple` -/
def apply_properties_multiple (T : ExecutorTraits ε π) (execs : List ε) (properties : List π) :
    List ε :=
  tuple_cat (execs.map fun e => apply_properties T e properties)

/-- `all_executors`: the base executors and what the properties make of them, each once. -/
def all_executors (T : ExecutorTraits ε π) (base : List ε) (properties : List π) : List ε :=
  as_set (tuple_cat [base, apply_properties_multiple T base properties])

/-- `all_executors_with_strands`: the source computes it by the same expression. -/
def all_executors_with_strands (T : ExecutorTraits ε π) (base : List ε) (properties : List π) :
    List ε :=
  as_set (tuple_cat [base, apply_properties_multiple T base properties])

/-- An executor is in the list if it is a base executor or made of one. -/
theorem mem_all_executors {T : ExecutorTraits ε π} {base : List ε} {properties : List π} {x : ε} :
    x ∈ all_executors T base properties ↔
      ∃ e ∈ base, x = e ∨ x ∈ apply_properties T e properties := by
  unfold all_executors apply_properties_multiple
  simp only [mem_as_set, tuple_cat_eq_flatten, List.flatten_cons, List.flatten_nil,
    List.append_nil, List.mem_append, List.mem_flatten, List.mem_map]
  constructor
  · rintro (h | ⟨l, ⟨e, he, rfl⟩, hx⟩)
    · exact ⟨x, h, Or.inl rfl⟩
    · exact ⟨e, he, Or.inr hx⟩
  · rintro ⟨e, he, rfl | hx⟩
    · exact Or.inl he
    · exact Or.inr ⟨_, ⟨e, he, rfl⟩, hx⟩

end AsioPy
