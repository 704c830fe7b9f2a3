import AsioPy.RegisterExecutors

/-!
# What the executor part of the module is built from

`ExecutorModule` is the contexts, the property list, and what asio does with executors; the executor
list and the registered classes are the computed ones. Its hypotheses say that properties set
independent slots, that the contexts' executor types are unrelated, and what the documentation of
`any_io_executor` says of an empty one and of its target.

The properties do not lead out of the executor list (`prefer_result_mem`), nor from the executors of
a context to `any_io_executor` (`prefer_result_ne_any`). So an executor that a context has made
stays `Concrete` through all calls of `require` and `prefer`.
-/

namespace AsioPy

open Exchange

/-- What the module is built from. An executor is its type and a value in `γ`. -/
structure ExecutorModule (ε π γ : Type) [DecidableEq ε] where
  traits : ExecutorTraits ε π
  contexts : List (Context ε)
  any_io_executor : ε
  properties : List π
  /-- The properties set slots of the executor types. -/
  exchanges : Exchanges traits.prefer_result
  /-- Executor types of different contexts are unrelated. -/
  disjoint : DisjointFamilies traits properties (all_base_executors contexts [any_io_executor])
  /-- No property changes the type of an `any_io_executor`. -/
  any_fixed : ∀ p ∈ properties, traits.can_require any_io_executor p →
    traits.require_result any_io_executor p = any_io_executor
  /-- What `asio::require` makes of the value of an executor. -/
  required : ε → π → γ → γ
  /-- `any_io_executor::require`, on the target; nothing where it throws `bad_executor`. -/
  any_require : Option (ε × γ) → π → Option (Option (ε × γ))
  /-- `any_io_executor::prefer` -/
  any_prefer : Option (ε × γ) → π → Option (Option (ε × γ))
  any_require_none : ∀ p, any_require none p = none
  /-- The property is required of the target, if that supports it. -/
  any_require_some : ∀ e x p, any_require (some (e, x)) p =
    if traits.can_require e p then some (some (traits.require_result e p, required e p x)) else none
  any_prefer_none : ∀ p, any_prefer none p = none
  /-- The property is preferred on the target. -/
  any_prefer_some : ∀ e x p, any_prefer (some (e, x)) p =
    some (some (traits.prefer_result e p, if traits.can_require e p then required e p x else x))

namespace ExecutorModule

variable {ε π γ : Type} [DecidableEq ε] (m : ExecutorModule ε π γ)

/-- `all_base_executors` -/
def base : List ε := all_base_executors m.contexts [m.any_io_executor]

/-- `all_executors_with_strands` -/
def executors : List ε := all_executors_with_strands m.traits m.base m.properties

/-- The registered classes. -/
def classes : List ε := registered_classes m.traits m.properties m.contexts m.any_io_executor

variable {m}

/-- The executor list is what the base executors lead to. -/
theorem mem_executors {x : ε} : x ∈ m.executors ↔
    ∃ b ∈ m.base, Relation.ReflTransGen (RequireStep m.traits m.properties) b x := by
  calc x ∈ m.executors
      ↔ ∃ b ∈ m.base, x = b ∨ x ∈ apply_properties m.traits b m.properties := mem_all_executors
    _ ↔ ∃ b ∈ m.base, Chosen m.traits.prefer_result m.properties b x := by
        simp only [mem_apply_properties_iff]
    _ ↔ ∃ b ∈ m.base, Relation.ReflTransGen (RequireStep m.traits m.properties) b x := by
        simp only [chosen_iff_reachable m.exchanges, reachable_prefer_iff]

/-- A property of the list does not lead out of the executor list. -/
theorem prefer_result_mem {e : ε} {p : π} (he : e ∈ m.executors) (hp : p ∈ m.properties) :
    m.traits.prefer_result e p ∈ m.executors := by
  obtain ⟨b, hb, hreach⟩ := mem_executors.mp he
  refine mem_executors.mpr ⟨b, hb, ?_⟩
  rw [← reachable_prefer_iff] at hreach ⊢
  exact hreach.tail ⟨p, hp, rfl⟩

/-- The executor types of the contexts are unrelated to `any_io_executor`. -/
theorem any_notMem_family {c : Context ε} (hc : c ∈ m.contexts) :
    m.any_io_executor ∉ executor_family m.traits m.properties c.executor_type := by
  have hdisjoint := m.disjoint
  unfold DisjointFamilies at hdisjoint
  rw [all_base_executors_any, List.pairwise_append] at hdisjoint
  -- It is in its own family, which is the last of the list.
  have hapart := hdisjoint.2.2 c.executor_type (List.mem_map_of_mem hc) m.any_io_executor
    (List.mem_singleton_self _)
  exact fun h => hapart _ h Relation.ReflTransGen.refl

/-- An executor of the list that is not `any_io_executor` comes from a context. -/
theorem exists_context {e : ε} (he : e ∈ m.executors) (hany : e ≠ m.any_io_executor) :
    ∃ c ∈ m.contexts, e ∈ executor_family m.traits m.properties c.executor_type := by
  obtain ⟨b, hb, hreach⟩ := mem_executors.mp he
  rw [base, all_base_executors_any, List.mem_append, List.mem_map, List.mem_singleton] at hb
  rcases hb with ⟨c, hc, rfl⟩ | rfl
  · exact ⟨c, hc, hreach⟩
  · -- Nothing but itself results from an `any_io_executor`.
    exact absurd (eq_of_mem_executor_family m.any_fixed hreach) hany

/-- A property does not make an `any_io_executor` of another executor. -/
theorem prefer_result_ne_any {e : ε} {p : π} (he : e ∈ m.executors)
    (hany : e ≠ m.any_io_executor) (hp : p ∈ m.properties) :
    m.traits.prefer_result e p ≠ m.any_io_executor := by
  obtain ⟨c, hc, hfamily⟩ := exists_context he hany
  have hreach : m.traits.prefer_result e p ∈
      executor_family m.traits m.properties c.executor_type := by
    refine (reachable_prefer_iff m.traits).mp ?_
    exact ((reachable_prefer_iff m.traits).mpr hfamily).tail ⟨p, hp, rfl⟩
  exact fun h => any_notMem_family hc (h ▸ hreach)

/-- An executor that a context has made, or that was made of one by properties: of a type in the
list, and not an `any_io_executor` itself. -/
structure Concrete (m : ExecutorModule ε π γ) (e : ε) : Prop where
  mem : e ∈ m.executors
  ne_any : e ≠ m.any_io_executor

/-- Preferring a property makes concrete executors of concrete ones. -/
theorem Concrete.prefer {e : ε} {p : π} (he : m.Concrete e) (hp : p ∈ m.properties) :
    m.Concrete (m.traits.prefer_result e p) :=
  ⟨prefer_result_mem he.mem hp, prefer_result_ne_any he.mem he.ne_any hp⟩

/-- Requiring a property makes concrete executors of concrete ones. -/
theorem Concrete.require {e : ε} {p : π} (he : m.Concrete e) (hp : p ∈ m.properties)
    (hreq : m.traits.can_require e p) : m.Concrete (m.traits.require_result e p) := by
  have h := he.prefer hp
  rwa [ExecutorTraits.prefer_result, if_pos hreq] at h

end ExecutorModule

end AsioPy
