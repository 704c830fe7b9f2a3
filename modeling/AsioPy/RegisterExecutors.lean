import AsioPy.RequireClosure

/-!
# The registration of the executor classes

`register_io_context`, `register_system_context` and `register_thread_pool` each register the
executor classes of their context, from their own computation of what the properties make of the
context's `executor_type`; `declare_any_io_executor` registers one more. Everything else looks the
classes up by the list `all_executors`. `register_all_executors` says that the two agree.

A context's registration is the registration of the list `context_classes`
(`register_context_eq`), and registering a list succeeds when it has no duplicate
(`foldlM_class`), so what remains is to compare lists.
-/

namespace AsioPy

open Exchange

/-- What pybind11 throws when classes are registered and looked up. -/
inductive RegistryError (ε : Type) where
  /-- "generic_type: type is already registered!" -/
  | already_registered (e : ε)
  /-- `type::of` for a type without a class. -/
  | unregistered (e : ε)

variable {ε π : Type} [DecidableEq ε]

/-- `py::class_<E>(...)`, where the classes `classes` exist. -/
def class_ (classes : List ε) (e : ε) : Except (RegistryError ε) (List ε) :=
  if e ∈ classes then .error (.already_registered e) else .ok (classes ++ [e])

/-- `py::type::of<E>()`, where the classes `classes` exist. -/
def type_of (classes : List ε) (e : ε) : Except (RegistryError ε) Unit :=
  if e ∈ classes then .ok () else .error (.unregistered e)

/-- The executor classes of `register_io_context`, `register_system_context` and
`register_thread_pool`: `executor_type`, then each element of the derived list except it. -/
def register_context (T : ExecutorTraits ε π) (properties : List π) (classes : List ε)
    (context : Context ε) : Except (RegistryError ε) (List ε) := do
  let ioc_exec ← class_ classes context.executor_type
  (apply_properties T context.executor_type properties).foldlM
    (fun classes modified =>
      if context.executor_type ≠ modified then class_ classes modified else .ok classes)
    ioc_exec

/-- `register_executors`: the list of the `target` types is looked up. -/
def register_executors (classes executors : List ε) : Except (RegistryError ε) Unit :=
  executors.forM (type_of classes)

/-- The executor classes of `register_all`: the contexts one after the other, `any_io_executor`, and
the conversions to it. The result is what is registered at the end. -/
def register_all (T : ExecutorTraits ε π) (properties : List π) (contexts : List (Context ε))
    (any_io_executor : ε) (executors : List ε) : Except (RegistryError ε) (List ε) := do
  let classes ← contexts.foldlM (register_context T properties) []
  let classes ← class_ classes any_io_executor
  register_executors classes executors
  return classes

/-- The classes that a context's registration registers. -/
def context_classes (T : ExecutorTraits ε π) (properties : List π) (context : Context ε) : List ε :=
  context.executor_type ::
    (apply_properties T context.executor_type properties).filter (context.executor_type ≠ ·)

/-- All the classes, in the order in which `register_all` registers them. -/
def registered_classes (T : ExecutorTraits ε π) (properties : List π) (contexts : List (Context ε))
    (any_io_executor : ε) : List ε :=
  contexts.flatMap (context_classes T properties) ++ [any_io_executor]

/-- Registering a list of types without a duplicate, none of them registered, succeeds. -/
theorem foldlM_class {classes es : List ε} (h : (classes ++ es).Nodup) :
    es.foldlM class_ classes = .ok (classes ++ es) := by
  induction es generalizing classes with
  | nil => simp [pure, Except.pure]
  | cons e es ih =>
    have hnew : e ∉ classes := by
      intro he
      exact (List.disjoint_of_nodup_append h) he List.mem_cons_self
    have hrest : (classes ++ [e] ++ es).Nodup := by simpa using h
    rw [List.foldlM_cons, class_, if_neg hnew]
    show es.foldlM class_ (classes ++ [e]) = _
    rw [ih hrest, List.append_assoc, List.singleton_append]

/-- A registration that skips types is the registration of the rest. -/
theorem foldlM_skip (p : ε → Bool) (es classes : List ε) :
    es.foldlM (fun classes e => if p e then class_ classes e else .ok classes) classes =
      (es.filter p).foldlM class_ classes := by
  induction es generalizing classes with
  | nil => rfl
  | cons e es ih =>
    by_cases he : p e
    · rw [List.filter_cons_of_pos he, List.foldlM_cons, List.foldlM_cons, if_pos he]
      exact congrArg _ (funext fun classes => ih classes)
    · rw [List.filter_cons_of_neg he, List.foldlM_cons, if_neg he]
      exact ih classes

/-- A context registers its `context_classes`. -/
theorem register_context_eq (T : ExecutorTraits ε π) (properties : List π) (classes : List ε)
    (context : Context ε) :
    register_context T properties classes context =
      (context_classes T properties context).foldlM class_ classes := by
  have hskip := foldlM_skip (fun modified => decide (context.executor_type ≠ modified))
    (apply_properties T context.executor_type properties)
  simp only [decide_eq_true_eq] at hskip
  unfold register_context context_classes
  rw [List.foldlM_cons]
  exact congrArg _ (funext fun ioc_exec => hskip ioc_exec)

/-- The contexts one after the other register their classes. -/
theorem foldlM_register_context (T : ExecutorTraits ε π) (properties : List π)
    (contexts : List (Context ε)) (classes : List ε) :
    contexts.foldlM (register_context T properties) classes =
      (contexts.flatMap (context_classes T properties)).foldlM class_ classes := by
  induction contexts generalizing classes with
  | nil => rfl
  | cons c contexts ih =>
    calc (c :: contexts).foldlM (register_context T properties) classes
        = register_context T properties classes c >>= fun classes =>
            contexts.foldlM (register_context T properties) classes := List.foldlM_cons ..
      _ = (context_classes T properties c).foldlM class_ classes >>= fun classes =>
            (contexts.flatMap (context_classes T properties)).foldlM class_ classes := by
          rw [register_context_eq]
          exact congrArg _ (funext fun classes => ih classes)
      _ = ((c :: contexts).flatMap (context_classes T properties)).foldlM class_ classes := by
          rw [List.flatMap_cons, List.foldlM_append]

/-- The lookups succeed where every type has a class. -/
theorem register_executors_ok {classes executors : List ε} (h : ∀ e ∈ executors, e ∈ classes) :
    register_executors classes executors = .ok () := by
  unfold register_executors
  induction executors with
  | nil => rfl
  | cons e executors ih =>
    have he : type_of classes e = .ok () := if_pos (h e List.mem_cons_self)
    rw [List.forM_eq_forM, List.forM_cons, he]
    exact ih fun x hx => h x (List.mem_cons_of_mem e hx)

/-- The classes of a context are its executor type and what the properties make of it. -/
theorem mem_context_classes {T : ExecutorTraits ε π} {properties : List π} {c : Context ε} {x : ε} :
    x ∈ context_classes T properties c ↔
      x = c.executor_type ∨ x ∈ apply_properties T c.executor_type properties := by
  unfold context_classes
  rw [List.mem_cons, List.mem_filter, decide_eq_true_eq]
  by_cases hx : x = c.executor_type
  · -- The executor type itself is registered first, and skipped in the derived list.
    simp [hx]
  · simp [hx, Ne.symm hx]

/-- What the properties make of an executor is in its family. -/
theorem mem_executor_family {T : ExecutorTraits ε π} {properties : List π} {e x : ε}
    (h : x = e ∨ x ∈ apply_properties T e properties) : x ∈ executor_family T properties e :=
  (reachable_prefer_iff T).mp ((mem_apply_properties_iff T).mp h).reachable

/-- The derived list has no duplicate. -/
theorem nodup_apply_properties (T : ExecutorTraits ε π) (e : ε) (properties : List π) :
    (apply_properties T e properties).Nodup := by
  cases properties with
  | nil => exact List.nodup_nil
  | cons p properties => exact nodup_as_set _

/-- A context registers no class twice. -/
theorem nodup_context_classes (T : ExecutorTraits ε π) (properties : List π) (c : Context ε) :
    (context_classes T properties c).Nodup := by
  refine List.nodup_cons.mpr ⟨?_, (nodup_apply_properties T _ properties).filter _⟩
  intro h
  simpa using (List.mem_filter.mp h).2

/-- `register_all` succeeds where it registers no class twice and looks up registered classes. -/
theorem register_all_eq {T : ExecutorTraits ε π} {properties : List π} {contexts : List (Context ε)}
    {any_io_executor : ε} {executors : List ε}
    (hnodup : (registered_classes T properties contexts any_io_executor).Nodup)
    (hexecutors : ∀ e ∈ executors,
      e ∈ registered_classes T properties contexts any_io_executor) :
    register_all T properties contexts any_io_executor executors =
      .ok (registered_classes T properties contexts any_io_executor) := by
  have hlookup := register_executors_ok hexecutors
  have hcontexts := foldlM_class (show ([] ++ contexts.flatMap _).Nodup from
    (List.nodup_append.mp hnodup).1)
  have hany := foldlM_class hnodup
  unfold register_all
  rw [foldlM_register_context, hcontexts]
  rw [List.foldlM_cons] at hany
  show (do
    let classes ← class_ (contexts.flatMap (context_classes T properties)) any_io_executor
    register_executors classes executors
    return classes) = _
  have hclass : class_ (contexts.flatMap (context_classes T properties)) any_io_executor =
      .ok (registered_classes T properties contexts any_io_executor) := by
    simpa [registered_classes] using hany
  rw [hclass]
  show (do
    register_executors (registered_classes T properties contexts any_io_executor) executors
    return registered_classes T properties contexts any_io_executor) = _
  rw [hlookup]
  rfl

/-- Where the families do not meet, no class is registered twice. -/
theorem nodup_registered_classes {T : ExecutorTraits ε π} {properties : List π}
    {contexts : List (Context ε)} {any_io_executor : ε}
    (h : DisjointFamilies T properties (all_base_executors contexts [any_io_executor])) :
    (registered_classes T properties contexts any_io_executor).Nodup := by
  unfold DisjointFamilies at h
  rw [all_base_executors_any, List.pairwise_append, List.pairwise_map] at h
  obtain ⟨hcontexts, -, hlast⟩ := h
  have hfamily : ∀ c : Context ε, ∀ x ∈ context_classes T properties c,
      x ∈ executor_family T properties c.executor_type :=
    fun c x hx => mem_executor_family (mem_context_classes.mp hx)
  have hnodup : (contexts.flatMap (context_classes T properties)).Nodup := by
    rw [List.nodup_flatMap]
    refine ⟨fun c _ => nodup_context_classes T properties c, hcontexts.imp fun hcd => ?_⟩
    intro x hx hx'
    exact hcd x (hfamily _ x hx) (hfamily _ x hx')
  have hnew : any_io_executor ∉ contexts.flatMap (context_classes T properties) := by
    intro hx
    obtain ⟨c, hc, hx⟩ := List.mem_flatMap.mp hx
    have hd := hlast c.executor_type (List.mem_map_of_mem hc) any_io_executor
      (List.mem_singleton_self _)
    exact hd _ (hfamily c _ hx) Relation.ReflTransGen.refl
  unfold registered_classes
  rw [← List.concat_eq_append, List.nodup_concat]
  exact ⟨hnew, hnodup⟩

/-- The registered classes are the executors of the list. -/
theorem mem_registered_classes {T : ExecutorTraits ε π} {properties : List π}
    {contexts : List (Context ε)} {any_io_executor : ε}
    (hany : ∀ p ∈ properties, T.can_require any_io_executor p →
      T.require_result any_io_executor p = any_io_executor) (x : ε) :
    x ∈ registered_classes T properties contexts any_io_executor ↔
      x ∈ all_executors T (all_base_executors contexts [any_io_executor]) properties := by
  unfold registered_classes
  rw [all_base_executors_any, mem_all_executors, List.mem_append, List.mem_flatMap]
  simp only [List.mem_append, List.mem_map, List.mem_singleton, mem_context_classes]
  constructor
  · rintro (⟨c, hc, hx⟩ | rfl)
    · exact ⟨_, Or.inl ⟨c, hc, rfl⟩, hx⟩
    · exact ⟨x, Or.inr rfl, Or.inl rfl⟩
  · rintro ⟨e, ⟨c, hc, rfl⟩ | rfl, hx⟩
    · exact Or.inl ⟨c, hc, hx⟩
    · exact Or.inr (eq_of_mem_executor_family hany (mem_executor_family hx))

/-- **The registered classes are the executor list.** For contexts and an `any_io_executor` whose
families do not meet, where no property changes `any_io_executor`: the registrations succeed, in
whatever order the contexts come, every class is registered once, and the classes are the elements
of `all_executors`. -/
theorem register_all_executors {T : ExecutorTraits ε π} {properties : List π}
    {contexts order : List (Context ε)} {any_io_executor : ε} (horder : order.Perm contexts)
    (hdisjoint : DisjointFamilies T properties (all_base_executors contexts [any_io_executor]))
    (hany : ∀ p ∈ properties, T.can_require any_io_executor p →
      T.require_result any_io_executor p = any_io_executor) :
    ∃ classes,
      register_all T properties order any_io_executor
          (all_executors_with_strands T (all_base_executors contexts [any_io_executor])
            properties) = .ok classes ∧
      classes.Nodup ∧
      classes.Perm
        (all_executors T (all_base_executors contexts [any_io_executor]) properties) := by
  have hperm : (registered_classes T properties order any_io_executor).Perm
      (registered_classes T properties contexts any_io_executor) :=
    (horder.flatMap_right _).append_right _
  have hnodup := nodup_registered_classes hdisjoint
  have hmem : ∀ x, x ∈ registered_classes T properties contexts any_io_executor ↔
      x ∈ all_executors T (all_base_executors contexts [any_io_executor]) properties :=
    mem_registered_classes hany
  refine ⟨registered_classes T properties order any_io_executor, ?_, hperm.nodup_iff.mpr hnodup,
    hperm.trans ((List.perm_ext_iff_of_nodup hnodup (nodup_as_set _)).mpr hmem)⟩
  apply register_all_eq (hperm.nodup_iff.mpr hnodup)
  intro e he
  exact hperm.mem_iff.mpr ((hmem e).mpr he)

/-- Three families with one slot that can be required, and a fourth without. -/
def toggle_traits : ExecutorTraits (Executor (Fin 4) Unit Bool) (ExecutorProperty Unit Bool) :=
  slotTraits (fun family _ => family != 3) fun _ _ => true

/-- A context of one of the families, with its slot unset. -/
def toggle_context (family : Fin 4) : Context (Executor (Fin 4) Unit Bool) :=
  ⟨⟨family, fun _ => false⟩⟩

/-- Three contexts, registered in another order than they are listed, with a property that changes
an executor and one that changes it back. -/
theorem register_all_executors_toggle :
    ∃ classes,
      register_all toggle_traits [⟨(), true⟩, ⟨(), false⟩]
          [toggle_context 0, toggle_context 2, toggle_context 1] ⟨3, fun _ => false⟩
          (all_executors_with_strands toggle_traits
            (all_base_executors [toggle_context 0, toggle_context 1, toggle_context 2]
              [⟨3, fun _ => false⟩]) [⟨(), true⟩, ⟨(), false⟩]) = .ok classes ∧
      classes.Nodup ∧
      classes.Perm
        (all_executors toggle_traits
          (all_base_executors [toggle_context 0, toggle_context 1, toggle_context 2]
            [⟨3, fun _ => false⟩]) [⟨(), true⟩, ⟨(), false⟩]) :=
  register_all_executors (by decide) (disjointFamilies_of_nodup (by decide)) (by decide)

end AsioPy
